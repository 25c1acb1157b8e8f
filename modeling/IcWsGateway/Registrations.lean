/-
# Registrations

What the senders stored in the gateway state say about the sessions. A stored
sender belongs to a session that was inserted there under that key, has
reported `Setup` and has not ended (`no_ghost_registrations`), whatever the
keys are. What a session finds when it closes depends on whether the entry
still is the poller state it joined (`closing_session_finds_itself`), and
whether its sender stays stored on the keys of the others
(`session_isolation`).

Key definitions: `joined`, `reportsSetup`, `FindsItself`, `Isolated`.
Key theorems: `joined_of_stored`, `no_ghost_registrations`,
`closing_session_finds_itself`, `session_isolation`.
-/
import IcWsGateway.Lifecycle

namespace IcWsGateway

variable {cfg : Config} {w w' : World} {h : List (World × Event)}

/-! ### Where a session was inserted -/

/-- The poller state into which a client of `c` is inserted now. -/
def GatewayState.target (g : GatewayState) (c : CanisterPrincipal) : PollerRef :=
  (g.data.lookup c).getD g.nextRef

/-- The poller state into which the event inserts session `i`. -/
def insertedIn (i : ClientId) : World × Event → Option PollerRef
  | (w, .commit j) =>
    if j = i then
      match (w.handlers i).phase with
      | .setup _ c _ _ => some (w.gateway.target c)
      | _ => none
    else none
  | _ => none

/-- The poller state into which session `i` was inserted. -/
def joined (h : List (World × Event)) (i : ClientId) : Option PollerRef :=
  h.findSome? (insertedIn i)

theorem joined_snoc (h : List (World × Event)) (x : World × Event) (i : ClientId) :
    joined (h ++ [x]) i = (joined h i).or (insertedIn i x) := by
  unfold joined
  rw [List.findSome?_append]
  congr 1
  simp only [List.findSome?_cons, List.findSome?_nil]
  cases insertedIn i x <;> rfl

/-- After an insert one more sender is stored. -/
theorem insert_clients (g : GatewayState) (c : CanisterPrincipal) (k : ClientKey) (tx : Sender)
    {r : PollerRef} {k' : ClientKey} {x : ClientSender}
    (h : ((g.insertClientChannelAndGetNewPollerState c k tx).1.clients r).lookup k' = some x) :
    (g.clients r).lookup k' = some x ∨ r = g.target c ∧ k' = k ∧ x = ⟨tx⟩ := by
  unfold GatewayState.insertClientChannelAndGetNewPollerState at h
  rcases he : g.data.lookup c with _ | r'
  · simp only [he, Function.update_apply] at h
    have ht : g.target c = g.nextRef := by simp [GatewayState.target, he]
    split_ifs at h with hr
    · rw [FiniteMap.lookup_insert_eq] at h
      split_ifs at h with hk
      · cases h
        exact Or.inr ⟨by rw [ht]; exact hr, hk, rfl⟩
      · rw [FiniteMap.lookup_empty] at h
        cases h
    · exact Or.inl h
  · simp only [he, GatewayState.setClients, Function.update_apply] at h
    have ht : g.target c = r' := by simp [GatewayState.target, he]
    split_ifs at h with hr
    · rw [FiniteMap.lookup_insert_eq] at h
      split_ifs at h with hk
      · cases h
        exact Or.inr ⟨by rw [ht]; exact hr, hk, rfl⟩
      · exact Or.inl (by rw [hr]; exact h)
    · exact Or.inl h

theorem struck_clients (g : GatewayState) (c : CanisterPrincipal) (k k' : ClientKey) (r : PollerRef) :
    ((g.struck c k).clients r).lookup k' =
      if g.data.lookup c = some r ∧ k' = k then none else (g.clients r).lookup k' := by
  unfold GatewayState.struck GatewayState.removeKey
  rcases g.data.lookup c with _ | r'
  · simp
  · dsimp only
    rcases hl : (g.clients r').lookup k with _ | x
    · simp only [Option.getD_none]
      split_ifs with h
      · obtain ⟨h1, rfl⟩ := h
        cases h1
        exact hl
      · rfl
    · simp only [Option.getD_some, GatewayState.setClients, Function.update_apply, Option.some.injEq]
      by_cases hr : r = r'
      · subst hr
        simp [FiniteMap.lookup_erase_eq]
      · simp [hr, Ne.symm hr]

@[simp] theorem dropToken_clients (g : GatewayState) (t : Option PollerRef) :
    (g.dropToken t).clients = g.clients := by
  cases t <;> rfl

/-- **Only an insert stores a sender.** -/
theorem stored_cases {e : Event} (he : step cfg w e = some w') {r : PollerRef} {k : ClientKey}
    {x : ClientSender} (hx : (w'.gateway.clients r).lookup k = some x) :
    (w.gateway.clients r).lookup k = some x ∨
      ∃ i m c, e = .commit i ∧ (w.handlers i).phase = .setup m c k x.sender ∧ r = w.gateway.target c := by
  have hg := step_gateway he
  generalize w'.gateway = g at hg hx
  cases hg with
  | other => exact Or.inl hx
  | @insert i m c k' tx phase free =>
    obtain hx | ⟨rfl, rfl, rfl⟩ := insert_clients w.gateway c k' tx hx
    · exact Or.inl hx
    · exact Or.inr ⟨i, m, c, rfl, phase, rfl⟩
  | rollback phase free =>
    rw [dropToken_clients, struck_clients] at hx
    split_ifs at hx
    exact Or.inl hx
  | remove phase free =>
    rw [struck_clients] at hx
    split_ifs at hx
    exact Or.inl hx
  | relayOpenPanic => exact Or.inl (by simpa using hx)
  | noncePanic | terminate | fail | failPanic | stop => exact Or.inl hx

/-- What the insert does: the handler goes on with the token, and is a member. -/
theorem commit_setup {i : ClientId} {m : Message} {c : CanisterPrincipal} {k : ClientKey} {tx : Sender}
    (hw : Sound w) (hph : (w.handlers i).phase = .setup m c k tx) (he : step cfg w (.commit i) = some w') :
    tx = i ∧ w'.gateway = (w.gateway.insertClientChannelAndGetNewPollerState c k tx).1 ∧
      (w'.handlers i).phase =
        .relayingOpen m c k (w.gateway.insertClientChannelAndGetNewPollerState c k tx).2 ∧
      w'.registry.seat i = .member c k := by
  have hwf := hw.wf i
  replace hwf := hwf.setup hph
  obtain ⟨rfl, hk, -⟩ := hwf
  simp only [step, World.commit, hph] at he
  split_ifs at he
  cases he
  refine ⟨rfl, rfl, by simp, ?_⟩
  refine seat_of_keyed (hk.of_eq ?_ ?_ ?_ ?_) ?_ <;> simp [Phase.inside]

/-- Nobody comes back from a registry to where it was before it joined. -/
theorem outside_before {e : Event} (hw : Sound w) (he : step cfg w e = some w') {i : ClientId}
    (hs : w'.registry.seat i = .outside) : w.registry.seat i = .outside ∧ insertedIn i (w, e) = none := by
  constructor
  · rcases step_refines hw he with hr | ⟨a, ha⟩
    · rw [← hr]
      exact hs
    · exact ha.outside hs
  · cases e with
    | commit j =>
      by_cases hj : j = i
      · subst hj
        simp only [insertedIn, if_true]
        split
        · rename_i m c k tx hph
          rw [(commit_setup hw hph he).2.2.2] at hs
          cases hs
        · rfl
      · simp [insertedIn, hj]
    | _ => rfl

/-- Each session is inserted once, and is stored only where it was inserted. -/
theorem joined_inv (hr : Runs cfg h w) (i : ClientId) :
    (w.registry.seat i = .outside → joined h i = none) ∧
      ∀ r k, (w.gateway.clients r).lookup k = some ⟨i⟩ → joined h i = some r := by
  induction hr with
  | nil =>
    refine ⟨fun _ => rfl, fun r k hk => ?_⟩
    have hk' : (∅ : Clients).lookup k = some ⟨i⟩ := hk
    rw [FiniteMap.lookup_empty] at hk'
    cases hk'
  | @snoc h t t' e hr he ih =>
    have hs := reachable hr
    rw [joined_snoc]
    refine ⟨fun ho => ?_, fun r k hk => ?_⟩
    · obtain ⟨h1, h2⟩ := outside_before hs he ho
      rw [ih.1 h1, h2]
      rfl
    · obtain hk | ⟨j, m, c, rfl, hph, rfl⟩ := stored_cases he hk
      · rw [ih.2 r k hk]
        rfl
      · obtain ⟨rfl, -⟩ := commit_setup hs hph he
        have hout : t.registry.seat i = .outside := by simp [World.registry, Handler.seat, hph]
        rw [ih.1 hout]
        simp [insertedIn, hph]

theorem joined_of_stored (hr : Runs cfg h w) {i : ClientId} {r : PollerRef} {k : ClientKey}
    (hk : (w.gateway.clients r).lookup k = some ⟨i⟩) : joined h i = some r :=
  (joined_inv hr i).2 r k hk

/-! ### No ghosts -/

/-- In this event `try_update_state` of session `i` returns `Setup`. -/
def reportsSetup (i : ClientId) : World × Event → Prop
  | (w, .update j io) => j = i ∧ ∃ u s out m, (w.handlers i).phase = .updating u ∧
      (w.handlers i).session.tryUpdateState u io = (s, out, .ok (some (.setup m)))
  | _ => False

theorem HandlerStep.tx_taken {i : ClientId} {h h' : Handler} {e : Event} (hs : HandlerStep w i h e h')
    (hw : h.Wf i) (htx : h'.clientChannelTx = none) (hh : w.handlers i = h) :
    h.clientChannelTx = none ∨ reportsSetup i (w, e) := by
  cases hs with
  | @update u io s out r phase updated =>
    subst hh
    replace hw := hw.updating phase
    rcases hw with ⟨hf, -⟩ | ⟨c, k, hk, -⟩
    · obtain ⟨m, k, c, -, -, -, rfl, -⟩ | ⟨-, r', hd⟩ := update_fresh hf updated
      · exact Or.inr ⟨rfl, u, s, out, m, phase, updated⟩
      · rw [hd] at htx
        exact Or.inl htx
    · exact Or.inl hk.tx
  | _ => exact Or.inl htx

/-- A session whose sender has been taken has reported `Setup`. -/
theorem reported (hr : Runs cfg h w) {i : ClientId} (htx : (w.handlers i).clientChannelTx = none) :
    ∃ x ∈ h, reportsSetup i x := by
  induction hr with
  | nil => cases htx
  | @snoc h t t' e hr he ih =>
    obtain htx' | hrep := (step_handler he i).tx_taken ((reachable hr).wf i) htx rfl
    · obtain ⟨x, hx, hrep⟩ := ih htx'
      exact ⟨x, List.mem_append_left _ hx, hrep⟩
    · exact ⟨(t, e), by simp, hrep⟩

/-- A sender stored at the entry of a canister is that of a member. -/
theorem Sound.stored_seat (hw : Sound w) {c : CanisterPrincipal} {r : PollerRef} {k : ClientKey}
    {x : ClientSender} (he : w.gateway.data.lookup c = some r)
    (hx : (w.gateway.clients r).lookup k = some x) : w.registry.seat x.sender = .member c k := by
  obtain ⟨life, ho, hro⟩ := hw.lives
  exact hro.entry_seat ho he (by simp [World.registry, hx])

theorem seat_not_ended {h : Handler} {c : CanisterPrincipal} {k : ClientKey} (hs : h.seat = .member c k)
    (r : TaskResult) : h.phase ≠ .ended r := by
  intro hph
  simp [Handler.seat, hph] at hs

/-- **No ghost registrations.** Whatever the keys are: a sender stored in the
gateway state belongs to a session that has reported `Setup` and has not ended;
once a session has ended, on whichever path, none of its senders is left; and
once all sessions of a canister have ended, its poller state is empty and the
next emptiness check succeeds. -/
theorem no_ghost_registrations (hr : Runs cfg h w) :
    (∀ c r k x, w.gateway.data.lookup c = some r → (w.gateway.clients r).lookup k = some x →
      (∃ y ∈ h, reportsSetup x.sender y) ∧ ∀ res, (w.handlers x.sender).phase ≠ .ended res) ∧
    (∀ i res, (w.handlers i).phase = .ended res →
      ∀ c r k, w.gateway.data.lookup c = some r → (w.gateway.clients r).lookup k ≠ some ⟨i⟩) ∧
    (∀ c r, w.gateway.data.lookup c = some r →
      (∀ i, (w.handlers i).session.canisterId = some c → ∃ res, (w.handlers i).phase = .ended res) →
      w.gateway.clients r = ∅ ∧ (w.gateway.removeCanisterIfEmpty c).2 = .empty) := by
  have hw := reachable hr
  have halive : ∀ c r k x, w.gateway.data.lookup c = some r → (w.gateway.clients r).lookup k = some x →
      ∀ res, (w.handlers x.sender).phase ≠ .ended res := fun c r k x he hx =>
    seat_not_ended (hw.stored_seat he hx)
  refine ⟨fun c r k x he hx => ⟨reported hr (seat_keys (hw.stored_seat he hx)).2.2, halive c r k x he hx⟩,
    fun i res hres c r k he hk => halive c r k _ he hk res hres, fun c r he hall => ?_⟩
  have hempty : w.gateway.clients r = ∅ := by
    refine (FiniteMap.eq_empty_iff _).mpr fun k => ?_
    rcases hx : (w.gateway.clients r).lookup k with _ | x
    · rfl
    · obtain ⟨res, hres⟩ := hall x.sender (seat_keys (hw.stored_seat he hx)).1
      exact absurd hres (halive c r k x he hx res)
  exact ⟨hempty, removeCanisterIfEmpty_empty.mpr ⟨r, he, hempty⟩⟩

/-- A client comes and goes. -/
def comesAndGoes (c : CanisterPrincipal) (k : ClientKey) : List Event :=
  opens 0 (wsOpen c k) ++ closes 0 ++ [.wsClosed 0]

set_option maxRecDepth 20000 in
/-- A client has come and gone: no poller state at an entry stores its sender. -/
theorem no_ghost_registrations_gone :
    ((World.after .simple (comesAndGoes [9] ⟨[1], 1⟩)).gateway.clients 0).lookup ⟨[1], 1⟩ ≠
      some ⟨0⟩ := by
  have hr : Runs .simple _ (World.after .simple (comesAndGoes [9] ⟨[1], 1⟩)) := runs_after (by decide)
  have hend : ((World.after .simple (comesAndGoes [9] ⟨[1], 1⟩)).handlers 0).phase =
      .ended (.returned (.ok ())) := by decide
  have he : (World.after .simple (comesAndGoes [9] ⟨[1], 1⟩)).gateway.data.lookup [9] = some 0 := by
    decide
  exact (no_ghost_registrations hr).2.1 0 _ hend [9] 0 _ he

/-! ### What a closing session finds -/

/-- The canister has no entry, or its poller state has the client key. -/
def World.FindsItself (w : World) (c : CanisterPrincipal) (k : ClientKey) : Prop :=
  ∀ r, w.gateway.data.lookup c = some r → (w.gateway.clients r).lookup k ≠ none

/-- The canister has no entry, or still the poller state that session `i` joined. -/
def EntryJoined (h : List (World × Event)) (w : World) (i : ClientId) (c : CanisterPrincipal) : Prop :=
  ∀ r, w.gateway.data.lookup c = some r → joined h i = some r

theorem removeClient_isOk (g : GatewayState) (c : CanisterPrincipal) (k : ClientKey) :
    (∃ g', g.removeClient c k = .ok g') ↔
      ∀ r, g.data.lookup c = some r → (g.clients r).lookup k ≠ none := by
  unfold GatewayState.removeClient GatewayState.removeKey
  rcases g.data.lookup c with _ | r
  · simp
  · rcases hl : (g.clients r).lookup k with _ | x <;> simp [hl]

/-- With distinct keys a member is stored where it joined. -/
theorem stored_where_joined (hr : Runs cfg h w) (hd : DistinctKeys w) {i : ClientId}
    {c : CanisterPrincipal} {k : ClientKey} (hs : w.registry.seat i = .member c k) :
    ∃ r, joined h i = some r ∧ (w.gateway.clients r).lookup k = some ⟨i⟩ := by
  obtain ⟨life, -, -, hse⟩ := seated hr hd
  obtain ⟨r, hm, -⟩ := hse i c k hs
  simp only [World.registry, Option.map_eq_some_iff] at hm
  obtain ⟨⟨x⟩, hx, rfl⟩ := hm
  exact ⟨r, joined_of_stored hr hx, hx⟩

theorem findsItself_iff (hr : Runs cfg h w) (hd : DistinctKeys w) {i : ClientId} {c : CanisterPrincipal}
    {k : ClientKey} (hs : w.registry.seat i = .member c k) :
    w.FindsItself c k ↔ EntryJoined h w i c := by
  obtain ⟨r₀, hj, hk⟩ := stored_where_joined hr hd hs
  constructor
  · intro hf r he
    rcases hx : (w.gateway.clients r).lookup k with _ | ⟨⟨x⟩⟩
    · exact absurd hx (hf r he)
    · have hsx := (reachable hr).stored_seat he hx
      obtain rfl : x = i := hd.distinct x i c k hsx hs
      exact joined_of_stored hr hx
  · intro hj' r he
    have := hj' r he
    rw [hj, Option.some.injEq] at this
    subst this
    rw [hk]
    nofun

/-- The session is about to call `remove_client`. -/
def Phase.Removing (ph : Phase) (c : CanisterPrincipal) (k : ClientKey) : Prop :=
  ph = .closed c k ∨ ∃ e t, ph = .rollback e c k t

/-- The commit of the arm `Closed`: the handler goes on to call `ws_close`, or panics. -/
theorem commit_closed {i : ClientId} {c : CanisterPrincipal} {k : ClientKey}
    (hph : (w.handlers i).phase = .closed c k) (he : step cfg w (.commit i) = some w') :
    (w'.handlers i).phase = match w.gateway.removeClient c k with
      | .ok _ => .closing c k (.ok ())
      | .error m => .ended (.panicked m) := by
  simp only [step, World.commit, hph, World.removeClient] at he
  split_ifs at he
  cases he
  rcases w.gateway.removeClient c k with m | g <;> simp

/-- The commit of the cleanup after a failed relay: the handler returns the error, or panics. -/
theorem commit_rollback {i : ClientId} {c : CanisterPrincipal} {k : ClientKey} {e : IcWsError}
    {t : Option PollerRef} (hph : (w.handlers i).phase = .rollback e c k t)
    (he : step cfg w (.commit i) = some w') :
    (w'.handlers i).phase = match w.gateway.removeClient c k with
      | .ok _ => .ended (.returned (.error ("Could not relay WS open message to IC: " ++ e.debug)))
      | .error m => .ended (.panicked m) := by
  simp only [step, World.commit, hph, World.removeClient] at he
  split_ifs at he
  cases he
  rcases w.gateway.removeClient c k with m | g <;> simp

/-- A session that finds itself gets through: to the call of `ws_close` in the arm `Closed`,
to its error in the cleanup. -/
theorem commit_found {i : ClientId} {c : CanisterPrincipal} {k : ClientKey}
    (hph : (w.handlers i).phase.Removing c k) (hf : w.FindsItself c k)
    (he : step cfg w (.commit i) = some w') :
    (w.handlers i).phase = .closed c k ∧ (w'.handlers i).phase = .closing c k (.ok ()) ∨
      (∃ e t, (w.handlers i).phase = .rollback e c k t) ∧
        ∃ e, (w'.handlers i).phase = .ended (.returned (.error e)) := by
  obtain ⟨g, hg⟩ := (removeClient_isOk ..).mpr hf
  obtain hph | ⟨e, t, hph⟩ := hph
  · refine Or.inl ⟨hph, ?_⟩
    rw [commit_closed hph he, hg]
  · have hended := commit_rollback hph he
    rw [hg] at hended
    exact Or.inr ⟨⟨e, t, hph⟩, _, hended⟩

/-- **A closing session finds itself or no entry exactly when the entry is still
that of the poller state it joined**, or there is none; exactly then `remove_client`
does not panic. The handler then goes on to call `ws_close` if it is in the arm
`Closed`; the cleanup after a failed relay returns an error instead. -/
theorem closing_session_finds_itself (hr : Runs cfg h w) (hd : DistinctKeys w) {i : ClientId}
    {c : CanisterPrincipal} {k : ClientKey} (hph : (w.handlers i).phase.Removing c k) :
    ((w.FindsItself c k ∧ (∃ g, w.gateway.removeClient c k = .ok g) ∧
      ∀ w', step cfg w (.commit i) = some w' → ¬ ∃ m, (w'.handlers i).phase = .ended (.panicked m)) ↔
        EntryJoined h w i c) ∧
    ∀ w', step cfg w (.commit i) = some w' →
      ((w.FindsItself c k ∧ (w'.handlers i).phase = .closing c k (.ok ())) ↔
        (w.handlers i).phase = .closed c k ∧ EntryJoined h w i c) ∧
      ((w.FindsItself c k ∧ ∃ e, (w'.handlers i).phase = .ended (.returned (.error e))) ↔
        (∃ e t, (w.handlers i).phase = .rollback e c k t) ∧ EntryJoined h w i c) := by
  have hwf := (reachable hr).wf i
  have hk : (w.handlers i).Keyed c k := by
    rcases hph with hph | ⟨e, t, hph⟩
    · exact hwf.closed hph
    · exact hwf.rollback hph
  have hs : w.registry.seat i = .member c k := by
    rcases hph with hph | ⟨e, t, hph⟩ <;>
      exact seat_of_keyed hk (by rw [hph]; rfl)
  rw [← findsItself_iff hr hd hs]
  refine ⟨⟨And.left, fun hf => ⟨hf, (removeClient_isOk ..).mpr hf, fun w' he => ?_⟩⟩,
    fun w' he => ⟨⟨?_, ?_⟩, ⟨?_, ?_⟩⟩⟩
  · rintro ⟨m, hm⟩
    obtain ⟨-, hafter⟩ | ⟨-, e, hafter⟩ := commit_found hph hf he <;>
    · rw [hafter] at hm
      cases hm
  · rintro ⟨hf, hclosing⟩
    obtain ⟨hclosed, -⟩ | ⟨-, e, hafter⟩ := commit_found hph hf he
    · exact ⟨hclosed, hf⟩
    · rw [hafter] at hclosing
      cases hclosing
  · rintro ⟨hclosed, hf⟩
    obtain ⟨-, hafter⟩ | ⟨⟨e, t, hrollback⟩, -⟩ := commit_found hph hf he
    · exact ⟨hf, hafter⟩
    · rw [hclosed] at hrollback
      cases hrollback
  · rintro ⟨hf, e, hended⟩
    obtain ⟨-, hafter⟩ | ⟨hrollback, -⟩ := commit_found hph hf he
    · rw [hafter] at hended
      cases hended
    · exact ⟨hrollback, hf⟩
  · rintro ⟨⟨e, t, hrollback⟩, hf⟩
    obtain ⟨hclosed, -⟩ | ⟨-, hafter⟩ := commit_found hph hf he
    · rw [hclosed] at hrollback
      cases hrollback
    · exact ⟨hf, hafter⟩

/-! ### The keys of a course of events -/

/-- The session that the event updates. -/
def Event.updates : Event → Option ClientId
  | .update i _ => some i
  | _ => none

/-- The keys of session `i`, once it has them. -/
def World.keys (w : World) (i : ClientId) : Option (CanisterPrincipal × ClientKey) :=
  (w.handlers i).session.canisterId.bind fun c => (w.handlers i).session.clientKey.map fun k => (c, k)

/-- A session without an update has no keys. -/
theorem keyless (hr : Runs cfg h w) {i : ClientId} (hi : ∀ x ∈ h, x.2.updates ≠ some i) :
    (w.handlers i).session.canisterId = none := by
  induction hr with
  | nil => rfl
  | @snoc h t t' e hr he ih =>
    have ih := ih fun x hx => hi x (List.mem_append_left _ hx)
    have hs := step_handler he i
    generalize t.handlers i = a at hs ih
    generalize t'.handlers i = b at hs
    cases hs with
    | @update u io => exact absurd rfl (hi (t, .update i io) (by simp))
    | _ => exact ih

/-- The keys after a course of events are distinct if those of its sessions are. -/
theorem distinctKeys_after {es : List Event} (hes : (LTS.exec (step cfg) World.new es).isSome) (n : ℕ)
    (hn : ∀ e ∈ es, ∀ i ∈ e.updates, i < n)
    (hd : ∀ i < n, ∀ j < n, (World.after cfg es).keys i = (World.after cfg es).keys j →
      i = j ∨ (World.after cfg es).keys i = none) :
    DistinctKeys (World.after cfg es) := by
  intro i j c k hic hik hjc hjk
  have hlt : ∀ i, ((World.after cfg es).handlers i).session.canisterId = some c → i < n := by
    intro i hi
    by_contra hge
    have hno := keyless (runs_after hes) (i := i) fun x hx hu =>
      hge (hn x.2 (LTS.mem_trace hx) i hu)
    rw [hi] at hno
    cases hno
  refine (hd i (hlt i hic) j (hlt j hjc) ?_).resolve_right ?_ <;> simp [World.keys, hic, hik, hjc, hjk]

/-! ### A poller state that is not the one joined -/

/-- The poller of the first session fails, a second client makes a new entry, and
the first one's client closes its session. -/
def closesAfterFailure (c : CanisterPrincipal) : List Event :=
  opens 0 (wsOpen c ⟨[1], 1⟩) ++ [.pollReply 0 (.replied (.error (.cdk "trap"))), .removeFailed 0] ++
    opens 1 (wsOpen c ⟨[2], 2⟩) ++ [.readWs 0 (.ok .close), .update 0 .ok, .lock 0]

set_option maxRecDepth 20000 in
/-- The closing session finds an entry without its key, and its handler panics. -/
theorem closing_session_panics :
    ∃ cfg h w i c k, Runs cfg h w ∧ DistinctKeys w ∧ (w.handlers i).phase.Removing c k ∧
      ¬ w.FindsItself c k ∧ ∃ w', step cfg w (.commit i) = some w' ∧
        (w'.handlers i).phase = .ended (.panicked (unreachable "Client key not found in poller state")) := by
  have hes : (LTS.exec (step .simple) World.new (closesAfterFailure [9])).isSome := by decide
  refine ⟨.simple, _, World.after .simple (closesAfterFailure [9]), 0, [9], ⟨[1], 1⟩, runs_after hes,
    distinctKeys_after hes 2 (by decide) (by decide), Or.inl (by decide), fun hf => ?_, ?_⟩
  · exact hf 1 (by decide) (by decide)
  · have hs : (step .simple (World.after .simple (closesAfterFailure [9])) (.commit 0)).isSome := by
      decide
    obtain ⟨w', hw'⟩ := Option.isSome_iff_exists.mp hs
    refine ⟨w', hw', ?_⟩
    have hph : ((step .simple (World.after .simple (closesAfterFailure [9])) (.commit 0)).map
        fun w => (w.handlers 0).phase) =
        some (.ended (.panicked (unreachable "Client key not found in poller state"))) := by decide
    rw [hw'] at hph
    exact Option.some.inj hph

/-- A client that opens a session and sends a close frame. -/
def opensAndCloses (c : CanisterPrincipal) (k : ClientKey) : List Event :=
  opens 0 (wsOpen c k) ++ [.readWs 0 (.ok .close), .update 0 .ok, .lock 0]

set_option maxRecDepth 20000 in
/-- A session whose poller has not failed finds itself when it closes, and goes on to call
`ws_close`. -/
theorem closing_session_finds_itself_alone :
    (World.after .simple (opensAndCloses [9] ⟨[1], 1⟩)).FindsItself [9] ⟨[1], 1⟩ ∧
      ((World.after .simple (opensAndCloses [9] ⟨[1], 1⟩ ++ [.commit 0])).handlers 0).phase =
        .closing [9] ⟨[1], 1⟩ (.ok ()) := by
  have hes : (LTS.exec (step .simple) World.new (opensAndCloses [9] ⟨[1], 1⟩)).isSome := by decide
  have he : step .simple (World.after .simple (opensAndCloses [9] ⟨[1], 1⟩)) (.commit 0) =
      some (World.after .simple (opensAndCloses [9] ⟨[1], 1⟩ ++ [.commit 0])) := step_after (by decide)
  have hph : ((World.after .simple (opensAndCloses [9] ⟨[1], 1⟩)).handlers 0).phase = .closed [9] ⟨[1], 1⟩ := by
    decide
  have hj : EntryJoined (LTS.trace (step .simple) World.new (opensAndCloses [9] ⟨[1], 1⟩))
      (World.after .simple (opensAndCloses [9] ⟨[1], 1⟩)) 0 [9] := by
    intro r hr
    have h0 : (World.after .simple (opensAndCloses [9] ⟨[1], 1⟩)).gateway.data.lookup [9] = some 0 := by
      decide
    rw [h0] at hr
    cases hr
    decide
  exact (((closing_session_finds_itself (runs_after hes) (distinctKeys_after hes 1 (by decide) (by decide))
    (Or.inl hph)).2 _ he).1).mpr ⟨hph, hj⟩

/-! ### Sessions that choose the same key -/

/-- `run_polling` has returned an error. -/
def CanisterPoller.Failed (q : CanisterPoller) : Prop :=
  ∃ e, q.phase = .returned (.error e) ∨ q.phase = .ended (.returned (.error e))

/-- Session `i` is in `Setup` or `Opened` and registered; its client has neither
disconnected nor erred, and no poller of the poller state it joined has failed. -/
structure Undisturbed (h : List (World × Event)) (w : World) (i : ClientId) (c : CanisterPrincipal)
    (k : ClientKey) : Prop where
  seat : w.registry.seat i = .member c k
  live : (w.handlers i).session.Live
  phase : (∀ e, (w.handlers i).phase ≠ .failed e c k) ∧ ∀ e t, (w.handlers i).phase ≠ .rollback e c k t
  poller : ∀ p q, w.pollers p = some q → joined h i = some q.pollerState → ¬ q.Failed

/-- Each undisturbed session is the one stored under its key, and messages for its
key are put on its channel and on no other. -/
def Isolated (h : List (World × Event)) (w : World) : Prop :=
  ∀ i c k, Undisturbed h w i c k →
    (∃ r, w.gateway.data.lookup c = some r ∧ (w.gateway.clients r).lookup k = some ⟨i⟩) ∧
    ∀ p q j m msgs, w.pollers p = some q → q.canisterId = c → q.phase = .sending j k m msgs → j = i

/-- No session that is still registered has the canister and key of the one that
is inserted. -/
def KeyFree (_ : List (World × Event)) (w : World) (e : Event) : Prop :=
  ∀ i m c k tx, e = .commit i → (w.handlers i).phase = .setup m c k tx →
    ∀ j, w.registry.seat j ≠ .member c k

/-- Only the insert makes a session a member. -/
theorem member_before {e : Event} (hw : Sound w) (he : step cfg w e = some w') {i : ClientId}
    {c : CanisterPrincipal} {k : ClientKey} (hs : w'.registry.seat i = .member c k) :
    w.registry.seat i = .member c k ∨ ∃ m tx, e = .commit i ∧ (w.handlers i).phase = .setup m c k tx := by
  have hwf := hw.wf i
  have hh := step_handler he i
  change (w'.handlers i).seat = _ at hs
  show (w.handlers i).seat = _ ∨ _
  generalize w'.handlers i = b at hs hh
  cases hh with
  | other => exact Or.inl hs
  | push => exact Or.inl (by simpa [Handler.seat] using hs)
  | readWs phase | recv phase | cutOff phase | startPoller phase | relayOpen phase | relayOpenFail phase =>
    apply Or.inl
    simpa [Handler.seat, phase] using hs
  | update phase updated =>
    replace hwf := hwf.updating phase
    rcases hwf with ⟨hf, -⟩ | ⟨c', k', hk, hl⟩
    · obtain ⟨m, k, c, -, -, -, -, hd⟩ | ⟨-, r', hd⟩ := update_fresh hf updated <;> rw [hd] at hs <;> cases hs
    · have hk' := (update_keyed hk hl updated).keyed hk
      obtain ⟨hc, hck, -⟩ := seat_keys hs
      obtain ⟨rfl, rfl⟩ := hk'.inj hc hck
      exact Or.inl (seat_of_keyed hk (by rw [phase]; rfl))
  | @insert m c' k' tx phase =>
    replace hwf := hwf.setup phase
    obtain ⟨hc, hck, -⟩ := seat_keys hs
    obtain ⟨rfl, rfl⟩ := hwf.2.1.inj hc hck
    exact Or.inr ⟨m, tx, rfl, phase⟩
  | rollback | remove | removePanic | removeIfExists | removeVacant | relayOpenPanic | wsClosed => cases hs

/-- While each insert finds its key free, no two members have the same keys. -/
theorem distinct_of_keyFree (hr : Runs cfg h w) (ha : LTS.Along KeyFree h) :
    LTS.Along (fun _ t _ => t.registry.Distinct) h ∧ w.registry.Distinct := by
  induction hr with
  | nil =>
    refine ⟨LTS.along_nil _, fun i j c k hi _ => ?_⟩
    rw [registry_new] at hi
    cases hi
  | @snoc h t t' e hr he ih =>
    obtain ⟨ha', hk⟩ := LTS.along_snoc.mp ha
    obtain ⟨ih, hd⟩ := ih ha'
    refine ⟨LTS.along_snoc.mpr ⟨ih, hd⟩, fun i j c k hi hj => ?_⟩
    obtain hi' | ⟨m, tx, rfl, hph⟩ := member_before (reachable hr) he hi
    · obtain hj' | ⟨m, tx, rfl, hph⟩ := member_before (reachable hr) he hj
      · exact hd i j c k hi' hj'
      · exact absurd hi' (hk j m c k tx rfl hph i)
    · obtain hj' | ⟨m', tx', he', -⟩ := member_before (reachable hr) he hj
      · exact absurd hj' (hk i m c k tx rfl hph j)
      · cases he'
        rfl

theorem CanisterPoller.failed_of_stage (q : CanisterPoller)
    (h : q.phase.stage = .retired .failed ∨ q.phase.stage = .ended .failed) : q.Failed := by
  unfold PollerPhase.stage at h
  split at h
  · simp at h
  · exact ⟨_, Or.inl ‹_›⟩
  · simp at h
  · exact ⟨_, Or.inr ‹_›⟩
  · simp at h
  · simp at h

/-- A poller that has retired as failed, or ended so. -/
theorem failed_of_done {life : ℕ → Registry.Life CanisterPrincipal ClientId}
    (ho : Registry.Own w.registry life) {r : PollerRef} {c : CanisterPrincipal} {p : PollerId}
    (hd : (life r).Done c p .failed) :
    ∃ q, w.pollers p = some q ∧ q.pollerState = r ∧ q.canisterId = c ∧ q.Failed := by
  have hq : ∃ x, (x = .retired .failed ∨ x = .ended .failed) ∧ w.registry.worker p = some (c, r, x) := by
    rcases hd with hd | hd
    · exact ⟨_, Or.inl rfl, (ho.worker ..).mpr hd⟩
    · exact ⟨_, Or.inr rfl, (ho.worker ..).mpr hd⟩
  obtain ⟨x, hx, hq⟩ := hq
  simp only [World.registry, Option.map_eq_some_iff, Prod.mk.injEq] at hq
  obtain ⟨q, hq, rfl, rfl, rfl⟩ := hq
  exact ⟨q, hq, rfl, rfl, q.failed_of_stage hx⟩

theorem isolated_of_distinct (hr : Runs cfg h w)
    (ha : LTS.Along (fun _ t _ => t.registry.Distinct) h) (hd : w.registry.Distinct) : Isolated h w := by
  intro i c k hu
  have hw := reachable hr
  obtain ⟨life, ho, hro, hse⟩ := seated_of_distinct hr ha hd
  obtain ⟨r, hm, hkeep⟩ := hse i c k hu.seat
  have hx : (w.gateway.clients r).lookup k = some ⟨i⟩ := by
    simp only [World.registry, Option.map_eq_some_iff] at hm
    obtain ⟨⟨x⟩, hx, rfl⟩ := hm
    exact hx
  have hj := joined_of_stored hr hx
  refine ⟨⟨r, ?_, hx⟩, fun p q j m msgs hq hc hph => ?_⟩
  · rcases hkeep with he | ⟨p, hp⟩
    · exact (ho.entry c r).mpr he
    · obtain ⟨q, hq, rfl, -, hf⟩ := failed_of_done ho hp
      exact absurd hf (hu.poller p q hq hj)
  · obtain ⟨c', r', hwk, hm'⟩ := hro.pinned p k j (by rw [registry_pin hq, hph]; rfl)
    have he := hw.entry_of_active hq (by rw [hph]; rfl)
    rw [registry_worker hq, Option.some.injEq, Prod.mk.injEq, Prod.mk.injEq] at hwk
    obtain ⟨rfl, rfl, -⟩ := hwk
    have hsj := hro.entry_seat ho he hm'
    rw [hc] at hsj
    exact hd j i c k hsj hu.seat

theorem commit_others {i j : ClientId} (he : step cfg w (.commit i) = some w') (hne : j ≠ i) :
    w'.handlers j = w.handlers j := by
  have hs := step_handler he j
  generalize w.handlers j = a at hs
  generalize w'.handlers j = b at hs
  cases hs <;> first | rfl | exact absurd rfl hne

/-- **Session isolation.** In a run whose inserts all find their key free, every
undisturbed session is isolated in every state; and an insert under the key of
an undisturbed session ends its isolation at once. -/
theorem session_isolation (hr : Runs cfg h w) :
    (LTS.Along KeyFree h → Isolated h w) ∧
    ∀ i j m c k tx w', (w.handlers i).phase = .setup m c k tx → j ≠ i → Undisturbed h w j c k →
      step cfg w (.commit i) = some w' → ¬ Isolated (h ++ [(w, .commit i)]) w' := by
  refine ⟨fun ha => ?_, fun i j m c k tx w' hph hne hu he hiso => ?_⟩
  · obtain ⟨ha', hd⟩ := distinct_of_keyFree hr ha
    exact isolated_of_distinct hr ha' hd
  · have hw := reachable hr
    obtain ⟨rfl, hg, -, -⟩ := commit_setup hw hph he
    have hj : w'.handlers j = w.handlers j := commit_others he hne
    have hp : w'.pollers = w.pollers := commit_pollers he
    have hu' : Undisturbed (h ++ [(w, .commit tx)]) w' j c k := by
      refine ⟨?_, ?_, ?_, fun p q hq hjo => hu.poller p q (by rw [← hp]; exact hq) ?_⟩
      · show (w'.handlers j).seat = _
        rw [hj]
        exact hu.seat
      · rw [hj]
        exact hu.live
      · rw [hj]
        exact hu.phase
      · rw [joined_snoc] at hjo
        have hn : insertedIn j (w, .commit tx) = none := by simp [insertedIn, Ne.symm hne]
        rw [hn, Option.or_none] at hjo
        exact hjo
    obtain ⟨r, hr1, hr2⟩ := (hiso j c k hu').1
    obtain ⟨r', hr3, hr4⟩ := insert_stored w.gateway c k tx
    rw [hg] at hr1 hr2
    rw [hr1, Option.some.injEq] at hr3
    subst hr3
    rw [hr2] at hr4
    cases hr4
    exact hne rfl

/-- Distinct keys are always free. -/
theorem keyFree_of_distinctKeys (hr : Runs cfg h w) (hd : DistinctKeys w) : LTS.Along KeyFree h := by
  rintro h₁ t e h₂ rfl i m c k tx rfl hph j hj
  have hr' := hr.at_event.1
  have hd' := hd.along hr h₁ t _ h₂ rfl
  have hwf := (reachable hr').wf i
  replace hwf := hwf.setup hph
  obtain ⟨h1, h2, -⟩ := seat_keys hj
  obtain rfl : j = i := hd' j i c k h1 h2 hwf.2.1.canisterId hwf.2.1.clientKey
  simp [World.registry, Handler.seat, hph] at hj

/-- Two clients open sessions with the same canister. -/
def twoClients (c : CanisterPrincipal) : List Event :=
  opens 0 (wsOpen c ⟨[1], 1⟩) ++ opens 1 (wsOpen c ⟨[2], 2⟩)

/-- Two clients open sessions with the same canister under the same key. -/
def sameKey (c : CanisterPrincipal) (k : ClientKey) : List Event :=
  opens 0 (wsOpen c k) ++ opens 1 (wsOpen c k)

/-- The only poller there is is at work, so none has failed. -/
theorem unfailed_of_one (hr : Runs cfg h w) {q₀ : CanisterPoller} (hn : w.nextPoller = 1)
    (h0 : w.pollers 0 = some q₀) (hst : q₀.phase.stage = .active) :
    ∀ p q, w.pollers p = some q → ¬ q.Failed := by
  intro p q hq hf
  have hlt : p < w.nextPoller := (reachable hr).worker_lt p _ (registry_worker hq)
  rw [hn, Nat.lt_one_iff] at hlt
  rw [hlt, h0] at hq
  cases hq
  obtain ⟨e, he | he⟩ := hf <;> rw [he] at hst <;> cases hst

/-- A session that awaits its next update is undisturbed while no poller has failed. -/
theorem undisturbed_of_polling {i : ClientId} {c : CanisterPrincipal} {k : ClientKey}
    (hs : w.registry.seat i = .member c k) (hl : (w.handlers i).session.Live)
    (hph : (w.handlers i).phase = .awaiting) (hp : ∀ p q, w.pollers p = some q → ¬ q.Failed) :
    Undisturbed h w i c k :=
  ⟨hs, hl, by simp [hph], fun p q hq _ => hp p q hq⟩

set_option maxRecDepth 20000 in
/-- The second session takes the place of the first, whose client has done nothing. -/
theorem same_key_not_isolated : ∃ cfg h w, Runs cfg h w ∧ ¬ Isolated h w := by
  have hes : (LTS.exec (step .simple) World.new (sameKey [9] ⟨[1], 1⟩)).isSome := by decide
  refine ⟨.simple, _, World.after .simple (sameKey [9] ⟨[1], 1⟩), runs_after hes, fun hiso => ?_⟩
  have hp0 : (World.after .simple (sameKey [9] ⟨[1], 1⟩)).pollers 0 = some ⟨[9], 0, 0, .polling⟩ := by
    decide
  have hn : (World.after .simple (sameKey [9] ⟨[1], 1⟩)).nextPoller = 1 := by decide
  have hu := undisturbed_of_polling (h := LTS.trace (step .simple) World.new (sameKey [9] ⟨[1], 1⟩)) (i := 0) (c := [9])
    (k := ⟨[1], 1⟩) (by decide) (Or.inr ⟨wsOpen [9] ⟨[1], 1⟩, by decide⟩) (by decide)
    (unfailed_of_one (runs_after hes) hn hp0 rfl)
  obtain ⟨r, hr, hk⟩ := (hiso 0 [9] ⟨[1], 1⟩ hu).1
  have h0 : (World.after .simple (sameKey [9] ⟨[1], 1⟩)).gateway.data.lookup [9] = some 0 := by decide
  have h1 : ((World.after .simple (sameKey [9] ⟨[1], 1⟩)).gateway.clients 0).lookup ⟨[1], 1⟩ =
      some ⟨1⟩ := by decide
  rw [h0] at hr
  cases hr
  rw [h1] at hk
  cases hk

set_option maxRecDepth 20000 in
/-- Two sessions of one canister with different keys: the first is still stored. -/
theorem session_isolation_joins :
    ∃ r, (World.after .simple (twoClients [9])).gateway.data.lookup [9] = some r ∧
      ((World.after .simple (twoClients [9])).gateway.clients r).lookup ⟨[1], 1⟩ = some ⟨0⟩ := by
  have hes : (LTS.exec (step .simple) World.new (twoClients [9])).isSome := by decide
  have hp0 : (World.after .simple (twoClients [9])).pollers 0 = some ⟨[9], 0, 0, .polling⟩ := by decide
  have hn : (World.after .simple (twoClients [9])).nextPoller = 1 := by decide
  have hu := undisturbed_of_polling (h := LTS.trace (step .simple) World.new (twoClients [9])) (i := 0) (c := [9])
    (k := ⟨[1], 1⟩) (by decide) (Or.inr ⟨wsOpen [9] ⟨[1], 1⟩, by decide⟩) (by decide)
    (unfailed_of_one (runs_after hes) hn hp0 rfl)
  have hd := distinctKeys_after hes 2 (by decide) (by decide)
  exact ((session_isolation (runs_after hes)).1 (keyFree_of_distinctKeys (runs_after hes) hd) 0 [9] _ hu).1

end IcWsGateway
