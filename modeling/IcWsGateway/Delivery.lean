/-
# In-order, exactly-once delivery

What a poller relays to a session it puts on the session's channel, one message at
a time (`poller_puts`). A session gets messages from the poller of the poller
state it joined and from no other (`puts_of_poller`), and that poller finds it for
the messages with its key while it is registered (`finds_registered`). So the
session gets, in the order of the log and once each, the messages for its key that
are relayed while it is registered.

Key definitions: `World.Registered`, `deliveryStep`, `PollerPhase.inFlight`.
Key theorems: `poller_puts`, `puts_of_poller`, `finds_registered`,
`in_order_exactly_once`.
-/
import IcWsGateway.CanisterLog
import IcWsGateway.Channels

namespace IcWsGateway

variable {cfg : Config} {s w w' : World} {h : List (World × Event)} {i : ClientId} {p : PollerId}
  {c : CanisterPrincipal} {k : ClientKey} {e : Event}

/-! ### What does not change in a run -/

/-- A poller keeps its canister and its poller state. -/
theorem poller_keeps (hr : LTS.Run (step cfg) s h w) (hs : Sound s) {q : CanisterPoller}
    (hq : s.pollers p = some q) :
    ∃ q', w.pollers p = some q' ∧ q'.canisterId = q.canisterId ∧ q'.pollerState = q.pollerState := by
  have hI : Sound w ∧ ∃ q', w.pollers p = some q' ∧ q'.canisterId = q.canisterId ∧
      q'.pollerState = q.pollerState := by
    refine hr.state_invariant (I := fun w => Sound w ∧ ∃ q', w.pollers p = some q' ∧
      q'.canisterId = q.canisterId ∧ q'.pollerState = q.pollerState) ⟨hs, q, hq, rfl, rfl⟩
      fun t e t' hI he => ?_
    obtain ⟨ht, q', hq', hc, hst⟩ := hI
    refine ⟨ht.step he, ?_⟩
    have hp := step_poller he p
    rw [hq'] at hp
    generalize t'.pollers p = y at hp ⊢
    cases hp with
    | other => exact ⟨q', rfl, hc, hst⟩
    | start phase fresh => exact absurd fresh (ht.not_next hq')
    | _ => exact ⟨_, rfl, hc, hst⟩
  exact hI.2

/-- A session keeps its keys. -/
theorem keys_keep (hr : LTS.Run (step cfg) s h w) (hs : Sound s)
    (hc : (s.handlers i).session.canisterId = some c) (hk : (s.handlers i).session.clientKey = some k) :
    (w.handlers i).session.canisterId = some c ∧ (w.handlers i).session.clientKey = some k := by
  have hI : Sound w ∧ (w.handlers i).session.canisterId = some c ∧
      (w.handlers i).session.clientKey = some k :=
    hr.state_invariant (I := fun w => Sound w ∧ (w.handlers i).session.canisterId = some c ∧
      (w.handlers i).session.clientKey = some k) ⟨hs, hc, hk⟩ fun t e t' hI he =>
        ⟨hI.1.step he, (step_handler he i).keys (hI.1.wf i) hI.2.1 hI.2.2⟩
  exact hI.2

/-- A session joins one poller state. -/
theorem joined_append {h₁ h₂ : List (World × Event)} {r : PollerRef} (hj : joined h₁ i = some r) :
    joined (h₁ ++ h₂) i = some r := by
  unfold joined at hj ⊢
  rw [List.findSome?_append, hj]
  rfl

/-- One poller works on a poller state. -/
theorem poller_unique (hw : Sound w) {p' : PollerId} {q q' : CanisterPoller} (hq : w.pollers p = some q)
    (hq' : w.pollers p' = some q') (hr : q.pollerState = q'.pollerState) : p = p' := by
  obtain ⟨life, ho, -⟩ := hw.lives
  have hl := (ho.worker ..).mp (registry_worker hq)
  have hl' := (ho.worker ..).mp (registry_worker hq')
  rw [hr, hl', Registry.Life.worked.injEq] at hl
  exact hl.2.1.symm

/-! ### From the poller to the channel -/

/-- The message that the poller `p` puts on the channel of session `i` in the event. -/
def putBy (p : PollerId) (i : ClientId) : World × Event → Option CanisterToClientMessage
  | (w, .put p') => if p' = p then putOn i (w, .put p') else none
  | _ => none

/-- The message that waits to be put on the channel of session `i`. -/
def PollerPhase.inFlight (i : ClientId) : PollerPhase → List CanisterToClientMessage
  | .sending j _ m _ => if j = i then [m] else []
  | _ => []

/-- The poller's relay steps that find session `i`. -/
def foundStep (p : PollerId) (i : ClientId) (x : World × Event) : Option RelayStep :=
  (relayStep p x).filter fun y => ((x.1.pollers p).bind fun q =>
    (x.1.gateway.clients q.pollerState).lookup y.message.clientKey) = some ⟨i⟩

/-- A session that a poller sends to has not ended. -/
theorem Sound.sending_open (hw : Sound w) {q : CanisterPoller} (hq : w.pollers p = some q)
    {m : CanisterToClientMessage} {msgs : CanisterOutputCertifiedMessages}
    (hph : q.phase = .sending i k m msgs) :
    (w.gateway.clients q.pollerState).lookup k = some ⟨i⟩ ∧ (w.handlers i).rxDropped = false := by
  obtain ⟨life, ho, hro⟩ := hw.lives
  obtain ⟨c', r', hwk, hm⟩ := hro.pinned p k i (by rw [registry_pin hq, hph]; rfl)
  rw [registry_worker hq, Option.some.injEq, Prod.mk.injEq, Prod.mk.injEq] at hwk
  obtain ⟨rfl, rfl, -⟩ := hwk
  have hstored : (w.gateway.clients q.pollerState).lookup k = some ⟨i⟩ := by
    simp only [World.registry, Option.map_eq_some_iff] at hm
    obtain ⟨⟨x⟩, hx, rfl⟩ := hm
    exact hx
  refine ⟨hstored, ?_⟩
  have hseat := hw.stored_seat (hw.entry_of_active hq (by rw [hph]; rfl)) hstored
  unfold Handler.rxDropped
  split
  · rename_i r hr
    exact absurd hr (seat_not_ended hseat r)
  · rfl

theorem relay_inFlight {q q' : CanisterPoller} (hq : w.pollers p = some q)
    (he : WorldStep cfg w (.relay p) w') (hq' : w'.pollers p = some q') :
    q.phase.inFlight i = [] ∧
      ((foundStep p i (w, .relay p)).map RelayStep.toClient).toList = q'.phase.inFlight i := by
  rw [foundStep, relayStep_self hq]
  simp only [hq, Option.bind_some]
  cases he with
  | relayed poller phase done | relayedMore poller phase done =>
    rw [hq, Option.some.injEq] at poller
    subst poller
    rw [World.setPoller_pollers, Function.update_self, Option.some.injEq] at hq'
    subst hq'
    rw [phase]
    refine ⟨rfl, ?_⟩
    simp only [PollerPhase.next, done]
    rfl
  | @send _ _ msgs m rest client poller phase head found =>
    rw [hq, Option.some.injEq] at poller
    subst poller
    rw [World.setPoller_pollers, Function.update_self, Option.some.injEq] at hq'
    subst hq'
    rw [phase]
    refine ⟨rfl, ?_⟩
    have hnext : (PollerPhase.relaying msgs).next = some ⟨m, msgs.cert, msgs.tree⟩ := by
      simp [PollerPhase.next, head]
    rw [hnext]
    rcases client with ⟨j⟩
    by_cases hj : j = i
    · simp [Option.filter, found, hj, PollerPhase.inFlight, RelayStep.toClient, CanisterOutputMessage.toClient]
    · simp [Option.filter, found, hj, PollerPhase.inFlight]
  | @skip _ _ msgs m rest poller phase head absent =>
    rw [hq, Option.some.injEq] at poller
    subst poller
    rw [World.setPoller_pollers, Function.update_self, Option.some.injEq] at hq'
    subst hq'
    rw [phase]
    refine ⟨rfl, ?_⟩
    have hnext : (PollerPhase.relaying msgs).next = some ⟨m, msgs.cert, msgs.tree⟩ := by
      simp [PollerPhase.next, head]
    rw [hnext]
    simp [Option.filter, absent, PollerPhase.inFlight]

theorem put_inFlight (hw : Sound w) {q q' : CanisterPoller} (hq : w.pollers p = some q)
    (he : WorldStep cfg w (.put p) w') (hq' : w'.pollers p = some q') :
    q.phase.inFlight i = (putBy p i (w, .put p)).toList ∧ q'.phase.inFlight i = [] := by
  cases he with
  | putDropped poller phase dropped =>
    rw [(hw.sending_open poller phase).2] at dropped
    cases dropped
  | @put _ _ j k m msgs poller phase open_ =>
    rw [hq, Option.some.injEq] at poller
    subst poller
    rw [World.setPoller_pollers, Function.update_self, Option.some.injEq] at hq'
    subst hq'
    refine ⟨?_, rfl⟩
    simp only [putBy, if_true, putOn, hq, Option.map_some, phase, PollerPhase.inFlight]
    by_cases hj : j = i
    · subst hj
      rw [if_pos rfl, if_pos ⟨rfl, open_⟩]
      rfl
    · rw [if_neg hj, if_neg fun h => hj h.1]
      rfl

theorem foundStep_none {x : World × Event} (hx : relayStep p x = none) : foundStep p i x = none := by
  rw [foundStep, hx]
  rfl

theorem putBy_none (hp : e ≠ .put p) : putBy p i (w, e) = none := by
  cases e with
  | put p' => exact if_neg fun h => hp (by rw [h])
  | _ => rfl

/-- Other events leave what waits to be put as it is. -/
theorem inFlight_other (hw : Sound w) (he : step cfg w e = some w') (hr : e ≠ .relay p) (hp : e ≠ .put p)
    {q q' : CanisterPoller} (hq : w.pollers p = some q) (hq' : w'.pollers p = some q') :
    q'.phase.inFlight i = q.phase.inFlight i := by
  have hs := step_poller he p
  rw [hq, hq'] at hs
  cases hs with
  | other => rfl
  | relayed | send | skip => exact absurd rfl hr
  | put => exact absurd rfl hp
  | start phase fresh => exact absurd fresh (hw.not_next hq)
  | pollFailed phase | polled phase | nonceFailed phase | noncePanic phase | timedOut phase =>
    rw [phase]
    rfl
  | noMessages phase | wake phase | terminate phase | goOn phase | fail phase | failPanic phase | stop phase =>
    rw [phase]
    rfl

/-- What the poller `p` has taken up for session `i` and not put yet. -/
def World.inFlight (w : World) (p : PollerId) (i : ClientId) : List CanisterToClientMessage :=
  ((w.pollers p).map fun q => q.phase.inFlight i).getD []

theorem inFlight_of {q : CanisterPoller} (hq : w.pollers p = some q) :
    w.inFlight p i = q.phase.inFlight i := by
  simp [World.inFlight, hq]

/-- One event, as a poller and the channel of a session see it. -/
theorem inFlight_step (hw : Sound w) (he : step cfg w e = some w') :
    w.inFlight p i ++ ((foundStep p i (w, e)).map RelayStep.toClient).toList =
      (putBy p i (w, e)).toList ++ w'.inFlight p i := by
  rcases hq : w.pollers p with _ | q
  · -- the poller does not exist, or starts
    have hrel : relayStep p (w, e) = none := by
      rcases hx : relayStep p (w, e) with _ | x
      · rfl
      · obtain ⟨-, q, -, -, hq', -⟩ := relayStep_some hx
        rw [hq] at hq'
        cases hq'
    have hput : e ≠ .put p := by
      rintro rfl
      cases step_cases he with
      | putDropped poller | put poller =>
        rw [hq] at poller
        cases poller
    have hnew : w'.inFlight p i = [] := by
      have hs := step_poller he p
      rw [hq] at hs
      unfold World.inFlight
      generalize w'.pollers p = y at hs ⊢
      cases hs <;> rfl
    rw [foundStep_none hrel, putBy_none hput, hnew, World.inFlight, hq]
    rfl
  · obtain ⟨q', hq', -⟩ := poller_keeps (LTS.Run.nil.snoc he) hw hq
    rw [inFlight_of hq, inFlight_of hq']
    by_cases hr : e = .relay p
    · subst hr
      obtain ⟨h1, h2⟩ := relay_inFlight (i := i) hq (step_cases he) hq'
      rw [h1, h2, putBy_none (by simp)]
      rfl
    by_cases hp : e = .put p
    · subst hp
      obtain ⟨h1, h2⟩ := put_inFlight (i := i) hw hq (step_cases he) hq'
      rw [h1, h2, foundStep_none (relayStep_none hr)]
      rfl
    rw [inFlight_other hw he hr hp hq hq', foundStep_none (relayStep_none hr), putBy_none hp]
    simp

/-- **A poller puts what it takes up**: the messages for which it finds session `i` go
on the channel of session `i` in that order, up to the one it is about to put. -/
theorem poller_puts (hr : Runs cfg h w) (p : PollerId) (i : ClientId) :
    (h.filterMap (foundStep p i)).map RelayStep.toClient = h.filterMap (putBy p i) ++ w.inFlight p i := by
  induction hr with
  | nil => rfl
  | @snoc h t t' e hr he ih =>
    have hone : (foundStep p i (t, e)).toList.map RelayStep.toClient =
        ((foundStep p i (t, e)).map RelayStep.toClient).toList := by
      rcases foundStep p i (t, e) with _ | x <;> rfl
    calc ((h ++ [(t, e)]).filterMap (foundStep p i)).map RelayStep.toClient
        = h.filterMap (putBy p i) ++ (t.inFlight p i ++
            ((foundStep p i (t, e)).map RelayStep.toClient).toList) := by
          rw [LTS.filterMap_snoc, List.map_append, ih, hone, List.append_assoc]
      _ = h.filterMap (putBy p i) ++ ((putBy p i (t, e)).toList ++ t'.inFlight p i) := by
          rw [inFlight_step (reachable hr) he]
      _ = (h ++ [(t, e)]).filterMap (putBy p i) ++ t'.inFlight p i := by
          rw [LTS.filterMap_snoc, List.append_assoc]

/-! ### From the log to the session -/

/-- Session `i` is the one stored under the key `k` at the entry of the canister. -/
def World.Registered (w : World) (i : ClientId) (c : CanisterPrincipal) (k : ClientKey) : Prop :=
  ((w.gateway.data.lookup c).bind fun r => (w.gateway.clients r).lookup k) = some ⟨i⟩

instance (w : World) (i : ClientId) (c : CanisterPrincipal) (k : ClientKey) :
    Decidable (w.Registered i c k) :=
  inferInstanceAs (Decidable (_ = _))

/-- The relay step of the event, if it is of a poller of the canister, its message has
the key and session `i` is registered under it. -/
def deliveryStep (i : ClientId) (c : CanisterPrincipal) (k : ClientKey) :
    World × Event → Option RelayStep
  | (w, .relay p) => (relayStep p (w, .relay p)).filter fun y =>
      (w.pollers p).map CanisterPoller.canisterId = some c ∧ y.message.clientKey = k ∧ w.Registered i c k
  | _ => none

/-- A session stored in a poller state has joined it, and the poller that works on it
still does later. -/
theorem server_of_stored {t : World} {h₁ h₂ : List (World × Event)} {p' : PollerId} {q : CanisterPoller}
    (hr : Runs cfg (h₁ ++ (t, e) :: h₂) w) (hq : t.pollers p' = some q)
    (hk : (t.gateway.clients q.pollerState).lookup k = some ⟨i⟩) :
    joined (h₁ ++ (t, e) :: h₂) i = some q.pollerState ∧
      ∃ q', w.pollers p' = some q' ∧ q'.pollerState = q.pollerState := by
  obtain ⟨hr₁, t', he, hr₂⟩ := hr.at_event
  refine ⟨joined_append (joined_of_stored hr₁ hk), ?_⟩
  obtain ⟨q', hq', -, hst⟩ := poller_keeps (LTS.run_cons he hr₂) (reachable hr₁) hq
  exact ⟨q', hq', hst⟩

/-- The put of a poller, on the channel of session `i`. -/
theorem putOn_cases {x : World × Event} {m : CanisterToClientMessage} (hx : putOn i x = some m) :
    ∃ p q k msgs, x.2 = .put p ∧ x.1.pollers p = some q ∧ q.phase = .sending i k m msgs := by
  obtain ⟨t, e⟩ := x
  cases e with
  | put p =>
    simp only [putOn] at hx
    split at hx
    · rename_i j k m' msgs hph
      split_ifs at hx with hj
      obtain ⟨rfl, -⟩ := hj
      cases hx
      obtain ⟨q, hq, hph⟩ := Option.map_eq_some_iff.mp hph
      exact ⟨p, q, k, msgs, rfl, hq, hph⟩
    · cases hx
  | _ => cases hx

/-- Session `i` gets messages from the poller of the poller state it joined only. -/
theorem puts_of_poller (hr : Runs cfg h w) {x : World × Event} (hx : x ∈ h) {m : CanisterToClientMessage}
    (hm : putOn i x = some m) :
    ∃ p q, w.pollers p = some q ∧ joined h i = some q.pollerState ∧ putBy p i x = some m := by
  obtain ⟨p, q, k, msgs, he, hq, hph⟩ := putOn_cases hm
  obtain ⟨t, e⟩ := x
  obtain ⟨h₁, h₂, rfl⟩ := List.append_of_mem hx
  have hk := ((reachable hr.at_event.1).sending_open hq hph).1
  obtain ⟨hj, q', hq', hst⟩ := server_of_stored hr hq hk
  refine ⟨p, q', hq', by rw [hst]; exact hj, ?_⟩
  simp only at he
  subst he
  rw [putBy, if_pos rfl]
  exact hm

/-- A session that an active poller has stored has the keys it is stored under. -/
theorem stored_keys {t : World} {h₁ h₂ : List (World × Event)} {p' : PollerId} {q : CanisterPoller}
    (hr : Runs cfg (h₁ ++ (t, e) :: h₂) w) (hq : t.pollers p' = some q) (hs : q.Serving)
    (hk : (t.gateway.clients q.pollerState).lookup k = some ⟨i⟩) :
    (w.handlers i).session.canisterId = some q.canisterId ∧ (w.handlers i).session.clientKey = some k := by
  obtain ⟨hr₁, t', he, hr₂⟩ := hr.at_event
  have ht := reachable hr₁
  obtain ⟨hct, hkt, -⟩ := seat_keys (ht.stored_seat (ht.entry_of_active hq hs) hk)
  exact keys_keep (LTS.run_cons he hr₂) ht hct hkt

/-- What a poller finds session `i` for are the relay steps of the canister for its key
while it is registered. -/
theorem finds_registered (hr : Runs cfg h w) {x : World × Event} (hx : x ∈ h)
    (hc : (w.handlers i).session.canisterId = some c) (hk : (w.handlers i).session.clientKey = some k)
    {y : RelayStep} :
    deliveryStep i c k x = some y ↔
      ∃ p q, w.pollers p = some q ∧ joined h i = some q.pollerState ∧ foundStep p i x = some y := by
  obtain ⟨t, e⟩ := x
  obtain ⟨h₁, h₂, rfl⟩ := List.append_of_mem hx
  obtain ⟨hr₁, t', he, hr₂⟩ := hr.at_event
  have ht := reachable hr₁
  constructor
  · intro hy
    cases e with
    | relay p =>
      obtain ⟨hrel, hcond⟩ := Option.filter_eq_some_iff.mp hy
      obtain ⟨hqc, rfl, hreg⟩ := of_decide_eq_true hcond
      obtain ⟨-, q, msgs, rest, hq, hph, -⟩ := relayStep_some hrel
      have hentry := ht.entry_of_active hq (by rw [hph]; rfl)
      rw [hq, Option.map_some, Option.some.injEq] at hqc
      rw [World.Registered, ← hqc, hentry, Option.bind_some] at hreg
      obtain ⟨hj, q', hq', hst⟩ := server_of_stored hr hq hreg
      refine ⟨p, q', hq', by rw [hst]; exact hj, ?_⟩
      exact Option.filter_eq_some_iff.mpr ⟨hrel, by simpa [hq] using hreg⟩
    | _ => cases hy
  · rintro ⟨p, q, -, -, hy⟩
    obtain ⟨hrel, hcond⟩ := Option.filter_eq_some_iff.mp hy
    obtain ⟨rfl, q, msgs, rest, hq, hph, -⟩ := relayStep_some hrel
    have hactive : q.Serving := by
      unfold CanisterPoller.Serving
      rw [hph]
      rfl
    have hentry := ht.entry_of_active hq hactive
    have hstored : (t.gateway.clients q.pollerState).lookup y.message.clientKey = some ⟨i⟩ := by
      simpa [hq] using hcond
    obtain ⟨hc', hk'⟩ := stored_keys hr hq hactive hstored
    rw [hc, Option.some.injEq] at hc'
    rw [hk, Option.some.injEq] at hk'
    refine Option.filter_eq_some_iff.mpr ⟨hrel, decide_eq_true ⟨?_, hk'.symm, ?_⟩⟩
    · rw [hq, Option.map_some, hc']
    · rw [World.Registered, hc', hentry, Option.bind_some, hk']
      exact hstored

/-- The poller of the poller state that a session joined puts what the session gets. -/
theorem delivered_by (hr : Runs cfg h w) (hc : (w.handlers i).session.canisterId = some c)
    (hk : (w.handlers i).session.clientKey = some k) {q : CanisterPoller} (hq : w.pollers p = some q)
    (hj : joined h i = some q.pollerState) :
    h.filterMap (putOn i) = h.filterMap (putBy p i) ∧
      h.filterMap (deliveryStep i c k) = h.filterMap (foundStep p i) := by
  have honly : ∀ p' q', w.pollers p' = some q' → joined h i = some q'.pollerState → p' = p := by
    intro p' q' hq' hj'
    rw [hj, Option.some.injEq] at hj'
    exact poller_unique (reachable hr) hq' hq hj'.symm
  constructor
  · refine List.filterMap_congr fun x hx => Option.ext fun m => ⟨fun hm => ?_, fun hm => ?_⟩
    · obtain ⟨p', q', hq', hj', hm'⟩ := puts_of_poller hr hx hm
      rw [← honly p' q' hq' hj']
      exact hm'
    · unfold putBy at hm
      split at hm
      · split_ifs at hm
        exact hm
      · cases hm
  · refine List.filterMap_congr fun x hx => Option.ext fun y => ?_
    rw [finds_registered hr hx hc hk]
    constructor
    · rintro ⟨p', q', hq', hj', hy⟩
      rw [← honly p' q' hq' hj']
      exact hy
    · exact fun hy => ⟨p, q, hq, hj, hy⟩

/-- A session that has not joined the poller state of any poller gets nothing. -/
theorem delivered_none (hr : Runs cfg h w) (hc : (w.handlers i).session.canisterId = some c)
    (hk : (w.handlers i).session.clientKey = some k)
    (hno : ∀ p q, w.pollers p = some q → joined h i ≠ some q.pollerState) :
    h.filterMap (putOn i) = [] ∧ h.filterMap (deliveryStep i c k) = [] := by
  constructor <;> refine List.filterMap_eq_nil_iff.mpr fun x hx => Option.eq_none_iff_forall_ne_some.mpr ?_
  · intro m hm
    obtain ⟨p, q, hq, hj, -⟩ := puts_of_poller hr hx hm
    exact hno p q hq hj
  · intro y hy
    obtain ⟨p, q, hq, hj, -⟩ := (finds_registered hr hx hc hk).mp hy
    exact hno p q hq hj

theorem foundStep_sublist (h : List (World × Event)) (p : PollerId) (i : ClientId) :
    List.Sublist (h.filterMap (foundStep p i)) (h.filterMap (relayStep p)) := by
  induction h with
  | nil => exact List.Sublist.slnil
  | cons x h ih =>
    rw [List.filterMap_cons, List.filterMap_cons]
    rcases hy : relayStep p x with _ | y
    · rw [foundStep_none hy]
      exact ih
    · rcases hf : foundStep p i x with _ | y'
      · exact ih.cons y
      · obtain ⟨hy', -⟩ := Option.filter_eq_some_iff.mp hf
        rw [hy, Option.some.injEq] at hy'
        subst hy'
        exact ih.cons_cons y

/-- Session `i` gets on its channel, in the order of the relay steps of a poller of its
canister, what is relayed for its key while it is registered: each message once, with its
own key and content and the certificate and tree of its batch, up to the one that the
poller is about to put. -/
def GetsInOrder (h : List (World × Event)) (w : World) (i : ClientId) (c : CanisterPrincipal)
    (k : ClientKey) : Prop :=
  ∃ p, (∀ q, w.pollers p = some q → q.canisterId = c) ∧
    h.filterMap (putOn i) ++ w.inFlight p i = (h.filterMap (deliveryStep i c k)).map (fun y =>
      { key := y.message.key, content := y.message.content, cert := y.cert, tree := y.tree }) ∧
    List.Sublist (h.filterMap (deliveryStep i c k)) (h.filterMap (relayStep p))

/-- A poller that delivers to the sessions of a canister is one of that canister. -/
theorem delivery_canister (hr : Runs cfg h w) {x : World × Event} (hx : x ∈ h) {y y' : RelayStep}
    (hy : deliveryStep i c k x = some y) (hf : foundStep p i x = some y') {q : CanisterPoller}
    (hq : w.pollers p = some q) : q.canisterId = c := by
  obtain ⟨t, e⟩ := x
  obtain ⟨h₁, h₂, rfl⟩ := List.append_of_mem hx
  obtain ⟨hr₁, t', he, hr₂⟩ := hr.at_event
  obtain ⟨hrel, -⟩ := Option.filter_eq_some_iff.mp hf
  obtain ⟨rfl, q₀, msgs, rest, hq₀, -⟩ := relayStep_some hrel
  obtain ⟨-, hcond⟩ := Option.filter_eq_some_iff.mp hy
  obtain ⟨hc, -, -⟩ := of_decide_eq_true hcond
  obtain ⟨q', hq', hc', -⟩ := poller_keeps (LTS.run_cons he hr₂) (reachable hr₁) hq₀
  rw [hq₀, Option.map_some, Option.some.injEq] at hc
  rw [hq, Option.some.injEq] at hq'
  rw [hq', hc', hc]

theorem gets_in_order (hr : Runs cfg h w) (hc : (w.handlers i).session.canisterId = some c)
    (hk : (w.handlers i).session.clientKey = some k) : GetsInOrder h w i c k := by
  by_cases hany : h.filterMap (deliveryStep i c k) = []
  · -- nothing is delivered, so nothing is put by any poller
    have hput : h.filterMap (putOn i) = [] := by
      by_cases hp : ∃ p q, w.pollers p = some q ∧ joined h i = some q.pollerState
      · obtain ⟨p, q, hq, hj⟩ := hp
        obtain ⟨hput, hdel⟩ := delivered_by hr hc hk hq hj
        have hall := poller_puts hr p i
        rw [← hdel, hany, List.map_nil] at hall
        rw [hput]
        exact (List.append_eq_nil_iff.mp hall.symm).1
      · push Not at hp
        exact (delivered_none hr hc hk hp).1
    have hnone := (reachable hr).next_none
    refine ⟨w.nextPoller, by simp [hnone], ?_, ?_⟩
    · rw [hput, hany, World.inFlight, hnone]
      rfl
    · rw [hany]
      exact List.nil_sublist _
  · obtain ⟨y, hy⟩ := List.exists_mem_of_ne_nil _ hany
    obtain ⟨x, hx, hxy⟩ := List.mem_filterMap.mp hy
    obtain ⟨p, q, hq, hj, hf⟩ := (finds_registered hr hx hc hk).mp hxy
    obtain ⟨hput, hdel⟩ := delivered_by hr hc hk hq hj
    refine ⟨p, fun q' hq' => delivery_canister hr hx hxy hf hq', ?_, ?_⟩
    · rw [hput, hdel]
      exact (poller_puts hr p i).symm
    · rw [hdel]
      exact foundStep_sublist h p i

/-- A session that has no keys yet gets nothing. -/
theorem puts_keyed (hr : Runs cfg h w) (hc : (w.handlers i).session.canisterId = none) :
    h.filterMap (putOn i) = [] := by
  refine List.filterMap_eq_nil_iff.mpr fun x hx => Option.eq_none_iff_forall_ne_some.mpr fun m hm => ?_
  obtain ⟨p, q, k, msgs, -, hq, hph⟩ := putOn_cases hm
  obtain ⟨t, e⟩ := x
  obtain ⟨h₁, h₂, rfl⟩ := List.append_of_mem hx
  have hk := ((reachable hr.at_event.1).sending_open hq hph).1
  have hactive : q.Serving := by
    unfold CanisterPoller.Serving
    rw [hph]
    rfl
  have hkeys := (stored_keys hr hq hactive hk).1
  rw [hc] at hkeys
  cases hkeys

/-- What session `i` got on its channel it sends on its WebSocket in that order and once,
up to what is still buffered and a last message, in hand or lost when it left. -/
def SendsInOrder (h : List (World × Event)) (w : World) (i : ClientId) : Prop :=
  ∃ lost, h.filterMap (putOn i) = h.flatMap (sentBy i) ++ lost ++ w.buffer i ∧ lost.length ≤ 1 ∧
    ((w.handlers i).phase.inService = true → lost = (w.handlers i).phase.inHand)

theorem sends_in_order (hr : Runs cfg h w) (i : ClientId) : SendsInOrder h w i := by
  obtain ⟨lost, hrec, hlen, hhand⟩ := socket_in_order hr i
  have hfifo := channel_fifo hr i
  have hnew : World.new.buffer i = [] := rfl
  rw [hnew, List.nil_append, hrec] at hfifo
  exact ⟨lost, hfifo, hlen, hhand⟩

/-- With distinct keys a session is registered from its insert on, until it leaves or its
poller fails. -/
theorem member_registered (hr : Runs cfg h w) (hd : DistinctKeys w) (hs : w.registry.seat i = .member c k) :
    w.Registered i c k ∨ ∃ p q, w.pollers p = some q ∧ joined h i = some q.pollerState ∧ q.Failed := by
  obtain ⟨life, ho, hro, hse⟩ := seated hr hd
  obtain ⟨r, hm, hkeep⟩ := hse i c k hs
  have hx : (w.gateway.clients r).lookup k = some ⟨i⟩ := by
    simp only [World.registry, Option.map_eq_some_iff] at hm
    obtain ⟨⟨x⟩, hx, rfl⟩ := hm
    exact hx
  rcases hkeep with he | ⟨p, hp⟩
  · have hentry : w.gateway.data.lookup c = some r := (ho.entry c r).mpr he
    apply Or.inl
    rw [World.Registered, hentry, Option.bind_some]
    exact hx
  · obtain ⟨q, hq, rfl, -, hf⟩ := failed_of_done ho hp
    exact Or.inr ⟨p, q, hq, joined_of_stored hr hx, hf⟩

/-- **In-order, exactly-once delivery.** With a numbered log and answers from it: what a
poller relays, followed by the rest of its batch, is the segment of its canister's log
that ends at its nonce, each message with the certificate and tree of its batch; a
session gets the messages for its key that are relayed while it is registered, in that
order and once each, and one without keys gets none; and it sends them on in that order. -/
theorem in_order_exactly_once {base : CanisterPrincipal → ℕ} (hr : Runs cfg h w) (hd : DistinctKeys w)
    (hn : NumberedLogs base w) (ha : LTS.Along (AnswersFromLog base) h) :
    (∀ p q, w.pollers p = some q →
      Consumed (base q.canisterId) (w.logs q.canisterId) (q.taken p h) q.nextMessageNonce) ∧
    (∀ p, ∀ x ∈ h.filterMap (relayStep p), ∃ t out, (t, Event.pollReply p (.replied (.ok out))) ∈ h ∧
      x.message ∈ out.messages ∧ x.cert = out.cert ∧ x.tree = out.tree) ∧
    (∀ i c k, (w.handlers i).session.canisterId = some c → (w.handlers i).session.clientKey = some k →
      GetsInOrder h w i c k) ∧
    (∀ i, (w.handlers i).session.canisterId = none → h.filterMap (putOn i) = []) ∧
    (∀ i c k, w.registry.seat i = .member c k → w.Registered i c k ∨
      ∃ p q, w.pollers p = some q ∧ joined h i = some q.pollerState ∧ q.Failed) ∧
    ∀ i, SendsInOrder h w i :=
  ⟨fun _ _ hq => relays_log hr hn ha hq, fun _ _ hx => relayed_batch hr hx,
    fun _ _ _ hc hk => gets_in_order hr hc hk, fun _ hc => puts_keyed hr hc,
    fun _ _ _ hs => member_registered hr hd hs, fun i => sends_in_order hr i⟩

/-- Two messages for a client, and between them one for another client. -/
def queued (k k' : ClientKey) : List CanisterOutputMessage :=
  [⟨k, "gateway_5", [50]⟩, ⟨k', "gateway_6", [60]⟩, ⟨k, "gateway_7", [70]⟩]

/-- A canister queues them, and the client opens a session. -/
def queuesFor (c : CanisterPrincipal) (k k' : ClientKey) : List Event :=
  (queued k k').map (.append c) ++ opens 0 (wsOpen c k)

/-- The poller relays the messages, without a client for the second one, and the session
sends those that it gets. -/
def relaysBoth : List Event :=
  [.relay 0, .put 0, .relay 0, .recv 0, .update 0 .ok, .relay 0, .put 0, .recv 0, .update 0 .ok]

/-- A canister that has queued nothing has an empty log. -/
theorem logs_nil (hr : Runs cfg h w) (hno : ∀ x ∈ h, ∀ m, x.2 ≠ .append c m) : w.logs c = [] := by
  induction hr with
  | nil => rfl
  | @snoc h t t' e hr he ih =>
    have ih := ih fun x hx => hno x (List.mem_append_left _ hx)
    obtain hl | ⟨c', m, hev, hl⟩ := step_logs he
    · rw [hl]
      exact ih
    · have hc : c ≠ c' := by
        rintro rfl
        exact hno (t, e) (by simp) m hev
      rw [hl, Function.update_of_ne hc]
      exact ih

/-- The logs after a course of events in which only one canister queues messages. -/
theorem numberedLogs_after {es : List Event} (hes : (LTS.exec (step cfg) World.new es).isSome) {b : ℕ}
    (hno : ∀ e ∈ es, ∀ c' m', e = .append c' m' → c' = c)
    (hlog : NumberedFrom b ((World.after cfg es).logs c)) :
    NumberedLogs (fun _ => b) (World.after cfg es) := by
  intro c'
  by_cases hc : c' = c
  · rw [hc]
    exact hlog
  · have hnil : (World.after cfg es).logs c' = [] := by
      refine logs_nil (runs_after hes) fun x hx m'' hev => ?_
      exact hc (hno x.2 (LTS.mem_trace hx) c' m'' hev)
    rw [hnil]
    exact numberedFrom_nil b

/-- A history with one reply, which is an answer from the log. -/
theorem answers_once {base : CanisterPrincipal → ℕ} {h₁ h₂ : List (World × Event)} {w₀ : World} {e₀ : Event}
    (h0 : AnswersFromLog base h₁ w₀ e₀)
    (hno : ∀ x ∈ h₁ ++ h₂, ∀ p out, x.2 ≠ .pollReply p (.replied (.ok out))) :
    LTS.Along (AnswersFromLog base) (h₁ ++ (w₀, e₀) :: h₂) :=
  LTS.along_once h0 fun x hx _ p _ out he => absurd he (hno x hx p out)

/-- The three messages are polled in one batch and relayed. -/
def deliversBoth (c : CanisterPrincipal) (k k' : ClientKey) : List Event :=
  queuesFor c k k' ++ .pollReply 0 (.replied (.ok ⟨queued k k', [1], [2], some true⟩)) :: relaysBoth

set_option maxRecDepth 20000 in
/-- The client has got the two messages for it in order, and nothing else. -/
theorem in_order_exactly_once_both :
    GetsInOrder (LTS.trace (step .simple) World.new (deliversBoth [9] ⟨[1], 1⟩ ⟨[2], 2⟩))
      (World.after .simple (deliversBoth [9] ⟨[1], 1⟩ ⟨[2], 2⟩)) 0 [9] ⟨[1], 1⟩ ∧
    (LTS.trace (step .simple) World.new (deliversBoth [9] ⟨[1], 1⟩ ⟨[2], 2⟩)).filterMap (putOn 0) =
      [⟨"gateway_5", [50], [1], [2]⟩, ⟨"gateway_7", [70], [1], [2]⟩] := by
  have h₁ : (LTS.exec (step .simple) World.new (queuesFor [9] ⟨[1], 1⟩ ⟨[2], 2⟩)).isSome := by decide
  have hes : (LTS.exec (step .simple) World.new (deliversBoth [9] ⟨[1], 1⟩ ⟨[2], 2⟩)).isSome := by decide
  have he : (step .simple (World.after .simple (queuesFor [9] ⟨[1], 1⟩ ⟨[2], 2⟩))
      (.pollReply 0 (.replied (.ok ⟨queued ⟨[1], 1⟩ ⟨[2], 2⟩, [1], [2], some true⟩)))).isSome := by decide
  obtain ⟨w₁, he⟩ := Option.isSome_iff_exists.mp he
  have hr := runs_after hes
  have hlog : (World.after .simple (deliversBoth [9] ⟨[1], 1⟩ ⟨[2], 2⟩)).logs [9] =
      queued ⟨[1], 1⟩ ⟨[2], 2⟩ := by decide
  have hn : NumberedLogs (fun _ => 5) (World.after .simple (deliversBoth [9] ⟨[1], 1⟩ ⟨[2], 2⟩)) := by
    refine numberedLogs_after (c := [9]) hes (by simp [deliversBoth, queuesFor, queued, opens, relaysBoth]) ?_
    rw [hlog]
    apply NumberedFrom.cons (n := 5) (by decide) (by decide)
    apply NumberedFrom.cons (n := 6) (by decide) (by decide)
    apply NumberedFrom.cons (n := 7) (by decide) (by decide)
    exact numberedFrom_nil _
  have ha : LTS.Along (AnswersFromLog fun _ => 5)
      (LTS.trace (step .simple) World.new (deliversBoth [9] ⟨[1], 1⟩ ⟨[2], 2⟩)) := by
    rw [deliversBoth, trace_after h₁ he]
    refine answers_once (fun p q out hev hp => ?_) fun x hx p out hev => ?_
    · -- the poller asks from nonce 0 on
      have hq : (World.after .simple (queuesFor [9] ⟨[1], 1⟩ ⟨[2], 2⟩)).pollers 0 = some ⟨[9], 0, 0, .polling⟩ := by
        decide
      have hlogs : (World.after .simple (queuesFor [9] ⟨[1], 1⟩ ⟨[2], 2⟩)).logs [9] =
          queued ⟨[1], 1⟩ ⟨[2], 2⟩ := by decide
      cases hev
      rw [hq] at hp
      cases hp
      exact ⟨0, by rw [hlogs]; exact List.prefix_rfl, fun h0 => absurd rfl h0⟩
    · -- no other event is a reply
      have hmem : x.2 ∈ queuesFor [9] ⟨[1], 1⟩ ⟨[2], 2⟩ ++ relaysBoth :=
        List.mem_append.mpr ((List.mem_append.mp hx).imp LTS.mem_trace LTS.mem_trace)
      rw [hev] at hmem
      revert hmem
      simp [queuesFor, queued, opens, relaysBoth]
  exact ⟨(in_order_exactly_once hr (distinctKeys_after hes 1 (by decide) (by decide)) hn ha).2.2.1 0 [9] ⟨[1], 1⟩
    (by decide) (by decide), by decide⟩

end IcWsGateway
