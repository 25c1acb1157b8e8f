/-
# References, counts and what is left behind

A poller state lives as long as somebody holds a reference to it: the entry of
its canister, the handler that has the token to start its poller, or that
poller until its task ends. The counts of the gateway state are the numbers of
these holders in every reachable state. A session whose handler has given its
sender away finds its channel closed exactly when none of the holders leads to the
sender (`references_counted`).

`get_active_pollers_count` counts entries. They are the pollers that serve, the
handlers about to start one, and the entries that were left without a poller
during the run, which stay for good (`active_pollers_count`). So once all
sessions and pollers are through, nothing is left but those (`nothing_left_behind`).

Key definitions: `World.holders`, `World.Held`, `World.ChannelClosed`,
`World.Abandoned`.
Key theorems: `references_counted`, `active_pollers_count`,
`nothing_left_behind`.
-/
import IcWsGateway.FailedSetup
import IcWsGateway.Lib.Holders

namespace IcWsGateway

variable {cfg : Config} {w w' : World} {h : List (World × Event)} {e : Event} {i : ClientId}
  {c : CanisterPrincipal} {r : PollerRef} {p : PollerId}

/-! ### The holders of a poller state -/

/-- The poller's task still runs, and owns its poller state. -/
def CanisterPoller.Running (q : CanisterPoller) : Prop := ∀ x, q.phase ≠ .ended x

/-- The number of references to a poller state. -/
noncomputable def World.holders (w : World) (r : PollerRef) : ℕ :=
  {c | w.gateway.data.lookup c = some r}.ncard + {i | (w.handlers i).phase.token = some r}.ncard +
    {p | ∃ q, w.pollers p = some q ∧ q.pollerState = r ∧ q.Running}.ncard

/-- Somebody holds a reference to the poller state. -/
def World.Held (w : World) (r : PollerRef) : Prop :=
  (∃ c, w.gateway.data.lookup c = some r) ∨ (∃ i, (w.handlers i).phase.token = some r) ∨
    ∃ p q, w.pollers p = some q ∧ q.pollerState = r ∧ q.Running

theorem holding_iff (q : CanisterPoller) : q.phase.stage.Holding ↔ q.Running := by
  unfold CanisterPoller.Running
  constructor
  · intro hh x hx
    rw [hx] at hh
    rcases x with r | m
    · cases r <;> exact hh
    · exact hh
  · intro hn
    cases hph : q.phase with
    | ended x => exact absurd hph (hn x)
    | returned x => cases x <;> trivial
    | _ => trivial

/-- The poller of a roster, in the registry. -/
theorem worker_holding_iff (w : World) (p : PollerId) (r : PollerRef) :
    (∃ c x, w.registry.worker p = some (c, r, x) ∧ x.Holding) ↔
      ∃ q, w.pollers p = some q ∧ q.pollerState = r ∧ q.Running := by
  constructor
  · rintro ⟨c, x, hp, hx⟩
    obtain ⟨q, hq, hv⟩ := Option.map_eq_some_iff.mp hp
    obtain ⟨-, rfl, rfl⟩ : q.canisterId = c ∧ q.pollerState = r ∧ q.phase.stage = x := by simpa using hv
    exact ⟨q, hq, rfl, (holding_iff q).mp hx⟩
  · rintro ⟨q, hq, rfl, hx⟩
    exact ⟨q.canisterId, q.phase.stage, registry_worker hq, (holding_iff q).mpr hx⟩

theorem Sound.strong_eq (hw : Sound w) (r : PollerRef) : w.gateway.strong r = w.holders r := by
  obtain ⟨life, ho, -⟩ := hw.lives
  have hworkers : w.registry.workersOf r = {p | ∃ q, w.pollers p = some q ∧ q.pollerState = r ∧ q.Running} :=
    Set.ext fun p => worker_holding_iff w p r
  have hstrong : w.gateway.strong r = w.registry.holders r := ho.strong_eq r
  rw [hstrong, Registry.State.holders, hworkers]
  rfl

theorem Sound.held_iff (hw : Sound w) (r : PollerRef) : 0 < w.gateway.strong r ↔ w.Held r := by
  obtain ⟨life, ho, -⟩ := hw.lives
  have hpos : 0 < w.gateway.strong r ↔ _ := ho.held_iff r
  rw [hpos]
  apply or_congr Iff.rfl
  apply or_congr Iff.rfl
  exact exists_congr fun p => worker_holding_iff w p r

/-- What is held has been made. -/
theorem Sound.held_lt (hw : Sound w) (hr : 0 < w.gateway.strong r) : r < w.gateway.nextRef := by
  obtain ⟨life, ho, -⟩ := hw.lives
  by_contra hge
  have hstrong : w.gateway.strong r = (life r).holders := ho.strong r
  rw [hstrong, (ho.unborn r).mpr (Nat.le_of_not_lt hge)] at hr
  cases hr

/-- The handler still has the sender of its channel, or is about to insert it. -/
def Handler.HasSender (h : Handler) : Prop := h.clientChannelTx ≠ none ∨ ∃ m c k tx, h.phase = .setup m c k tx

/-- All senders of the channel of session `i` are gone. -/
def World.ChannelClosed (w : World) (i : ClientId) : Prop :=
  ¬ (w.handlers i).HasSender ∧ w.gateway.SenderDropped i

/-- No poller state that is held has the sender of a session exactly if it is dropped. -/
theorem Sound.senderDropped_iff (hw : Sound w) (i : ClientId) :
    w.gateway.SenderDropped i ↔ ∀ r, w.Held r → ∀ k, (w.gateway.clients r).lookup k ≠ some ⟨i⟩ := by
  constructor
  · intro hd r hheld k hk
    have hpos := (hw.held_iff r).mpr hheld
    exact hd r (hw.held_lt hpos) hpos (FiniteMap.stores_iff.mpr ⟨k, hk⟩)
  · intro hall r _ hpos hs
    obtain ⟨k, hk⟩ := FiniteMap.stores_iff.mp hs
    exact hall r ((hw.held_iff r).mp hpos) k hk

/-- A session that waits with nothing in its channel reads `None` exactly if it is closed. -/
theorem recv_closed_iff (hph : (w.handlers i).phase = .awaiting)
    (hrx : (w.handlers i).session.clientChannelRx = []) :
    (step cfg w (.recv i)).isSome ↔ w.ChannelClosed i := by
  have hsender : ¬ (w.handlers i).HasSender ↔ (w.handlers i).clientChannelTx = none := by
    constructor
    · intro hno
      by_contra hne
      exact hno (Or.inl hne)
    · rintro hn (hne | ⟨m, c, k, tx, hs⟩)
      · exact hne hn
      · rw [hph] at hs
        cases hs
  simp only [step, World.recv, hph, hrx, World.ChannelClosed, hsender]
  split_ifs with hcond
  · exact ⟨fun _ => hcond, fun _ => rfl⟩
  · exact ⟨fun hsome => (Bool.false_ne_true hsome).elim, fun h => absurd h hcond⟩

/-- **References are counted.** In every reachable state the count of a poller state is the
number of entries, tokens and pollers that refer to it; the channel of a session is closed
exactly if its handler has given its sender away and none of the poller states they refer to
has it; and a session that waits with nothing in its channel reads `None` exactly then. -/
theorem references_counted (hr : Runs cfg h w) :
    (∀ r, w.gateway.strong r = w.holders r) ∧
      (∀ i, w.ChannelClosed i ↔ ¬ (w.handlers i).HasSender ∧
        ∀ r, w.Held r → ∀ k, (w.gateway.clients r).lookup k ≠ some ⟨i⟩) ∧
      ∀ i, (w.handlers i).phase = .awaiting → (w.handlers i).session.clientChannelRx = [] →
        ((step cfg w (.recv i)).isSome ↔ w.ChannelClosed i) := by
  have hw := reachable hr
  exact ⟨hw.strong_eq, fun i => and_congr_right fun _ => hw.senderDropped_iff i,
    fun i hph hrx => recv_closed_iff hph hrx⟩

/-- A client has registered, and its poller runs: there are two references. -/
theorem references_counted_opens :
    (World.after .simple (opens 0 (wsOpen [9] ⟨[1], 1⟩))).holders 0 = 2 := by
  have hr : Runs .simple _ (World.after .simple (opens 0 (wsOpen [9] ⟨[1], 1⟩))) := runs_after (by decide)
  rw [← (references_counted hr).1 0]
  decide

/-! ### Entries without a poller -/

/-- The canister has an entry, and no poller that runs or is about to be started. -/
def World.Abandoned (w : World) (c : CanisterPrincipal) : Prop :=
  ∃ r, w.gateway.data.lookup c = some r ∧ ¬ w.Attended c r

/-- The poller that a handler is about to start is that of an entry. -/
theorem Sound.toStart_offered (hw : Sound w) {life : ℕ → Registry.Life CanisterPrincipal ClientId}
    (ho : Registry.Own w.registry life) (hts : (w.handlers i).phase.toStart = some (c, r)) :
    life r = .offered c i := by
  obtain ⟨c', hl⟩ := (ho.token i r).mp (toStart_token hts)
  obtain ⟨k', hs'⟩ := ho.offered r c' i hl
  have hseat : ∃ k, w.registry.seat i = .member c k := by
    show ∃ k, (w.handlers i).seat = .member c k
    unfold Phase.toStart at hts
    split at hts
    · rename_i m c₀ k t hph
      obtain ⟨rfl, rfl⟩ : c₀ = c ∧ t = r := by simpa using hts
      exact ⟨k, seat_of_keyed ((hw.wf i).relayingOpen hph).1 (by rw [hph]; rfl)⟩
    · rename_i c₀ t hph
      obtain ⟨rfl, rfl⟩ : c₀ = c ∧ t = r := by simpa using hts
      obtain ⟨k, hk, -⟩ := (hw.wf i).startingPoller hph
      exact ⟨k, seat_of_keyed hk (by rw [hph]; rfl)⟩
    · cases hts
  obtain ⟨k, hs⟩ := hseat
  rw [hs] at hs'
  cases hs'
  exact hl

theorem Sound.toStart_entry (hw : Sound w) (hts : (w.handlers i).phase.toStart = some (c, r)) :
    w.gateway.data.lookup c = some r := by
  obtain ⟨life, ho, -⟩ := hw.lives
  exact (ho.entry c r).mpr (by rw [hw.toStart_offered ho hts]; rfl)

/-- A poller that serves after an event did so before, or was about to be started. -/
theorem serving_before (he : step cfg w e = some w') {q' : CanisterPoller} (hq' : w'.pollers p = some q')
    (hs : q'.Serving) : w.Attended q'.canisterId q'.pollerState := by
  have hp := step_poller he p
  rw [hq'] at hp
  generalize hq : w.pollers p = x at hp
  have hactive : ∀ q, x = some q → q.phase.stage = .active → w.Attended q.canisterId q.pollerState :=
    fun q hx hq₀ => Or.inl ⟨p, q, hq.trans hx, hq₀, rfl, rfl⟩
  unfold CanisterPoller.Serving at hs
  cases hp with
  | other => exact hactive q' rfl hs
  | start phase fresh => exact Or.inr ⟨_, by rw [phase]; rfl⟩
  | noncePanic | terminate | fail | failPanic => cases hs
  | @stop q r phase =>
    rcases r with y | y <;> cases hs
  | pollFailed phase | polled phase | nonceFailed phase | timedOut phase | noMessages phase
  | relayed phase | send phase | skip phase | put phase | wake phase | goOn phase =>
    have hat := hactive _ rfl (by rw [phase]; rfl)
    exact hat

theorem dispatch_toStart (a : Handler) (r : Outcome IcWsError (Option IcWsSessionState)) :
    (a.dispatch r).phase.toStart = none ∨ (a.dispatch r).phase = a.phase := by
  unfold Handler.dispatch
  split
  · exact Or.inl rfl
  · exact Or.inl rfl
  · exact Or.inl rfl
  · split <;> exact Or.inl rfl
  · split <;> exact Or.inl rfl
  · split <;> exact Or.inl rfl
  · exact Or.inl rfl
  · split <;> exact Or.inl rfl

/-- A poller that is about to be started after an event was so before, unless the event made
its entry. -/
theorem toStart_before (he : step cfg w e = some w') (hts : (w'.handlers i).phase.toStart = some (c, r)) :
    (w.handlers i).phase.toStart = some (c, r) ∨ insertsNew c (w, e) := by
  have hh := step_handler he i
  generalize hh' : w'.handlers i = b at hh hts
  generalize ha : w.handlers i = a at hh
  cases hh with
  | other | push => exact Or.inl hts
  | @insert m c' k tx phase =>
    obtain ⟨rfl, hsome⟩ := toStart_relayingOpen hts
    rw [← ha] at phase
    refine Or.inr ?_
    simp only [insertsNew, phase, hsome, Option.isSome_some, and_self, decide_true]
  | relayOpen phase =>
    obtain ⟨rfl, rfl⟩ := toStart_startingPoller hts
    rw [phase]
    exact Or.inl rfl
  | @update u io s out x phase =>
    rcases dispatch_toStart { a with session := s } x with hn | hph
    · rw [hn] at hts
      cases hts
    · rw [hph] at hts
      exact Or.inl hts
  | _ => cases hts

/-- An entry is removed by the poller that serves it. -/
theorem removesEntry_attended (hw : Sound w) (he : step cfg w e = some w') (hrm : removesEntry c (w, e))
    (hl : w.gateway.data.lookup c = some r) : w.Attended c r := by
  have hserving : ∀ p q, w.pollers p = some q → q.canisterId = c → q.Serving → w.Attended c r := by
    intro p q hq hc hs
    have hentry := hw.entry_of_active hq hs
    rw [hc, hl] at hentry
    exact Or.inl ⟨p, q, hq, hs, hc, (Option.some.inj hentry).symm⟩
  cases step_cases he with
  | @terminate p q _ poller phase | @goOn p q poller phase =>
    simp only [removesEntry, poller, Option.any_some, decide_eq_true_eq] at hrm
    exact hserving p q poller hrm.1 (by rw [CanisterPoller.Serving, phase]; rfl)
  | @fail p q _ _ poller phase | @failPanic p q _ _ poller phase =>
    simp only [removesEntry, poller, Option.any_some, decide_eq_true_eq] at hrm
    exact hserving p q poller hrm.1 (by rw [CanisterPoller.Serving, phase]; rfl)
  | _ => cases hrm

/-- An entry without a poller stays so for good. -/
theorem World.Abandoned.next (ha : w.Abandoned c) (hw : Sound w) (he : step cfg w e = some w') :
    w'.Abandoned c := by
  obtain ⟨r, hl, hat⟩ := ha
  have hi : ¬ insertsNew c (w, e) := by
    intro hi
    rw [(insertsNew_entry he hi).1] at hl
    cases hl
  have hrm : ¬ removesEntry c (w, e) := fun hrm => hat (removesEntry_attended hw he hrm hl)
  refine ⟨r, (entry_unchanged he hi hrm).trans hl, ?_⟩
  rintro (⟨p, q, hq, hs, rfl, rfl⟩ | ⟨j, hts⟩)
  · exact hat (serving_before he hq hs)
  · rcases toStart_before he hts with hts | hnew
    · exact hat (Or.inr ⟨j, hts⟩)
    · exact hi hnew

/-- Other events leave no entry without a poller. -/
theorem abandoned_before (hw : Sound w) (he : step cfg w e = some w') (hok : ¬ abandons cfg (w, e))
    (ha : w'.Abandoned c) : w.Abandoned c := by
  obtain ⟨r, hl, hat⟩ := ha
  have hi : ¬ insertsNew c (w, e) := by
    intro hi
    obtain ⟨r', hl', hat'⟩ := insertsNew_attended hw he hi
    rw [hl, Option.some.injEq] at hl'
    exact hat (hl' ▸ hat')
  have hrm : ¬ removesEntry c (w, e) := by
    intro hrm
    rw [(removesEntry_entry he hrm).2] at hl
    cases hl
  refine ⟨r, (entry_unchanged he hi hrm).symm.trans hl, ?_⟩
  exact fun hat' => hat (hat'.next hw he hok hrm)

/-! ### Who attends to an entry -/

/-- A poller, or a handler that is about to start one. -/
abbrev Attendant := PollerId ⊕ ClientId

/-- The attendant serves the entry of `c` with the poller state `r`, or is about to have it
served. -/
def World.Attends (w : World) (a : Attendant) (c : CanisterPrincipal) (r : PollerRef) : Prop :=
  match a with
  | .inl p => ∃ q, w.pollers p = some q ∧ q.Serving ∧ q.canisterId = c ∧ q.pollerState = r
  | .inr i => (w.handlers i).phase.toStart = some (c, r)

theorem attended_iff : w.Attended c r ↔ ∃ a, w.Attends a c r := by
  rw [Sum.exists]
  rfl

/-- An attendant attends to one entry. -/
theorem World.Attends.entry {a : Attendant} {c' : CanisterPrincipal} {r' : PollerRef} (ha : w.Attends a c r)
    (ha' : w.Attends a c' r') : c = c' ∧ r = r' := by
  rcases a with p | i
  · obtain ⟨q, hq, -, rfl, rfl⟩ := ha
    obtain ⟨q', hq', -, rfl, rfl⟩ := ha'
    rw [hq] at hq'
    cases hq'
    exact ⟨rfl, rfl⟩
  · have heq : some (c, r) = some (c', r') := Eq.trans (Eq.symm ha) ha'
    cases heq
    exact ⟨rfl, rfl⟩

theorem World.Attends.lookup {a : Attendant} (ha : w.Attends a c r) (hw : Sound w) :
    w.gateway.data.lookup c = some r := by
  rcases a with p | i
  · obtain ⟨q, hq, hs, rfl, rfl⟩ := ha
    exact hw.entry_of_active hq hs
  · exact hw.toStart_entry ha

/-- An entry has one attendant. -/
theorem World.Attends.unique {a b : Attendant} {r' : PollerRef} (ha : w.Attends a c r)
    (hb : w.Attends b c r') (hw : Sound w) : a = b := by
  obtain ⟨life, ho, -⟩ := hw.lives
  have hr : r = r' := Option.some.inj ((ha.lookup hw).symm.trans (hb.lookup hw))
  subst hr
  have hlife : ∀ a, w.Attends a c r → life r = match a with
      | .inl p => .worked c p .active
      | .inr i => .offered c i := by
    intro a ha
    rcases a with p | i
    · obtain ⟨q, hq, hs, rfl, rfl⟩ := ha
      have hs' : q.phase.stage = .active := hs
      exact (ho.worker p _ _ _).mp ((registry_worker hq).trans (by rw [hs']))
    · exact hw.toStart_offered ho ha
  have heq := (hlife a ha).symm.trans (hlife b hb)
  rcases a with p | i <;> rcases b with p' | j <;> cases heq <;> rfl

/-- The event that leaves an entry without a poller takes one attendant away, and touches
no entry. -/
theorem abandons_attendant (he : step cfg w e = some w') (hab : abandons cfg (w, e)) :
    (∀ c, w'.gateway.data.lookup c = w.gateway.data.lookup c) ∧
      ∃ a c r, w.Attends a c r ∧ (∀ c r, ¬ w'.Attends a c r) ∧
        ∀ b, b ≠ a → ∀ c r, w'.Attends b c r ↔ w.Attends b c r := by
  obtain ⟨i, io, m, c, k, r, out, x, rfl, hph, hrel⟩ |
    ⟨p, reply, q, msgs, n, y, rfl, hq, hreply, hnonce⟩ := abandons_cases hab
  · refine ⟨fun c => entry_unchanged he Bool.false_ne_true Bool.false_ne_true, .inr i, c, r, by rw [World.Attends, hph]; rfl, ?_, ?_⟩
    · simp only [step, World.relayOpen, hph, hrel] at he
      cases he
      intro c r hts
      simp [World.Attends, Phase.toStart] at hts
    · simp only [step, World.relayOpen, hph, hrel] at he
      cases he
      rintro (p | j) hne c r
      · simp [World.Attends]
      · have hji : j ≠ i := fun hji => hne (by rw [hji])
        simp [World.Attends, hji]
  · have hpolling : q.phase = .polling := by
      by_contra hne
      simp only [step, World.pollReply, hq, hne, if_false] at he
      cases he
    have hserving : q.Serving := by
      rw [CanisterPoller.Serving, hpolling]
      rfl
    refine ⟨fun c => entry_unchanged he Bool.false_ne_true Bool.false_ne_true, .inl p, q.canisterId, q.pollerState,
      ⟨q, hq, hserving, rfl, rfl⟩, ?_, ?_⟩
    · simp only [step, World.pollReply, hq, hpolling, if_true, hreply, hnonce] at he
      cases he
      rintro c r ⟨q', hq', hs', -⟩
      simp only [World.dropPoller, World.setGateway_pollers, World.setPoller_pollers, Function.update_self,
        Option.some.injEq] at hq'
      subst hq'
      cases hs'
    · simp only [step, World.pollReply, hq, hpolling, if_true, hreply, hnonce] at he
      cases he
      rintro (p' | j) hne c r
      · have hpp : p' ≠ p := fun hpp => hne (by rw [hpp])
        simp [World.Attends, World.dropPoller, hpp]
      · rfl

/-- It leaves one more entry without a poller. -/
theorem abandons_one (hw : Sound w) (he : step cfg w e = some w') (hab : abandons cfg (w, e)) :
    ∃ c, ¬ w.Abandoned c ∧ ∀ c', w'.Abandoned c' ↔ c' = c ∨ w.Abandoned c' := by
  obtain ⟨hdata, a, c, r, ha, hgone, hothers⟩ := abandons_attendant he hab
  refine ⟨c, ?_, fun c' => ⟨?_, ?_⟩⟩
  · rintro ⟨r', hl, hat⟩
    rw [ha.lookup hw, Option.some.injEq] at hl
    exact hat (attended_iff.mpr ⟨a, hl ▸ ha⟩)
  · rintro ⟨r', hl, hat⟩
    by_cases hcc : c' = c
    · exact Or.inl hcc
    · refine Or.inr ⟨r', (hdata c').symm.trans hl, fun hat' => hat ?_⟩
      obtain ⟨b, hb⟩ := attended_iff.mp hat'
      have hba : b ≠ a := by
        rintro rfl
        exact hcc (hb.entry ha).1
      exact attended_iff.mpr ⟨b, (hothers b hba c' r').mpr hb⟩
  · rintro (rfl | hold)
    · refine ⟨r, (hdata c').trans (ha.lookup hw), fun hat' => ?_⟩
      obtain ⟨b, hb⟩ := attended_iff.mp hat'
      by_cases hba : b = a
      · exact hgone c' r (hba ▸ hb)
      · exact hba (((hothers b hba c' r).mp hb).unique ha hw)
    · exact hold.next hw he

/-! ### The count of active pollers -/

/-- The entries of the gateway map are finitely many, so every set of them is. -/
theorem finite_of_entries {A : Set CanisterPrincipal} (hA : ∀ c ∈ A, w.gateway.data.lookup c ≠ none) :
    A.Finite := by
  refine Set.Finite.subset w.gateway.data.keys.finite_toSet fun c hc => ?_
  obtain ⟨r, hr⟩ := Option.ne_none_iff_exists'.mp (hA c hc)
  exact Finmap.mem_keys.mpr (Finmap.mem_of_lookup_eq_some hr)

theorem World.Abandoned.entry (ha : w.Abandoned c) : w.gateway.data.lookup c ≠ none := by
  obtain ⟨r, hr, -⟩ := ha
  rw [hr]
  exact nofun

/-- As many entries are without a poller as events have left one so. -/
theorem abandoned_count (hr : Runs cfg h w) : {c | w.Abandoned c}.ncard = h.countP (abandons cfg) := by
  induction hr with
  | nil =>
    have hnone : {c | World.new.Abandoned c} = ∅ := by
      ext c
      refine ⟨fun ha => ?_, fun hc => absurd hc (Set.notMem_empty c)⟩
      exact absurd (FiniteMap.lookup_empty c) ha.entry
    rw [hnone, Set.ncard_empty]
    rfl
  | @snoc h t t' e hr he ih =>
    have ht := reachable hr
    rw [List.countP_append, List.countP_singleton, ← ih]
    by_cases hab : abandons cfg (t, e) = true
    · obtain ⟨c, hc, hall⟩ := abandons_one ht he hab
      have hc' : c ∉ {c | t.Abandoned c} := hc
      have hins : {c | t'.Abandoned c} = insert c {c | t.Abandoned c} := Set.ext hall
      have hfin : {c | t.Abandoned c}.Finite := finite_of_entries fun c hc => World.Abandoned.entry hc
      rw [hins, Set.ncard_insert_of_notMem hc' hfin, if_pos hab]
    · have hsame : {c | t'.Abandoned c} = {c | t.Abandoned c} := by
        ext c
        exact ⟨abandoned_before ht he hab, fun ha => ha.next ht he⟩
      rw [hsame, if_neg hab, Nat.add_zero]

/-- The pollers that serve their canister. -/
def World.servers (w : World) : Set PollerId := {p | ∃ q, w.pollers p = some q ∧ q.Serving}

/-- The handlers that are about to start a poller. -/
def World.starters (w : World) : Set ClientId := {i | (w.handlers i).phase.toStart.isSome}

theorem attendants_eq (w : World) :
    {a | ∃ c r, w.Attends a c r} = Sum.inl '' w.servers ∪ Sum.inr '' w.starters := by
  ext a
  rcases a with p | i
  · simp [World.Attends, World.servers]
  · simp only [World.Attends, World.starters, Set.mem_union, Set.mem_image, reduceCtorEq, and_false,
      exists_false, Sum.inr.injEq, exists_eq_right, false_or, Option.isSome_iff_exists, Prod.exists,
      Set.mem_ofPred_eq]

/-- The attendant of each entry. -/
theorem exists_attendant (hw : Sound w) :
    ∃ f : CanisterPrincipal → Attendant, ∀ a c r, w.Attends a c r → f c = a := by
  have hex : ∀ c, ∃ b, ∀ a r, w.Attends a c r → b = a := by
    intro c
    by_cases hb : ∃ b r, w.Attends b c r
    · obtain ⟨b, r, hb⟩ := hb
      exact ⟨b, fun a r' ha => hb.unique ha hw⟩
    · exact ⟨.inl 0, fun a r ha => absurd ⟨a, r, ha⟩ hb⟩
  choose f hf using hex
  exact ⟨f, fun a c r => hf c a r⟩

/-- Attended entries and attendants are as many. -/
theorem attended_count (hw : Sound w) :
    {c | ∃ r, w.Attended c r}.ncard = w.servers.ncard + w.starters.ncard := by
  obtain ⟨f, hf⟩ := exists_attendant hw
  have hfin : {c | ∃ r, w.Attended c r}.Finite := by
    refine finite_of_entries (w := w) ?_
    rintro c ⟨r, hat⟩
    obtain ⟨a, ha⟩ := attended_iff.mp hat
    rw [ha.lookup hw]
    exact nofun
  have hinj : Set.InjOn f {c | ∃ r, w.Attended c r} := by
    rintro c ⟨r, hat⟩ c' ⟨r', hat'⟩ hff
    obtain ⟨a, ha⟩ := attended_iff.mp hat
    obtain ⟨a', ha'⟩ := attended_iff.mp hat'
    rw [hf a c r ha, hf a' c' r' ha'] at hff
    subst hff
    exact (ha.entry ha').1
  have himage : f '' {c | ∃ r, w.Attended c r} = Sum.inl '' w.servers ∪ Sum.inr '' w.starters := by
    rw [← attendants_eq]
    ext a
    constructor
    · rintro ⟨c, ⟨r, hat⟩, rfl⟩
      obtain ⟨a, ha⟩ := attended_iff.mp hat
      rw [hf a c r ha]
      exact ⟨c, r, ha⟩
    · rintro ⟨c, r, ha⟩
      exact ⟨c, ⟨r, attended_iff.mpr ⟨a, ha⟩⟩, hf a c r ha⟩
  have hunion : (Sum.inl '' w.servers ∪ Sum.inr '' w.starters : Set Attendant).Finite :=
    himage ▸ hfin.image f
  have hdisj : Disjoint (Sum.inl '' w.servers : Set Attendant) (Sum.inr '' w.starters) := by
    rw [Set.disjoint_left]
    rintro a ⟨p, -, rfl⟩ ⟨i, -, hi⟩
    cases hi
  rw [← hinj.ncard_image, himage,
    Set.ncard_union_eq hdisj (hunion.subset Set.subset_union_left) (hunion.subset Set.subset_union_right),
    Set.ncard_image_of_injective _ Sum.inl_injective, Set.ncard_image_of_injective _ Sum.inr_injective]

/-- The entries are those of the attendants, and those without a poller. -/
theorem entries_count (hw : Sound w) : w.gateway.getActivePollersCount =
    w.servers.ncard + w.starters.ncard + {c | w.Abandoned c}.ncard := by
  have hkeys : (w.gateway.data.keys : Set CanisterPrincipal) =
      {c | ∃ r, w.Attended c r} ∪ {c | w.Abandoned c} := by
    ext c
    constructor
    · intro hc
      obtain ⟨r, hl⟩ := Finmap.mem_iff.mp (Finmap.mem_keys.mp hc)
      by_cases hat : w.Attended c r
      · exact Or.inl ⟨r, hat⟩
      · exact Or.inr ⟨r, hl, hat⟩
    · rintro (⟨r, hat⟩ | ⟨r, hl, -⟩)
      · obtain ⟨a, ha⟩ := attended_iff.mp hat
        exact Finmap.mem_keys.mpr (Finmap.mem_of_lookup_eq_some (ha.lookup hw))
      · exact Finmap.mem_keys.mpr (Finmap.mem_of_lookup_eq_some hl)
  have hunion : ({c | ∃ r, w.Attended c r} ∪ {c | w.Abandoned c}).Finite :=
    hkeys ▸ w.gateway.data.keys.finite_toSet
  have hdisj : Disjoint {c | ∃ r, w.Attended c r} {c | w.Abandoned c} := by
    rw [Set.disjoint_left]
    rintro c ⟨r, hat⟩ ⟨r', hl, hat'⟩
    obtain ⟨a, ha⟩ := attended_iff.mp hat
    rw [ha.lookup hw, Option.some.injEq] at hl
    exact hat' (hl ▸ hat)
  rw [GatewayState.getActivePollersCount, ← Set.ncard_coe_finset, hkeys,
    Set.ncard_union_eq hdisj (hunion.subset Set.subset_union_left) (hunion.subset Set.subset_union_right),
    attended_count hw]

/-- **The count of active pollers.** In every reachable state `get_active_pollers_count` is the
number of pollers that serve their canister, of handlers about to start one, and of the events
that have left an entry without a poller during the run; and such an entry is never removed. -/
theorem active_pollers_count (hr : Runs cfg h w) : w.gateway.getActivePollersCount =
      w.servers.ncard + w.starters.ncard + h.countP (abandons cfg) ∧
    {c | w.Abandoned c}.ncard = h.countP (abandons cfg) ∧
    ∀ c, w.Abandoned c → ∀ g u, LTS.Run (step cfg) w g u → u.Abandoned c := by
  refine ⟨by rw [entries_count (reachable hr), abandoned_count hr], abandoned_count hr, fun c ha g u hg => ?_⟩
  have hI : Sound u ∧ u.Abandoned c :=
    hg.state_invariant (I := fun w => Sound w ∧ w.Abandoned c) ⟨reachable hr, ha⟩
      fun _ _ _ hI he => ⟨hI.1.step he, hI.2.next hI.1 he⟩
  exact hI.2

/-- A client has registered, and its poller runs. -/
theorem active_pollers_count_opens :
    (World.after .simple (opens 0 (wsOpen [9] ⟨[1], 1⟩))).servers.ncard +
      (World.after .simple (opens 0 (wsOpen [9] ⟨[1], 1⟩))).starters.ncard +
        (LTS.trace (step .simple) World.new (opens 0 (wsOpen [9] ⟨[1], 1⟩))).countP (abandons .simple) = 1 := by
  have hr : Runs .simple _ (World.after .simple (opens 0 (wsOpen [9] ⟨[1], 1⟩))) := runs_after (by decide)
  rw [← (active_pollers_count hr).1]
  decide

/-! ### What is left behind -/

/-- Every poller's task has ended, and no handler has the token for another one. -/
structure World.PollersThrough (w : World) : Prop where
  pollers : ∀ p q, w.pollers p = some q → ∃ x, q.phase = .ended x
  tokens : ∀ i, (w.handlers i).phase.token = none

theorem World.PollersThrough.not_attends (ht : w.PollersThrough) {a : Attendant} : ¬ w.Attends a c r := by
  intro ha
  rcases a with p | i
  · obtain ⟨q, hq, hs, -⟩ := ha
    obtain ⟨x, hx⟩ := ht.pollers p q hq
    rw [CanisterPoller.Serving, hx] at hs
    rcases x with y | y
    · cases y <;> cases hs
    · cases hs
  · have hn := ht.tokens i
    have hts : (w.handlers i).phase.toStart = some (c, r) := ha
    unfold Phase.toStart at hts
    split at hts
    · rename_i hph
      rw [hph] at hn
      cases hn
    · rename_i hph
      rw [hph] at hn
      cases hn
    · cases hts

/-- **Nothing is left behind.** Once every poller has ended and no token is out, the gateway map
has as many entries as events have left one without a poller. If there was no such event it is
empty, every poller state is freed, and every sender in one has been dropped. -/
theorem nothing_left_behind (hr : Runs cfg h w) (ht : w.PollersThrough) :
    w.gateway.getActivePollersCount = h.countP (abandons cfg) ∧
      ((∀ x ∈ h, ¬ abandons cfg x) →
        w.gateway.data = ∅ ∧ (∀ r, w.gateway.strong r = 0) ∧ ∀ i, w.gateway.SenderDropped i) := by
  have hw := reachable hr
  have hservers : w.servers = ∅ := by
    ext p
    refine ⟨fun hp => ?_, fun hp => absurd hp (Set.notMem_empty p)⟩
    obtain ⟨q, hq, hs⟩ := hp
    have ha : w.Attends (.inl p) q.canisterId q.pollerState := ⟨q, hq, hs, rfl, rfl⟩
    exact absurd ha ht.not_attends
  have hstarters : w.starters = ∅ := by
    ext i
    refine ⟨fun hi => ?_, fun hi => absurd hi (Set.notMem_empty i)⟩
    obtain ⟨⟨c, r⟩, hts⟩ := Option.isSome_iff_exists.mp hi
    have ha : w.Attends (.inr i) c r := hts
    exact absurd ha ht.not_attends
  have hcount : w.gateway.getActivePollersCount = h.countP (abandons cfg) := by
    rw [entries_count hw, abandoned_count hr, hservers, hstarters, Set.ncard_empty]
    omega
  refine ⟨hcount, fun hok => ?_⟩
  rw [List.countP_eq_zero.mpr hok] at hcount
  have hdata : w.gateway.data = ∅ := by
    rw [FiniteMap.eq_empty_iff]
    intro c
    have hkeys : w.gateway.data.keys = ∅ := Finset.card_eq_zero.mp hcount
    rw [Finmap.lookup_eq_none, ← Finmap.mem_keys, hkeys]
    exact Finset.notMem_empty c
  have hheld : ∀ r, ¬ w.Held r := by
    rintro r (⟨c, hc⟩ | ⟨i, hi⟩ | ⟨p, q, hq, -, hrun⟩)
    · rw [hdata, FiniteMap.lookup_empty] at hc
      cases hc
    · rw [ht.tokens i] at hi
      cases hi
    · obtain ⟨x, hx⟩ := ht.pollers p q hq
      exact hrun x hx
  have hstrong : ∀ r, w.gateway.strong r = 0 := by
    intro r
    by_contra hne
    exact hheld r ((hw.held_iff r).mp (Nat.pos_of_ne_zero hne))
  refine ⟨hdata, hstrong, fun i r _ hpos => ?_⟩
  rw [hstrong r] at hpos
  cases hpos

/-- A client comes and goes, and its poller ends. -/
def comesAndEnds (c : CanisterPrincipal) (k : ClientKey) : List Event :=
  comesAndGoes c k ++ [polls 0 [], .wake 0, .checkTerminate 0, .endPoller 0]

set_option maxRecDepth 20000 in
theorem nothing_left_behind_ends : (World.after .simple (comesAndEnds [9] ⟨[1], 1⟩)).gateway.data = ∅ := by
  have hr : Runs .simple _ (World.after .simple (comesAndEnds [9] ⟨[1], 1⟩)) := runs_after (by decide)
  have hw := reachable hr
  have hthrough : (World.after .simple (comesAndEnds [9] ⟨[1], 1⟩)).PollersThrough := by
    constructor
    · intro p q hq
      have hp : p < 1 := hw.worker_lt p _ (registry_worker hq)
      obtain rfl : p = 0 := Nat.lt_one_iff.mp hp
      have h0 : (World.after .simple (comesAndEnds [9] ⟨[1], 1⟩)).pollers 0 =
          some ⟨[9], 0, 0, .ended (.returned (.ok ()))⟩ := by decide
      rw [h0] at hq
      cases hq
      exact ⟨_, rfl⟩
    · intro i
      by_contra hne
      obtain ⟨r, hi⟩ := Option.ne_none_iff_exists'.mp hne
      have hpos := (hw.held_iff r).mpr (Or.inr (Or.inl ⟨i, hi⟩))
      have hlt : r < 1 := hw.held_lt hpos
      obtain rfl : r = 0 := Nat.lt_one_iff.mp hlt
      have h0 : (World.after .simple (comesAndEnds [9] ⟨[1], 1⟩)).gateway.strong 0 = 0 := by decide
      rw [h0] at hpos
      cases hpos
  exact ((nothing_left_behind hr hthrough).2 (by decide)).1

end IcWsGateway
