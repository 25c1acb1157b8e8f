/-
# How long a poller outlives its clients

A poller asks once per iteration whether its poller state is empty
(`poller_should_terminate`), after the poll and the sleep. From the moment its
last client has left, and as long as nobody joins, it polls the canister at
most once more, puts at most the message it has in hand on a channel, and its
first check ends it: it returns `Ok`, and the canister has no entry
(`poller_outlives_by_one_iteration`).

Key definitions: `World.Deserted`.
Key theorems: `World.Deserted.next`, `poller_outlives_by_one_iteration`.
-/
import IcWsGateway.Delivery

namespace IcWsGateway

variable {cfg : Config} {w w' : World} {h g : List (World × Event)} {e : Event} {i : ClientId}
  {c : CanisterPrincipal} {r : PollerRef} {p : PollerId}

/-- The poller `p` of `c` has no client in its poller state `r`. -/
structure World.Deserted (w : World) (p : PollerId) (c : CanisterPrincipal) (r : PollerRef) : Prop where
  sound : Sound w
  poller : ∃ q, w.pollers p = some q ∧ q.canisterId = c ∧ q.pollerState = r
  empty : w.gateway.clients r = ∅

/-- The event inserts no session into the poller state. -/
def joinsNot (r : PollerRef) (x : World × Event) : Prop := ∀ i, insertedIn i x ≠ some r

theorem World.Deserted.next (hd : w.Deserted p c r) (hj : joinsNot r (w, e)) (he : step cfg w e = some w') :
    w'.Deserted p c r := by
  obtain ⟨q, hq, hqc, hqr⟩ := hd.poller
  obtain ⟨q', hq', hc', hr'⟩ := poller_keeps (.snoc .nil he) hd.sound hq
  refine ⟨hd.sound.step he, ⟨q', hq', hc'.trans hqc, hr'.trans hqr⟩, ?_⟩
  rw [FiniteMap.eq_empty_iff]
  intro k
  by_contra hne
  obtain ⟨x, hx⟩ := Option.ne_none_iff_exists'.mp hne
  obtain hold | ⟨j, m, c', rfl, hph, hr⟩ := stored_cases he hx
  · rw [hd.empty, FiniteMap.lookup_empty] at hold
    cases hold
  · refine hj j ?_
    simp only [insertedIn, if_true, hph, hr]

/-- What the poller finds when it looks for its entry. -/
theorem World.Deserted.checks_empty (hd : w.Deserted p c r) {q : CanisterPoller} (hq : w.pollers p = some q)
    (hs : q.Serving) : w.gateway.removeCanisterIfEmpty c = (w.gateway.removeEntry c r, .empty) := by
  obtain ⟨q', hq', rfl, rfl⟩ := hd.poller
  rw [hq] at hq'
  cases hq'
  exact removeCanisterIfEmpty_terminate (hd.sound.entry_of_active hq hs) hd.empty

/-- The poller is in a phase. -/
def World.pollerIs (w : World) (p : PollerId) (ph : PollerPhase → Prop) : Prop :=
  ∃ q, w.pollers p = some q ∧ ph q.phase

def PollerPhase.Sending : PollerPhase → Prop
  | .sending .. => True
  | _ => False

/-- The poller returned `Ok`, or its task has ended after that. -/
def PollerPhase.Finished (ph : PollerPhase) : Prop :=
  ph = .returned (.ok ()) ∨ ph = .ended (.returned (.ok ()))

/-- With no client left, no event brings the poller back to polling or to sending, and what it
has finished stays finished. -/
theorem World.Deserted.phase (hd : w.Deserted p c r) (he : step cfg w e = some w') :
    (w'.pollerIs p (· = .polling) → w.pollerIs p (· = .polling)) ∧
      (w'.pollerIs p PollerPhase.Sending → w.pollerIs p PollerPhase.Sending) ∧
      (w.pollerIs p PollerPhase.Finished → w'.pollerIs p PollerPhase.Finished) := by
  obtain ⟨q, hq, hqc, hqr⟩ := hd.poller
  have hp := step_poller he p
  rw [hq] at hp
  unfold World.pollerIs
  rw [hq]
  generalize w'.pollers p = y at hp
  cases hp with
  | other => exact ⟨id, id, id⟩
  | start phase fresh => exact absurd fresh (hd.sound.not_next hq)
  | goOn phase notEmpty =>
    have hempty := hd.checks_empty hq (by rw [CanisterPoller.Serving, phase]; rfl)
    rw [hqc, hempty] at notEmpty
    cases notEmpty
  | send phase head found =>
    rw [hqr, hd.empty, FiniteMap.lookup_empty] at found
    cases found
  | pollFailed phase | polled phase | nonceFailed phase | noncePanic phase | timedOut phase | noMessages phase
  | skip phase | put phase | wake phase | terminate phase | fail phase | failPanic phase =>
    simp [PollerPhase.Sending, PollerPhase.Finished, phase]
  | relayed phase done next => rcases next with rfl | rfl <;> simp [PollerPhase.Sending, PollerPhase.Finished, phase]
  | @stop q x phase => simp [PollerPhase.Sending, PollerPhase.Finished, phase]

/-- Whatever the others do, as long as nobody joins. -/
theorem World.Deserted.run (hd : w.Deserted p c r) (hg : LTS.Run (step cfg) w g w') (hj : ∀ x ∈ g, joinsNot r x) :
    w'.Deserted p c r ∧ (w.pollerIs p PollerPhase.Finished → w'.pollerIs p PollerPhase.Finished) := by
  have hall : LTS.Along (fun _ t e => joinsNot r (t, e)) g := LTS.along_of_all fun x hx _ => hj x hx
  refine hg.invariant (I := fun _ t => t.Deserted p c r ∧
    (w.pollerIs p PollerPhase.Finished → t.pollerIs p PollerPhase.Finished)) ⟨hd, id⟩ ?_ hall
  intro _ t e t' _ _ hI hok he
  exact ⟨hI.1.next hok he, fun hf => (hI.1.phase he).2.2 (hI.2 hf)⟩

/-! ### The events of the poller -/

/-- The canister replies to a poll of `p`, or the poll times out. -/
def pollOf (p : PollerId) : World × Event → Bool
  | (_, .pollReply p' _) => p' = p
  | _ => false

/-- The poller `p` puts a message on a channel, or finds the channel closed. -/
def putOf (p : PollerId) : World × Event → Bool
  | (_, .put p') => p' = p
  | _ => false

theorem pollOf_step (he : step cfg w e = some w') (hp : pollOf p (w, e) = true) :
    w.pollerIs p (· = .polling) ∧ ¬ w'.pollerIs p (· = .polling) := by
  cases step_cases he with
  | @pollFailed p' r q x poller phase | @polled p' r q out n poller phase | @nonceFailed p' r q out n x poller phase
  | @noncePanic p' r q out n m poller phase | @timedOut p' r q poller phase | @noMessages p' r q poller phase =>
    obtain rfl : p' = p := by simpa [pollOf] using hp
    refine ⟨⟨q, poller, phase⟩, ?_⟩
    simp [World.pollerIs, World.dropPoller]
  | _ => cases hp

theorem putOf_step (he : step cfg w e = some w') (hp : putOf p (w, e) = true) :
    w.pollerIs p PollerPhase.Sending ∧ ¬ w'.pollerIs p PollerPhase.Sending := by
  cases step_cases he with
  | @putDropped p' q j k m msgs poller phase | @put p' q j k m msgs poller phase =>
    obtain rfl : p' = p := by simpa [putOf] using hp
    refine ⟨⟨q, poller, by rw [phase]; trivial⟩, ?_⟩
    simp [World.pollerIs, PollerPhase.Sending]
  | _ => cases hp

/-- The check of a poller that has no client left ends it and removes the entry. -/
theorem World.Deserted.check (hd : w.Deserted p c r) (he : step cfg w (.checkTerminate p) = some w') :
    w'.pollerIs p PollerPhase.Finished ∧ w.gateway.data.lookup c = some r ∧ w'.gateway.data.lookup c = none := by
  obtain ⟨q₀, hq₀, hqc, hqr⟩ := hd.poller
  cases step_cases he with
  | @terminate _ q r' poller phase free entry =>
    rw [hq₀] at poller
    cases poller
    have hentry := hd.sound.entry_of_active hq₀ (by rw [phase]; rfl)
    rw [hqc, hqr] at hentry
    refine ⟨⟨_, Function.update_self .., Or.inl rfl⟩, hentry, ?_⟩
    rw [World.setPoller_gateway, World.setGateway_gateway, removeEntry_lookup, hqc, if_pos rfl]
  | @goOn _ q poller phase free inUse =>
    rw [hq₀] at poller
    cases poller
    have hentry := hd.sound.entry_of_active hq₀ (by rw [phase]; rfl)
    exact absurd (hqr ▸ hd.empty) (inUse _ hentry)

/-- **A poller outlives its clients by one iteration.** Once nobody is registered in its poller
state, and as long as nobody joins, a poller gets at most one more reply, puts at most one more
message (the one it has in hand), and its first check removes the entry of its canister and makes
it return `Ok`. -/
theorem poller_outlives_by_one_iteration (hr : Runs cfg h w) {q : CanisterPoller} (hq : w.pollers p = some q)
    (hempty : w.gateway.clients q.pollerState = ∅) (hg : LTS.Run (step cfg) w g w')
    (hj : ∀ x ∈ g, joinsNot q.pollerState x) :
    g.countP (pollOf p) ≤ 1 ∧ g.countP (putOf p) ≤ 1 ∧
      ∀ g₁ t g₂, g = g₁ ++ (t, .checkTerminate p) :: g₂ →
        t.gateway.data.lookup q.canisterId = some q.pollerState ∧
        (∃ t', step cfg t (.checkTerminate p) = some t' ∧ t'.gateway.data.lookup q.canisterId = none) ∧
        w'.pollerIs p PollerPhase.Finished := by
  have hd : w.Deserted p q.canisterId q.pollerState := ⟨reachable hr, ⟨q, hq, rfl, rfl⟩, hempty⟩
  refine ⟨?_, ?_, ?_⟩
  · have hle := LTS.Run.count_le_one (I := fun t => t.Deserted p q.canisterId q.pollerState)
      (A := fun t => t.pollerIs p (· = .polling)) (P := pollOf p)
      (fun t e t' ht hok he => ⟨ht.next hok he, pollOf_step he, (ht.phase he).1⟩) hg hd hj
    split_ifs at hle <;> omega
  · have hle := LTS.Run.count_le_one (I := fun t => t.Deserted p q.canisterId q.pollerState)
      (A := fun t => t.pollerIs p PollerPhase.Sending) (P := putOf p)
      (fun t e t' ht hok he => ⟨ht.next hok he, putOf_step he, (ht.phase he).2.1⟩) hg hd hj
    split_ifs at hle <;> omega
  · rintro g₁ t g₂ rfl
    obtain ⟨hg₁, t', he, hg₂⟩ := hg.at_event
    have ht := (hd.run hg₁ fun x hx => hj x (List.mem_append_left _ hx)).1
    obtain ⟨hfin, hentry, hnone⟩ := ht.check he
    have hok : joinsNot q.pollerState (t, .checkTerminate p) := fun i hi => by cases hi
    have hlast := (ht.next hok he).run hg₂ fun x hx =>
      hj x (List.mem_append_right _ (List.mem_cons_of_mem _ hx))
    exact ⟨hentry, ⟨t', he, hnone⟩, hlast.2 hfin⟩

/-- A client comes and goes, and its poller goes on to its end. -/
def endsDeserted (p : PollerId) : List Event := [polls p [], .wake p, .checkTerminate p, .endPoller p]

set_option maxRecDepth 20000 in
/-- The poller of a client that has come and gone gets one more reply. -/
theorem poller_outlives_by_one_iteration_gone :
    (LTS.trace (step .simple) (World.after .simple (comesAndGoes [9] ⟨[1], 1⟩)) (endsDeserted 0)).countP
      (pollOf 0) ≤ 1 := by
  have hr : Runs .simple _ (World.after .simple (comesAndGoes [9] ⟨[1], 1⟩)) := runs_after (by decide)
  have hq : (World.after .simple (comesAndGoes [9] ⟨[1], 1⟩)).pollers 0 = some ⟨[9], 0, 0, .polling⟩ := by decide
  have hg : LTS.Run (step .simple) (World.after .simple (comesAndGoes [9] ⟨[1], 1⟩)) _
      (World.after .simple (comesAndGoes [9] ⟨[1], 1⟩ ++ endsDeserted 0)) := LTS.exec_run (exec_more (by decide))
  refine (poller_outlives_by_one_iteration hr hq (by decide) hg ?_).1
  rintro ⟨t, e⟩ hx i hi
  have hmem := LTS.mem_trace hx
  simp only [endsDeserted, polls, List.mem_cons, List.not_mem_nil, or_false] at hmem
  rcases hmem with rfl | rfl | rfl | rfl <;> cases hi

end IcWsGateway
