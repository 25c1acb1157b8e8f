/-
# The critical sections of the gateway state

A session that works on the gateway state locks the shard of its canister
(`lock`) and keeps it until the operation is done (`commit`); in between other
tasks run. The `SAFETY` comments of `gateway-state` say that each operation is
executed atomically, and that no lock is held across an `.await`. Both are
statements about runs: a lock is held by a session only while it is inside an
operation, its next event is the end of that operation
(`lock_discipline`), and whatever the other tasks do in between, the operation
finds the canisters of its shard as they were when it locked them, and leaves
them as if it had been done at once (`critical_section_atomic`).

Key definitions: `World.InSection`, `locksShard`, `unlocksShard`.
Key theorems: `lock_held`, `shard_kept`, `lock_discipline`,
`critical_section_atomic`.
-/
import IcWsGateway.Deadlock
import IcWsGateway.Rosters

namespace IcWsGateway

variable {cfg : Config} {w w' : World} {h : List (World × Event)} {e : Event} {i : ClientId}
  {c : CanisterPrincipal} {s : ℕ}

/-! ### Who holds a lock -/

/-- Session `i` is at an operation on a canister of the shard `s`. -/
def World.InSection (cfg : Config) (w : World) (i : ClientId) (s : ℕ) : Prop :=
  ∃ c, (w.handlers i).phase.target = some c ∧ cfg.gatewayShard c = s

/-- The event locks the shard `s`. -/
def locksShard (cfg : Config) (s : ℕ) : World × Event → Bool
  | (w, .lock i) => (w.handlers i).phase.target.any fun c => cfg.gatewayShard c = s
  | _ => false

/-- The event unlocks the shard `s`. -/
def unlocksShard (cfg : Config) (s : ℕ) : World × Event → Bool
  | (w, .commit i) => (w.handlers i).phase.target.any fun c => cfg.gatewayShard c = s
  | _ => false

theorem target_of_setup {ph : Phase} {m : Message} {k : ClientKey} {tx : Sender}
    (hph : ph = .setup m c k tx) : ph.target = some c := by
  rw [hph]
  rfl

theorem target_of_closed {ph : Phase} {k : ClientKey} (hph : ph = .closed c k) : ph.target = some c := by
  rw [hph]
  rfl

theorem target_of_failed {ph : Phase} {k : ClientKey} {x : IcWsError} (hph : ph = .failed x c k) :
    ph.target = some c := by
  rw [hph]
  rfl

theorem target_of_rollback {ph : Phase} {k : ClientKey} {x : IcWsError} {t : Option PollerRef}
    (hph : ph = .rollback x c k t) : ph.target = some c := by
  rw [hph]
  rfl

/-- A shard is locked where it is free. -/
theorem lock_locks (he : step cfg w (.lock i) = some w') :
    ∃ c, (w.handlers i).phase.target = some c ∧ w.gatewayLock (cfg.gatewayShard c) = none ∧
      w'.gatewayLock = Function.update w.gatewayLock (cfg.gatewayShard c) (some i) ∧
      w'.handlers = w.handlers ∧ w'.gateway = w.gateway := by
  cases step_cases he with
  | lock target free => exact ⟨_, target, free, rfl, rfl, rfl⟩

/-- An operation unlocks the shard that its session has locked. -/
theorem commit_locks (he : step cfg w (.commit i) = some w') :
    ∃ c, (w.handlers i).phase.target = some c ∧ w.gatewayLock (cfg.gatewayShard c) = some i ∧
      w'.gatewayLock = Function.update w.gatewayLock (cfg.gatewayShard c) none := by
  cases step_cases he with
  | insert phase free => exact ⟨_, target_of_setup phase, free.1, rfl⟩
  | rollback phase free | rollbackPanic phase free => exact ⟨_, target_of_rollback phase, free.1, rfl⟩
  | remove phase free | removePanic phase free => exact ⟨_, target_of_closed phase, free.1, rfl⟩
  | removeIfExists phase free | removeVacant phase free => exact ⟨_, target_of_failed phase, free.1, rfl⟩

/-- No other event locks or unlocks a shard. -/
theorem other_locks (he : step cfg w e = some w') (hl : ∀ j, e ≠ .lock j) (hc : ∀ j, e ≠ .commit j) :
    w'.gatewayLock = w.gatewayLock := by
  cases step_cases he with
  | lock => exact absurd rfl (hl _)
  | insert | rollback | rollbackPanic | remove | removePanic | removeIfExists | removeVacant =>
    exact absurd rfl (hc _)
  | update | relayOpen | relayOpenFail | relayOpenPanic => exact World.spawn_gatewayLock ..
  | _ => rfl

/-- A handler that is at an operation stays there until it is done. -/
theorem HandlerStep.at_operation {a b : Handler} (hs : HandlerStep w i a e b)
    (ht : a.phase.target = some c) (hc : e ≠ .commit i) : b.phase = a.phase := by
  cases hs with
  | other | push => rfl
  | insert | rollback | remove | removePanic | removeIfExists | removeVacant => exact absurd rfl hc
  | readWs phase | recv phase | cutOff phase | update phase | relayOpen phase | relayOpenFail phase
  | relayOpenPanic phase | startPoller phase | wsClosed phase =>
    rw [phase] at ht
    cases ht

/-- Whoever holds a lock is at an operation on a canister of that shard. -/
def LockHeld (cfg : Config) (w : World) : Prop := ∀ s i, w.gatewayLock s = some i → w.InSection cfg i s

theorem LockHeld.new : LockHeld cfg .new := by
  intro s i hs
  cases hs

theorem LockHeld.step (hw : LockHeld cfg w) (he : step cfg w e = some w') : LockHeld cfg w' := by
  intro s i hs
  -- where the lock was held before, its holder was at the operation then
  have hkeep : w.gatewayLock s = some i → e ≠ .commit i → w'.InSection cfg i s := by
    intro hl hne
    obtain ⟨c, ht, hsc⟩ := hw s i hl
    have hph : (w'.handlers i).phase = (w.handlers i).phase := (step_handler he i).at_operation ht hne
    exact ⟨c, by rw [hph]; exact ht, hsc⟩
  by_cases hlock : ∃ j, e = .lock j
  · obtain ⟨j, rfl⟩ := hlock
    obtain ⟨c, ht, -, hl, hh, -⟩ := lock_locks he
    rw [hl, Function.update_apply] at hs
    split_ifs at hs with hsc
    · obtain rfl := Option.some.inj hs
      exact ⟨c, by rw [hh]; exact ht, hsc.symm⟩
    · exact hkeep hs nofun
  · by_cases hcommit : ∃ j, e = .commit j
    · obtain ⟨j, rfl⟩ := hcommit
      obtain ⟨c, ht, -, hl⟩ := commit_locks he
      rw [hl, Function.update_apply] at hs
      split_ifs at hs with hsc
      refine hkeep hs ?_
      rintro hji
      obtain rfl : j = i := by simpa using hji
      -- the session held its own shard only
      obtain ⟨c', ht', hsc'⟩ := hw s j hs
      rw [ht] at ht'
      obtain rfl := Option.some.inj ht'
      exact hsc hsc'.symm
    · rw [other_locks he (fun j hj => hlock ⟨j, hj⟩) fun j hj => hcommit ⟨j, hj⟩] at hs
      exact hkeep hs fun hne => hcommit ⟨i, hne⟩

theorem lock_held (hr : Runs cfg h w) : LockHeld cfg w :=
  LTS.Run.state_invariant LockHeld.new (fun _ _ _ hI he => hI.step he) hr

/-- A session is at one operation at a time. -/
theorem World.InSection.unique {s' : ℕ} (hs : w.InSection cfg i s) (hs' : w.InSection cfg i s') : s = s' := by
  obtain ⟨c, ht, rfl⟩ := hs
  obtain ⟨c', ht', rfl⟩ := hs'
  rw [ht] at ht'
  rw [Option.some.inj ht']

/-- At an operation a session locks the shard or ends the operation. -/
theorem events_at_operation (he : step cfg w e = some w') (hs : e.session = some i)
    (ht : (w.handlers i).phase.target = some c) : e = .lock i ∨ e = .commit i := by
  cases step_cases he with
  | readWs phase | recv phase | cutOff phase | update phase | relayOpen phase | relayOpenFail phase
  | relayOpenPanic phase | startPoller phase | noPoller phase | wsClosed phase =>
    obtain rfl := Option.some.inj hs
    rw [phase] at ht
    cases ht
  | lock =>
    obtain rfl := Option.some.inj hs
    exact Or.inl rfl
  | insert | rollback | rollbackPanic | remove | removePanic | removeIfExists | removeVacant =>
    obtain rfl := Option.some.inj hs
    exact Or.inr rfl
  | readShard counts =>
    obtain rfl := session_readShard hs
    obtain ⟨c', r, phase⟩ := World.counts_session counts
    rw [phase] at ht
    cases ht
  | _ => cases hs

/-- The one event of a session that holds a lock is the end of its operation. -/
theorem section_ends (hw : LockHeld cfg w) (hl : w.gatewayLock s = some i) (he : step cfg w e = some w')
    (hs : e.session = some i) : e = .commit i := by
  obtain ⟨c, ht, rfl⟩ := hw s i hl
  rcases events_at_operation he hs ht with rfl | rfl
  · -- the shard is not free
    obtain ⟨c', ht', hfree, -⟩ := lock_locks he
    rw [ht] at ht'
    rw [← Option.some.inj ht', hl] at hfree
    cases hfree
  · rfl

/-! ### Taking turns -/

theorem locksShard_step (he : step cfg w e = some w') (ha : locksShard cfg s (w, e) = true) :
    w.gatewayLock s = none ∧ (∃ i, w'.gatewayLock s = some i) ∧ unlocksShard cfg s (w, e) = false := by
  cases e with
  | lock i =>
    obtain ⟨c, ht, hfree, hl, -⟩ := lock_locks he
    simp only [locksShard, ht, Option.any_some, decide_eq_true_eq] at ha
    subst ha
    exact ⟨hfree, ⟨i, by rw [hl, Function.update_self]⟩, rfl⟩
  | _ => cases ha

theorem unlocksShard_step (he : step cfg w e = some w') (ha : unlocksShard cfg s (w, e) = true) :
    (∃ i, w.gatewayLock s = some i) ∧ w'.gatewayLock s = none := by
  cases e with
  | commit i =>
    obtain ⟨c, ht, hheld, hl⟩ := commit_locks he
    simp only [unlocksShard, ht, Option.any_some, decide_eq_true_eq] at ha
    subst ha
    exact ⟨⟨i, hheld⟩, by rw [hl, Function.update_self]⟩
  | _ => cases ha

theorem neither_step (he : step cfg w e = some w') (hl : ¬ locksShard cfg s (w, e) = true)
    (hu : ¬ unlocksShard cfg s (w, e) = true) : w'.gatewayLock s = w.gatewayLock s := by
  cases e with
  | lock i =>
    obtain ⟨c, ht, -, hw', -⟩ := lock_locks he
    simp only [locksShard, ht, Option.any_some, decide_eq_true_eq] at hl
    rw [hw', Function.update_of_ne (Ne.symm hl)]
  | commit i =>
    obtain ⟨c, ht, -, hw'⟩ := commit_locks he
    simp only [unlocksShard, ht, Option.any_some, decide_eq_true_eq] at hu
    rw [hw', Function.update_of_ne (Ne.symm hu)]
  | _ => rw [other_locks he nofun nofun]

theorem ne_none_iff_held {s : ℕ} : w.gatewayLock s ≠ none ↔ ∃ i, w.gatewayLock s = some i :=
  Option.ne_none_iff_exists'

/-- Between two locks of a shard it is unlocked exactly once. -/
theorem locks_take_turns {x y : World × Event} {h₁ h₂ h₃ : List (World × Event)}
    (hr : Runs cfg (h₁ ++ x :: h₂ ++ y :: h₃) w) (hx : locksShard cfg s x = true)
    (hy : locksShard cfg s y = true) (hn : ∀ z ∈ h₂, ¬ locksShard cfg s z = true) :
    h₂.countP (unlocksShard cfg s) = 1 := by
  refine @LTS.alternate World Event (step cfg) (fun w => w.gatewayLock s ≠ none) (fun _ => True)
    (locksShard cfg s) (unlocksShard cfg s) (fun _ _ _ _ _ => trivial) ?_ ?_ ?_ _ _ _ _ _ _ _ trivial
    hr hx hy hn
  · intro t e t' _ he ha
    obtain ⟨hfree, hheld, hun⟩ := locksShard_step he ha
    exact ⟨fun hne => hne hfree, ne_none_iff_held.mpr hheld, by rw [hun]; exact Bool.false_ne_true⟩
  · intro t e t' _ he ha
    obtain ⟨hheld, hfree⟩ := unlocksShard_step he ha
    exact ⟨ne_none_iff_held.mpr hheld, fun hne => hne hfree⟩
  · intro t e t' _ he hl hu
    rw [neither_step he hl hu]

/-- **The lock discipline.** In every run a shard is held only by a session that is inside
an operation on a canister of it, which holds no other shard, and whose one next event is
the end of that operation (so no lock is held across an `.await`); and between two locks of
a shard it is unlocked exactly once. -/
theorem lock_discipline (hr : Runs cfg h w) :
    (∀ s i, w.gatewayLock s = some i → w.InSection cfg i s ∧
      (∀ s', w.gatewayLock s' = some i → s' = s) ∧
      ∀ e w', step cfg w e = some w' → e.session = some i → e = .commit i) ∧
    ∀ s x y h₁ h₂ h₃, h = h₁ ++ x :: h₂ ++ y :: h₃ → locksShard cfg s x = true →
      locksShard cfg s y = true → (∀ z ∈ h₂, ¬ locksShard cfg s z = true) →
      h₂.countP (unlocksShard cfg s) = 1 := by
  have hw := lock_held hr
  constructor
  · intro s i hs
    refine ⟨hw s i hs, ?_, fun e w' he hes => section_ends hw hs he hes⟩
    intro s' hs'
    exact (hw s' i hs').unique (hw s i hs)
  · rintro s x y h₁ h₂ h₃ rfl hx hy hn
    exact locks_take_turns hr hx hy hn

/-- A session is about to register its client, and has locked the shard. -/
def locksFirst (c : CanisterPrincipal) (k : ClientKey) : List Event :=
  [.readWs 0 (.ok (wsOpen c k)), .update 0 .ok, .lock 0]

set_option maxRecDepth 20000 in
/-- The session that holds the lock is inside its operation. -/
theorem lock_discipline_locked : (World.after .simple (locksFirst [9] ⟨[1], 1⟩)).InSection .simple 0 0 := by
  have hr : Runs .simple _ (World.after .simple (locksFirst [9] ⟨[1], 1⟩)) := runs_after (by decide)
  have hl : (World.after .simple (locksFirst [9] ⟨[1], 1⟩)).gatewayLock 0 = some 0 := by decide
  exact ((lock_discipline hr).1 0 0 hl).1

/-! ### What is locked stays as it is -/

/-- The canister of an operation. -/
def MapOp.canister : MapOp → CanisterPrincipal
  | .insert c _ _ | .strike c _ | .check c | .fail c => c

/-- An operation on another canister leaves the entry alone. -/
theorem MapOp.run_lookup (o : MapOp) (g : GatewayState) (hc : c ≠ o.canister) :
    (o.run g).data.lookup c = g.data.lookup c := by
  cases o with
  | insert c' k tx =>
    rw [MapOp.run, insert_lookup, if_neg]
    exact fun hcc => hc hcc.1
  | strike c' k => rw [MapOp.run, struck_data]
  | check c' =>
    unfold MapOp.run GatewayState.removeCanisterIfEmpty
    dsimp only
    rcases g.data.lookup c' with _ | r
    · rfl
    · dsimp only
      split_ifs
      · exact (removeEntry_lookup g c' c r).trans (if_neg hc)
      · rfl
  | fail c' =>
    unfold MapOp.run GatewayState.removeFailedCanister
    dsimp only
    rcases g.data.lookup c' with _ | r
    · rfl
    · exact (removeEntry_lookup g c' c r).trans (if_neg hc)

/-- An operation on another canister leaves its clients alone. -/
theorem MapOp.onRosters_other (o : MapOp) (R : Rosters) (hc : c ≠ o.canister) : o.onRosters R c = R c := by
  cases o with
  | insert c' k tx | strike c' k | fail c' => exact Function.update_of_ne hc ..
  | check c' => rfl

/-- What an operation makes of a canister's clients depends on no others. -/
theorem MapOp.onRosters_congr (o : MapOp) {R R' : Rosters} (hR : R c = R' c) :
    o.onRosters R c = o.onRosters R' c := by
  by_cases hc : c = o.canister
  · subst hc
    cases o with
    | insert c' k tx | strike c' k =>
      simp only [MapOp.canister, MapOp.onRosters, Rosters.set, Function.update_self] at hR ⊢
      rw [hR]
    | check c' => exact hR
    | fail c' =>
      simp only [MapOp.canister, MapOp.onRosters, Function.update_self]
  · rw [o.onRosters_other R hc, o.onRosters_other R' hc, hR]

theorem mapOp_phase {v : World} (hph : (w.handlers i).phase = (v.handlers i).phase) :
    mapOp (w, .commit i) = mapOp (v, .commit i) := by
  simp only [mapOp, hph]

theorem mapOp_commit {o : MapOp} (ht : (w.handlers i).phase.target = some c)
    (ho : mapOp (w, .commit i) = some o) : o.canister = c := by
  cases hph : (w.handlers i).phase with
  | setup | rollback | closed | failed =>
    simp only [mapOp, hph, Option.some.injEq] at ho
    rw [hph] at ht
    rw [← ho]
    exact Option.some.inj ht
  | _ =>
    rw [hph] at ht
    cases ht

/-- An operation on the map that is not of the session holding the shard is on a canister
of another shard. -/
theorem mapOp_elsewhere (he : step cfg w e = some w') (hl : w.gatewayLock s = some i) (hc : e ≠ .commit i)
    {o : MapOp} (ho : mapOp (w, e) = some o) : cfg.gatewayShard o.canister ≠ s := by
  rintro rfl
  cases e with
  | commit j =>
    obtain ⟨c', ht, hheld, -⟩ := commit_locks he
    rw [mapOp_commit ht ho, hheld] at hl
    exact hc (by rw [Option.some.inj hl])
  | checkTerminate p =>
    cases step_cases he with
    | terminate poller phase free | goOn poller phase free =>
      rw [mapOp_checkTerminate poller] at ho
      obtain rfl := Option.some.inj ho
      exact absurd (free.symm.trans hl) nofun
  | removeFailed p =>
    cases step_cases he with
    | fail poller phase free | failPanic poller phase free =>
      rw [mapOp_removeFailed poller] at ho
      obtain rfl := Option.some.inj ho
      exact absurd (free.symm.trans hl) nofun
  | _ => cases ho

/-- The entries of a locked shard, and the clients in them, change by its holder alone. -/
theorem shard_kept (hw : Sound w) (he : step cfg w e = some w') (hl : w.gatewayLock (cfg.gatewayShard c) = some i)
    (hc : e ≠ .commit i) : w'.gateway.data.lookup c = w.gateway.data.lookup c ∧
      w'.gateway.rosters c = w.gateway.rosters c := by
  rw [(step_mapOp he).data, step_rosters hw he]
  rcases ho : mapOp (w, e) with _ | o
  · exact ⟨rfl, rfl⟩
  · have hne : c ≠ o.canister := by
      rintro rfl
      exact mapOp_elsewhere he hl hc ho rfl
    exact ⟨o.run_lookup _ hne, o.onRosters_other _ hne⟩

/-- The lock of a shard stays with its holder until the operation is done. -/
theorem lock_kept (he : step cfg w e = some w') (hl : w.gatewayLock s = some i)
    (hc : e ≠ .commit i) : w'.gatewayLock s = some i := by
  have hnl : ¬ locksShard cfg s (w, e) = true := by
    intro ha
    rw [(locksShard_step he ha).1] at hl
    cases hl
  by_cases hu : unlocksShard cfg s (w, e) = true
  · exfalso
    cases e with
    | commit j =>
      obtain ⟨c, ht, hheld, -⟩ := commit_locks he
      simp only [unlocksShard, ht, Option.any_some, decide_eq_true_eq] at hu
      rw [hu, hl] at hheld
      exact hc (by rw [Option.some.inj hheld])
    | _ => cases hu
  · rw [neither_step he hnl hu, hl]

/-- From a lock on, until the operation is done. -/
structure SectionOpen (cfg : Config) (s : World) (i : ClientId) (c : CanisterPrincipal)
    (h : List (World × Event)) (t : World) : Prop where
  sound : Sound t
  held : LockHeld cfg t
  lock : t.gatewayLock (cfg.gatewayShard c) = some i
  phase : (t.handlers i).phase = (s.handlers i).phase
  idle : ∀ x ∈ h, x.2.session ≠ some i
  entries : ∀ c', cfg.gatewayShard c' = cfg.gatewayShard c →
    t.gateway.data.lookup c' = s.gateway.data.lookup c' ∧ t.gateway.rosters c' = s.gateway.rosters c'

theorem SectionOpen.step {s t t' : World} (ht : SectionOpen cfg s i c h t)
    (htarget : (s.handlers i).phase.target = some c) (he : step cfg t e = some t') (hc : e ≠ .commit i) :
    SectionOpen cfg s i c (h ++ [(t, e)]) t' := by
  have htt : (t.handlers i).phase.target = some c := by rw [ht.phase]; exact htarget
  refine ⟨ht.sound.step he, ht.held.step he, lock_kept he ht.lock hc, ?_, ?_, ?_⟩
  · rw [(step_handler he i).at_operation htt hc, ht.phase]
  · intro x hx
    rcases List.mem_append.mp hx with hx | hx
    · exact ht.idle x hx
    · obtain rfl := List.mem_singleton.mp hx
      exact fun hs => hc (section_ends ht.held ht.lock he hs)
  · intro c' hc'
    have hl : t.gatewayLock (cfg.gatewayShard c') = some i := by rw [hc']; exact ht.lock
    obtain ⟨hd, hro⟩ := shard_kept ht.sound he hl hc
    obtain ⟨hd', hro'⟩ := ht.entries c' hc'
    exact ⟨hd.trans hd', hro.trans hro'⟩

/-- The end of an operation of session `i` removes no entry, and makes one if it is an insert
at a canister without. -/
theorem commit_entry (hw : Sound w) (he : step cfg w (.commit i) = some w') (c : CanisterPrincipal) :
    w'.gateway.data.lookup c =
      if insertsNew c (w, .commit i) then some w.gateway.nextRef else w.gateway.data.lookup c := by
  split_ifs with hins
  · have hn := (insertsNew_entry he hins).1
    simp only [insertsNew] at hins
    split at hins
    · rename_i m c' k tx hph
      obtain rfl : c' = c := (of_decide_eq_true hins).1
      rw [(commit_setup hw hph he).2.1, insert_lookup, if_pos ⟨rfl, hn⟩]
    · cases hins
  · exact entry_unchanged he hins Bool.false_ne_true

/-- An operation makes an entry if it would have made one at an earlier moment, as long as the
handler and the entry are the same. -/
theorem insertsNew_commit_congr {s t : World} (hph : (t.handlers i).phase = (s.handlers i).phase)
    (hl : t.gateway.data.lookup c = s.gateway.data.lookup c) :
    insertsNew c (t, .commit i) = insertsNew c (s, .commit i) := by
  simp only [insertsNew, hph]
  split
  · rw [Bool.eq_iff_iff, decide_eq_true_eq, decide_eq_true_eq, insert_isSome, insert_isSome]
    refine and_congr_right fun hc => ?_
    rw [hc, hl]
  · rfl

/-- **An operation on the gateway state is atomic.** Between the lock of a session and the
end of its operation no event is the session's, and whatever the others do, the canisters of
the shard keep their entries and clients, and the operation does to them what it would have
done at the moment of the lock: to the clients, and to the entries, where a new one gets the
next poller state there is. -/
theorem critical_section_atomic {s t : World} {h₁ h₂ h₃ : List (World × Event)}
    (hr : Runs cfg (h₁ ++ (s, .lock i) :: h₂ ++ (t, .commit i) :: h₃) w)
    (hn : ∀ x ∈ h₂, x.2 ≠ .commit i) :
    ∃ c t', (s.handlers i).phase.target = some c ∧ step cfg t (.commit i) = some t' ∧
      (t.handlers i).phase = (s.handlers i).phase ∧ (∀ x ∈ h₂, x.2.session ≠ some i) ∧
      ∀ c', cfg.gatewayShard c' = cfg.gatewayShard c →
        t.gateway.data.lookup c' = s.gateway.data.lookup c' ∧
        t.gateway.rosters c' = s.gateway.rosters c' ∧
        t'.gateway.data.lookup c' = (if insertsNew c' (s, .commit i) then some t.gateway.nextRef
          else s.gateway.data.lookup c') ∧
        t'.gateway.rosters c' = (mapOp (s, .commit i)).elim (s.gateway.rosters c')
          fun o => o.onRosters s.gateway.rosters c' := by
  obtain ⟨hr₁, t', he, -⟩ := hr.at_event
  obtain ⟨hr₀, s', hlock, hr₂⟩ := hr₁.at_event
  obtain ⟨c, htarget, -, hl, hh, hg⟩ := lock_locks hlock
  have hstart : SectionOpen cfg s i c [] s' := by
    refine ⟨(reachable hr₀).step hlock, (lock_held hr₀).step hlock, ?_, ?_, ?_, ?_⟩
    · rw [hl, Function.update_self]
    · rw [hh]
    · exact fun x hx => absurd hx List.not_mem_nil
    · intro c' _
      rw [hg]
      exact ⟨rfl, rfl⟩
  have hother : LTS.Along (fun _ _ e => e ≠ .commit i) h₂ := LTS.along_of_all fun x hx _ => hn x hx
  have hopen : SectionOpen cfg s i c h₂ t := by
    refine LTS.Run.invariant hstart ?_ hr₂ hother
    intro h t e t' _ _ hI hok he
    exact hI.step htarget he hok
  refine ⟨c, t', htarget, he, hopen.phase, hopen.idle, fun c' hc' => ?_⟩
  obtain ⟨hd, hro⟩ := hopen.entries c' hc'
  refine ⟨hd, hro, ?_, ?_⟩
  · rw [commit_entry hopen.sound he, insertsNew_commit_congr hopen.phase hd, hd]
  · rw [step_rosters hopen.sound he, mapOp_phase hopen.phase]
    rcases mapOp (s, Event.commit i) with _ | o
    · exact hro
    · exact o.onRosters_congr hro

/-- A client of the first shard is about to be inserted. -/
def aboutToInsert (c : CanisterPrincipal) (k : ClientKey) : List Event :=
  [.readWs 0 (.ok (wsOpen c k)), .update 0 .ok]

/-- A client of another shard is inserted. -/
def insertsMeanwhile (c : CanisterPrincipal) (k : ClientKey) : List Event :=
  [.readWs 1 (.ok (wsOpen c k)), .update 1 .ok, .lock 1, .commit 1]

/-- The first client is inserted after that, with the lock from before. -/
def insertsBoth (c c' : CanisterPrincipal) : List Event :=
  aboutToInsert c ⟨[1], 1⟩ ++ [.lock 0] ++ insertsMeanwhile c' ⟨[2], 2⟩ ++ [.commit 0]

set_option maxRecDepth 20000 in
/-- The canister has got nothing from the other insert, and its own client. -/
theorem critical_section_atomic_meanwhile :
    ∃ t', step .twoShards (World.after .twoShards (aboutToInsert [9] ⟨[1], 1⟩ ++ [.lock 0] ++
        insertsMeanwhile [8] ⟨[2], 2⟩)) (.commit 0) = some t' ∧
      t'.gateway.data.lookup [9] = some 1 ∧ t'.gateway.rosters [9] ⟨[1], 1⟩ = some ⟨0⟩ := by
  have h₁ : Runs .twoShards _ (World.after .twoShards (aboutToInsert [9] ⟨[1], 1⟩)) := runs_after (by decide)
  have hlock : step .twoShards (World.after .twoShards (aboutToInsert [9] ⟨[1], 1⟩)) (.lock 0) =
      some (World.after .twoShards (aboutToInsert [9] ⟨[1], 1⟩ ++ [.lock 0])) := step_after (by decide)
  have h₂ : LTS.Run (step .twoShards) (World.after .twoShards (aboutToInsert [9] ⟨[1], 1⟩ ++ [.lock 0])) _
      (World.after .twoShards (aboutToInsert [9] ⟨[1], 1⟩ ++ [.lock 0] ++ insertsMeanwhile [8] ⟨[2], 2⟩)) :=
    LTS.exec_run (exec_more (by decide))
  have hcommit : step .twoShards (World.after .twoShards (aboutToInsert [9] ⟨[1], 1⟩ ++ [.lock 0] ++
      insertsMeanwhile [8] ⟨[2], 2⟩)) (.commit 0) = some (World.after .twoShards (insertsBoth [9] [8])) :=
    step_after (by decide)
  have hr := ((h₁.snoc hlock).append h₂).snoc hcommit
  rw [List.append_assoc (LTS.trace _ _ _) [_], List.singleton_append] at hr
  obtain ⟨c, t', htarget, ht', -, -, hall⟩ := critical_section_atomic hr fun x hx hc => by
    have hmem := LTS.mem_trace hx
    rw [hc] at hmem
    revert hmem
    decide
  have hc : c = [9] := by
    have h9 : ((World.after .twoShards (aboutToInsert [9] ⟨[1], 1⟩)).handlers 0).phase.target = some [9] := by decide
    rw [h9] at htarget
    exact (Option.some.inj htarget).symm
  subst hc
  obtain ⟨-, -, hentry, hroster⟩ := hall [9] rfl
  refine ⟨t', ht', ?_, ?_⟩
  · rw [hentry]
    decide
  · rw [hroster]
    decide

end IcWsGateway
