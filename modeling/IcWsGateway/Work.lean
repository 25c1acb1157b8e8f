/-
# The gateway works as much as it is given to do

No task of the gateway spins. What a session has left to do before it has to wait for input is bounded
(`Phase.left`), and so is what its relay tasks have left; each frame of its client and each message on its
channel adds a little. So the steps of a session and of its tasks are linear in its input
(`session_work`), those of a poller in the replies it gets and the messages in them (`poller_work`), and those of
the whole gateway in the whole of its input (`linear_work`), however they interleave. Where the pollers are counted,
the shards of the gateway map are read once for each session and once for each poller.

Key definitions: `Phase.left`, `PollerPhase.toDo`, `Event.worksFor`, `readsShard`.
Key theorems: `session_work`, `poller_work`, `linear_work`.
-/
import IcWsGateway.CriticalSections
import IcWsGateway.ClientMessages
import IcWsGateway.PollerLoop

namespace IcWsGateway

variable {cfg : Config} {w w' : World} {h : List (World × Event)} {e : Event} {i : ClientId} {p : PollerId}
  {c : CanisterPrincipal} {k : ClientKey} {q : CanisterPoller}

/-! ### What a session has left to do -/

/-- The session that the step is work for: its own, or that of one of its relay tasks. The shards that it reads to
count the pollers are apart. -/
def Event.worksFor : Event → Option ClientId
  | .submit t => some t.client
  | .readShard _ => none
  | e => e.session

/-- The steps that a handler in this phase may still take, and the tasks it may still spawn, without input.
A handler that has its sender yet is `fresh`; one that has `locked` its shard has one step less to do. -/
def Phase.left (fresh locked : Bool) : Phase → ℕ
  | .awaiting => if fresh then 9 else 5
  | .updating (.client _) => if fresh then 11 else 7
  | .updating (.canister (some _)) => if fresh then 10 else 6
  | .updating (.canister none) => 4
  | .setup .. => if locked then 9 else 10
  | .relayingOpen .. => 8
  | .startingPoller .. => 6
  | .rollback .. => if locked then 1 else 2
  | .closed .. | .failed .. => if locked then 2 else 3
  | .closing .. => 1
  | .ended _ => 0

/-- The session has locked the shard that its operation is on. -/
def World.locked (cfg : Config) (w : World) (i : ClientId) : Bool :=
  (w.handlers i).phase.target.any fun c => w.gatewayLock (cfg.gatewayShard c) = some i

/-- What the handler of session `i` has left to do. -/
def World.left (cfg : Config) (w : World) (i : ClientId) : ℕ :=
  (w.handlers i).phase.left (w.handlers i).clientChannelTx.isSome (w.locked cfg i)

/-- The handler reads a frame or an error from the socket of session `i`. -/
def readsFrame (i : ClientId) : World × Event → Bool
  | (_, .readWs j _) => j = i
  | _ => false

theorem left_locked (fresh : Bool) (ph : Phase) : ph.left fresh true ≤ ph.left fresh false := by
  unfold Phase.left
  split
  all_goals simp

/-- What others do is nothing to a session, but that they may fill its channel. -/
theorem left_other (he : step cfg w e = some w') (hs : e.session ≠ some i) : w'.left cfg i ≤ w.left cfg i := by
  have hsame : (w'.handlers i).phase = (w.handlers i).phase ∧
      (w'.handlers i).clientChannelTx = (w.handlers i).clientChannelTx := by
    have hh := step_handler he i
    generalize w'.handlers i = b at hh
    generalize w.handlers i = a at hh
    cases hh with
    | other | push => exact ⟨rfl, rfl⟩
    | _ => exact absurd rfl hs
  unfold World.left
  rw [hsame.1, hsame.2]
  by_cases hl : w.locked cfg i = true
  · have hl' : w'.locked cfg i = true := by
      unfold World.locked at hl ⊢
      rw [hsame.1]
      rcases ht : (w.handlers i).phase.target with _ | c
      · rw [ht] at hl
        cases hl
      · rw [ht, Option.any_some, decide_eq_true_iff] at hl
        rw [Option.any_some, decide_eq_true_iff]
        refine lock_kept he hl ?_
        rintro rfl
        exact hs rfl
    rw [hl, hl']
  · rw [eq_false_of_ne_true hl]
    rcases w'.locked cfg i
    · exact Nat.le_refl _
    · exact left_locked _ _

theorem taskOf_outside (hs : e.session ≠ some i) : taskOf i (w, e) = none := by
  cases e with
  | update j io => exact (taskOf_other (fun hj => hs (congrArg some hj)) w io).1
  | relayOpen j io => exact (taskOf_other (fun hj => hs (congrArg some hj)) w io).2
  | _ => rfl

/-- The task spawned in an event. -/
def taskCount (i : ClientId) (x : World × Event) : ℕ := (taskOf i x).toList.length

theorem taskCount_le (i : ClientId) (x : World × Event) : taskCount i x ≤ 1 := by
  unfold taskCount
  rcases taskOf i x with _ | t
  · exact Nat.zero_le 1
  · exact Nat.le_refl 1

/-- What an update leaves a session without keys to do. -/
theorem fresh_left {a : Handler} {u : Update} {io : Io} {s : ClientSession} {out : List Output}
    {r : Outcome IcWsError (Option IcWsSessionState)} (hf : a.Fresh i) (hu : u ≠ .canister none)
    (updated : a.session.tryUpdateState u io = (s, out, r)) (l l' : Bool) :
    (({ a with session := s } : Handler).dispatch r).phase.left
      (({ a with session := s } : Handler).dispatch r).clientChannelTx.isSome l' + 1 ≤ (Phase.updating u).left true l := by
  have hten : 10 ≤ (Phase.updating u).left true l := by
    rcases u with u | _ | m
    · exact Nat.le_succ 10
    · exact absurd rfl hu
    · exact Nat.le_refl 10
  obtain ⟨m, k, c, rfl, -, -, -, hd⟩ | ⟨-, x, hd⟩ := update_fresh hf updated
  · rw [hd]
    rcases l' with _ | _
    · exact Nat.le_refl 11
    · exact Nat.le_succ 10
  · rw [hd]
    exact Nat.le_trans (Nat.le_add_left 1 9) hten

/-- What an update leaves a session in `Setup` or `Opened` to do; an update from the client may spawn a task. -/
theorem keyed_left {a b : Handler} {u : Update} {out : List Output} (hk : a.Keyed c k) (hu : KeyedUpdate a c k u out b)
    (l l' : Bool) : b.phase.left b.clientChannelTx.isSome l' + (a.session.relays u).toList.length + 1 ≤
      (Phase.updating u).left false l := by
  have hclosed : ∀ c k, (Phase.closed c k).left false l' ≤ 3 := fun c k => by cases l' <;> simp [Phase.left]
  have hfailed : ∀ x c k, (Phase.failed x c k).left false l' ≤ 3 := fun x c k => by cases l' <;> simp [Phase.left]
  have htask : (a.session.relays u).toList.length ≤ 1 := by
    rcases a.session.relays u with _ | env
    · exact Nat.zero_le 1
    · exact Nat.le_refl 1
  have hcanister : ∀ x, (a.session.relays (.canister x)).toList.length = 0 := fun x => rfl
  have htx : a.clientChannelTx.isSome = false := by rw [hk.tx]; rfl
  have hclient : ∀ x, (Phase.updating (.client x)).left false l = 7 := fun x => rfl
  have hawaiting : Phase.awaiting.left false l' = 5 := rfl
  cases hu with
  | close =>
    show (Phase.closed c k).left a.clientChannelTx.isSome l' + _ + 1 ≤ _
    have hle := hclosed c k
    rw [htx, hclient]
    omega
  | @readFailed x e =>
    show (Phase.failed e c k).left a.clientChannelTx.isSome l' + _ + 1 ≤ _
    have hle := hfailed e c k
    rw [htx, hclient]
    omega
  | ignored | relayed =>
    show Phase.awaiting.left a.clientChannelTx.isSome l' + _ + 1 ≤ _
    rw [htx, hclient, hawaiting]
    omega
  | delivered =>
    show Phase.awaiting.left a.clientChannelTx.isSome l' + _ + 1 ≤ _
    rw [htx, hcanister, hawaiting]
    exact Nat.le_refl 6
  | @failed u out e =>
    show (Phase.failed e c k).left a.clientChannelTx.isSome l' + _ + 1 ≤ _
    have hle := hfailed e c k
    rw [htx]
    rcases u with x | _ | m
    · rw [hclient]
      omega
    · rw [hcanister]
      exact Nat.succ_le_succ hle
    · rw [hcanister]
      exact Nat.le_trans (Nat.succ_le_succ hle) (Nat.le_add_right 4 2)
  | cutOff =>
    rw [hcanister]
    exact Nat.le_add_left 1 3

/-- What an update leaves to do. -/
theorem left_update {io : Io} (hw : Sound w) (he : step cfg w (.update i io) = some w') :
    w'.left cfg i + taskCount i (w, .update i io) + 1 ≤ w.left cfg i := by
  cases step_cases he with
  | @update _ _ u s out r phase updated =>
    have hself : ∀ b : Handler, Function.update w.handlers i b i = b := fun b => Function.update_self ..
    unfold World.left
    rw [World.spawn_handlers, World.setHandler_handlers, hself, phase]
    generalize World.locked cfg _ i = l'
    generalize World.locked cfg _ i = l
    rcases (hw.wf i).updating phase with ⟨hf, hu⟩ | ⟨c, k, hk, hl⟩
    · have hnone : taskCount i (w, .update i io) = 0 := by rw [taskCount, taskOf_fresh hf.canisterId]; rfl
      have hle := fresh_left hf hu updated l l'
      have htx : (w.handlers i).clientChannelTx.isSome = true := by rw [hf.tx]; rfl
      rw [hnone, htx]
      exact hle
    · have htask : taskCount i (w, .update i io) = ((w.handlers i).session.relays u).toList.length := by
        rw [taskCount, taskOf_update phase hk.canisterId]
        rcases (w.handlers i).session.relays u with _ | env <;> rfl
      have htx : (w.handlers i).clientChannelTx.isSome = false := by rw [hk.tx]; rfl
      rw [htask, htx]
      exact keyed_left hk (update_keyed hk hl updated) l l'

/-- What the input adds to what session `i` has left to do. -/
def inputOf (i : ClientId) (x : World × Event) : ℕ :=
  3 * (if readsFrame i x then 1 else 0) + 2 * (if (receivedBy i x).isSome then 1 else 0)

theorem left_max (fresh locked : Bool) (ph : Phase) : ph.left fresh locked ≤ ph.left true false := by
  unfold Phase.left
  split
  all_goals cases fresh <;> cases locked <;> simp

theorem left_le {ph : Phase} (hph : (w.handlers i).phase = ph) : w.left cfg i ≤ ph.left true false := by
  unfold World.left
  rw [hph]
  exact left_max _ _ ph

/-- An operation is done under the lock. -/
theorem left_locked_eq (ht : (w.handlers i).phase.target = some c) (hl : w.gatewayLock (cfg.gatewayShard c) = some i) :
    w.left cfg i = (w.handlers i).phase.left (w.handlers i).clientChannelTx.isSome true := by
  have hlocked : w.locked cfg i = true := by
    unfold World.locked
    rw [ht, Option.any_some, decide_eq_true_iff]
    exact hl
  unfold World.left
  rw [hlocked]

theorem left_lock (he : step cfg w (.lock i) = some w') : w'.left cfg i + 1 ≤ w.left cfg i := by
  obtain ⟨c, ht, hfree, hlock, hhandlers, -⟩ := lock_locks he
  have hnot : w.locked cfg i = false := by
    unfold World.locked
    rw [ht, Option.any_some, hfree]
    rfl
  have ht' : (w'.handlers i).phase.target = some c := by rw [hhandlers]; exact ht
  have hl' : w'.gatewayLock (cfg.gatewayShard c) = some i := by rw [hlock, Function.update_self]
  rw [left_locked_eq ht' hl', hhandlers]
  unfold World.left
  rw [hnot]
  generalize (w.handlers i).phase = ph at ht
  unfold Phase.target at ht
  split at ht
  all_goals first | exact Nat.le_refl _ | cases ht

theorem left_commit (he : step cfg w (.commit i) = some w') : w'.left cfg i + 1 ≤ w.left cfg i := by
  obtain ⟨c₀, ht₀, hl₀, -⟩ := commit_locks he
  rw [left_locked_eq ht₀ hl₀]
  have hself : ∀ b : Handler, Function.update w.handlers i b i = b := fun b => Function.update_self ..
  have hle : ∀ {w' : World} {ph n}, (w'.handlers i).phase = ph → ph.left true false + 1 ≤ n →
      w'.left cfg i + 1 ≤ n := fun hph hn => Nat.le_trans (Nat.succ_le_succ (left_le hph)) hn
  cases step_cases he with
  | insert phase =>
    rw [phase]
    exact hle (congrArg Handler.phase (hself _)) (Nat.le_refl 9)
  | rollback phase | rollbackPanic phase =>
    rw [phase]
    exact hle (congrArg Handler.phase (hself _)) (Nat.le_refl 1)
  | remove phase | removeIfExists phase =>
    rw [phase]
    exact hle (congrArg Handler.phase (hself _)) (Nat.le_refl 2)
  | removePanic phase | removeVacant phase =>
    rw [phase]
    exact hle (congrArg Handler.phase (hself _)) (Nat.le_succ 1)

theorem left_relayOpen {io : Io} (he : step cfg w (.relayOpen i io) = some w') :
    w'.left cfg i + 2 ≤ w.left cfg i := by
  have hself : ∀ b : Handler, Function.update w.handlers i b i = b := fun b => Function.update_self ..
  have hle : ∀ {ph}, (w'.handlers i).phase = ph → ph.left true false ≤ 6 → w'.left cfg i + 2 ≤ 8 :=
    fun hph hn => Nat.add_le_add_right (Nat.le_trans (left_le hph) hn) 2
  have height : ∀ {m c k t}, (w.handlers i).phase = .relayingOpen m c k t → w.left cfg i = 8 := by
    intro m c k t hph
    unfold World.left
    rw [hph]
    rfl
  cases step_cases he with
  | @relayOpen _ _ m c k t out phase =>
    rw [height phase]
    refine @hle (.startingPoller c t) ?_ (Nat.le_refl 6)
    rw [World.spawn_handlers]
    exact congrArg Handler.phase (hself _)
  | @relayOpenFail _ _ m c k t out x phase =>
    rw [height phase]
    refine @hle (.rollback x c k t) ?_ (Nat.le_add_right 2 4)
    rw [World.spawn_handlers]
    exact congrArg Handler.phase (hself _)
  | @relayOpenPanic _ _ m c k t out x phase =>
    rw [height phase]
    refine @hle (.ended (.panicked x)) ?_ (Nat.zero_le 6)
    rw [World.spawn_handlers]
    exact congrArg Handler.phase (hself _)

theorem left_startPoller (hw : Sound w) (he : step cfg w (.startPoller i) = some w') :
    w'.left cfg i + 1 ≤ w.left cfg i := by
  have hself : ∀ b : Handler, Function.update w.handlers i b i = b := fun b => Function.update_self ..
  cases step_cases he with
  | startPoller phase | noPoller phase =>
    obtain ⟨k, hk, -⟩ := (hw.wf i).startingPoller phase
    unfold World.left
    rw [World.goto_handlers, phase]
    first | rw [World.setPoller_handlers, hself, hk.tx] | rw [hself, hk.tx]
    exact Nat.le_refl 6

/-- A step of the handler takes one from what it has left, and its task another. -/
theorem left_own (hw : Sound w) (he : step cfg w e = some w') (hs : e.session = some i) (hr : ∀ t, e ≠ .readShard t) :
    w'.left cfg i + taskCount i (w, e) + 1 ≤ w.left cfg i + inputOf i (w, e) := by
  have hself : ∀ b : Handler, Function.update w.handlers i b i = b := fun b => Function.update_self ..
  have hquiet : ∀ {e : Event}, w'.left cfg i + 1 ≤ w.left cfg i → taskCount i (w, e) = 0 →
      w'.left cfg i + taskCount i (w, e) + 1 ≤ w.left cfg i + inputOf i (w, e) := by
    intro e hle hnone
    omega
  cases e with
  | readWs j u =>
    cases hs
    cases step_cases he with
    | readWs phase =>
      have hin : inputOf i (w, .readWs i u) = 3 := by simp [inputOf, readsFrame, receivedBy]
      have htask : taskCount i (w, .readWs i u) = 0 := rfl
      unfold World.left
      rw [hin, htask, World.goto_handlers, hself, phase]
      rcases (w.handlers i).clientChannelTx with _ | tx
      · exact Nat.le_refl 8
      · exact Nat.le_refl 12
  | recv j =>
    cases hs
    have htask : taskCount i (w, .recv i) = 0 := rfl
    cases step_cases he with
    | @recv _ m rest phase rx =>
      have hin : inputOf i (w, .recv i) = 2 := by simp [inputOf, readsFrame, receivedBy, World.buffer, rx]
      unfold World.left
      rw [hin, htask, World.setHandler_handlers, hself, phase]
      rcases (w.handlers i).clientChannelTx with _ | tx
      · exact Nat.le_refl 7
      · exact Nat.le_refl 11
    | cutOff phase rx tx =>
      have hin : inputOf i (w, .recv i) = 0 := by simp [inputOf, readsFrame, receivedBy, World.buffer, rx]
      unfold World.left
      rw [hin, htask, World.goto_handlers, hself, phase, tx]
      exact Nat.le_refl 5
  | update j io =>
    cases hs
    exact Nat.le_trans (left_update hw he) (Nat.le_add_right _ _)
  | lock j =>
    cases hs
    exact hquiet (left_lock he) rfl
  | commit j =>
    cases hs
    exact hquiet (left_commit he) rfl
  | relayOpen j io =>
    cases hs
    have htask := taskCount_le i (w, .relayOpen i io)
    have hle := left_relayOpen he
    omega
  | startPoller j =>
    cases hs
    exact hquiet (left_startPoller hw he) rfl
  | wsClosed j =>
    cases hs
    refine hquiet ?_ rfl
    cases step_cases he with
    | wsClosed phase =>
      unfold World.left
      rw [World.goto_handlers, hself, phase]
      exact Nat.le_refl 1
  | readShard t => exact absurd rfl (hr t)
  | _ => cases hs

/-! ### Counting the pollers -/

/-- The task reads a shard, not the last one. -/
def readsShard (t : Counter) : World × Event → Bool
  | (_, .readShard u) => u = t
  | _ => false

theorem reads_counted (hr : Runs cfg h w) (t : Counter) : h.countP (readsShard t) = w.shardsRead t := by
  induction hr with
  | nil => rfl
  | @snoc h s s' e hr he ih =>
    rw [List.countP_append, List.countP_singleton, ih]
    obtain hsame | ⟨u, rfl, -, -, hread⟩ := step_shardsRead he
    · have hno : readsShard t (s, e) = false := by
        cases e with
        | readShard u =>
          cases step_cases he with
          | readShard =>
            have hu : (Function.update s.shardsRead u (s.shardsRead u + 1)) u = s.shardsRead u := congrFun hsame u
            rw [Function.update_self] at hu
            omega
        | _ => rfl
      rw [hno, hsame]
      rfl
    · by_cases hu : u = t
      · subst hu
        have hyes : readsShard u (s, .readShard u) = true := decide_eq_true rfl
        rw [hyes, hread, Function.update_self]
        rfl
      · have hno : readsShard t (s, .readShard u) = false := decide_eq_false hu
        rw [hno, hread, Function.update_of_ne (Ne.symm hu)]
        rfl

/-- Each task reads each shard at most once. -/
theorem reads_lt (hr : Runs cfg h w) (t : Counter) : h.countP (readsShard t) < cfg.gatewayShards := by
  rw [reads_counted hr t]
  exact shardsRead_lt hr t

/-! ### The work for a session -/

/-- What session `i` and its relay tasks have left to do. -/
def World.owed (cfg : Config) (w : World) (i : ClientId) : ℕ := w.left cfg i + (w.pending i).length

/-- A relay task of session `i` starts in the event. -/
def submitsFor (i : ClientId) : World × Event → Bool
  | (_, .submit t) => t.client = i
  | _ => false

theorem pending_le (hw : Sound w) (he : step cfg w e = some w') :
    (w'.pending i).length + (if submitsFor i (w, e) then 1 else 0) ≤ (w.pending i).length + taskCount i (w, e) := by
  have ht := step_tasks hw he i
  generalize w'.pending i = pending' at ht
  generalize w'.started i = started' at ht
  cases ht with
  | other quiet not next =>
    have hno : submitsFor i (w, e) = false := by
      cases e with
      | submit t => exact decide_eq_false (not t rfl)
      | _ => rfl
    rw [hno, taskCount, quiet]
    exact Nat.le_refl _
  | @lost e t task fails next =>
    have hno : submitsFor i (w, e) = false := by
      cases e with
      | submit t => cases task
      | _ => rfl
    rw [hno]
    exact Nat.le_add_right _ _
  | @spawn e t task encodes next =>
    have hno : submitsFor i (w, e) = false := by
      cases e with
      | submit t => cases task
      | _ => rfl
    rw [hno, taskCount, task, List.length_append]
    exact Nat.le_refl _
  | @submit t mem next =>
    have hpos : 0 < (w.pending i).length := List.length_pos_of_mem mem
    have hlen : ((w.pending i).erase t).length = (w.pending i).length - 1 := List.length_erase_of_mem mem
    rw [hlen]
    split_ifs <;> omega

/-- A step for session `i` takes one from what it and its tasks have left to do. -/
theorem owed_step (hw : Sound w) (he : step cfg w e = some w') :
    w'.owed cfg i + (if e.worksFor = some i then 1 else 0) ≤ w.owed cfg i + inputOf i (w, e) := by
  by_cases hread : ∃ t, e = .readShard t
  · obtain ⟨t, rfl⟩ := hread
    have hsame : w'.owed cfg i = w.owed cfg i := by
      cases step_cases he with
      | readShard => rfl
    rw [hsame]
    exact Nat.le_add_right _ _
  push Not at hread
  have hp := pending_le (i := i) hw he
  unfold World.owed
  by_cases hs : e.session = some i
  · have hown := left_own hw he hs hread
    have hno : submitsFor i (w, e) = false := by
      cases e with
      | submit t => cases hs
      | _ => rfl
    rw [hno] at hp
    simp only [Bool.false_eq_true, if_false] at hp
    split_ifs <;> omega
  · have hother := left_other he hs
    have htask : taskCount i (w, e) = 0 := by rw [taskCount, taskOf_outside hs]; rfl
    have hcost : (if e.worksFor = some i then 1 else 0) = if submitsFor i (w, e) then 1 else 0 := by
      cases e with
      | submit t => simp [Event.worksFor, submitsFor]
      | readShard t => exact absurd rfl (hread t)
      | _ => exact if_neg hs
    rw [hcost]
    omega

theorem owed_new (cfg : Config) (i : ClientId) : World.new.owed cfg i = 9 := rfl

/-- What a session gets out of its channel has been put there. -/
theorem received_le (hr : Runs cfg h w) (i : ClientId) :
    h.countP (fun x => (receivedBy i x).isSome) ≤ (h.filterMap (putOn i)).length := by
  have hfifo := congrArg List.length (channel_fifo hr i)
  have hempty : World.new.buffer i = [] := rfl
  rw [hempty, List.nil_append, List.length_append] at hfifo
  rw [← List.length_filterMap_eq_countP]
  omega

theorem inputs_sum (i : ClientId) (h : List (World × Event)) : (h.map (inputOf i)).sum =
    3 * h.countP (readsFrame i) + 2 * h.countP fun x => (receivedBy i x).isSome := by
  unfold inputOf
  rw [List.sum_map_add, List.sum_map_mul_left, List.sum_map_mul_left, LTS.sum_map_count, LTS.sum_map_count]

theorem worksFor_le (hr : Runs cfg h w) (i : ClientId) : h.countP (fun x => x.2.worksFor = some i) ≤
    3 * h.countP (readsFrame i) + 2 * (h.filterMap (putOn i)).length + 9 := by
  have hstep : ∀ s e s', Sound s → True → step cfg s e = some s' →
      Sound s' ∧ s'.owed cfg i + (if e.worksFor = some i then 1 else 0) ≤ s.owed cfg i + inputOf i (s, e) :=
    fun s e s' hs _ he => ⟨hs.step he, owed_step hs he⟩
  have hpot := (@LTS.Run.potential World Event (step cfg) (fun _ => True) Sound (fun w => w.owed cfg i)
    (fun x => if x.2.worksFor = some i then 1 else 0) (inputOf i) hstep _ _ _ hr Sound.new fun _ _ => trivial).2
  have hcost : (h.map fun x => if x.2.worksFor = some i then 1 else 0).sum =
      h.countP fun x => x.2.worksFor = some i := by
    rw [← LTS.sum_map_count]
    simp only [decide_eq_true_eq]
  have hreceived := received_le hr i
  rw [hcost, inputs_sum, owed_new] at hpot
  omega

/-- **The work for a session is linear in its input.** Whatever else happens, its handler and its relay tasks
take at most three steps for each frame read from the socket, two for each message put on its channel, and
nine more; and it reads the shards of the gateway map once. -/
theorem session_work (hr : Runs cfg h w) (i : ClientId) :
    h.countP (fun x => x.2.worksFor = some i) ≤
        3 * h.countP (readsFrame i) + 2 * (h.filterMap (putOn i)).length + 9 ∧
      h.countP (readsShard (.session i)) < cfg.gatewayShards :=
  ⟨worksFor_le hr i, reads_lt hr _⟩

/-! ### What a poller has left to do -/

/-- What a poller in this phase has left to do until it polls again, where a `put` costs `a` and any other
step one. -/
def PollerPhase.toDo (a : ℕ) : PollerPhase → ℕ
  | .polling => 0
  | .relaying msgs => (a + 1) * msgs.messages.length + 4
  | .sending _ _ _ msgs => (a + 1) * msgs.messages.length + 4 + a
  | .sleeping => 3
  | .checking => 2
  | .failed _ => 2
  | .returned _ => 1
  | .ended _ => 0

def World.toDo (a : ℕ) (w : World) (p : PollerId) : ℕ := ((w.pollers p).map fun q => q.phase.toDo a).getD 0

/-- The number of messages in a reply. -/
def PollReply.size : PollReply → ℕ
  | .replied (.ok out) => out.messages.length
  | _ => 0

/-- What a step of a poller costs. -/
def Event.price (a : ℕ) : Event → ℕ
  | .put _ => a
  | _ => 1

/-- What a reply to the poller `p` adds to what it has left to do. -/
def replyWork (a : ℕ) (p : PollerId) (x : World × Event) : ℕ :=
  ((replyTo p x).map fun r => (a + 1) * r.size + 5).getD 0

theorem pollCanister_polled {r : PollReply} {out : CanisterOutputCertifiedMessages}
    (hr : pollCanister r = .ok (.messagesPolled out)) : r.size = out.messages.length := by
  unfold pollCanister at hr
  split at hr
  · split_ifs at hr with hlen
    · cases hr
    · cases hr
      rfl
  · split_ifs at hr
    cases hr
  · cases hr
  · cases hr
  · cases hr

theorem toDo_of_some (a : ℕ) (hq : w.pollers p = some q) : w.toDo a p = q.phase.toDo a := by
  unfold World.toDo
  rw [hq]
  rfl

/-- A reply is what a poller works on next. -/
theorem toDo_reply (a : ℕ) {r : PollReply} (he : step cfg w (.pollReply p r) = some w') :
    w'.toDo a p + 1 ≤ (a + 1) * r.size + 5 := by
  have hset : ∀ {w' : World} {q : CanisterPoller}, w'.pollers p = some q → q.phase.toDo a + 1 ≤ (a + 1) * r.size + 5 →
      w'.toDo a p + 1 ≤ (a + 1) * r.size + 5 := by
    intro w' q hq hle
    rw [toDo_of_some a hq]
    exact hle
  have hsmall : ∀ {n}, n ≤ 4 → n + 1 ≤ (a + 1) * r.size + 5 := fun hn =>
    Nat.le_trans (Nat.succ_le_succ hn) (Nat.le_add_left 5 _)
  cases step_cases he with
  | pollFailed | nonceFailed => exact hset (Function.update_self ..) (hsmall (Nat.le_add_right 2 2))
  | noncePanic => exact hset (Function.update_self ..) (hsmall (Nat.zero_le 4))
  | timedOut => exact hset (Function.update_self ..) (hsmall (Nat.le_add_right 2 2))
  | noMessages => exact hset (Function.update_self ..) (hsmall (Nat.le_succ 3))
  | polled poller phase reply =>
    refine hset (Function.update_self ..) ?_
    rw [pollCanister_polled reply]
    exact Nat.le_refl _

/-- Any other step of a poller takes its price from what the poller has left to do. -/
theorem Move.toDo {a : ℕ} {ph ph' : PollerPhase} (hm : Move p ph e ph') :
    ph'.toDo a + e.price a ≤ ph.toDo a := by
  cases hm with
  | drained msgs done => exact Nat.le_add_left 4 _
  | more msgs done => exact Nat.le_trans (Nat.le_succ 3) (Nat.le_add_left 4 _)
  | send msgs m rest i head =>
    simp only [PollerPhase.toDo, Event.price, head, List.length_cons, Nat.mul_add]
    omega
  | skip msgs m rest head =>
    simp only [PollerPhase.toDo, Event.price, head, List.length_cons, Nat.mul_add]
    omega
  | put => exact Nat.le_refl _
  | wake => exact Nat.le_refl 3
  | terminate => exact Nat.le_refl 2
  | goOn => exact Nat.le_succ 1
  | fail => exact Nat.le_refl 2
  | stop => exact Nat.le_refl 1

theorem toDo_step (a : ℕ) (hw : Sound w) (he : step cfg w e = some w') :
    w'.toDo a p + (if e.poller = some p then e.price a else 0) ≤ w.toDo a p + replyWork a p (w, e) := by
  by_cases hp : e.poller = some p
  · rw [if_pos hp]
    obtain ⟨q, hq⟩ := Option.ne_none_iff_exists'.mp (poller_there he hp)
    by_cases hreply : ∃ r, e = .pollReply p r
    · obtain ⟨r, rfl⟩ := hreply
      have hle := toDo_reply a he
      have hwork : replyWork a p (w, .pollReply p r) = (a + 1) * r.size + 5 := by simp [replyWork, replyTo]
      have hprice : (Event.pollReply p r).price a = 1 := rfl
      omega
    · push Not at hreply
      obtain ⟨ph, hm, hq'⟩ := own_move hw he hp hreply hq
      rw [toDo_of_some a hq, toDo_of_some a hq']
      exact Nat.le_trans hm.toDo (Nat.le_add_right _ _)
  · rw [if_neg hp]
    obtain hsame | ⟨rfl, c, r, hnew⟩ := poller_other he hp
    · unfold World.toDo
      rw [hsame]
      exact Nat.le_add_right _ _
    · rw [toDo_of_some a hnew]
      exact Nat.zero_le _

/-- The price of what a poller does, and of what it has left to do, is what its replies are worth. -/
theorem poller_price (a : ℕ) (hr : Runs cfg h w) (p : PollerId) :
    w.toDo a p + (h.map fun x => if x.2.poller = some p then x.2.price a else 0).sum ≤
      (h.map (replyWork a p)).sum := by
  have hstep : ∀ s e s', Sound s → True → step cfg s e = some s' → Sound s' ∧
      s'.toDo a p + (if e.poller = some p then e.price a else 0) ≤ s.toDo a p + replyWork a p (s, e) :=
    fun s e s' hs _ he => ⟨hs.step he, toDo_step a hs he⟩
  have hpot := (@LTS.Run.potential World Event (step cfg) (fun _ => True) Sound (fun w => w.toDo a p)
    (fun x => if x.2.poller = some p then x.2.price a else 0) (replyWork a p) hstep _ _ _ hr Sound.new
    fun _ _ => trivial).2
  have hnew : World.new.toDo a p = 0 := rfl
  omega

/-- **The work of a poller is linear in what it is sent.** It takes at most five steps for each reply, and two for
each message in one; and its task reads the shards of the gateway map once. -/
theorem poller_work (hr : Runs cfg h w) (p : PollerId) :
    h.countP (fun x => x.2.poller = some p) ≤ ((h.filterMap (replyTo p)).map fun r => 2 * r.size + 5).sum ∧
      h.countP (readsShard (.poller p)) < cfg.gatewayShards := by
  refine ⟨?_, reads_lt hr _⟩
  have hprice := poller_price 1 hr p
  have hone : ∀ e : Event, e.price 1 = 1 := by
    intro e
    cases e <;> rfl
  have hcost : (h.map fun x => if x.2.poller = some p then x.2.price 1 else 0).sum =
      h.countP fun x => x.2.poller = some p := by
    rw [← LTS.sum_map_count]
    simp only [hone, decide_eq_true_eq]
  have hgain : (h.map (replyWork 1 p)).sum = ((h.filterMap (replyTo p)).map fun r => 2 * r.size + 5).sum :=
    LTS.sum_filterMap (replyTo p) (fun r => 2 * r.size + 5) h
  omega

/-! ### All of it -/

/-- A session whose client has sent nothing is where it was, and nothing has been done for it. -/
theorem unread (hr : Runs cfg h w) (hF : ∀ x ∈ h, readsFrame i x = false) :
    w.handlers i = Handler.new i ∧ w.pending i = [] ∧ ∀ x ∈ h, x.2.session ≠ some i ∧ x.2.worksFor ≠ some i := by
  induction hr with
  | nil => exact ⟨rfl, rfl, fun x hx => absurd hx List.not_mem_nil⟩
  | @snoc h t t' e hr he ih =>
    obtain ⟨hnew, hpending, hno⟩ := ih fun x hx => hF x (List.mem_append_left _ hx)
    have hw := reachable hr
    have hlast : readsFrame i (t, e) = false := hF (t, e) (by simp)
    -- no step of the handler is enabled, and nobody sends to it
    have hs : e.session ≠ some i := by
      intro hs
      cases step_cases he with
      | readWs phase =>
        cases hs
        simp [readsFrame] at hlast
      | recv phase rx =>
        cases hs
        rw [hnew] at rx
        cases rx
      | cutOff phase rx tx =>
        cases hs
        rw [hnew] at tx
        cases tx
      | lock target =>
        cases hs
        rw [hnew] at target
        cases target
      | update phase | insert phase | rollback phase | rollbackPanic phase | remove phase | removePanic phase =>
        cases hs
        rw [hnew] at phase
        cases phase
      | removeIfExists phase | removeVacant phase | relayOpen phase | relayOpenFail phase | relayOpenPanic phase =>
        cases hs
        rw [hnew] at phase
        cases phase
      | startPoller phase | noPoller phase | wsClosed phase =>
        cases hs
        rw [hnew] at phase
        cases phase
      | readShard counts =>
        obtain rfl := session_readShard hs
        obtain ⟨c, r, phase⟩ := World.counts_session counts
        rw [hnew] at phase
        cases phase
      | _ => cases hs
    have hsame : t'.handlers i = t.handlers i := by
      have hh := step_handler he i
      generalize ha : t.handlers i = a at hh hnew ⊢
      generalize t'.handlers i = b at hh ⊢
      cases hh with
      | other => rfl
      | push poller sending =>
        have hentry := hw.entry_of_active poller (by rw [sending]; rfl)
        obtain ⟨hcan, -⟩ := seat_keys (hw.stored_seat hentry (hw.sending_open poller sending).1)
        rw [ha, hnew] at hcan
        cases hcan
      | _ => exact absurd rfl hs
    have htask : taskCount i (t, e) = 0 := by rw [taskCount, taskOf_outside hs]; rfl
    have hle := pending_le (i := i) hw he
    rw [hpending, htask] at hle
    have hnil : t'.pending i = [] := by
      rw [← List.length_eq_zero_iff]
      exact Nat.le_zero.mp (Nat.le_trans (Nat.le_add_right _ _) hle)
    refine ⟨hsame.trans hnew, hnil, fun x hx => ?_⟩
    rcases List.mem_append.mp hx with hx | hx
    · exact hno x hx
    · obtain rfl := List.mem_singleton.mp hx
      refine ⟨hs, fun hfor => ?_⟩
      cases e with
      | submit u =>
        have hsub : submitsFor i (t, .submit u) = true := decide_eq_true (Option.some.inj hfor)
        rw [hsub] at hle
        exact absurd (Nat.le_trans (Nat.le_add_left _ _) hle) (by simp)
      | readShard t => cases hfor
      | _ => exact hs hfor

/-- Where nothing is read, nothing is done, so the frames pay for the rest too. -/
theorem session_work_linear (hr : Runs cfg h w) (i : ClientId) : h.countP (fun x => x.2.worksFor = some i) ≤
    12 * h.countP (readsFrame i) + 2 * (h.filterMap (putOn i)).length := by
  have hwork := worksFor_le hr i
  by_cases hF : h.countP (readsFrame i) = 0
  · rw [List.countP_eq_zero] at hF
    obtain ⟨-, -, hno⟩ := unread hr fun x hx => eq_false_of_ne_true (hF x hx)
    have hzero : h.countP (fun x => x.2.worksFor = some i) = 0 := by
      rw [List.countP_eq_zero]
      intro x hx
      rw [decide_eq_true_iff]
      exact (hno x hx).2
    omega
  · omega

theorem le_mul_of_some {a b m : ℕ} (ha : a ≤ m) (hb : b = 0 → a = 0) : a ≤ m * b := by
  by_cases h0 : b = 0
  · rw [hb h0]
    exact Nat.zero_le _
  · exact Nat.le_trans ha (Nat.le_mul_of_pos_right m (Nat.pos_of_ne_zero h0))

/-- A session reads shards only if its client has sent something. -/
theorem session_reads (hr : Runs cfg h w) (i : ClientId) :
    h.countP (readsShard (.session i)) ≤ (cfg.gatewayShards - 1) * h.countP (readsFrame i) := by
  refine le_mul_of_some (Nat.le_sub_one_of_lt (reads_lt hr _)) fun hF => ?_
  rw [List.countP_eq_zero] at hF ⊢
  obtain ⟨-, -, hno⟩ := unread hr fun x hx => eq_false_of_ne_true (hF x hx)
  intro x hx
  obtain ⟨t, e⟩ := x
  cases e with
  | readShard u =>
    intro hu
    obtain rfl : u = .session i := of_decide_eq_true hu
    exact (hno _ hx).1 rfl
  | _ => exact Bool.false_ne_true

/-- The task of a poller reads shards only if the poller has got a reply. -/
theorem poller_reads (hr : Runs cfg h w) (p : PollerId) :
    h.countP (readsShard (.poller p)) ≤ (cfg.gatewayShards - 1) * (h.filterMap (replyTo p)).length := by
  refine le_mul_of_some (Nat.le_sub_one_of_lt (reads_lt hr _)) fun hF => ?_
  rw [List.length_eq_zero_iff, List.filterMap_eq_nil_iff] at hF
  rw [List.countP_eq_zero]
  intro x hx
  obtain ⟨t, e⟩ := x
  cases e with
  | readShard u =>
    intro hu
    obtain rfl : u = .poller p := of_decide_eq_true hu
    obtain ⟨h₁, h₂, rfl⟩ := List.append_of_mem hx
    obtain ⟨hr₁, t', he, -⟩ := hr.at_event
    cases step_cases he with
    | readShard counts =>
      obtain ⟨q, r, hq, hph⟩ := World.counts_poller counts
      -- it has something left to do
      have hle := poller_price 0 hr₁ p
      have hnone : (h₁.map (replyWork 0 p)).sum = 0 := by
        rw [List.sum_eq_zero_iff]
        intro n hn
        obtain ⟨y, hy, rfl⟩ := List.mem_map.mp hn
        rw [replyWork, hF y (List.mem_append_left _ hy)]
        rfl
      have hleft : t.toDo 0 p = 1 := by rw [toDo_of_some 0 hq, hph]; rfl
      omega
  | _ => exact Bool.false_ne_true

/-- The session that the event reads a frame for. -/
def frameOf : World × Event → Option ClientId
  | (_, .readWs i _) => some i
  | _ => none

/-- The session that the event puts a message for on its channel. -/
def putTo : World × Event → Option ClientId
  | (w, .put p) =>
    match (w.pollers p).map CanisterPoller.phase with
    | some (.sending i _ _ _) => some i
    | _ => none
  | _ => none

/-- The poller that gets a reply, with the reply. -/
def replied : World × Event → Option (PollerId × PollReply)
  | (_, .pollReply p r) => some (p, r)
  | _ => none

def puts : World × Event → Bool
  | (_, .put _) => true
  | _ => false

def appends : World × Event → Bool
  | (_, .append _ _) => true
  | _ => false

/-- The session that reads a shard in the event. -/
def readBy : World × Event → Option ClientId
  | (_, .readShard (.session i)) => some i
  | _ => none

/-- The poller whose task reads a shard in the event. -/
def readAfter : World × Event → Option PollerId
  | (_, .readShard (.poller p)) => some p
  | _ => none

theorem putTo_of_putOn {x : World × Event} (hx : (putOn i x).isSome = true) : putTo x = some i := by
  obtain ⟨w, e⟩ := x
  cases e with
  | put p =>
    simp only [putOn, putTo] at hx ⊢
    generalize (w.pollers p).map CanisterPoller.phase = ph at hx ⊢
    split at hx
    · split_ifs at hx with hji
      · exact congrArg some hji.1
      · cases hx
    · cases hx
  | _ => cases hx

/-- Each event is a step for a session, a step of a poller, a read of a shard or an append. -/
theorem kinds (h : List (World × Event)) : h.length + 2 * h.countP puts =
    (h.map fun x => if x.2.worksFor.isSome then 1 else 0).sum +
      (h.map fun x => if x.2.poller.isSome then x.2.price 3 else 0).sum +
      (h.map fun x => if (readBy x).isSome then 1 else 0).sum +
      (h.map fun x => if (readAfter x).isSome then 1 else 0).sum + h.countP appends := by
  induction h with
  | nil => rfl
  | cons x h ih =>
    have hx : 1 + 2 * (if puts x then 1 else 0) = (if x.2.worksFor.isSome then 1 else 0) +
        (if x.2.poller.isSome then x.2.price 3 else 0) + (if (readBy x).isSome then 1 else 0) +
        (if (readAfter x).isSome then 1 else 0) + if appends x then 1 else 0 := by
      obtain ⟨t, e⟩ := x
      cases e with
      | readShard u => cases u <;> rfl
      | _ => rfl
    simp only [List.length_cons, List.countP_cons, List.map_cons, List.sum_cons]
    omega

theorem frames_sum {S : Finset ClientId} (hS : ∀ x ∈ h, ∀ i, frameOf x = some i → i ∈ S) :
    ∑ i ∈ S, h.countP (readsFrame i) = h.countP fun x => (frameOf x).isSome := by
  have hone : ∀ i, h.countP (readsFrame i) = (h.map fun x => if frameOf x = some i then 1 else 0).sum := by
    intro i
    rw [← LTS.sum_map_count]
    refine congrArg List.sum (List.map_congr_left fun x _ => ?_)
    obtain ⟨t, e⟩ := x
    cases e <;> simp [readsFrame, frameOf]
  simp only [hone]
  rw [← LTS.sum_fibers frameOf (fun _ => 1) S hS, ← LTS.sum_map_count]

/-- A message is put on one channel at most. -/
theorem puts_sum {S : Finset ClientId} (hS : ∀ x ∈ h, ∀ i, putTo x = some i → i ∈ S) :
    ∑ i ∈ S, (h.filterMap (putOn i)).length ≤ h.countP puts := by
  have hone : ∀ i ∈ S, (h.filterMap (putOn i)).length ≤ (h.map fun x => if putTo x = some i then 1 else 0).sum := by
    intro i _
    rw [List.length_filterMap_eq_countP, ← LTS.sum_map_count]
    refine List.sum_le_sum fun x _ => ?_
    by_cases hx : (putOn i x).isSome = true
    · rw [if_pos hx, if_pos (putTo_of_putOn hx)]
    · rw [if_neg hx]
      exact Nat.zero_le _
  refine Nat.le_trans (Finset.sum_le_sum hone) ?_
  rw [← LTS.sum_fibers putTo (fun _ => 1) S hS, LTS.sum_map_count]
  refine List.countP_mono_left fun x _ hx => ?_
  obtain ⟨t, e⟩ := x
  cases e with
  | put p => rfl
  | _ => cases hx

/-- A reply goes to one poller. -/
theorem replies_sum (f : PollReply → ℕ) {P : Finset PollerId} (hP : ∀ x ∈ h, ∀ p, x.2.poller = some p → p ∈ P) :
    ∑ p ∈ P, (h.map fun x => ((replyTo p x).map f).getD 0).sum = ((h.filterMap replied).map fun y => f y.2).sum := by
  have hone : ∀ p, (h.map fun x => ((replyTo p x).map f).getD 0).sum =
      (h.map fun x => if (replied x).map Prod.fst = some p then ((replied x).map fun y => f y.2).getD 0 else 0).sum := by
    intro p
    refine congrArg List.sum (List.map_congr_left fun x _ => ?_)
    obtain ⟨t, e⟩ := x
    cases e with
    | pollReply p' r =>
      by_cases hp : p' = p
      · simp [replyTo, replied, hp]
      · simp [replyTo, replied, hp]
    | _ => rfl
  have hmem : ∀ x ∈ h, ∀ p, (replied x).map Prod.fst = some p → p ∈ P := by
    intro x hx p hp
    refine hP x hx p ?_
    obtain ⟨t, e⟩ := x
    cases e with
    | pollReply p' r => exact hp
    | _ => cases hp
  simp only [hone]
  rw [← LTS.sum_fibers (fun x => (replied x).map Prod.fst) _ P hmem, ← LTS.sum_filterMap]
  refine congrArg List.sum (List.map_congr_left fun x _ => ?_)
  rcases replied x with _ | y <;> rfl

/-- What the sessions `S` do and read, all together. -/
theorem sessions_sum (hr : Runs cfg h w) {S : Finset ClientId} (hframes : ∀ x ∈ h, ∀ i, frameOf x = some i → i ∈ S)
    (hputs : ∀ x ∈ h, ∀ i, putTo x = some i → i ∈ S) :
    ∑ i ∈ S, (h.map fun x => if x.2.worksFor = some i then 1 else 0).sum +
        ∑ i ∈ S, (h.map fun x => if readBy x = some i then 1 else 0).sum ≤
      (11 + cfg.gatewayShards) * h.countP (fun x => (frameOf x).isSome) + 2 * h.countP puts := by
  have hpos : 0 < cfg.gatewayShards := Nat.zero_lt_of_lt (cfg.gatewayShard_lt [])
  have hread : ∀ i, (h.map fun x => if readBy x = some i then 1 else 0).sum = h.countP (readsShard (.session i)) := by
    intro i
    rw [← LTS.sum_map_count]
    refine congrArg List.sum (List.map_congr_left fun x _ => ?_)
    obtain ⟨t, e⟩ := x
    cases e with
    | readShard u => cases u <;> simp [readBy, readsShard]
    | _ => rfl
  calc ∑ i ∈ S, (h.map fun x => if x.2.worksFor = some i then 1 else 0).sum +
        ∑ i ∈ S, (h.map fun x => if readBy x = some i then 1 else 0).sum
      ≤ ∑ i ∈ S, (12 * h.countP (readsFrame i) + 2 * (h.filterMap (putOn i)).length) +
          ∑ i ∈ S, (cfg.gatewayShards - 1) * h.countP (readsFrame i) := by
        apply Nat.add_le_add
        · refine Finset.sum_le_sum fun i _ => ?_
          have hlinear := session_work_linear hr i
          rw [← LTS.sum_map_count] at hlinear
          simpa only [decide_eq_true_eq] using hlinear
        · refine Finset.sum_le_sum fun i _ => ?_
          rw [hread]
          exact session_reads hr i
    _ = (11 + cfg.gatewayShards) * ∑ i ∈ S, h.countP (readsFrame i) +
          2 * ∑ i ∈ S, (h.filterMap (putOn i)).length := by
        have hsum : 11 + cfg.gatewayShards = 12 + (cfg.gatewayShards - 1) := by omega
        rw [Finset.sum_add_distrib, ← Finset.mul_sum, ← Finset.mul_sum, ← Finset.mul_sum, hsum, Nat.add_mul]
        omega
    _ ≤ (11 + cfg.gatewayShards) * h.countP (fun x => (frameOf x).isSome) + 2 * h.countP puts := by
        have hle := puts_sum hputs
        rw [frames_sum hframes]
        omega

/-- What the pollers `P` do and read, all together. -/
theorem pollers_sum (hr : Runs cfg h w) {P : Finset PollerId} (hP : ∀ x ∈ h, ∀ p, x.2.poller = some p → p ∈ P) :
    ∑ p ∈ P, (h.map fun x => if x.2.poller = some p then x.2.price 3 else 0).sum +
        ∑ p ∈ P, (h.map fun x => if readAfter x = some p then 1 else 0).sum ≤
      ((h.filterMap replied).map fun y => 4 * y.2.size + 4 + cfg.gatewayShards).sum := by
  have hpos : 0 < cfg.gatewayShards := Nat.zero_lt_of_lt (cfg.gatewayShard_lt [])
  have hread : ∀ p, (h.map fun x => if readAfter x = some p then 1 else 0).sum = h.countP (readsShard (.poller p)) := by
    intro p
    rw [← LTS.sum_map_count]
    refine congrArg List.sum (List.map_congr_left fun x _ => ?_)
    obtain ⟨t, e⟩ := x
    cases e with
    | readShard u => cases u <;> simp [readAfter, readsShard]
    | _ => rfl
  rw [← replies_sum (fun r => 4 * r.size + 4 + cfg.gatewayShards) hP, ← Finset.sum_add_distrib]
  refine Finset.sum_le_sum fun p _ => ?_
  rw [hread, LTS.sum_filterMap (replyTo p) (fun r => 4 * r.size + 4 + cfg.gatewayShards) h]
  have hprice := poller_price 3 hr p
  have hwork : (h.map (replyWork 3 p)).sum = ((h.filterMap (replyTo p)).map fun r => 4 * r.size + 5).sum :=
    LTS.sum_filterMap (replyTo p) (fun r => 4 * r.size + 5) h
  have hreads := poller_reads hr p
  have hsum : ((h.filterMap (replyTo p)).map fun r => 4 * r.size + 4 + cfg.gatewayShards).sum =
      ((h.filterMap (replyTo p)).map fun r => 4 * r.size + 5).sum +
        (cfg.gatewayShards - 1) * (h.filterMap (replyTo p)).length := by
    have hone : ∀ r : PollReply, 4 * r.size + 4 + cfg.gatewayShards = 4 * r.size + 5 + (cfg.gatewayShards - 1) := by
      intro r
      omega
    simp only [hone]
    rw [List.sum_map_add, List.map_const', List.sum_replicate, smul_eq_mul, Nat.mul_comm]
  omega

/-- **The work of the gateway is linear in its input.** In every run, however the tasks interleave, there are at most
twelve steps for each frame read from a socket, five for each reply to a poll and four for each message in it,
and one for each message that a canister queues; to count the pollers, at most one more for each frame and each
reply for every shard of the gateway map but one. -/
theorem linear_work (hr : Runs cfg h w) : h.length ≤
    (11 + cfg.gatewayShards) * h.countP (fun x => (frameOf x).isSome) +
      ((h.filterMap replied).map fun y => 4 * y.2.size + 4 + cfg.gatewayShards).sum + h.countP appends := by
  let sessions : Finset ClientId :=
    (h.filterMap (fun x => x.2.worksFor) ++ h.filterMap putTo ++ h.filterMap readBy).toFinset
  let pollers : Finset PollerId := (h.filterMap (fun x => x.2.poller) ++ h.filterMap readAfter).toFinset
  have hworks : ∀ x ∈ h, ∀ i, x.2.worksFor = some i → i ∈ sessions := by
    intro x hx i hi
    simp only [sessions, List.mem_toFinset, List.mem_append, List.mem_filterMap]
    exact Or.inl (Or.inl ⟨x, hx, hi⟩)
  have hputs : ∀ x ∈ h, ∀ i, putTo x = some i → i ∈ sessions := by
    intro x hx i hi
    simp only [sessions, List.mem_toFinset, List.mem_append, List.mem_filterMap]
    exact Or.inl (Or.inr ⟨x, hx, hi⟩)
  have hreads : ∀ x ∈ h, ∀ i, readBy x = some i → i ∈ sessions := by
    intro x hx i hi
    simp only [sessions, List.mem_toFinset, List.mem_append, List.mem_filterMap]
    exact Or.inr ⟨x, hx, hi⟩
  have hframes : ∀ x ∈ h, ∀ i, frameOf x = some i → i ∈ sessions := by
    intro x hx i hi
    refine hworks x hx i ?_
    obtain ⟨t, e⟩ := x
    cases e with
    | readWs j u => exact hi
    | _ => cases hi
  have hpollers : ∀ x ∈ h, ∀ p, x.2.poller = some p → p ∈ pollers := by
    intro x hx p hp
    simp only [pollers, List.mem_toFinset, List.mem_append, List.mem_filterMap]
    exact Or.inl ⟨x, hx, hp⟩
  have hafter : ∀ x ∈ h, ∀ p, readAfter x = some p → p ∈ pollers := by
    intro x hx p hp
    simp only [pollers, List.mem_toFinset, List.mem_append, List.mem_filterMap]
    exact Or.inr ⟨x, hx, hp⟩
  have hsessions := sessions_sum hr hframes hputs
  have hpollersum := pollers_sum hr hpollers
  have hkinds := kinds h
  rw [LTS.sum_fibers (fun x : World × Event => x.2.worksFor) (fun _ => 1) sessions hworks,
    LTS.sum_fibers (fun x : World × Event => x.2.poller) (fun x => x.2.price 3) pollers hpollers,
    LTS.sum_fibers readBy (fun _ => 1) sessions hreads, LTS.sum_fibers readAfter (fun _ => 1) pollers hafter] at hkinds
  omega

/-- A client opens a session, and its poller relays a message to it. -/
def works (c : CanisterPrincipal) (k : ClientKey) : List Event :=
  opens 0 (wsOpen c k) ++ [polls 0 [messageFor k "gateway_0"], .relay 0, .put 0, .relay 0, .recv 0, .update 0 .ok,
    .wake 0, .checkTerminate 0]

set_option maxRecDepth 20000 in
/-- One frame is read and one message put on the channel of this session. -/
theorem session_work_opens :
    (LTS.trace (step .simple) World.new (works [9] ⟨[1], 1⟩)).countP (fun x => x.2.worksFor = some 0) ≤
      3 * 1 + 2 * 1 + 9 := by
  have hr : Runs .simple _ (World.after .simple (works [9] ⟨[1], 1⟩)) := runs_after (by decide)
  have hwork := (session_work hr 0).1
  have hframes : (LTS.trace (step .simple) World.new (works [9] ⟨[1], 1⟩)).countP (readsFrame 0) = 1 := by decide
  have hputs : ((LTS.trace (step .simple) World.new (works [9] ⟨[1], 1⟩)).filterMap (putOn 0)).length = 1 := by decide
  rwa [hframes, hputs] at hwork

set_option maxRecDepth 20000 in
theorem poller_work_opens :
    (LTS.trace (step .simple) World.new (works [9] ⟨[1], 1⟩)).countP (fun x => x.2.poller = some 0) ≤ 7 := by
  have hr : Runs .simple _ (World.after .simple (works [9] ⟨[1], 1⟩)) := runs_after (by decide)
  have hwork := (poller_work hr 0).1
  have hreplies : (((LTS.trace (step .simple) World.new (works [9] ⟨[1], 1⟩)).filterMap (replyTo 0)).map
      fun r => 2 * r.size + 5).sum = 7 := by decide
  rwa [hreplies] at hwork

set_option maxRecDepth 20000 in
theorem linear_work_opens : (works [9] ⟨[1], 1⟩).length ≤ (11 + 1) * 1 + 9 + 0 := by
  have hr : Runs .simple _ (World.after .simple (works [9] ⟨[1], 1⟩)) := runs_after (by decide)
  have hwork := linear_work hr
  have hlen : (LTS.trace (step .simple) World.new (works [9] ⟨[1], 1⟩)).length = (works [9] ⟨[1], 1⟩).length := by
    decide
  have hframes : (LTS.trace (step .simple) World.new (works [9] ⟨[1], 1⟩)).countP (fun x => (frameOf x).isSome) = 1 := by
    decide
  have hreplies : (((LTS.trace (step .simple) World.new (works [9] ⟨[1], 1⟩)).filterMap replied).map
      fun y => 4 * y.2.size + 4 + Config.simple.gatewayShards).sum = 9 := by decide
  have happends : (LTS.trace (step .simple) World.new (works [9] ⟨[1], 1⟩)).countP appends = 0 := by decide
  rwa [hlen, hframes, hreplies, happends] at hwork

end IcWsGateway
