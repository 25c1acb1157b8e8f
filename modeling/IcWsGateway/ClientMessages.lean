/-
# Client messages on their way to the IC

Each envelope that a session relays is handed to a task of its own
(`relay_envelope_to_canister`), and the scheduler decides when a task starts.
What is relayed for a session is therefore what has been read from its client,
with `ws_open` first, each envelope once (`relay_perm`); it is submitted in that
order exactly if the tasks of the session start in the order they were spawned
(`client_messages_in_order`).

Key definitions: `wsOpenOf`, `messagesOf`, `StartsOldest`.
Key theorems: `client_messages_in_order`, `client_messages_overtake`.
-/
import IcWsGateway.Refinement

namespace IcWsGateway

variable {cfg : Config} {w w' : World} {h : List (World × Event)} {i : ClientId}

/-! ### What an update relays -/

/-- The envelope of a binary message whose content is of the `Call` variant. -/
def callEnvelope (m : Message) : Option Envelope :=
  match getClientRequest m with
  | .error _ => none
  | .ok clientRequest =>
    match clientRequest.envelope.content with
    | .call .. => some clientRequest.envelope
    | _ => none

/-- The envelopes among the outputs. -/
def Output.envelope : Output → Option (Principal × Envelope)
  | .relayEnvelope c env => some (c, env)
  | _ => none

theorem callEnvelope_close {m : Message} (h : m.isClose = true) : callEnvelope m = none := by
  cases m <;> first | rfl | cases h

theorem relayClientMessage_out {s : ClientSession} {c : CanisterPrincipal} (hc : s.canisterId = some c)
    (m : Message) (io : Io) : (s.relayClientMessage m io).1 =
      if io.cbor = .ok () then ((callEnvelope m).map (.relayEnvelope c)).toList else [] := by
  unfold ClientSession.relayClientMessage ClientSession.relayWsMessageToIc callEnvelope
  rcases getClientRequest m with e | req
  · simp
  · dsimp only
    rcases req.envelope.content with ⟨c', sender, arg, body⟩ | body | body
    · rcases io with ⟨socket, cbor⟩
      rcases cbor with (e | e) | ⟨⟩ <;> simp [ClientSession.serialize, hc]
    · simp
    · simp

theorem relayCanisterMessage_out (m : CanisterToClientMessage) (io : Io) :
    (ClientSession.relayCanisterMessage m io).1.filterMap Output.envelope = [] := by
  obtain h | ⟨out, e, ho, -, h⟩ := relayCanisterMessage_cases m io
  · rw [h]
    rfl
  · rw [h]
    rcases ho with rfl | rfl <;> rfl

/-- The message of the client that the session relays when it handles the update. -/
def ClientSession.relays (s : ClientSession) : Update → Option Envelope
  | .client (.ok m) => if s.sessionState = .opened then callEnvelope m else none
  | _ => none

theorem relays_client (s : ClientSession) (m : Message) :
    s.relays (.client (.ok m)) = if s.sessionState = .opened then callEnvelope m else none := rfl

theorem handleClientMessage_out {s : ClientSession} {c : CanisterPrincipal} (hc : s.canisterId = some c)
    (m : Message) (io : Io) : (s.handleClientMessage m io).2.1.filterMap Output.envelope =
      if io.cbor = .ok () then ((s.relays (.client (.ok m))).map fun env => (c, env)).toList else [] := by
  rw [relays_client]
  unfold ClientSession.handleClientMessage
  split
  · obtain ⟨k, c', -, h⟩ | ⟨e, h⟩ := s.handleSetupTransition_cases m io <;> rw [h] <;>
      simp [Output.envelope, *]
  · simp [*]
  · rename_i hst
    rw [relayClientMessage_out hc, if_pos hst]
    split_ifs
    · rcases callEnvelope m with _ | env <;> rfl
    · rfl
  · simp [*]

theorem handleClientUpdate_out {s : ClientSession} {c : CanisterPrincipal} (hc : s.canisterId = some c)
    (u : Except String Message) (io : Io) : (s.handleClientUpdate u io).2.1.filterMap Output.envelope =
      if io.cbor = .ok () then ((s.relays (.client u)).map fun env => (c, env)).toList else [] := by
  unfold ClientSession.handleClientUpdate ClientSession.checkClientUpdate
  cases u with
  | error e => simp [ClientSession.relays]
  | ok m =>
    dsimp only
    by_cases hcl : (m.isClose && !s.sessionState.isClosed) = true
    · rw [if_pos hcl]
      rw [Bool.and_eq_true] at hcl
      simp [ClientSession.relays, callEnvelope_close hcl.1]
    · rw [if_neg hcl]
      exact handleClientMessage_out hc m io

theorem handleCanisterUpdate_out (s : ClientSession) (u : Option CanisterToClientMessage) (io : Io) :
    (s.handleCanisterUpdate u io).2.1.filterMap Output.envelope = [] := by
  unfold ClientSession.handleCanisterUpdate
  cases u with
  | some m =>
    have hm := relayCanisterMessage_out m io
    have ho : (ClientSession.handleOpenTransition m io).1.filterMap Output.envelope = [] := by
      rw [← hm]
      unfold ClientSession.handleOpenTransition
      split <;> rename_i h <;> rw [h]
    dsimp only
    split
    · rfl
    · split <;> rename_i h <;> rw [h] at ho <;> exact ho
    · split <;> rename_i h <;> rw [h] at hm <;> exact hm
    · rfl
  | none =>
    dsimp only
    split <;> rfl

/-- An update of a session with its canister relays the client's message, if the
session is open, and nothing else. -/
theorem update_out {s s' : ClientSession} {c : CanisterPrincipal} (hc : s.canisterId = some c) {u : Update}
    {io : Io} {out : List Output} {r : Outcome IcWsError (Option IcWsSessionState)}
    (hu : s.tryUpdateState u io = (s', out, r)) : out.filterMap Output.envelope =
      if io.cbor = .ok () then ((s.relays u).map fun env => (c, env)).toList else [] := by
  have hout : out = (s.handleUpdate u io).2.1 := by
    unfold ClientSession.tryUpdateState at hu
    split at hu <;> rename_i h <;> rw [h] <;> cases hu <;> rfl
  rw [hout]
  cases u with
  | client u => exact handleClientUpdate_out hc u io
  | canister u =>
    have hno : s.relays (.canister u) = none := rfl
    rw [hno, show s.handleUpdate (.canister u) io = s.handleCanisterUpdate u io from rfl,
      handleCanisterUpdate_out]
    simp

/-! ### The tasks of a session -/

/-- The tasks of session `i` that have not started yet. -/
def World.pending (w : World) (i : ClientId) : List RelayTask := w.spawned.filter (·.client = i)

/-- The tasks of session `i` that have started, in that order. -/
def World.started (w : World) (i : ClientId) : List RelayTask := w.submitted.filter (·.client = i)

/-- The task that the event hands the `ws_open` envelope of session `i` to. -/
def wsOpenOf (i : ClientId) : World × Event → Option RelayTask
  | (w, .relayOpen j _) =>
    match (w.handlers i).phase with
    | .relayingOpen m c _ _ =>
      if j = i then (callEnvelope m).map fun env => ⟨w.nextTask, i, c, env⟩ else none
    | _ => none
  | _ => none

/-- The task that the event hands a message of the client of session `i` to, which
has been read while the session is open. -/
def messageOf (i : ClientId) : World × Event → Option RelayTask
  | (w, .update j _) =>
    match (w.handlers i).phase, (w.handlers i).session.canisterId with
    | .updating u, some c =>
      if j = i then ((w.handlers i).session.relays u).map fun env => ⟨w.nextTask, i, c, env⟩ else none
    | _, _ => none
  | _ => none

/-- The task that the event spawns for session `i`. -/
def taskOf (i : ClientId) (x : World × Event) : Option RelayTask := (wsOpenOf i x).or (messageOf i x)

/-- How the CBOR encoding in the event ends. -/
def Event.cbor : Event → Except CborError Unit
  | .update _ io | .relayOpen _ io => io.cbor
  | _ => .ok ()

/-- No CBOR encoding fails in the event. -/
def Event.Encodes (e : Event) : Prop := e.cbor = .ok ()

instance (e : Event) : Decidable e.Encodes := inferInstanceAs (Decidable (_ = _))

/-- What an event does to the tasks of session `i`; `n` is the next task's number
after it. -/
inductive TaskStep (w : World) (i : ClientId) (n : ℕ) :
    Event → List RelayTask → List RelayTask → Prop
  | other {e} (quiet : taskOf i (w, e) = none) (not : ∀ t, e = .submit t → t.client ≠ i)
      (next : w.nextTask ≤ n) : TaskStep w i n e (w.pending i) (w.started i)
  | lost {e t} (task : taskOf i (w, e) = some t) (fails : ¬ e.Encodes) (next : w.nextTask ≤ n) :
      TaskStep w i n e (w.pending i) (w.started i)
  | spawn {e t} (task : taskOf i (w, e) = some t) (encodes : e.Encodes) (next : w.nextTask < n) :
      TaskStep w i n e (w.pending i ++ [t]) (w.started i)
  | submit {t} (mem : t ∈ w.pending i) (next : w.nextTask ≤ n) :
      TaskStep w i n (.submit t) ((w.pending i).erase t) (w.started i ++ [t])

theorem spawn_none (w : World) (i : ClientId) {out : List Output} (h : out.filterMap Output.envelope = []) :
    w.spawn i out = w := by
  induction out generalizing w with
  | nil => rfl
  | cons o out ih =>
    cases o with
    | relayEnvelope c env => simp [Output.envelope] at h
    | wsSend m => exact ih w h
    | wsClose => exact ih w h

theorem spawn_one (w : World) (i : ClientId) {out : List Output} {c : Principal} {env : Envelope}
    (h : out.filterMap Output.envelope = [(c, env)]) :
    w.spawn i out = { w with
      spawned := w.spawned ++ [⟨w.nextTask, i, c, env⟩], nextTask := w.nextTask + 1 } := by
  induction out generalizing w with
  | nil => cases h
  | cons o out ih =>
    cases o with
    | relayEnvelope c' env' =>
      simp only [Output.envelope, List.filterMap_cons, List.cons.injEq, Prod.mk.injEq] at h
      obtain ⟨⟨rfl, rfl⟩, h⟩ := h
      exact spawn_none _ i h
    | wsSend m => exact ih w h
    | wsClose => exact ih w h

theorem taskOf_other {j : ClientId} (hj : j ≠ i) (w : World) (io : Io) :
    taskOf i (w, .update j io) = none ∧ taskOf i (w, .relayOpen j io) = none := by
  simp only [taskOf, wsOpenOf, messageOf, if_neg hj]
  constructor <;> split <;> rfl

theorem taskOf_update {u : Update} {c : CanisterPrincipal} (hph : (w.handlers i).phase = .updating u)
    (hc : (w.handlers i).session.canisterId = some c) (io : Io) : taskOf i (w, .update i io) =
      ((w.handlers i).session.relays u).map fun env => ⟨w.nextTask, i, c, env⟩ := by
  simp only [taskOf, wsOpenOf, messageOf, hph, hc, if_true, Option.none_or]

theorem taskOf_fresh (hc : (w.handlers i).session.canisterId = none) (io : Io) :
    taskOf i (w, .update i io) = none := by
  simp only [taskOf, wsOpenOf, messageOf, hc, Option.none_or]
  split <;> simp_all

theorem taskOf_relayOpen {m : Message} {c : CanisterPrincipal} {k : ClientKey} {t : Option PollerRef}
    (hph : (w.handlers i).phase = .relayingOpen m c k t) (io : Io) : taskOf i (w, .relayOpen i io) =
      (callEnvelope m).map fun env => ⟨w.nextTask, i, c, env⟩ := by
  simp only [taskOf, wsOpenOf, messageOf, hph, if_true, Option.or_none]

/-- Outputs of session `j` that contain the envelope, if the event encodes it. -/
theorem spawn_tasks {j : ClientId} {e : Event} {v : World} {c : Principal} {x : Option Envelope}
    {out : List Output} (hv : v.spawned = w.spawned ∧ v.submitted = w.submitted ∧ v.nextTask = w.nextTask)
    (hne : j ≠ i → taskOf i (w, e) = none)
    (heq : j = i → taskOf i (w, e) = x.map fun env => ⟨w.nextTask, i, c, env⟩)
    (hsub : ∀ t, e ≠ .submit t)
    (hout : out.filterMap Output.envelope = if e.Encodes then (x.map fun env => (c, env)).toList else []) :
    TaskStep w i (v.spawn j out).nextTask e ((v.spawn j out).pending i) ((v.spawn j out).started i) := by
  have hnot : ∀ t, e = .submit t → t.client ≠ i := fun t ht => absurd ht (hsub t)
  obtain ⟨h1, h2, h3⟩ := hv
  have hp : v.pending i = w.pending i := by rw [World.pending, h1]; rfl
  have hst : v.started i = w.started i := by rw [World.started, h2]; rfl
  by_cases henc : e.Encodes
  · rw [if_pos henc] at hout
    rcases x with _ | env
    · rw [spawn_none v j hout, hp, hst]
      refine .other ?_ hnot (Nat.le_of_eq h3.symm)
      by_cases hj : j = i
      · exact heq hj
      · exact hne hj
    · rw [spawn_one v j hout]
      by_cases hj : j = i
      · subst hj
        have hnew : TaskStep w j (v.nextTask + 1) e (w.pending j ++ [⟨w.nextTask, j, c, env⟩]) (w.started j) :=
          .spawn (heq rfl) henc (by rw [h3]; exact Nat.lt_succ_self _)
        simpa [World.pending, World.started, h1, h2, h3] using hnew
      · have hold : TaskStep w i (v.nextTask + 1) e (w.pending i) (w.started i) :=
          .other (hne hj) hnot (by omega)
        simpa [World.pending, World.started, h1, h2, hj] using hold
  · rw [if_neg henc] at hout
    rw [spawn_none v j hout, hp, hst]
    by_cases hj : j = i
    · rcases x with _ | env
      · exact .other (heq hj) hnot (Nat.le_of_eq h3.symm)
      · exact .lost (heq hj) henc (Nat.le_of_eq h3.symm)
    · exact .other (hne hj) hnot (Nat.le_of_eq h3.symm)

theorem update_tasks {j : ClientId} {io : Io} (hw : (w.handlers j).Wf j)
    (h : WorldStep cfg w (.update j io) w') :
    TaskStep w i w'.nextTask (.update j io) (w'.pending i) (w'.started i) := by
  cases h with
  | @update _ _ u s out r phase updated =>
    rcases hw.updating phase with ⟨hf, -⟩ | ⟨c, k, hk, -⟩
    · have hout : out.filterMap Output.envelope = [] := by
        obtain ⟨_, _, _, -, -, rfl, -⟩ | ⟨rfl | rfl, -⟩ := update_fresh hf updated <;> rfl
      refine spawn_tasks (c := []) (x := none) ⟨rfl, rfl, rfl⟩ (fun hj => (taskOf_other hj w io).1)
        (fun hj => ?_) (by simp) (by rw [hout]; split_ifs <;> rfl)
      subst hj
      exact taskOf_fresh hf.canisterId io
    · refine spawn_tasks (c := c) ⟨rfl, rfl, rfl⟩ (fun hj => (taskOf_other hj w io).1) (fun hj => ?_)
        (by simp) (update_out hk.canisterId updated)
      subst hj
      exact taskOf_update phase hk.canisterId io

theorem relayOpen_tasks {j : ClientId} {io : Io} (hw : (w.handlers j).Wf j)
    (h : WorldStep cfg w (.relayOpen j io) w') :
    TaskStep w i w'.nextTask (.relayOpen j io) (w'.pending i) (w'.started i) := by
  have hspawn : ∀ {m c k t out r} {w₁ : World}, (w.handlers j).phase = .relayingOpen m c k t →
      (w.handlers j).session.relayClientMessage m io = (out, r) →
      w₁.spawned = w.spawned ∧ w₁.submitted = w.submitted ∧ w₁.nextTask = w.nextTask →
      TaskStep w i (w₁.spawn j out).nextTask (.relayOpen j io) ((w₁.spawn j out).pending i)
        ((w₁.spawn j out).started i) := by
    intro m c k t out r w₁ hph hr hw₁
    have hne : j ≠ i → taskOf i (w, .relayOpen j io) = none := fun hj => (taskOf_other hj w io).2
    have heq : j = i → taskOf i (w, .relayOpen j io) =
        (callEnvelope m).map fun env => ⟨w.nextTask, i, c, env⟩ := fun hj => by
      subst hj
      exact taskOf_relayOpen hph io
    have hout := relayClientMessage_out (hw.relayingOpen hph).1.canisterId m io
    rw [hr] at hout
    dsimp only at hout
    apply spawn_tasks hw₁ hne heq (by simp)
    rw [hout, apply_ite (List.filterMap Output.envelope)]
    refine if_congr Iff.rfl ?_ rfl
    rcases callEnvelope m with _ | env <;> rfl
  cases h with
  | relayOpen phase relayed => exact hspawn phase relayed ⟨rfl, rfl, rfl⟩
  | relayOpenFail phase relayed => exact hspawn phase relayed ⟨rfl, rfl, rfl⟩
  | relayOpenPanic phase relayed => exact hspawn phase relayed ⟨rfl, rfl, rfl⟩

theorem submit_tasks {t : RelayTask} (h : WorldStep cfg w (.submit t) w') :
    TaskStep w i w'.nextTask (.submit t) (w'.pending i) (w'.started i) := by
  cases h with
  | submit ht =>
    simp only [World.pending, World.started, List.filter_append]
    by_cases hi : t.client = i
    · have hmem : t ∈ w.pending i := List.mem_filter.mpr ⟨ht, by simpa using hi⟩
      have hs := TaskStep.submit hmem (Nat.le_refl w.nextTask)
      rw [World.pending, World.started, List.erase_filter] at hs
      simpa [hi] using hs
    · have hs : TaskStep w i w.nextTask (.submit t) (w.pending i) (w.started i) := by
        refine .other rfl ?_ (Nat.le_refl _)
        rintro t' ⟨⟩
        exact hi
      have hno : t ∉ w.pending i := fun hm => hi (by simpa using (List.mem_filter.mp hm).2)
      rw [← List.erase_of_not_mem hno, World.pending, World.started, List.erase_filter] at hs
      simpa [hi] using hs

/-- **What an event does to the tasks of a session.** -/
theorem step_tasks {e : Event} (hw : Sound w) (he : step cfg w e = some w') (i : ClientId) :
    TaskStep w i w'.nextTask e (w'.pending i) (w'.started i) := by
  by_cases hu : ∃ j io, e = .update j io
  · obtain ⟨j, io, rfl⟩ := hu
    exact update_tasks (hw.wf j) (step_cases he)
  by_cases ho : ∃ j io, e = .relayOpen j io
  · obtain ⟨j, io, rfl⟩ := ho
    exact relayOpen_tasks (hw.wf j) (step_cases he)
  by_cases hs : ∃ t, e = .submit t
  · obtain ⟨t, rfl⟩ := hs
    exact submit_tasks (step_cases he)
  by_cases ha : ∃ c m, e = .append c m
  · obtain ⟨c, m, rfl⟩ := ha
    cases he
    exact .other rfl (by simp) (Nat.le_refl _)
  push Not at hu ho hs ha
  obtain ⟨h1, h2, h3, -⟩ := step_rest he hu ho hs ha
  rw [World.pending, World.started, h1, h2]
  refine .other ?_ (fun t ht => absurd ht (hs t)) (Nat.le_of_eq h3.symm)
  cases e with
  | update j io => exact absurd rfl (hu j io)
  | relayOpen j io => exact absurd rfl (ho j io)
  | _ => rfl

/-! ### The order of the tasks -/

/-- Taking an element out of a numbered pool keeps the order of what was put in
exactly if it is the lowest one. -/
theorem take_lowest {α : Type} [BEq α] [LawfulBEq α] {r : α → ℕ} {started pool all : List α} {t : α}
    (hpool : pool.Pairwise (r · < r ·)) (hall : all.Pairwise (r · ≤ r ·)) (ht : t ∈ pool) :
    started ++ [t] ++ pool.erase t = all ↔ started ++ pool = all ∧ ∀ t' ∈ pool, r t ≤ r t' := by
  have hperm : pool.Perm (t :: pool.erase t) := List.perm_cons_erase ht
  have hle : pool.Pairwise (r · ≤ r ·) := hpool.imp Nat.le_of_lt
  have hinj : (pool.map r).Nodup := List.pairwise_map.mpr (hpool.imp Nat.ne_of_lt)
  have heq : (t :: pool.erase t).Pairwise (r · ≤ r ·) → pool = t :: pool.erase t := fun hs =>
    hperm.eq_of_pairwise (fun a b ha hb hab hba => List.inj_on_of_nodup_map hinj ha
      (hperm.mem_iff.mpr hb) (Nat.le_antisymm hab hba)) hle hs
  constructor
  · rintro rfl
    rw [List.append_assoc, List.singleton_append, List.pairwise_append] at hall
    have he := heq hall.2.1
    refine ⟨by rw [List.append_assoc, List.singleton_append, ← he], fun t' ht' => ?_⟩
    rw [he] at ht'
    rcases List.mem_cons.mp ht' with rfl | ht'
    · exact Nat.le_refl _
    · exact (List.pairwise_cons.mp hall.2.1).1 t' ht'
  · rintro ⟨rfl, hlow⟩
    have he := heq (List.pairwise_cons.mpr ⟨fun t' ht' => hlow t' (List.mem_of_mem_erase ht'),
      hle.sublist List.erase_sublist⟩)
    rw [List.append_assoc, List.singleton_append, ← he]

/-- The tasks of session `i` that have been made so far, in the order of the messages. -/
def tasksOf (i : ClientId) (h : List (World × Event)) : List RelayTask := h.filterMap (taskOf i)

theorem tasksOf_snoc (i : ClientId) (h : List (World × Event)) (x : World × Event) :
    tasksOf i (h ++ [x]) = tasksOf i h ++ (taskOf i x).toList :=
  LTS.filterMap_snoc ..

theorem TaskStep.next_le {n : ℕ} {e : Event} {a b : List RelayTask} (hs : TaskStep w i n e a b) :
    w.nextTask ≤ n := by
  cases hs with
  | other _ _ next | lost _ _ next | submit _ next => exact next
  | spawn _ _ next => exact Nat.le_of_lt next

/-- Tasks are numbered as they are spawned. -/
structure Numbered (h : List (World × Event)) (w : World) (i : ClientId) : Prop where
  pending : (w.pending i).Pairwise (·.task < ·.task)
  pending_lt : ∀ t ∈ w.pending i, t.task < w.nextTask
  tasks : (tasksOf i h).Pairwise (·.task ≤ ·.task)
  tasks_le : ∀ t ∈ tasksOf i h, t.task ≤ w.nextTask
  length : (w.started i ++ w.pending i).length ≤ (tasksOf i h).length

/-- The task of an event has the number that comes next, and is for the canister of
its session. -/
theorem taskOf_some {e : Event} {t : RelayTask} (hw : (w.handlers i).Wf i) (h : taskOf i (w, e) = some t) :
    t.task = w.nextTask ∧ t.client = i ∧ (w.handlers i).session.canisterId = some t.canisterId ∧
      ∃ k, (w.handlers i).session.clientKey = some k := by
  cases e with
  | update j io =>
    simp only [taskOf, wsOpenOf, messageOf, Option.none_or] at h
    split at h
    · rename_i u c hph hc
      split_ifs at h
      obtain ⟨env, -, rfl⟩ := Option.map_eq_some_iff.mp h
      rcases hw.updating hph with ⟨hf, -⟩ | ⟨c', k, hk, -⟩
      · rw [hf.canisterId] at hc
        cases hc
      · exact ⟨rfl, rfl, hc, k, hk.clientKey⟩
    · cases h
  | relayOpen j io =>
    simp only [taskOf, wsOpenOf, messageOf, Option.or_none] at h
    split at h
    · rename_i m c k t' hph
      split_ifs at h
      obtain ⟨env, -, rfl⟩ := Option.map_eq_some_iff.mp h
      have hk := (hw.relayingOpen hph).1
      exact ⟨rfl, rfl, hk.canisterId, k, hk.clientKey⟩
    · cases h
  | _ => cases h

/-- The next task has a number that is not below the others. -/
theorem Numbered.tasks_step {e : Event} {n : ℕ} (hn : Numbered h w i) (hw : (w.handlers i).Wf i)
    (hle : w.nextTask ≤ n) : (tasksOf i (h ++ [(w, e)])).Pairwise (·.task ≤ ·.task) ∧
      ∀ x ∈ tasksOf i (h ++ [(w, e)]), x.task ≤ n := by
  have hold : ∀ x ∈ tasksOf i h, x.task ≤ n := fun x hx => Nat.le_trans (hn.tasks_le x hx) hle
  rw [tasksOf_snoc]
  rcases hx : taskOf i (w, e) with _ | x
  · simpa using ⟨hn.tasks, hold⟩
  · have hxn : x.task = w.nextTask := (taskOf_some hw hx).1
    rw [Option.toList_some, List.pairwise_append, List.forall_mem_append, List.forall_mem_singleton, hxn]
    refine ⟨⟨hn.tasks, List.pairwise_singleton .., fun y hy z hz => ?_⟩, hold, hle⟩
    rw [List.mem_singleton.mp hz, hxn]
    exact hn.tasks_le y hy

/-- What an event does to the tasks that wait, and to how many there are. -/
theorem Numbered.pending_step {e : Event} {n : ℕ} {a b : List RelayTask} (hn : Numbered h w i)
    (hw : (w.handlers i).Wf i) (hs : TaskStep w i n e b a) :
    b.Pairwise (·.task < ·.task) ∧ (∀ x ∈ b, x.task < n) ∧
      (a ++ b).length ≤ (tasksOf i (h ++ [(w, e)])).length := by
  have hlt : ∀ x ∈ w.pending i, x.task < n := fun x hx =>
    Nat.lt_of_lt_of_le (hn.pending_lt x hx) hs.next_le
  have hlen := hn.length
  rw [tasksOf_snoc]
  cases hs with
  | other quiet => exact ⟨hn.pending, hlt, by simpa [quiet] using hlen⟩
  | lost task =>
    refine ⟨hn.pending, hlt, ?_⟩
    rw [task]
    simp only [List.length_append, Option.toList_some, List.length_singleton] at hlen ⊢
    omega
  | @spawn _ x task encodes next =>
    have hxn : x.task = w.nextTask := (taskOf_some hw task).1
    refine ⟨List.pairwise_append.mpr ⟨hn.pending, List.pairwise_singleton .., fun y hy z hz => ?_⟩, ?_, ?_⟩
    · rw [List.mem_singleton.mp hz, hxn]
      exact hn.pending_lt y hy
    · rw [List.forall_mem_append, List.forall_mem_singleton, hxn]
      exact ⟨hlt, next⟩
    · rw [task]
      simp only [List.length_append, Option.toList_some, List.length_singleton] at hlen ⊢
      omega
  | @submit x mem next =>
    refine ⟨hn.pending.sublist List.erase_sublist, fun y hy => hlt y (List.mem_of_mem_erase hy), ?_⟩
    have hpos := List.length_pos_of_mem mem
    have hno : taskOf i (w, .submit x) = none := rfl
    rw [hno]
    simp only [List.length_append, List.length_erase_of_mem mem, List.length_singleton,
      Option.toList_none, List.length_nil] at hlen ⊢
    omega

theorem numbered (hr : Runs cfg h w) (i : ClientId) : Numbered h w i := by
  induction hr with
  | nil => exact ⟨.nil, by simp [World.pending, World.new], .nil, by simp [tasksOf], Nat.le_refl _⟩
  | @snoc h t t' e hr he ih =>
    have hw := reachable hr
    have hs := step_tasks hw he i
    obtain ⟨htasks, hle⟩ := ih.tasks_step (hw.wf i) hs.next_le
    obtain ⟨hpending, hlt, hlen⟩ := ih.pending_step (hw.wf i) hs
    exact ⟨hpending, hlt, htasks, hle, hlen⟩

/-! ### First `ws_open`, then the messages -/

/-- The session is open, or closed after that. -/
def ClientSession.HasOpened (s : ClientSession) : Prop :=
  s.sessionState = .opened ∨ s.sessionState = .closed

/-- The handler is past the relay of the `ws_open` envelope. -/
def Handler.PastOpen (h : Handler) : Prop :=
  h.clientChannelTx = none ∧ (∀ m c k tx, h.phase ≠ .setup m c k tx) ∧
    ∀ m c k t, h.phase ≠ .relayingOpen m c k t

theorem HandlerStep.hasOpened {e : Event} {a b : Handler} (hs : HandlerStep w i a e b) (hw : a.Wf i)
    (ho : a.session.HasOpened) : b.session.HasOpened := by
  cases hs with
  | update phase updated =>
    rcases hw.updating phase with ⟨hf, -⟩ | ⟨c, k, hk, hl⟩
    · rw [ClientSession.HasOpened, hf.sessionState] at ho
      rcases ho with ho | ho <;> cases ho
    · have hd := update_keyed hk hl updated
      generalize ({ a with session := _ } : Handler).dispatch _ = b at hd ⊢
      cases hd with
      | close | readFailed => exact Or.inr rfl
      | delivered => exact Or.inl rfl
      | ignored | relayed | failed | cutOff => exact ho
  | _ => exact ho

theorem HandlerStep.pastOpen {e : Event} {a b : Handler} (hs : HandlerStep w i a e b) (hw : a.Wf i)
    (ho : a.PastOpen) : b.PastOpen := by
  cases hs with
  | update phase updated =>
    obtain ⟨c, k, hk, hl⟩ := hw.updating_of_tx phase ho.1
    have hd := update_keyed hk hl updated
    have htx := (hd.keyed hk).tx
    generalize ({ a with session := _ } : Handler).dispatch _ = b at hd htx ⊢
    refine ⟨htx, ?_⟩
    cases hd <;> simp
  | insert phase => exact absurd phase (ho.2.1 _ _ _ _)
  | other | push => exact ho
  | _ => exact ⟨ho.1, by simp, by simp⟩

/-- Once the client's messages are relayed, the session has opened. -/
theorem hasOpened_of_message (hr : Runs cfg h w) (hm : h.filterMap (messageOf i) ≠ []) :
    (w.handlers i).session.HasOpened := by
  induction hr with
  | nil => exact absurd rfl hm
  | @snoc h t t' e hr he ih =>
    apply (step_handler he i).hasOpened ((reachable hr).wf i)
    by_cases hm' : h.filterMap (messageOf i) = []
    · rw [LTS.filterMap_snoc, hm'] at hm
      rcases hx : messageOf i (t, e) with _ | x
      · simp [hx] at hm
      · cases e with
        | update j io =>
          simp only [messageOf] at hx
          split at hx
          · rename_i u c hph hc
            split_ifs at hx
            obtain ⟨env, henv, -⟩ := Option.map_eq_some_iff.mp hx
            unfold ClientSession.relays at henv
            split at henv
            · split_ifs at henv with hopen
              exact Or.inl hopen
            · cases henv
          · cases hx
        | _ => cases hx
    · exact ih hm'

theorem relayOpen_pastOpen {io : Io} (hw : (w.handlers i).Wf i) (h : WorldStep cfg w (.relayOpen i io) w') :
    (w'.handlers i).PastOpen := by
  cases h with
  | relayOpen phase | relayOpenFail phase | relayOpenPanic phase =>
    have htx := (hw.relayingOpen phase).1.tx
    simp [Handler.PastOpen, htx]

/-- Once the `ws_open` envelope is relayed, the handler is past that. -/
theorem pastOpen_of_wsOpen (hr : Runs cfg h w) (hm : h.filterMap (wsOpenOf i) ≠ []) :
    (w.handlers i).PastOpen := by
  induction hr with
  | nil => exact absurd rfl hm
  | @snoc h t t' e hr he ih =>
    by_cases hm' : h.filterMap (wsOpenOf i) = []
    · rw [LTS.filterMap_snoc, hm'] at hm
      rcases hx : wsOpenOf i (t, e) with _ | x
      · simp [hx] at hm
      · cases e with
        | relayOpen j io =>
          simp only [wsOpenOf] at hx
          split at hx
          · split_ifs at hx with hj
            subst hj
            exact relayOpen_pastOpen ((reachable hr).wf j) (step_cases he)
          · cases hx
        | _ => cases hx
    · exact (step_handler he i).pastOpen ((reachable hr).wf i) (ih hm')

/-- When the `ws_open` envelope is relayed, nothing has been relayed before. -/
theorem wsOpenOf_first (hr : Runs cfg h w) {e : Event} {t : RelayTask} (ht : wsOpenOf i (w, e) = some t) :
    h.filterMap (wsOpenOf i) = [] ∧ h.filterMap (messageOf i) = [] ∧ messageOf i (w, e) = none := by
  cases e with
  | relayOpen j io =>
    simp only [wsOpenOf] at ht
    split at ht
    · rename_i m c k t' hph
      refine ⟨?_, ?_, rfl⟩
      · by_contra hne
        exact (pastOpen_of_wsOpen hr hne).2.2 _ _ _ _ hph
      · by_contra hne
        have hst := (((reachable hr).wf i).relayingOpen hph).2
        rcases hasOpened_of_message hr hne with ho | ho <;> rw [hst] at ho <;> cases ho
    · cases ht
  | _ => cases ht

/-- The tasks of a session: that of the `ws_open` envelope, then those of the
client's messages. -/
theorem tasksOf_eq (hr : Runs cfg h w) (i : ClientId) :
    tasksOf i h = h.filterMap (wsOpenOf i) ++ h.filterMap (messageOf i) ∧
      (h.filterMap (wsOpenOf i)).length ≤ 1 := by
  induction hr with
  | nil => exact ⟨rfl, Nat.zero_le _⟩
  | @snoc h t t' e hr he ih =>
    rw [tasksOf_snoc, ih.1, LTS.filterMap_snoc, LTS.filterMap_snoc]
    rcases hx : wsOpenOf i (t, e) with _ | x
    · rcases hy : messageOf i (t, e) with _ | y <;> simp [taskOf, hx, hy, ih.2]
    · obtain ⟨h1, h2, h3⟩ := wsOpenOf_first hr hx
      simp [taskOf, hx, h1, h2, h3]

/-! ### The order of the submissions -/

/-- Every envelope that the session relays can be encoded. -/
def EncodesAll (i : ClientId) (_ : List (World × Event)) (w : World) (e : Event) : Prop :=
  (taskOf i (w, e)).isSome → e.Encodes

/-- A task of session `i` that starts is the oldest of its tasks that have not started. -/
def StartsOldest (i : ClientId) (_ : List (World × Event)) (w : World) (e : Event) : Prop :=
  ∀ t, e = .submit t → t.client = i → ∀ t' ∈ w.pending i, t.task ≤ t'.task

/-- The tasks of a session are for the canister that it was set up with. -/
theorem tasks_canister (hr : Runs cfg h w) : ∀ t ∈ w.started i ++ w.pending i,
    (w.handlers i).session.canisterId = some t.canisterId ∧
      ∃ k, (w.handlers i).session.clientKey = some k := by
  induction hr with
  | nil => simp [World.started, World.pending, World.new]
  | @snoc h t t' e hr he ih =>
    intro x hx
    have hkeys : ∀ c k, _ → _ → _ := fun c k =>
      (step_handler he i).keys ((reachable hr).wf i) (c := c) (k := k)
    suffices hold : (t.handlers i).session.canisterId = some x.canisterId ∧
        ∃ k, (t.handlers i).session.clientKey = some k by
      obtain ⟨hc, k, hk⟩ := hold
      exact ⟨(hkeys _ k hc hk).1, k, (hkeys _ k hc hk).2⟩
    have hs := step_tasks (reachable hr) he i
    generalize t'.pending i = b at hs hx
    generalize t'.started i = a at hs hx
    cases hs with
    | other | lost => exact ih x hx
    | spawn task =>
      rw [← List.append_assoc, List.mem_append] at hx
      rcases hx with hx | hx
      · exact ih x hx
      · rw [List.mem_singleton] at hx
        subst hx
        exact (taskOf_some ((reachable hr).wf i) task).2.2
    | submit mem =>
      apply ih x
      simp only [List.mem_append, List.mem_singleton] at hx ⊢
      rcases hx with (hx | rfl) | hx
      · exact Or.inl hx
      · exact Or.inr mem
      · exact Or.inr (List.mem_of_mem_erase hx)

/-- Each task is there once, started or not. -/
theorem relay_perm (hr : Runs cfg h w) (ha : LTS.Along (EncodesAll i) h) :
    (w.started i ++ w.pending i).Perm (tasksOf i h) := by
  induction hr with
  | nil => exact .refl _
  | @snoc h t t' e hr he ih =>
    obtain ⟨ha', hk⟩ := LTS.along_snoc.mp ha
    have ih := ih ha'
    have hs := step_tasks (reachable hr) he i
    rw [tasksOf_snoc]
    generalize t'.pending i = b at hs
    generalize t'.started i = a at hs
    cases hs with
    | other quiet => simpa [quiet] using ih
    | lost task fails => exact absurd (hk (by simp [task])) fails
    | spawn task =>
      rw [task, ← List.append_assoc]
      exact ih.append_right _
    | @submit x mem =>
      have hno : taskOf i (t, .submit x) = none := rfl
      rw [hno, Option.toList_none, List.append_nil, List.append_assoc, List.singleton_append]
      exact ((List.perm_cons_erase mem).symm.append_left _).trans ih

/-- The tasks start in their order exactly if each that starts is the oldest. -/
theorem started_in_order (hr : Runs cfg h w) (i : ClientId) :
    w.started i ++ w.pending i = tasksOf i h ↔
      LTS.Along (fun h w e => EncodesAll i h w e ∧ StartsOldest i h w e) h := by
  induction hr with
  | nil => exact ⟨fun _ => LTS.along_nil _, fun _ => rfl⟩
  | @snoc h t t' e hr he ih =>
    have hn := numbered hr i
    have hs := step_tasks (reachable hr) he i
    rw [LTS.along_snoc, ← ih, tasksOf_snoc]
    generalize t'.pending i = b at hs
    generalize t'.started i = a at hs
    cases hs with
    | other quiet not =>
      have hok : EncodesAll i h t e ∧ StartsOldest i h t e :=
        ⟨fun hx => by simp [quiet] at hx, fun x hx hi => absurd hi (not x hx)⟩
      simp [quiet, hok]
    | @lost _ x task fails =>
      have hno : ¬ EncodesAll i h t e := fun hx => fails (hx (by simp [task]))
      have hlen := hn.length
      refine iff_of_false (fun heq => ?_) fun hx => hno hx.2.1
      rw [heq, task] at hlen
      simp at hlen
    | @spawn _ x task encodes =>
      have hok : EncodesAll i h t e ∧ StartsOldest i h t e := by
        refine ⟨fun _ => encodes, fun y hy => ?_⟩
        subst hy
        cases task
      simp only [task, hok, and_true, ← List.append_assoc, Option.toList_some]
      exact List.append_left_inj _
    | @submit x mem =>
      have hno : taskOf i (t, .submit x) = none := rfl
      rw [hno, Option.toList_none, List.append_nil, take_lowest hn.pending hn.tasks mem]
      refine and_congr_right fun _ => ⟨fun hlow => ⟨fun hx => by simp [hno] at hx, ?_⟩, fun hok => ?_⟩
      · rintro y ⟨⟩ -
        exact hlow
      · exact hok.2 x rfl (by simpa using (List.mem_filter.mp mem).2)

/-- **The order of client messages**, in every run, for every session. Its tasks are
those of the `ws_open` envelope and of the messages read from its client while it
is open, each once and for its canister. What has started is these envelopes in
this order, `ws_open` first, with what is pending to follow, exactly if every
task that started was the oldest one pending. -/
theorem client_messages_in_order (hr : Runs cfg h w) (i : ClientId) :
    (h.filterMap (wsOpenOf i)).length ≤ 1 ∧
    (∀ t ∈ w.started i ++ w.pending i, (w.handlers i).session.canisterId = some t.canisterId) ∧
    (LTS.Along (EncodesAll i) h →
      (w.started i ++ w.pending i).Perm (h.filterMap (wsOpenOf i) ++ h.filterMap (messageOf i))) ∧
    (w.started i ++ w.pending i = h.filterMap (wsOpenOf i) ++ h.filterMap (messageOf i) ↔
      LTS.Along (fun h w e => EncodesAll i h w e ∧ StartsOldest i h w e) h) := by
  obtain ⟨htasks, hone⟩ := tasksOf_eq hr i
  rw [← htasks]
  exact ⟨hone, fun t ht => (tasks_canister hr t ht).1, relay_perm hr, started_in_order hr i⟩

/-- A message of the client `k` to the canister `c`. -/
def callOf (c : CanisterPrincipal) (k : ClientKey) (body : Bytes) : Envelope :=
  ⟨.call c k.clientPrincipal (.error "") body, []⟩

/-- The client of session 0 gets a message, then sends these messages. -/
def sends (c : CanisterPrincipal) (k : ClientKey) (bodies : List Bytes) : List Event :=
  opens 0 (wsOpen c k) ++ [polls 0 [messageFor k "gateway_0"], .relay 0, .put 0, .recv 0, .update 0 .ok] ++
    bodies.flatMap fun b => [.readWs 0 (.ok (.binary (some ⟨callOf c k b⟩))), .update 0 .ok]

/-- The task of the `ws_open` envelope of session 0, which is the first of all. -/
def wsOpenTask (c : CanisterPrincipal) (k : ClientKey) : RelayTask :=
  ⟨0, 0, c, ⟨.call c k.clientPrincipal (.ok ⟨k.clientNonce, []⟩) [], []⟩⟩

/-- The second message of a client overtakes the first. -/
def overtakes (c : CanisterPrincipal) (k : ClientKey) : List Event :=
  sends c k [[1], [2]] ++
    [.submit (wsOpenTask c k), .submit ⟨2, 0, c, callOf c k [2]⟩, .submit ⟨1, 0, c, callOf c k [1]⟩]

/-- Two messages of a client are read, and then their tasks start in order. -/
def takesTurns (c : CanisterPrincipal) (k : ClientKey) : List Event :=
  sends c k [[1], [2]] ++
    [.submit (wsOpenTask c k), .submit ⟨1, 0, c, callOf c k [1]⟩, .submit ⟨2, 0, c, callOf c k [2]⟩]

theorem encodesAll_of_mem (hh : ∀ x ∈ h, x.2.Encodes) : LTS.Along (EncodesAll i) h := by
  rintro h₁ t e h₂ rfl -
  exact hh (t, e) (by simp)

set_option maxRecDepth 20000 in
/-- All that was read has been submitted, and the last two in the wrong order. -/
theorem client_messages_overtake : ∃ cfg h w, Runs cfg h w ∧ LTS.Along (EncodesAll 0) h ∧
    w.pending 0 = [] ∧
    (w.started 0).map RelayTask.envelope ≠
      (h.filterMap (wsOpenOf 0) ++ h.filterMap (messageOf 0)).map RelayTask.envelope := by
  have hes : (LTS.exec (step .simple) World.new (overtakes [9] ⟨[1], 1⟩)).isSome := by decide
  refine ⟨.simple, _, World.after .simple (overtakes [9] ⟨[1], 1⟩), runs_after hes,
    encodesAll_of_mem fun x hx => ?_, by decide, by decide⟩
  have hall : ∀ e ∈ overtakes [9] ⟨[1], 1⟩, e.Encodes := by decide
  exact hall x.2 (LTS.mem_trace hx)

set_option maxRecDepth 20000 in
/-- Tasks that start in turn submit what was read in that order. -/
theorem client_messages_take_turns : LTS.Along (fun h w e => EncodesAll 0 h w e ∧ StartsOldest 0 h w e)
    (LTS.trace (step .simple) World.new (takesTurns [9] ⟨[1], 1⟩)) := by
  have hes : (LTS.exec (step .simple) World.new (takesTurns [9] ⟨[1], 1⟩)).isSome := by decide
  exact (client_messages_in_order (runs_after hes) 0).2.2.2.mp (by decide)

end IcWsGateway
