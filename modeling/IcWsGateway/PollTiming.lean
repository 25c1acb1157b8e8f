/-
# How long a polling iteration takes

`poll_and_relay` with the time its parts take: the poll itself, the relay of
the batch, the sleep for what is left of the polling interval. Two of its ways
out do not sleep: a poll that timed out, which has lasted `POLLING_TIMEOUT_MS`,
and a batch whose flag says that more messages are waiting, after which the
nonce has grown. So an iteration that goes on without waiting has used up a
message of the canister, whatever the flags say (`progress_or_waits`,
`short_iterations_le`).

Key definitions: `pollAndRelay`, `runPolling`, `Short`, `outstanding`.
Key theorems: `computeEffectivePollingInterval_ok`, `pollAndRelay_ok`,
`iterations_progress_or_wait`, `pollReply_agrees`.
-/
import IcWsGateway.Nonces

namespace IcWsGateway

/-! ### One iteration

A duration is a number of nanoseconds. -/

/-- `Duration::from_millis`. -/
def fromMillis (ms : UInt64) : ℕ := 1000000 * ms.toNat

/-- The subtraction of durations, which panics below zero. -/
def durationSub (a b : ℕ) : Outcome String ℕ :=
  if b ≤ a then .ok (a - b) else .panicked "overflow when subtracting durations"

/-- The polling interval less the time since the iteration started. -/
def computeEffectivePollingInterval (pollingIntervalMs : UInt64) (elapsed : ℕ) :
    Outcome String ℕ :=
  let pollingInterval := fromMillis pollingIntervalMs
  if elapsed > pollingInterval then .ok (fromMillis 0) else durationSub pollingInterval elapsed

/-- How long the parts of an iteration take. -/
structure Delays where
  /-- `poll_canister` -/
  poll : ℕ
  /-- `update_nonce` and `relay_messages` -/
  relay : ℕ
  /-- until the clock is read for the sleep -/
  rest : ℕ
  /-- what a sleep lasts beyond what it was asked for -/
  oversleep : ℕ
deriving DecidableEq, Repr

/-- What one call of `poll_and_relay` did. -/
structure Iteration where
  nextMessageNonce : UInt64
  /-- the batch given to `relay_messages` -/
  relayed : List CanisterOutputMessage
  /-- how long it asked to sleep -/
  asked : Option ℕ
  /-- how long it lasted -/
  took : ℕ
  result : Outcome String Unit
deriving DecidableEq, Repr

/-- The end of an iteration that sleeps, `before` after its start. -/
def sleepForRest (pollingIntervalMs : UInt64) (nextMessageNonce : UInt64)
    (relayed : List CanisterOutputMessage) (before : ℕ) (delays : Delays) : Iteration :=
  let elapsed := before + delays.rest
  match computeEffectivePollingInterval pollingIntervalMs elapsed with
  | .ok asked => ⟨nextMessageNonce, relayed, some asked, elapsed + (asked + delays.oversleep), .ok ()⟩
  | .err e => ⟨nextMessageNonce, relayed, none, elapsed, .err e⟩
  | .panicked m => ⟨nextMessageNonce, relayed, none, elapsed, .panicked m⟩

def pollAndRelay (overflowChecks : Bool) (pollingIntervalMs : UInt64) (nextMessageNonce : UInt64)
    (reply : PollReply) (delays : Delays) : Iteration :=
  match pollCanister reply with
  | .error e => ⟨nextMessageNonce, [], none, delays.poll, .err e⟩
  | .ok (.messagesPolled out) =>
    let endOfQueueReached := out.isEndOfQueue.getD true
    match updateNonce overflowChecks nextMessageNonce out.messages with
    | (n, .ok ()) =>
      if endOfQueueReached then
        sleepForRest pollingIntervalMs n out.messages (delays.poll + delays.relay) delays
      else ⟨n, out.messages, none, delays.poll + delays.relay, .ok ()⟩
    | (n, r) => ⟨n, [], none, delays.poll + delays.relay, r⟩
  | .ok .timedOut => ⟨nextMessageNonce, [], none, delays.poll, .ok ()⟩
  | .ok .noMessagesPolled => sleepForRest pollingIntervalMs nextMessageNonce [] delays.poll delays

/-- What an iteration meets. -/
structure Round where
  reply : PollReply
  delays : Delays
deriving DecidableEq, Repr

/-- The loop of `run_polling`, for as long as the poller is not told to terminate. -/
def runPolling (overflowChecks : Bool) (pollingIntervalMs : UInt64) : UInt64 → List Round → List Iteration
  | _, [] => []
  | nextMessageNonce, r :: rs =>
    let it := pollAndRelay overflowChecks pollingIntervalMs nextMessageNonce r.reply r.delays
    match it.result with
    | .ok () => it :: runPolling overflowChecks pollingIntervalMs it.nextMessageNonce rs
    | _ => [it]

/-! ### The interval -/

variable {oc : Bool} {ms n n' : UInt64} {reply : PollReply} {d : Delays}

theorem fromMillis_zero : fromMillis 0 = 0 := by
  unfold fromMillis
  rw [UInt64.toNat_zero, Nat.mul_zero]

/-- The subtraction does not underflow. -/
theorem computeEffectivePollingInterval_ok (ms : UInt64) (elapsed : ℕ) :
    computeEffectivePollingInterval ms elapsed = .ok (fromMillis ms - elapsed) := by
  unfold computeEffectivePollingInterval
  by_cases hlt : elapsed > fromMillis ms
  · have hzero : fromMillis ms - elapsed = 0 := by omega
    rw [hzero, ← fromMillis_zero]
    exact if_pos hlt
  · have hle : elapsed ≤ fromMillis ms := by omega
    simp only [if_neg hlt, durationSub, if_pos hle]

theorem sleepForRest_eq (ms n : UInt64) (relayed : List CanisterOutputMessage) (before : ℕ) (d : Delays) :
    sleepForRest ms n relayed before d =
      ⟨n, relayed, some (fromMillis ms - (before + d.rest)),
        before + d.rest + (fromMillis ms - (before + d.rest) + d.oversleep), .ok ()⟩ := by
  unfold sleepForRest
  simp only [computeEffectivePollingInterval_ok]

/-- An iteration that sleeps lasts the polling interval. -/
theorem sleepForRest_took (ms n : UInt64) (relayed : List CanisterOutputMessage) (before : ℕ) (d : Delays) :
    fromMillis ms ≤ (sleepForRest ms n relayed before d).took := by
  rw [sleepForRest_eq]
  show fromMillis ms ≤ before + d.rest + (fromMillis ms - (before + d.rest) + d.oversleep)
  omega

/-! ### What an iteration that succeeds did -/

theorem pollCanister_timedOut (h : pollCanister reply = .ok .timedOut) : reply = .elapsed := by
  unfold pollCanister at h
  split at h
  · split_ifs at h <;> cases h
  · split_ifs at h
    cases h
  · cases h
  · cases h
  · rfl

/-- The ways out of an iteration that returns `Ok`. -/
inductive WayOut (oc : Bool) (ms n : UInt64) (reply : PollReply) (d : Delays) (it : Iteration) : Prop
  | timedOut (elapsed : reply = .elapsed) (took : it.took = d.poll) (nonce : it.nextMessageNonce = n)
  | idle (took : fromMillis ms ≤ it.took) (nonce : it.nextMessageNonce = n)
  | drained (out : CanisterOutputCertifiedMessages) (polled : reply = .replied (.ok out))
      (some_message : out.messages ≠ []) (took : fromMillis ms ≤ it.took) (batch : it.relayed = out.messages)
      (nonces : updateNonce oc n out.messages = (it.nextMessageNonce, .ok ()))
  | more (out : CanisterOutputCertifiedMessages) (polled : reply = .replied (.ok out))
      (some_message : out.messages ≠ []) (batch : it.relayed = out.messages)
      (nonces : updateNonce oc n out.messages = (it.nextMessageNonce, .ok ()))

theorem pollAndRelay_error {e : String} (hr : pollCanister reply = .error e) :
    pollAndRelay oc ms n reply d = ⟨n, [], none, d.poll, .err e⟩ := by
  simp only [pollAndRelay, hr]

theorem pollAndRelay_timedOut (hr : pollCanister reply = .ok .timedOut) :
    pollAndRelay oc ms n reply d = ⟨n, [], none, d.poll, .ok ()⟩ := by
  simp only [pollAndRelay, hr]

theorem pollAndRelay_idle (hr : pollCanister reply = .ok .noMessagesPolled) :
    pollAndRelay oc ms n reply d = sleepForRest ms n [] d.poll d := by
  simp only [pollAndRelay, hr]

theorem pollAndRelay_drained {out : CanisterOutputCertifiedMessages} (hr : pollCanister reply = .ok (.messagesPolled out))
    (hn : updateNonce oc n out.messages = (n', .ok ())) (hend : out.isEndOfQueue.getD true = true) :
    pollAndRelay oc ms n reply d = sleepForRest ms n' out.messages (d.poll + d.relay) d := by
  simp only [pollAndRelay, hr, hn, hend, if_true]

theorem pollAndRelay_more {out : CanisterOutputCertifiedMessages} (hr : pollCanister reply = .ok (.messagesPolled out))
    (hn : updateNonce oc n out.messages = (n', .ok ())) (hend : ¬ out.isEndOfQueue.getD true = true) :
    pollAndRelay oc ms n reply d = ⟨n', out.messages, none, d.poll + d.relay, .ok ()⟩ := by
  have hfalse : out.isEndOfQueue.getD true = false := eq_false_of_ne_true hend
  simp [pollAndRelay, hr, hn, hfalse]

theorem pollAndRelay_err {out : CanisterOutputCertifiedMessages} {e : String}
    (hr : pollCanister reply = .ok (.messagesPolled out)) (hn : updateNonce oc n out.messages = (n', .err e)) :
    pollAndRelay oc ms n reply d = ⟨n', [], none, d.poll + d.relay, .err e⟩ := by
  simp only [pollAndRelay, hr, hn]

theorem pollAndRelay_panicked {out : CanisterOutputCertifiedMessages} {m : String}
    (hr : pollCanister reply = .ok (.messagesPolled out)) (hn : updateNonce oc n out.messages = (n', .panicked m)) :
    pollAndRelay oc ms n reply d = ⟨n', [], none, d.poll + d.relay, .panicked m⟩ := by
  simp only [pollAndRelay, hr, hn]

theorem pollAndRelay_ok (h : (pollAndRelay oc ms n reply d).result = .ok ()) :
    WayOut oc ms n reply d (pollAndRelay oc ms n reply d) := by
  cases hr : pollCanister reply with
  | error e =>
    rw [pollAndRelay_error hr] at h
    cases h
  | ok status =>
    cases status with
    | noMessagesPolled =>
      rw [pollAndRelay_idle hr]
      exact .idle (sleepForRest_took ..) (by rw [sleepForRest_eq])
    | timedOut =>
      rw [pollAndRelay_timedOut hr]
      exact .timedOut (pollCanister_timedOut hr) rfl rfl
    | messagesPolled out =>
      obtain ⟨hreply, hne⟩ := pollCanister_messages hr
      rcases hn : updateNonce oc n out.messages with ⟨k, u | e | m⟩
      · by_cases hend : out.isEndOfQueue.getD true = true
        · rw [pollAndRelay_drained hr hn hend]
          refine .drained out hreply hne (sleepForRest_took ..) ?_ ?_
          · rw [sleepForRest_eq]
          · rw [sleepForRest_eq]
            exact hn
        · rw [pollAndRelay_more hr hn hend]
          exact .more out hreply hne rfl hn
      · rw [pollAndRelay_err hr hn] at h
        cases h
      · rw [pollAndRelay_panicked hr hn] at h
        cases h

/-! ### Progress -/

/-- The nonce of the message leaves room for one more. -/
def BelowMax (m : CanisterOutputMessage) : Prop :=
  ∀ k, getNonceFromMessage m.key = .ok k → k.toNat + 1 < 2 ^ 64

/-- The messages of a reply. -/
def PollReply.messages : PollReply → List CanisterOutputMessage
  | .replied (.ok out) => out.messages
  | _ => []

/-- A timeout fires no earlier than after `POLLING_TIMEOUT_MS`. -/
def Round.Timely (r : Round) : Prop := r.reply = .elapsed → fromMillis POLLING_TIMEOUT_MS ≤ r.delays.poll

/-- How long an iteration lasts at least that does not make progress. -/
def pause (ms : UInt64) : ℕ := min (fromMillis ms) (fromMillis POLLING_TIMEOUT_MS)

/-- The last message of an accepted batch: its nonce is not below the one expected, and
the next one expected follows it. -/
theorem updateNonce_last (oc : Bool) : ∀ {n n' : UInt64} {ms : List CanisterOutputMessage},
    updateNonce oc n ms = (n', .ok ()) → ms ≠ [] → (∀ m ∈ ms, BelowMax m) →
    ∃ m ∈ ms, ∃ k, getNonceFromMessage m.key = .ok k ∧ n.toNat ≤ k.toNat ∧ n'.toNat = k.toNat + 1
  | _, _, [], _, hne, _ => absurd rfl hne
  | n, n', m :: ms, h, _, hmax => by
    obtain ⟨k, hk, hkn, hrest⟩ := updateNonce_cons_ok h
    have hlt : k.toNat + 1 < 2 ^ 64 := hmax m (List.mem_cons_self ..) k hk
    have hle : n.toNat ≤ k.toNat := by
      rcases hkn with h0 | h0
      · rw [h0, UInt64.toNat_zero]
        omega
      · rw [h0]
    by_cases hms : ms = []
    · subst hms
      have hn : n' = k + 1 := (congrArg Prod.fst hrest).symm
      exact ⟨m, List.mem_cons_self .., k, hk, hle, by rw [hn, nonce_succ hlt]⟩
    · have hmax' : ∀ m' ∈ ms, BelowMax m' := fun m' hm' => hmax m' (List.mem_cons_of_mem m hm')
      obtain ⟨m', hm', k', hk', hle', hn⟩ := updateNonce_last oc hrest hms hmax'
      rw [nonce_succ hlt] at hle'
      exact ⟨m', List.mem_cons_of_mem m hm', k', hk', by omega, hn⟩

/-- An iteration that succeeds uses up messages or waits. -/
theorem progress_or_waits {r : Round} (htime : r.Timely) (hmax : ∀ m ∈ r.reply.messages, BelowMax m)
    (h : (pollAndRelay oc ms n r.reply r.delays).result = .ok ()) :
    (n < (pollAndRelay oc ms n r.reply r.delays).nextMessageNonce ∧
      (pollAndRelay oc ms n r.reply r.delays).relayed ≠ []) ∨
    pause ms ≤ (pollAndRelay oc ms n r.reply r.delays).took := by
  cases pollAndRelay_ok h with
  | timedOut elapsed took nonce =>
    right
    have := htime elapsed
    unfold pause
    omega
  | idle took nonce =>
    right
    unfold pause
    omega
  | drained out polled some_message took batch nonces =>
    right
    unfold pause
    omega
  | more out polled some_message batch nonces =>
    left
    rw [polled] at hmax
    obtain ⟨m, -, k, -, hle, hn⟩ := updateNonce_last oc nonces some_message hmax
    refine ⟨UInt64.lt_iff_toNat_lt.mpr (by omega), ?_⟩
    rw [batch]
    exact some_message

/-! ### The loop -/

/-- The iteration goes on and lasted less than the pause. -/
def Short (ms : UInt64) (it : Iteration) : Prop := it.result = .ok () ∧ it.took < pause ms

instance (ms : UInt64) : DecidablePred (Short ms) := fun _ => inferInstanceAs (Decidable (_ ∧ _))

/-- The message is numbered `n` or higher. -/
def waiting (n : UInt64) (m : CanisterOutputMessage) : Bool :=
  match getNonceFromMessage m.key with
  | .ok k => n ≤ k
  | .error _ => false

/-- How many messages of the canister's queue a poller at nonce `n` has not got yet. -/
def outstanding (queue : List CanisterOutputMessage) (n : UInt64) : ℕ := queue.countP (waiting n)

theorem waiting_iff {m : CanisterOutputMessage} {k : UInt64} (hk : getNonceFromMessage m.key = .ok k) :
    waiting n m ↔ n ≤ k := by
  unfold waiting
  simp only [hk, decide_eq_true_eq]

theorem waiting_mono {m : CanisterOutputMessage} (hle : n ≤ n') (h : waiting n' m) : waiting n m := by
  cases hk : getNonceFromMessage m.key with
  | ok k =>
    rw [waiting_iff hk] at h ⊢
    exact UInt64.le_trans hle h
  | error e =>
    unfold waiting at h
    simp only [hk] at h
    exact absurd h (by decide)

/-- A message that is got is not outstanding any more. -/
theorem outstanding_lt {queue : List CanisterOutputMessage} {m : CanisterOutputMessage} {k : UInt64}
    (hm : m ∈ queue) (hk : getNonceFromMessage m.key = .ok k) (hle : n ≤ k) (hlt : k < n') :
    outstanding queue n' < outstanding queue n := by
  unfold outstanding
  rw [List.countP_eq_length_filter, List.countP_eq_length_filter]
  have hsub : queue.filter (waiting n') = (queue.filter (waiting n)).filter (waiting n') := by
    rw [List.filter_filter]
    refine List.filter_congr fun x _ => ?_
    have himp : waiting n' x → waiting n x := waiting_mono (UInt64.le_of_lt (UInt64.lt_of_le_of_lt hle hlt))
    cases hx : waiting n' x with
    | false => rfl
    | true => rw [himp hx]; rfl
  rw [hsub, List.length_filter_lt_length_iff_exists]
  refine ⟨m, List.mem_filter.mpr ⟨hm, (waiting_iff hk).mpr hle⟩, fun h => ?_⟩
  exact absurd ((waiting_iff hk).mp h) (UInt64.not_le.mpr hlt)

/-- An accepted batch leaves fewer messages outstanding. -/
theorem outstanding_batch {queue batch : List CanisterOutputMessage} (h : updateNonce oc n batch = (n', .ok ()))
    (hne : batch ≠ []) (hmax : ∀ m ∈ batch, BelowMax m) (hq : ∀ m ∈ batch, m ∈ queue) :
    outstanding queue n' < outstanding queue n := by
  obtain ⟨m, hm, k, hk, hle, hn⟩ := updateNonce_last oc h hne hmax
  apply outstanding_lt (hq m hm) hk (UInt64.le_iff_toNat_le.mpr hle)
  exact UInt64.lt_iff_toNat_lt.mpr (by omega)

/-- An iteration that succeeds leaves no more messages outstanding, and fewer if it is
short. -/
theorem outstanding_iteration {r : Round} {queue : List CanisterOutputMessage} (htime : r.Timely)
    (hmax : ∀ m ∈ r.reply.messages, BelowMax m) (hq : ∀ m ∈ r.reply.messages, m ∈ queue)
    (h : (pollAndRelay oc ms n r.reply r.delays).result = .ok ()) :
    outstanding queue (pollAndRelay oc ms n r.reply r.delays).nextMessageNonce +
      (if Short ms (pollAndRelay oc ms n r.reply r.delays) then 1 else 0) ≤ outstanding queue n := by
  cases pollAndRelay_ok h with
  | timedOut elapsed took nonce =>
    have hshort : ¬ Short ms (pollAndRelay oc ms n r.reply r.delays) := fun hs => by
      have h1 := htime elapsed
      have h2 := hs.2
      unfold pause at h2
      omega
    rw [if_neg hshort, nonce]
    omega
  | idle took nonce =>
    have hshort : ¬ Short ms (pollAndRelay oc ms n r.reply r.delays) := fun hs => by
      have h2 := hs.2
      unfold pause at h2
      omega
    rw [if_neg hshort, nonce]
    omega
  | drained out polled some_message took batch nonces =>
    rw [polled] at hmax hq
    have hlt := outstanding_batch nonces some_message hmax hq
    split_ifs <;> omega
  | more out polled some_message batch nonces =>
    rw [polled] at hmax hq
    have hlt := outstanding_batch nonces some_message hmax hq
    split_ifs <;> omega

/-- The loop has at most as many short iterations as there are outstanding messages. -/
theorem short_iterations_le (oc : Bool) (ms : UInt64) (queue : List CanisterOutputMessage) :
    ∀ {n : UInt64} {rounds : List Round}, (∀ r ∈ rounds, r.Timely) →
    (∀ r ∈ rounds, ∀ m ∈ r.reply.messages, BelowMax m) →
    (∀ r ∈ rounds, ∀ m ∈ r.reply.messages, m ∈ queue) →
    (runPolling oc ms n rounds).countP (fun it => Short ms it) ≤ outstanding queue n
  | _, [], _, _, _ => by
    show 0 ≤ _
    omega
  | n, r :: rs, htime, hmax, hq => by
    rw [List.forall_mem_cons] at htime hmax hq
    have ih := short_iterations_le oc ms queue (n := (pollAndRelay oc ms n r.reply r.delays).nextMessageNonce)
      htime.2 hmax.2 hq.2
    unfold runPolling
    cases hres : (pollAndRelay oc ms n r.reply r.delays).result with
    | ok u =>
      have hstep := outstanding_iteration htime.1 hmax.1 hq.1 hres
      simp only [List.countP_cons, decide_eq_true_eq, hres]
      omega
    | err e =>
      have hshort : ¬ Short ms (pollAndRelay oc ms n r.reply r.delays) := fun hs => by
        have := hs.1.symm.trans hres
        cases this
      simp [hres, hshort]
    | panicked m =>
      have hshort : ¬ Short ms (pollAndRelay oc ms n r.reply r.delays) := fun hs => by
        have := hs.1.symm.trans hres
        cases this
      simp [hres, hshort]

/-- Every iteration that succeeds uses up messages or lasts the pause, the subtraction
for the sleep never underflows, and as long as the messages come from one queue, no more
iterations are short than messages of the queue are outstanding. -/
theorem iterations_progress_or_wait (oc : Bool) (ms n : UInt64) {rounds : List Round}
    {queue : List CanisterOutputMessage} (htime : ∀ r ∈ rounds, r.Timely)
    (hmax : ∀ r ∈ rounds, ∀ m ∈ r.reply.messages, BelowMax m)
    (hq : ∀ r ∈ rounds, ∀ m ∈ r.reply.messages, m ∈ queue) :
    (∀ elapsed, computeEffectivePollingInterval ms elapsed = .ok (fromMillis ms - elapsed)) ∧
    (∀ n, ∀ r ∈ rounds, (pollAndRelay oc ms n r.reply r.delays).result = .ok () →
      (n < (pollAndRelay oc ms n r.reply r.delays).nextMessageNonce ∧
        (pollAndRelay oc ms n r.reply r.delays).relayed ≠ []) ∨
      min (fromMillis ms) (fromMillis POLLING_TIMEOUT_MS) ≤ (pollAndRelay oc ms n r.reply r.delays).took) ∧
    (runPolling oc ms n rounds).countP (fun it => Short ms it) ≤ outstanding queue n := by
  refine ⟨computeEffectivePollingInterval_ok ms, fun n r hr h => ?_, short_iterations_le oc ms queue htime hmax hq⟩
  exact progress_or_waits (htime r hr) (hmax r hr) h

/-- Two batches, the first with the flag that more is waiting, then an empty reply; each
comes after a millisecond. -/
def twoBatches : List Round :=
  let quick : Delays := ⟨1000000, 0, 0, 0⟩
  [⟨.replied (.ok ⟨[messageWith "gateway_5"], [], [], some false⟩), quick⟩,
    ⟨.replied (.ok ⟨[messageWith "gateway_6"], [], [], some true⟩), quick⟩,
    ⟨.replied (.ok ⟨[], [], [], some false⟩), quick⟩]

/-- One of the iterations is short, with two messages outstanding. -/
theorem twoBatches_iterations :
    (runPolling true 100 0 twoBatches).map (fun it => it.took) = [1000000, 100000000, 100000000] ∧
    (runPolling true 100 0 twoBatches).countP (fun it => Short 100 it) ≤
      outstanding [messageWith "gateway_5", messageWith "gateway_6"] 0 := by
  have htime : ∀ r ∈ twoBatches, r.Timely := by
    unfold Round.Timely
    decide
  have hmax : ∀ r ∈ twoBatches, ∀ m ∈ r.reply.messages, BelowMax m := by
    have h5 : BelowMax (messageWith "gateway_5") := fun k hk => by
      have h : getNonceFromMessage "gateway_5" = .ok 5 := by decide
      cases h.symm.trans hk
      decide
    have h6 : BelowMax (messageWith "gateway_6") := fun k hk => by
      have h : getNonceFromMessage "gateway_6" = .ok 6 := by decide
      cases h.symm.trans hk
      decide
    simp [twoBatches, PollReply.messages, h5, h6]
  have hq : ∀ r ∈ twoBatches, ∀ m ∈ r.reply.messages, m ∈ [messageWith "gateway_5", messageWith "gateway_6"] := by
    decide
  exact ⟨by decide, (iterations_progress_or_wait true 100 0 htime hmax hq).2.2⟩

/-! ### The iterations of the system's pollers -/

/-- Where the iteration leaves a poller that got its reply. -/
def Iteration.Leaves (it : Iteration) : PollerPhase → Prop
  | .relaying out => it.result = .ok () ∧ it.relayed = out.messages ∧ (it.asked.isSome ↔ out.isEndOfQueue.getD true)
  | .sleeping => it.result = .ok () ∧ it.relayed = [] ∧ it.asked.isSome
  | .checking => it.result = .ok () ∧ it.relayed = [] ∧ it.asked = none
  | .failed e => it.result = .err e
  | .ended r => ∃ m, r = .panicked m ∧ it.result = .panicked m
  | _ => False

/-- A poller of the system does with a reply what its iteration does. -/
theorem pollReply_agrees {cfg : Config} {w w' : World} {p : PollerId} {q : CanisterPoller} (ms : UInt64)
    (d : Delays) (hq : w.pollers p = some q) (he : w.pollReply cfg p reply = some w') :
    ∃ q', w'.pollers p = some q' ∧
      q'.nextMessageNonce = (pollAndRelay cfg.overflowChecks ms q.nextMessageNonce reply d).nextMessageNonce ∧
      (pollAndRelay cfg.overflowChecks ms q.nextMessageNonce reply d).Leaves q'.phase := by
  have hsame : ∀ {q₀}, w.pollers p = some q₀ → q₀ = q := fun h => Option.some.inj (h.symm.trans hq)
  cases pollReply_cases he with
  | pollFailed poller phase hr =>
    obtain rfl := hsame poller
    rw [pollAndRelay_error hr]
    exact ⟨_, Function.update_self .., rfl, rfl⟩
  | noMessages poller phase hr =>
    obtain rfl := hsame poller
    rw [pollAndRelay_idle hr, sleepForRest_eq]
    exact ⟨_, Function.update_self .., rfl, rfl, rfl, rfl⟩
  | timedOut poller phase hr =>
    obtain rfl := hsame poller
    rw [pollAndRelay_timedOut hr]
    exact ⟨_, Function.update_self .., rfl, rfl, rfl, rfl⟩
  | @polled _ _ _ out k poller phase hr hn =>
    obtain rfl := hsame poller
    refine ⟨_, Function.update_self .., ?_⟩
    by_cases hend : out.isEndOfQueue.getD true = true
    · rw [pollAndRelay_drained hr hn hend, sleepForRest_eq]
      exact ⟨rfl, rfl, rfl, fun _ => hend, fun _ => rfl⟩
    · rw [pollAndRelay_more hr hn hend]
      exact ⟨rfl, rfl, rfl, fun h => Bool.noConfusion h, fun h => absurd h hend⟩
  | nonceFailed poller phase hr hn =>
    obtain rfl := hsame poller
    rw [pollAndRelay_err hr hn]
    exact ⟨_, Function.update_self .., rfl, rfl⟩
  | noncePanic poller phase hr hn =>
    obtain rfl := hsame poller
    rw [pollAndRelay_panicked hr hn]
    exact ⟨_, Function.update_self .., rfl, _, rfl, rfl⟩

end IcWsGateway
