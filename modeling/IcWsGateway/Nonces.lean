/-
# The nonce check over a poller's whole life

`update_nonce` is called with one batch of messages after another. The calls
all succeed exactly when the nonces of the whole stream are consecutive, the
nonce left is one more than the last, and it is never 0 again: if, and only
if, the stream does not reach the nonce `u64::MAX` (`nonce_law_iff`). There
`message_nonce + 1` panics, or wraps to 0, which stands for "no message seen"
(`nonce_law_fails_at_max`).

Key definitions: `updateNonces`, `Consecutive`, `ReachesMax`, `NonceLaw`.
Key theorems: `updateNonces_flatten`, `accepted`, `nonce_law_iff`.
-/
import IcWsGateway.CanisterLog

namespace IcWsGateway

/-- `update_nonce` called with the batches in turn, up to the first call that does
not return `Ok`. -/
def updateNonces (overflowChecks : Bool) :
    UInt64 → List (List CanisterOutputMessage) → UInt64 × Outcome String Unit
  | nextMessageNonce, [] => (nextMessageNonce, .ok ())
  | nextMessageNonce, b :: bs =>
    match updateNonce overflowChecks nextMessageNonce b with
    | (n, .ok ()) => updateNonces overflowChecks n bs
    | r => r

/-! ### Batches and their stream -/

variable {oc : Bool} {n n' : UInt64} {b : ℕ} {ms pre post : List CanisterOutputMessage}
  {m : CanisterOutputMessage} {bs : List (List CanisterOutputMessage)}

theorem updateNonce_append (oc : Bool) : ∀ (n : UInt64) (ms ms' : List CanisterOutputMessage),
    updateNonce oc n (ms ++ ms') =
      match updateNonce oc n ms with
      | (k, .ok ()) => updateNonce oc k ms'
      | r => r
  | _, [], _ => rfl
  | n, m :: ms, ms' => by
    rw [List.cons_append]
    simp only [updateNonce]
    cases getNonceFromMessage m.key with
    | error e => rfl
    | ok k =>
      by_cases h0 : n ≠ 0 ∧ k ≠ n
      · simp only [if_pos h0]
      · by_cases h1 : oc = true ∧ k.toNat + 1 = 2 ^ 64
        · simp only [if_neg h0, if_pos h1]
        · simp only [if_neg h0, if_neg h1]
          exact updateNonce_append oc (k + 1) ms ms'

/-- Where the stream is cut into batches does not matter. -/
theorem updateNonces_flatten (oc : Bool) : ∀ (n : UInt64) (bs : List (List CanisterOutputMessage)),
    updateNonces oc n bs = updateNonce oc n bs.flatten
  | _, [] => rfl
  | n, b :: bs => by
    rw [List.flatten_cons, updateNonce_append]
    unfold updateNonces
    rcases updateNonce oc n b with ⟨k, u | e | t⟩
    · exact updateNonces_flatten oc k bs
    · rfl
    · rfl

/-- What a successful call did with the first message. -/
theorem updateNonce_cons_ok (h : updateNonce oc n (m :: ms) = (n', .ok ())) :
    ∃ k, getNonceFromMessage m.key = .ok k ∧ (n = 0 ∨ k = n) ∧ updateNonce oc (k + 1) ms = (n', .ok ()) := by
  unfold updateNonce at h
  split at h
  · cases h
  · rename_i k hk
    split_ifs at h with h0 h1
    · cases h
    · cases h
    · exact ⟨k, hk, by tauto, h⟩

theorem nonce_succ {k : UInt64} (h : k.toNat + 1 < 2 ^ 64) : (k + 1).toNat = k.toNat + 1 := by
  rw [UInt64.toNat_add, UInt64.toNat_one]
  omega

theorem nonce_succ_ne_zero {k : UInt64} (h : k.toNat + 1 < 2 ^ 64) : k + 1 ≠ 0 := fun h0 => by
  have := congrArg UInt64.toNat h0
  rw [nonce_succ h, UInt64.toNat_zero] at this
  omega

/-! ### Streams -/

/-- The keys of the messages carry the natural numbers `b`, `b + 1`, … -/
def Consecutive (b : ℕ) (ms : List CanisterOutputMessage) : Prop :=
  ∀ j m, ms[j]? = some m → ∃ k, getNonceFromMessage m.key = .ok k ∧ k.toNat = b + j

/-- The stream starts with consecutive messages, the last of them with the nonce
`u64::MAX`. -/
def ReachesMax (ms : List CanisterOutputMessage) : Prop :=
  ∃ pre post b, ms = pre ++ post ∧ pre ≠ [] ∧ Consecutive b pre ∧ b + pre.length = 2 ^ 64

theorem Consecutive.nil (b : ℕ) : Consecutive b [] := fun j m h => by simp at h

theorem Consecutive.cons {k : UInt64} (hk : getNonceFromMessage m.key = .ok k) (hb : k.toNat = b)
    (h : Consecutive (b + 1) ms) : Consecutive b (m :: ms) := by
  intro j x hx
  cases j with
  | zero =>
    obtain rfl : m = x := by simpa using hx
    exact ⟨k, hk, by omega⟩
  | succ j =>
    obtain ⟨k', hk', hj⟩ := h j x (by simpa using hx)
    exact ⟨k', hk', by omega⟩

/-- The first messages of a consecutive stream. -/
theorem Consecutive.first (h : Consecutive b (ms ++ post)) : Consecutive b ms := by
  intro j m hj
  have hlt : j < ms.length := (List.getElem?_eq_some_iff.mp hj).1
  exact h j m (by rw [List.getElem?_append_left hlt, hj])

/-- The nonce of the last message. -/
theorem Consecutive.last (h : Consecutive b (ms ++ [m])) :
    ∃ k, getNonceFromMessage m.key = .ok k ∧ k.toNat = b + ms.length :=
  h ms.length m (by simp)

theorem Consecutive.snoc {k : UInt64} (h : Consecutive b ms) (hk : getNonceFromMessage m.key = .ok k)
    (hb : k.toNat = b + ms.length) : Consecutive b (ms ++ [m]) := by
  intro j x hx
  by_cases hj : j < ms.length
  · exact h j x (by rw [← hx, List.getElem?_append_left hj])
  · rw [List.getElem?_append_right (by omega), List.getElem?_singleton] at hx
    split_ifs at hx with h0
    obtain rfl : m = x := by simpa using hx
    exact ⟨k, hk, by omega⟩

/-- A nonce is a `u64`, so a consecutive stream ends at `u64::MAX` at the latest. -/
theorem Consecutive.bound (h : Consecutive b ms) (hne : ms ≠ []) : b + ms.length ≤ 2 ^ 64 := by
  obtain ⟨init, m, rfl⟩ := List.eq_nil_or_concat' ms |>.resolve_left hne
  obtain ⟨k, -, hk⟩ := h.last
  have := k.toNat_lt
  rw [List.length_append, List.length_singleton]
  omega

theorem Consecutive.numbered (h : Consecutive b ms) (hlt : b + ms.length < 2 ^ 64) : NumberedFrom b ms := by
  intro j m hj
  obtain ⟨k, hk, hkb⟩ := h j m hj
  have hj' : j < ms.length := (List.getElem?_eq_some_iff.mp hj).1
  exact ⟨k, hk, hkb, by omega⟩

theorem ReachesMax.extend (h : ReachesMax ms) (post : List CanisterOutputMessage) : ReachesMax (ms ++ post) := by
  obtain ⟨pre, post', b, rfl, hne, hc, hb⟩ := h
  exact ⟨pre, post' ++ post, b, by rw [List.append_assoc], hne, hc, hb⟩

/-! ### What was accepted -/

/-- What is accepted from the nonce `n` on is consecutive from there, unless it reaches
`u64::MAX`. -/
theorem accepted_from (oc : Bool) : ∀ {n n' : UInt64} {ms : List CanisterOutputMessage},
    updateNonce oc n ms = (n', .ok ()) → n ≠ 0 →
    (∀ pre post, ms = pre ++ post → Consecutive n.toNat pre → n.toNat + pre.length < 2 ^ 64) →
    Consecutive n.toNat ms ∧ n'.toNat = n.toNat + ms.length
  | n, n', [], h, _, _ => by
    cases h
    exact ⟨Consecutive.nil _, rfl⟩
  | n, n', m :: ms, h, hn, hmax => by
    obtain ⟨k, hk, hkn, hrest⟩ := updateNonce_cons_ok h
    obtain rfl : k = n := hkn.resolve_left hn
    have hlt : k.toNat + 1 < 2 ^ 64 := hmax [m] ms rfl ((Consecutive.nil _).cons hk rfl)
    have ih := accepted_from oc hrest (nonce_succ_ne_zero hlt) fun pre post hms hc => by
      rw [nonce_succ hlt] at hc ⊢
      have := hmax (m :: pre) post (by rw [hms]; rfl) (hc.cons hk rfl)
      rw [List.length_cons] at this
      omega
    rw [nonce_succ hlt] at ih
    refine ⟨ih.1.cons hk rfl, ?_⟩
    rw [ih.2, List.length_cons]
    omega

/-- What a poller accepts is consecutive from some nonce on, and the nonce left is one
more than the last, unless the stream reaches `u64::MAX`. -/
theorem accepted (h : updateNonce oc 0 ms = (n, .ok ())) (hmax : ¬ ReachesMax ms) (hne : ms ≠ []) :
    ∃ b, Consecutive b ms ∧ n.toNat = b + ms.length := by
  obtain ⟨m, ms, rfl⟩ := List.exists_cons_of_ne_nil hne
  obtain ⟨k, hk, -, h⟩ := updateNonce_cons_ok h
  -- from the second message on the nonce expected is not 0
  have hsplit : ∀ pre post, ms = pre ++ post → Consecutive (k.toNat + 1) pre →
      k.toNat + 1 + pre.length < 2 ^ 64 := fun pre post hms hc => by
    have hc' : Consecutive k.toNat (m :: pre) := hc.cons hk rfl
    have hle := hc'.bound (List.cons_ne_nil _ _)
    have hne' : k.toNat + (m :: pre).length ≠ 2 ^ 64 := fun heq =>
      hmax ⟨m :: pre, post, k.toNat, by rw [hms]; rfl, List.cons_ne_nil _ _, hc', heq⟩
    rw [List.length_cons] at hle hne'
    omega
  have hlt : k.toNat + 1 < 2 ^ 64 := hsplit [] ms rfl (Consecutive.nil _)
  rw [← nonce_succ hlt] at hsplit
  obtain ⟨hc, hn⟩ := accepted_from oc h (nonce_succ_ne_zero hlt) hsplit
  rw [nonce_succ hlt] at hc hn
  refine ⟨k.toNat, hc.cons hk rfl, ?_⟩
  rw [hn, List.length_cons]
  omega

/-- A consecutive stream below `u64::MAX` is accepted by a new poller. -/
theorem Consecutive.accepted_fresh (oc : Bool) (h : Consecutive b ms) (hlt : b + ms.length < 2 ^ 64)
    (hne : ms ≠ []) : ∃ n, updateNonce oc 0 ms = (n, .ok ()) ∧ n.toNat = b + ms.length :=
  updateNonce_numbered oc (h.numbered hlt) (fun h0 => absurd rfl h0) hne

/-! ### The law -/

/-- What the nonce check is for, over the batches of a poller's whole life. -/
structure NonceLaw (oc : Bool) (bs : List (List CanisterOutputMessage)) : Prop where
  /-- Exactly the consecutive streams are accepted; only the first nonce is free. -/
  accepts : (∃ n, updateNonces oc 0 bs = (n, .ok ())) ↔ ∃ b, Consecutive b bs.flatten
  /-- After a successful call the nonce is one more than the last of the batch. -/
  follows : ∀ pre b post n n', bs = pre ++ b :: post → updateNonces oc 0 pre = (n, .ok ()) →
    updateNonce oc n b = (n', .ok ()) →
    (b = [] → n' = n) ∧
      ∀ m k, b.getLast? = some m → getNonceFromMessage m.key = .ok k → n'.toNat = k.toNat + 1
  /-- The addition at a message that passed the check does not overflow. -/
  no_overflow : ∀ pre m post n k, bs.flatten = pre ++ m :: post → updateNonce oc 0 pre = (n, .ok ()) →
    getNonceFromMessage m.key = .ok k → (n = 0 ∨ k = n) → k.toNat + 1 < 2 ^ 64
  /-- Once a message was accepted, the check is on. -/
  armed : ∀ pre post n, bs.flatten = pre ++ post → pre ≠ [] → updateNonce oc 0 pre = (n, .ok ()) → n ≠ 0

theorem not_reachesMax_first (h : ¬ ReachesMax (ms ++ post)) : ¬ ReachesMax ms :=
  fun hm => h (hm.extend post)

theorem accepts_iff (oc : Bool) (hmax : ¬ ReachesMax ms) :
    (∃ n, updateNonce oc 0 ms = (n, .ok ())) ↔ ∃ b, Consecutive b ms := by
  by_cases hne : ms = []
  · subst hne
    exact ⟨fun _ => ⟨0, Consecutive.nil _⟩, fun _ => ⟨0, rfl⟩⟩
  · constructor
    · rintro ⟨n, h⟩
      obtain ⟨b, hc, -⟩ := accepted h hmax hne
      exact ⟨b, hc⟩
    · rintro ⟨b, hc⟩
      have hle := hc.bound hne
      have hne' : b + ms.length ≠ 2 ^ 64 := fun heq =>
        hmax ⟨ms, [], b, (List.append_nil ms).symm, hne, hc, heq⟩
      obtain ⟨n, h, -⟩ := hc.accepted_fresh oc (by omega) hne
      exact ⟨n, h⟩

theorem armed_of_accepted (h : updateNonce oc 0 ms = (n, .ok ())) (hmax : ¬ ReachesMax ms) (hne : ms ≠ []) :
    n ≠ 0 := fun h0 => by
  obtain ⟨b, -, hn⟩ := accepted h hmax hne
  have hpos := List.length_pos_of_ne_nil hne
  rw [h0, UInt64.toNat_zero] at hn
  omega

/-- The message after the accepted ones, if it passes the check, has a nonce below
`u64::MAX`. -/
theorem no_overflow_next {k : UInt64} (h : updateNonce oc 0 ms = (n, .ok ()))
    (hmax : ¬ ReachesMax (ms ++ [m])) (hk : getNonceFromMessage m.key = .ok k) (hn : n = 0 ∨ k = n) :
    k.toNat + 1 < 2 ^ 64 := by
  have hlt := k.toNat_lt
  by_contra hge
  apply hmax
  by_cases hne : ms = []
  · subst hne
    exact ⟨[m], [], k.toNat, rfl, List.cons_ne_nil _ _, (Consecutive.nil _).cons hk rfl, by
      rw [List.length_singleton]; omega⟩
  · have hmax' := not_reachesMax_first hmax
    obtain ⟨b, hc, hb⟩ := accepted h hmax' hne
    obtain rfl : k = n := hn.resolve_left (armed_of_accepted h hmax' hne)
    refine ⟨ms ++ [m], [], b, (List.append_nil _).symm, by simp, hc.snoc hk hb, ?_⟩
    rw [List.length_append, List.length_singleton]
    omega

/-- After two batches, both accepted, the nonce is one more than the last of the second. -/
theorem follows_last {ms' : List CanisterOutputMessage} {k : UInt64} (h : updateNonce oc 0 ms = (n, .ok ()))
    (h' : updateNonce oc n ms' = (n', .ok ())) (hmax : ¬ ReachesMax (ms ++ ms'))
    (hm : ms'.getLast? = some m) (hk : getNonceFromMessage m.key = .ok k) : n'.toNat = k.toNat + 1 := by
  obtain ⟨init, rfl⟩ := List.getLast?_eq_some_iff.mp hm
  have hboth : updateNonce oc 0 (ms ++ (init ++ [m])) = (n', .ok ()) := by
    rw [updateNonce_append, h]
    exact h'
  obtain ⟨b, hc, hn⟩ := accepted hboth hmax (by simp)
  rw [← List.append_assoc] at hc hn
  obtain ⟨k', hk', hb⟩ := hc.last
  obtain rfl : k' = k := Except.ok.inj (hk'.symm.trans hk)
  rw [hn, hb, List.length_append, List.length_singleton]
  omega

/-- At `u64::MAX` the addition overflows. -/
theorem overflows_of_reachesMax (oc : Bool) (h : ReachesMax ms) : ∃ pre m post n k, ms = pre ++ m :: post ∧
    updateNonce oc 0 pre = (n, .ok ()) ∧ getNonceFromMessage m.key = .ok k ∧ (n = 0 ∨ k = n) ∧
    k.toNat + 1 = 2 ^ 64 := by
  obtain ⟨pre, post, b, rfl, hne, hc, hb⟩ := h
  obtain ⟨init, m, rfl⟩ := List.eq_nil_or_concat' pre |>.resolve_left hne
  obtain ⟨k, hk, hkb⟩ := hc.last
  rw [List.length_append, List.length_singleton] at hb
  by_cases h0 : init = []
  · subst h0
    rw [List.length_nil] at hb hkb
    exact ⟨[], m, post, 0, k, rfl, rfl, hk, Or.inl rfl, by omega⟩
  · obtain ⟨n, hn, hnb⟩ := hc.first.accepted_fresh oc (by omega) h0
    have hkn : k = n := UInt64.toNat_inj.mp (by rw [hkb, hnb])
    exact ⟨init, m, post, n, k, by simp, hn, hk, Or.inr hkn, by omega⟩

/-- The nonce check does what it is for exactly on the streams that do not reach
`u64::MAX` with consecutive nonces, however they are cut into batches. -/
theorem nonce_law_iff (oc : Bool) (bs : List (List CanisterOutputMessage)) :
    NonceLaw oc bs ↔ ¬ ReachesMax bs.flatten := by
  constructor
  · intro law hmax
    obtain ⟨pre, m, post, n, k, hms, hn, hk, hkn, hge⟩ := overflows_of_reachesMax oc hmax
    have := law.no_overflow pre m post n k hms hn hk hkn
    omega
  · intro hmax
    refine ⟨?_, ?_, ?_, ?_⟩
    · rw [updateNonces_flatten]
      exact accepts_iff oc hmax
    · intro pre b post n n' hbs hn hn'
      rw [updateNonces_flatten] at hn
      constructor
      · intro hb
        rw [hb] at hn'
        exact (congrArg Prod.fst hn').symm
      · intro m k hm hk
        rw [hbs, List.flatten_append, List.flatten_cons, ← List.append_assoc] at hmax
        exact follows_last hn hn' (not_reachesMax_first hmax) hm hk
    · intro pre m post n k hms hn hk hkn
      rw [hms, List.append_cons] at hmax
      exact no_overflow_next hn (not_reachesMax_first hmax) hk hkn
    · intro pre post n hms hne hn
      rw [hms] at hmax
      exact armed_of_accepted hn (not_reachesMax_first hmax) hne

/-- A message with the key. -/
def messageWith (key : String) : CanisterOutputMessage := { clientKey := ⟨[], 0⟩, key := key, content := [] }

/-- A message with the nonce `u64::MAX`, then one with the nonce 7. -/
def pastMax : List (List CanisterOutputMessage) := [[messageWith "gateway_18446744073709551615"], [messageWith "gateway_7"]]

/-- With overflow checks the poller panics at `u64::MAX`; without, it accepts the 7
right after. -/
theorem nonce_law_fails_at_max :
    ¬ NonceLaw true pastMax ∧ ¬ NonceLaw false pastMax ∧
    updateNonces true 0 pastMax = (0, .panicked "attempt to add with overflow") ∧
    updateNonces false 0 pastMax = (8, .ok ()) := by
  have hlast : getNonceFromMessage "gateway_18446744073709551615" = .ok (UInt64.ofNat (2 ^ 64 - 1)) := by
    decide +kernel
  have hfails : ∀ oc, ¬ NonceLaw oc pastMax := fun oc law => by
    have := law.no_overflow [] _ _ 0 _ rfl rfl hlast (Or.inl rfl)
    exact absurd this (by decide +kernel)
  exact ⟨hfails true, hfails false, by decide +kernel, by decide +kernel⟩

end IcWsGateway
