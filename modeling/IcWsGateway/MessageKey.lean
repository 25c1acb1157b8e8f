/-
# The parser of message keys

`get_nonce_from_message` parses what follows the last underscore of a key, or
the whole key if it has none, as a `u64`, which may start with a `+`. So it
accepts the keys `<prefix>_<digits>`, and besides them the keys without an
underscore and those with a sign that parse (`accepts_format_iff`).

Key definitions: `IsNumeral`, `IsKeyOf`, `Lenient`, `builtKey`.
Key theorems: `parseU64_ok`, `getNonce_ok`, `accepts_format_iff`.
-/
import IcWsGateway.CanisterPoller

namespace IcWsGateway

/-! ### Numbers -/

/-- A non-empty string of ASCII digits with the decimal value `n`. -/
def IsNumeral (ds : List Char) (n : ℕ) : Prop :=
  ds ≠ [] ∧ (∀ c ∈ ds, c.isDigit) ∧ Nat.ofDigitChars 10 ds 0 = n

theorem toDigit_some {c : Char} (h : c.isDigit) : toDigit c = some (c.toNat - '0'.toNat) := by
  unfold toDigit
  rw [Char.isDigit, Bool.and_eq_true, decide_eq_true_eq, decide_eq_true_eq] at h
  exact if_pos h

theorem toDigit_none {c : Char} (h : ¬ c.isDigit) : toDigit c = none := by
  unfold toDigit
  rw [Char.isDigit, Bool.and_eq_true, decide_eq_true_eq, decide_eq_true_eq] at h
  exact if_neg h

/-- More digits do not make the value smaller. -/
theorem le_ofDigitChars (ds : List Char) (n : ℕ) : n ≤ Nat.ofDigitChars 10 ds n := by
  rw [Nat.ofDigitChars_eq_ofDigitChars_zero]
  have hpos : 0 < 10 ^ ds.length := Nat.pow_pos (by omega)
  calc n = 1 * n := (Nat.one_mul n).symm
    _ ≤ 10 ^ ds.length * n := Nat.mul_le_mul_right n hpos
    _ ≤ _ := Nat.le_add_right _ _

theorem parseDigits_ok : ∀ {cs : List Char} {n v : ℕ}, n < 2 ^ 64 →
    (parseDigits cs n = .ok v ↔ (∀ c ∈ cs, c.isDigit) ∧ Nat.ofDigitChars 10 cs n = v ∧ v < 2 ^ 64)
  | [], n, v, hn => by
    rw [Nat.ofDigitChars_nil]
    constructor
    · intro h
      obtain rfl : n = v := Except.ok.inj h
      exact ⟨fun c hc => absurd hc List.not_mem_nil, rfl, hn⟩
    · rintro ⟨-, rfl, -⟩
      rfl
  | c :: cs, n, v, hn => by
    rw [Nat.ofDigitChars_cons, List.forall_mem_cons]
    unfold parseDigits
    by_cases hc : c.isDigit
    · rw [toDigit_some hc, Nat.mul_comm 10 n]
      by_cases hlt : n * 10 + (c.toNat - '0'.toNat) < 2 ^ 64
      · have ih : parseDigits cs _ = .ok v ↔ _ := parseDigits_ok hlt
        simp only [if_pos hlt, ih, hc, true_and]
      · have hle := le_ofDigitChars cs (n * 10 + (c.toNat - '0'.toNat))
        simp only [if_neg hlt, reduceCtorEq, false_iff]
        rintro ⟨-, hv, hv'⟩
        omega
    · simp only [toDigit_none hc, reduceCtorEq, hc, false_and]

/-- The number without a leading `+`. -/
def dropSign : List Char → List Char
  | '+' :: cs => cs
  | cs => cs

theorem dropSign_unsigned {s : List Char} (h : ∀ cs, s ≠ '+' :: cs) : dropSign s = s := by
  unfold dropSign
  split
  · exact absurd rfl (h _)
  · rfl

theorem parseDigits_numeral {cs : List Char} {v : ℕ} (hne : cs ≠ []) :
    parseDigits cs 0 = .ok v ↔ IsNumeral cs v ∧ v < 2 ^ 64 := by
  rw [parseDigits_ok (by omega)]
  unfold IsNumeral
  tauto

/-- `parse::<u64>` accepts the numerals below `2 ^ 64`, with or without a `+`. -/
theorem parseU64_ok {s : List Char} {v : ℕ} :
    parseU64 s = .ok v ↔ IsNumeral (dropSign s) v ∧ v < 2 ^ 64 := by
  unfold parseU64
  split
  · simp [IsNumeral, dropSign]
  · simp [IsNumeral, dropSign]
  · have hminus : ¬ '-'.isDigit := by decide
    simp [IsNumeral, dropSign, hminus]
  · rename_i cs hne
    exact parseDigits_numeral fun h0 => hne (by rw [h0])
  · rename_i hne _ _ hsign
    rw [dropSign_unsigned fun cs h => hsign cs h]
    exact parseDigits_numeral hne

/-! ### The last part of a key -/

/-- What follows the last underscore, or the whole key if there is none. -/
def lastPart (key : List Char) : List Char := ((key.splitOn '_').getLast?).getD []

theorem getLast?_splitOn (key : List Char) : (key.splitOn '_').getLast? = some (lastPart key) := by
  unfold lastPart
  cases h : (key.splitOn '_').getLast? with
  | none => exact absurd (List.getLast?_eq_none_iff.mp h) (List.splitOn_ne_nil '_' key)
  | some part => rfl

theorem lastPart_whole {key : List Char} (h : '_' ∉ key) : lastPart key = key := by
  unfold lastPart
  rw [List.splitOn_eq_singleton h]
  rfl

theorem lastPart_append (p : List Char) {q : List Char} (h : '_' ∉ q) : lastPart (p ++ '_' :: q) = q := by
  unfold lastPart
  rw [List.splitOn_append_cons_self, List.splitOn_eq_singleton h, List.getLast?_concat]
  rfl

/-- A key with an underscore is cut at its last one. -/
theorem exists_cut : ∀ {key : List Char}, '_' ∈ key → ∃ p q, key = p ++ '_' :: q ∧ '_' ∉ q
  | [], h => absurd h List.not_mem_nil
  | c :: key, h => by
    by_cases hin : '_' ∈ key
    · obtain ⟨p, q, hkey, hq⟩ := exists_cut hin
      exact ⟨c :: p, q, by rw [hkey]; rfl, hq⟩
    · obtain rfl : '_' = c := (List.mem_cons.mp h).resolve_right hin
      exact ⟨[], key, rfl, hin⟩

/-! ### What is accepted -/

theorem IsNumeral.no_underscore {ds : List Char} {n : ℕ} (h : IsNumeral ds n) : '_' ∉ ds := by
  intro hin
  have hdigit : '_'.isDigit := h.2.1 '_' hin
  exact absurd hdigit (by decide)

theorem IsNumeral.unsigned {ds : List Char} {n : ℕ} (h : IsNumeral ds n) : ∀ cs, ds ≠ '+' :: cs := by
  rintro cs rfl
  have hdigit : '+'.isDigit := h.2.1 '+' (List.mem_cons_self ..)
  exact absurd hdigit (by decide)

/-- Every key has a last part, so the parser always gets to the number. -/
theorem getNonce_eq (key : String) : getNonceFromMessage key =
    match parseU64 (lastPart key.toList) with
    | .ok n => .ok (UInt64.ofNat n)
    | .error e => .error ("Could not parse nonce. Error: " ++ e.debug) := by
  have hlast := getLast?_splitOn key.toList
  unfold getNonceFromMessage
  split
  · rename_i part hp
    obtain rfl : lastPart key.toList = part := Option.some.inj (hlast.symm.trans hp)
    rfl
  · rename_i hp
    rw [hlast] at hp
    cases hp

theorem getNonce_ok {key : String} {n : UInt64} :
    getNonceFromMessage key = .ok n ↔ IsNumeral (dropSign (lastPart key.toList)) n.toNat := by
  have hn : n.toNat < 2 ^ 64 := n.toNat_lt
  rw [getNonce_eq]
  constructor
  · intro h
    cases hp : parseU64 (lastPart key.toList) with
    | error e =>
      rw [hp] at h
      cases h
    | ok v =>
      rw [hp] at h
      obtain ⟨hnum, hlt⟩ := parseU64_ok.mp hp
      have hv : n = UInt64.ofNat v := (Except.ok.inj h).symm
      rw [hv, UInt64.toNat_ofNat_of_lt' hlt]
      exact hnum
  · intro h
    rw [parseU64_ok.mpr ⟨h, hn⟩]
    show Except.ok (UInt64.ofNat n.toNat) = Except.ok n
    rw [UInt64.ofNat_toNat]

/-- The key is some prefix, an underscore, and the digits of `n`. -/
def IsKeyOf (key : String) (n : ℕ) : Prop :=
  ∃ p ds, key.toList = p ++ '_' :: ds ∧ IsNumeral ds n

theorem isKeyOf_iff {key : String} {n : ℕ} :
    IsKeyOf key n ↔ '_' ∈ key.toList ∧ IsNumeral (lastPart key.toList) n := by
  constructor
  · rintro ⟨p, ds, hkey, hnum⟩
    rw [hkey, lastPart_append p hnum.no_underscore]
    exact ⟨List.mem_append_right p (List.mem_cons_self ..), hnum⟩
  · rintro ⟨hin, hnum⟩
    obtain ⟨p, q, hkey, hq⟩ := exists_cut hin
    rw [hkey, lastPart_append p hq] at hnum
    exact ⟨p, q, hkey, hnum⟩

/-- A key in the format is accepted with its nonce. -/
theorem IsKeyOf.accepted {key : String} {n : UInt64} (h : IsKeyOf key n.toNat) :
    getNonceFromMessage key = .ok n := by
  have hnum := (isKeyOf_iff.mp h).2
  rw [getNonce_ok, dropSign_unsigned hnum.unsigned]
  exact hnum

/-! ### The format -/

/-- The parser accepts the key exactly with the nonce that the format gives it, and
gives an error if the key is not in the format. -/
structure AcceptsFormat (key : String) : Prop where
  ok_iff : ∀ n : UInt64, getNonceFromMessage key = .ok n ↔ IsKeyOf key n.toNat
  error_iff : (∃ e, getNonceFromMessage key = .error e) ↔ ¬ ∃ n : UInt64, IsKeyOf key n.toNat

/-- A numeral below `2 ^ 64`, perhaps after a `+`, without an underscore before it; or one
after a `+` that follows an underscore. -/
def Lenient (key : String) : Prop :=
  ∃ n < 2 ^ 64, ('_' ∉ key.toList ∧ IsNumeral (dropSign key.toList) n) ∨
    ∃ p ds, key.toList = p ++ '_' :: '+' :: ds ∧ IsNumeral ds n

/-- A lenient key is accepted, and is not in the format. -/
theorem Lenient.accepted {key : String} (h : Lenient key) :
    ∃ n, getNonceFromMessage key = .ok n ∧ ¬ IsKeyOf key n.toNat := by
  obtain ⟨n, hlt, ⟨hno, hnum⟩ | ⟨p, ds, hkey, hnum⟩⟩ := h
  · refine ⟨UInt64.ofNat n, ?_, fun hk => hno (isKeyOf_iff.mp hk).1⟩
    rw [getNonce_ok, lastPart_whole hno, UInt64.toNat_ofNat_of_lt' hlt]
    exact hnum
  · have hplus : '_' ∉ '+' :: ds := by
      rw [List.mem_cons, not_or]
      exact ⟨by decide, hnum.no_underscore⟩
    have hlast : lastPart key.toList = '+' :: ds := by
      rw [hkey]
      exact lastPart_append p hplus
    refine ⟨UInt64.ofNat n, ?_, fun hk => ?_⟩
    · rw [getNonce_ok, hlast, UInt64.toNat_ofNat_of_lt' hlt]
      exact hnum
    · have hsigned := (isKeyOf_iff.mp hk).2
      rw [hlast] at hsigned
      exact hsigned.unsigned ds rfl

/-- What is accepted and not in the format is lenient. -/
theorem lenient_of_accepted {key : String} {n : UInt64} (h : getNonceFromMessage key = .ok n)
    (hk : ¬ IsKeyOf key n.toNat) : Lenient key := by
  rw [getNonce_ok] at h
  refine ⟨n.toNat, n.toNat_lt, ?_⟩
  by_cases hin : '_' ∈ key.toList
  · right
    obtain ⟨p, q, hkey, hq⟩ := exists_cut hin
    rw [hkey, lastPart_append p hq] at h
    by_cases hsign : ∃ ds, q = '+' :: ds
    · obtain ⟨ds, rfl⟩ := hsign
      exact ⟨p, ds, hkey, h⟩
    · rw [dropSign_unsigned fun cs hcs => hsign ⟨cs, hcs⟩] at h
      exact absurd ⟨p, q, hkey, h⟩ hk
  · rw [lastPart_whole hin] at h
    exact Or.inl ⟨hin, h⟩

/-- The key `<text>_<nonce>`, the nonce padded with zeros. -/
def builtKey (text : String) (pad : ℕ) (n : UInt64) : String :=
  text ++ "_" ++ String.ofList (List.replicate pad '0') ++ toString n.toNat

theorem isKeyOf_builtKey (text : String) (pad : ℕ) (n : UInt64) : IsKeyOf (builtKey text pad n) n.toNat := by
  refine ⟨text.toList, List.replicate pad '0' ++ Nat.toDigits 10 n.toNat, ?_, ?_, ?_, ?_⟩
  · unfold builtKey
    simp only [String.toList_append, String.toList_ofList, Nat.toString_eq_repr, Nat.toList_repr]
    simp
  · simp
  · intro c hc
    rcases List.mem_append.mp hc with hzero | hdigit
    · rw [List.eq_of_mem_replicate hzero]
      decide
    · exact Nat.isDigit_of_mem_toDigits (by omega) (by omega) hdigit
  · rw [Nat.ofDigitChars_append, Nat.ofDigitChars_replicate_zero, Nat.mul_zero,
      Nat.ofDigitChars_ten_toDigits]

/-- The parser follows the key format on a key exactly when the key is not lenient; and
it gives back the nonce of every key that is built. -/
theorem accepts_format_iff (key : String) :
    (AcceptsFormat key ↔ ¬ Lenient key) ∧
    ∀ text pad n, getNonceFromMessage (builtKey text pad n) = .ok n := by
  constructor
  · constructor
    · intro hacc hlen
      obtain ⟨n, hok, hno⟩ := hlen.accepted
      exact hno ((hacc.ok_iff n).mp hok)
    · intro hlen
      have hok : ∀ n : UInt64, getNonceFromMessage key = .ok n ↔ IsKeyOf key n.toNat := fun n =>
        ⟨fun h => by_contra fun hk => hlen (lenient_of_accepted h hk), IsKeyOf.accepted⟩
      refine ⟨hok, ?_⟩
      cases h : getNonceFromMessage key with
      | error e =>
        refine ⟨fun _ => ?_, fun _ => ⟨e, rfl⟩⟩
        rintro ⟨n, hk⟩
        exact absurd (hk.accepted.symm.trans h) (by simp)
      | ok n => exact ⟨by simp, fun hno => absurd ⟨n, (hok n).mp h⟩ hno⟩
  · intro text pad n
    exact (isKeyOf_builtKey text pad n).accepted

/-- A key without an underscore and one with a sign are accepted. -/
theorem lenient_keys_accepted :
    (getNonceFromMessage "5" = .ok 5 ∧ ¬ AcceptsFormat "5") ∧
    getNonceFromMessage "gateway_+5" = .ok 5 ∧ ¬ AcceptsFormat "gateway_+5" := by
  have h5 : getNonceFromMessage "5" = .ok 5 := by decide
  have hplus : getNonceFromMessage "gateway_+5" = .ok 5 := by decide
  refine ⟨⟨h5, fun hacc => ?_⟩, hplus, fun hacc => ?_⟩
  · have hk := isKeyOf_iff.mp ((hacc.ok_iff 5).mp h5)
    exact absurd hk.1 (by decide)
  · have hk := isKeyOf_iff.mp ((hacc.ok_iff 5).mp hplus)
    exact hk.2.unsigned ['5'] (by decide)

end IcWsGateway
