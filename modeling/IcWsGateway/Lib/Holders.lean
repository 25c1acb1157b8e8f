/-
# The holders of a roster, counted

The count of a roster goes up when the roster is made and down when a holder
lets go of it; nothing in the operations counts the holders themselves. In
every state that has lives (`Own`) the count is the number of holders there
are: entries that refer to the roster, tokens for it, and workers that still
hold it.

Key definitions: `Registry.State.holders`.
Key theorems: `Registry.Own.strong_eq`.
-/
import IcWsGateway.Lib.Registry
import Mathlib.Data.Set.Card

namespace Registry

variable {κ α ι : Type} {s : State κ α ι} {life : ℕ → Life κ ι} {r : ℕ}

/-- The worker has not let go of its roster. -/
def Stage.Holding : Stage → Prop
  | .active | .retired _ => True
  | .ended _ => False

namespace State

def entriesOf (s : State κ α ι) (r : ℕ) : Set κ := {c | s.entry c = some r}

def tokensOf (s : State κ α ι) (r : ℕ) : Set ι := {i | s.token i = some r}

def workersOf (s : State κ α ι) (r : ℕ) : Set ℕ := {p | ∃ c x, s.worker p = some (c, r, x) ∧ x.Holding}

/-- The number of holders of a roster. -/
noncomputable def holders (s : State κ α ι) (r : ℕ) : ℕ :=
  (s.entriesOf r).ncard + (s.tokensOf r).ncard + (s.workersOf r).ncard

end State

namespace Life

/-- The member that has the token for the roster. -/
def offerer : Life κ ι → Option ι
  | .offered _ i => some i
  | _ => none

/-- The worker that holds the roster. -/
def keeper : Life κ ι → Option ℕ
  | .worked _ p .active | .worked _ p (.retired _) => some p
  | _ => none

theorem keeper_eq_some {x : Life κ ι} {p : ℕ} :
    x.keeper = some p ↔ ∃ c y, x = .worked c p y ∧ y.Holding := by
  rcases x with _ | ⟨c, i⟩ | ⟨c, p', y⟩ | c
  · simp [keeper]
  · simp [keeper]
  · rcases y with _ | f | f <;> simp [keeper, Stage.Holding]
  · simp [keeper]

theorem offerer_eq_some {x : Life κ ι} {i : ι} : x.offerer = some i ↔ ∃ c, x = .offered c i := by
  rcases x with _ | ⟨c, i⟩ | ⟨c, p, y⟩ | c <;> simp [offerer]

/-- How many there are of an option. -/
def count {β : Type} (o : Option β) : ℕ := o.elim 0 fun _ => 1

theorem ncard_some {β : Type} (o : Option β) : {a | o = some a}.ncard = count o := by
  rcases o with _ | b
  · simp [count]
  · have hb : {a | some b = some a} = {b} := by
      ext a
      simp [eq_comm]
    rw [hb, Set.ncard_singleton]
    rfl

theorem holders_eq (x : Life κ ι) (hx : ∀ c p, x ≠ .worked c p (.retired .crashed)) :
    x.holders = count x.entry + count x.offerer + count x.keeper := by
  rcases x with _ | ⟨c, i⟩ | ⟨c, p, y⟩ | c
  · rfl
  · rfl
  · rcases y with _ | f | f
    · rfl
    · cases f
      · rfl
      · rfl
      · exact absurd rfl (hx c p)
    · cases f <;> rfl
  · rfl

end Life

/-- **The count of a roster is the number of its holders.** -/
theorem Own.strong_eq (h : Own s life) (r : ℕ) : s.strong r = s.holders r := by
  have hentries : s.entriesOf r = {c | (life r).entry = some c} := by
    ext c
    exact h.entry c r
  have htokens : s.tokensOf r = {i | (life r).offerer = some i} := by
    ext i
    exact (h.token i r).trans Life.offerer_eq_some.symm
  have hworkers : s.workersOf r = {p | (life r).keeper = some p} := by
    ext p
    show (∃ c x, s.worker p = some (c, r, x) ∧ x.Holding) ↔ _
    simp only [h.worker, Set.mem_ofPred_eq, Life.keeper_eq_some]
  rw [h.strong, State.holders, hentries, htokens, hworkers, Life.ncard_some, Life.ncard_some, Life.ncard_some]
  exact (life r).holders_eq fun c p => h.crashed r c p

/-- A roster is held as long as something refers to it. -/
theorem Own.held_iff (h : Own s life) (r : ℕ) : 0 < s.strong r ↔
    (∃ c, s.entry c = some r) ∨ (∃ i, s.token i = some r) ∨ ∃ p c x, s.worker p = some (c, r, x) ∧ x.Holding := by
  rw [h.strong]
  constructor
  · intro hpos
    rcases hl : life r with _ | ⟨c, i⟩ | ⟨c, p, y⟩ | c
    · rw [hl] at hpos
      cases hpos
    · exact Or.inr (Or.inl ⟨i, (h.token i r).mpr ⟨c, hl⟩⟩)
    · rcases y with _ | f | f
      · exact Or.inr (Or.inr ⟨p, c, _, (h.worker p c r _).mpr hl, trivial⟩)
      · exact Or.inr (Or.inr ⟨p, c, _, (h.worker p c r _).mpr hl, trivial⟩)
      · cases f
        · rw [hl] at hpos
          cases hpos
        · rw [hl] at hpos
          cases hpos
        · exact Or.inl ⟨c, (h.entry c r).mpr (by rw [hl]; rfl)⟩
    · exact Or.inl ⟨c, (h.entry c r).mpr (by rw [hl]; rfl)⟩
  · rintro (⟨c, hc⟩ | ⟨i, hi⟩ | ⟨p, c, x, hp, hx⟩)
    · have he := (h.entry c r).mp hc
      by_contra hzero
      rw [Life.entry_none (Nat.eq_zero_of_not_pos hzero)] at he
      cases he
    · obtain ⟨c, hl⟩ := (h.token i r).mp hi
      rw [hl]
      exact Nat.two_pos
    · rw [(h.worker p c r x).mp hp]
      rcases x with _ | f | f
      · exact Nat.two_pos
      · exact Nat.one_pos
      · exact absurd hx id

end Registry
