/-
# Finite maps

What the development needs of Mathlib's `Finmap` at a constant value type:
`lookup` after `insert` and `erase` as one equation each, emptiness by
`lookup`, whether a value is stored under some key as a decidable property,
and the map cut down to one key.
-/
import Mathlib.Data.Finmap

namespace FiniteMap

variable {α β : Type*} [DecidableEq α]

theorem lookup_insert_eq (m : Finmap fun _ : α => β) (a a' : α) (b : β) :
    (m.insert a b).lookup a' = if a' = a then some b else m.lookup a' := by
  by_cases h : a' = a
  · subst h
    rw [Finmap.lookup_insert, if_pos rfl]
  · rw [Finmap.lookup_insert_of_ne _ h, if_neg h]

theorem lookup_erase_eq (m : Finmap fun _ : α => β) (a a' : α) :
    (m.erase a).lookup a' = if a' = a then none else m.lookup a' := by
  by_cases h : a' = a
  · subst h
    rw [Finmap.lookup_erase, if_pos rfl]
  · rw [Finmap.lookup_erase_ne h, if_neg h]

theorem lookup_empty (a : α) : (∅ : Finmap fun _ : α => β).lookup a = none :=
  Finmap.lookup_empty a

theorem eq_empty_iff (m : Finmap fun _ : α => β) : m = ∅ ↔ ∀ a, m.lookup a = none := by
  constructor
  · rintro rfl a
    exact lookup_empty a
  · intro h
    refine Finmap.ext_lookup fun a => ?_
    rw [h, lookup_empty]

/-- The value `b` is stored under some key of `m`. -/
def Stores (m : Finmap fun _ : α => β) (b : β) : Prop := ∃ a ∈ m.keys, m.lookup a = some b

instance [DecidableEq β] (m : Finmap fun _ : α => β) (b : β) : Decidable (Stores m b) :=
  inferInstanceAs (Decidable (∃ a ∈ m.keys, m.lookup a = some b))

theorem stores_iff {m : Finmap fun _ : α => β} {b : β} :
    Stores m b ↔ ∃ a, m.lookup a = some b := by
  constructor
  · rintro ⟨a, -, h⟩
    exact ⟨a, h⟩
  · rintro ⟨a, h⟩
    exact ⟨a, Finmap.mem_keys.mpr (Finmap.mem_of_lookup_eq_some h), h⟩

/-! ### One key of a map -/

/-- The map at the key `a` alone. -/
def only (m : Finmap fun _ : α => β) (a : α) : Finmap fun _ : α => β :=
  match m.lookup a with
  | some b => (∅ : Finmap fun _ : α => β).insert a b
  | none => ∅

theorem lookup_only (m : Finmap fun _ : α => β) (a a' : α) :
    (only m a).lookup a' = if a' = a then m.lookup a else none := by
  unfold only
  rcases m.lookup a with _ | b
  · rw [ite_self]
    exact lookup_empty a'
  · exact lookup_insert_eq ∅ a a' b

theorem lookup_only_self (m : Finmap fun _ : α => β) (a : α) : (only m a).lookup a = m.lookup a := by
  rw [lookup_only, if_pos rfl]

theorem only_congr {m m' : Finmap fun _ : α => β} {a : α} (h : m.lookup a = m'.lookup a) : only m a = only m' a := by
  unfold only
  rw [h]

theorem only_insert (m : Finmap fun _ : α => β) (a : α) (b : β) : only (m.insert a b) a = (only m a).insert a b := by
  refine Finmap.ext_lookup fun a' => ?_
  rw [lookup_only, lookup_insert_eq, lookup_insert_eq, lookup_only, if_pos rfl]
  by_cases ha : a' = a
  · rw [if_pos ha, if_pos ha]
  · rw [if_neg ha, if_neg ha, if_neg ha]

theorem only_erase (m : Finmap fun _ : α => β) (a : α) : only (m.erase a) a = (only m a).erase a := by
  refine Finmap.ext_lookup fun a' => ?_
  rw [lookup_only, lookup_erase_eq, lookup_erase_eq, lookup_only, if_pos rfl]
  by_cases ha : a' = a
  · rw [if_pos ha, if_pos ha]
  · rw [if_neg ha, if_neg ha, if_neg ha]

end FiniteMap
