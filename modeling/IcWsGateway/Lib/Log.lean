/-
# Segments of a log

A reader of an append-only log has read a segment of it: the entries from some
position on, without gaps. A segment stays one when the log grows, and two that
meet are one.

Key definitions: `Log.Segment`.
Key theorems: `Log.Segment.grow`, `Log.Segment.append`, `Log.Segment.getElem?_eq`.
-/
import Mathlib.Data.List.Basic

namespace Log

variable {α : Type*} {log log' ms ms' : List α} {a j : ℕ}

/-- The entries `ms` are those of the log from position `a` on. -/
def Segment (log : List α) (a : ℕ) (ms : List α) : Prop := ms <+: log.drop a

namespace Segment

theorem nil (log : List α) (a : ℕ) : Segment log a [] := List.nil_prefix

/-- What has been read stays where it is. -/
theorem grow (h : Segment log a ms) (hl : log <+: log') : Segment log' a ms := by
  obtain ⟨x, rfl⟩ := hl
  rw [Segment, List.drop_append]
  exact List.IsPrefix.trans h (List.prefix_append _ _)

theorem left (h : Segment log a (ms ++ ms')) : Segment log a ms :=
  (List.prefix_append ms ms').trans h

theorem right (h : Segment log a (ms ++ ms')) : Segment log (a + ms.length) ms' := by
  obtain ⟨x, hx⟩ := h
  refine ⟨x, ?_⟩
  rw [← List.drop_drop, ← hx, List.append_assoc, List.drop_left]

/-- A segment and the one that starts where it ends. -/
theorem append (h : Segment log a ms) (h' : Segment log (a + ms.length) ms') :
    Segment log a (ms ++ ms') := by
  obtain ⟨x, hx⟩ := h
  obtain ⟨y, hy⟩ := h'
  rw [← List.drop_drop, ← hx, List.drop_left] at hy
  exact ⟨y, by rw [← hx, ← hy, List.append_assoc]⟩

/-- An entry of a segment, found in the log. -/
theorem getElem?_eq (h : Segment log a ms) (hj : j < ms.length) : log[a + j]? = ms[j]? := by
  obtain ⟨x, hx⟩ := h
  rw [← List.getElem?_drop, ← hx, List.getElem?_append_left hj]

/-- An entry of a segment is one of the log. -/
theorem mem (h : Segment log a ms) {m : α} (hm : m ∈ ms) : m ∈ log :=
  List.mem_of_mem_drop (h.subset hm)

end Segment

end Log
