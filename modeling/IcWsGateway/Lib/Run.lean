/-
# Runs of a labelled transition system

A system is a partial step function `step : σ → ε → Option σ`: an event that
is not enabled gives `none`. `Run step s h s'` says that the events of the
history `h` lead from `s` to `s'`; the history keeps, for each event, the
state it happened in, oldest first. What happened during a run (what was sent,
who was registered when) is then a function of the history, and no state has
to carry a log of its own.

Key definitions: `LTS.Run`, `LTS.Along`, `LTS.exec`, `LTS.trace`.
Key theorems: `LTS.Run.invariant`, `LTS.Run.split`, `LTS.Run.stable`,
`LTS.Run.part`, `LTS.exec_run`, `LTS.balance`, `LTS.alternate`, `LTS.Run.potential`.
-/
import Mathlib

namespace LTS

variable {σ ε : Type*} {step : σ → ε → Option σ}

/-- `Run step s h s'`: from `s` the events of `h` lead to `s'`, each happening
in the state that `h` records with it. -/
inductive Run (step : σ → ε → Option σ) (s : σ) : List (σ × ε) → σ → Prop
  | nil : Run step s [] s
  | snoc {h : List (σ × ε)} {t t' : σ} {e : ε} :
      Run step s h t → step t e = some t' → Run step s (h ++ [(t, e)]) t'

/-- Every event of the history met `ok` when it happened, given what had
happened before it. -/
def Along (ok : List (σ × ε) → σ → ε → Prop) (h : List (σ × ε)) : Prop :=
  ∀ h₁ s e h₂, h = h₁ ++ (s, e) :: h₂ → ok h₁ s e

theorem along_nil (ok : List (σ × ε) → σ → ε → Prop) : Along ok [] := by
  intro h₁ s e h₂ h
  simp at h

theorem along_snoc {ok : List (σ × ε) → σ → ε → Prop} {h : List (σ × ε)} {s : σ} {e : ε} :
    Along ok (h ++ [(s, e)]) ↔ Along ok h ∧ ok h s e := by
  constructor
  · intro ha
    refine ⟨fun h₁ t e' h₂ he => ha h₁ t e' (h₂ ++ [(s, e)]) (by simp [he]), ha h s e [] rfl⟩
  · rintro ⟨ha, hk⟩ h₁ t e' h₂ he
    rcases List.eq_nil_or_concat h₂ with rfl | ⟨h₂', x, rfl⟩
    · obtain ⟨rfl, hx⟩ := List.append_inj' he (by simp)
      simp only [List.cons.injEq, Prod.mk.injEq, and_true] at hx
      obtain ⟨rfl, rfl⟩ := hx
      exact hk
    · have he' : h ++ [(s, e)] = (h₁ ++ (t, e') :: h₂') ++ [x] := by simpa using he
      obtain ⟨hp, -⟩ := List.append_inj' he' (by simp)
      exact ha h₁ t e' h₂' hp

theorem Along.mono {ok ok' : List (σ × ε) → σ → ε → Prop} {h : List (σ × ε)}
    (ha : Along ok h) (hi : ∀ h s e, ok h s e → ok' h s e) : Along ok' h :=
  fun h₁ s e h₂ he => hi _ _ _ (ha h₁ s e h₂ he)

theorem Along.prefix {ok : List (σ × ε) → σ → ε → Prop} {h₁ h₂ : List (σ × ε)}
    (ha : Along ok (h₁ ++ h₂)) : Along ok h₁ :=
  fun g s e g' he => ha g s e (g' ++ h₂) (by simp [he])

/-- A condition that each event meets, whatever came before it. -/
theorem along_of_all {ok : List (σ × ε) → σ → ε → Prop} {h : List (σ × ε)}
    (hall : ∀ x ∈ h, ∀ g, ok g x.1 x.2) : Along ok h := by
  intro h₁ s e h₂ he
  subst he
  exact hall (s, e) (by simp) h₁

theorem Along.append_all {ok : List (σ × ε) → σ → ε → Prop} {h₁ h₂ : List (σ × ε)} (ha : Along ok h₁)
    (hall : ∀ x ∈ h₂, ∀ g, ok g x.1 x.2) : Along ok (h₁ ++ h₂) := by
  induction h₂ using List.reverseRecOn with
  | nil => simpa using ha
  | append_singleton h₂ x ih =>
    rw [← List.append_assoc]
    refine along_snoc.mpr ⟨ih fun y hy => hall y (List.mem_append_left _ hy), ?_⟩
    exact hall x (by simp) _

/-- A condition that one event of the history has to meet. -/
theorem along_once {ok : List (σ × ε) → σ → ε → Prop} {h₁ h₂ : List (σ × ε)} {s : σ} {e : ε}
    (h0 : ok h₁ s e) (hall : ∀ x ∈ h₁ ++ h₂, ∀ g, ok g x.1 x.2) : Along ok (h₁ ++ (s, e) :: h₂) := by
  have h1 : Along ok h₁ := along_of_all fun x hx => hall x (List.mem_append_left _ hx)
  have h2 : Along ok ((h₁ ++ [(s, e)]) ++ h₂) :=
    (along_snoc.mpr ⟨h1, h0⟩).append_all fun x hx => hall x (List.mem_append_right _ hx)
  rwa [List.append_assoc, List.singleton_append] at h2

/-- What one more event adds to a selection from the history. -/
theorem filterMap_snoc {α : Type*} (f : σ × ε → Option α) (h : List (σ × ε)) (x : σ × ε) :
    (h ++ [x]).filterMap f = h.filterMap f ++ (f x).toList := by
  rw [List.filterMap_append]
  rcases hx : f x with _ | a <;> simp [hx]

namespace Run

/-- **The invariant rule.** What holds at the start and is kept by every event
that meets `ok` holds at the end of every run along `ok`. -/
theorem invariant {s : σ} {ok : List (σ × ε) → σ → ε → Prop} {I : List (σ × ε) → σ → Prop}
    (h0 : I [] s)
    (hs : ∀ h t e t', Run step s h t → Along ok h → I h t → ok h t e → step t e = some t' →
      I (h ++ [(t, e)]) t')
    {h : List (σ × ε)} {t : σ} (hr : Run step s h t) (ha : Along ok h) : I h t := by
  induction hr with
  | nil => exact h0
  | snoc hr he ih =>
    obtain ⟨ha', hk⟩ := along_snoc.mp ha
    exact hs _ _ _ _ hr ha' (ih ha') hk he

/-- The invariant rule for a property of the state alone. -/
theorem state_invariant {s : σ} {I : σ → Prop} (h0 : I s)
    (hs : ∀ t e t', I t → step t e = some t' → I t') {h : List (σ × ε)} {t : σ}
    (hr : Run step s h t) : I t := by
  induction hr with
  | nil => exact h0
  | snoc _ he ih => exact hs _ _ _ ih he

theorem append {s t u : σ} {h₁ h₂ : List (σ × ε)} (h : Run step s h₁ t) (h' : Run step t h₂ u) :
    Run step s (h₁ ++ h₂) u := by
  induction h' with
  | nil => simpa using h
  | snoc _ he ih =>
    rw [← List.append_assoc]
    exact ih.snoc he

/-- The last event of a run. -/
theorem last {s u t : σ} {e : ε} {h : List (σ × ε)} (hr : Run step s (h ++ [(t, e)]) u) :
    Run step s h t ∧ step t e = some u := by
  generalize hg : h ++ [(t, e)] = g at hr
  cases hr with
  | nil => simp at hg
  | snoc hr he =>
    obtain ⟨rfl, hx⟩ := List.append_inj' hg (by simp)
    simp only [List.cons.injEq, Prod.mk.injEq, and_true] at hx
    obtain ⟨rfl, rfl⟩ := hx
    exact ⟨hr, he⟩

/-- A run stops anywhere on its way. -/
theorem split {s u : σ} {h₁ h₂ : List (σ × ε)} (h : Run step s (h₁ ++ h₂) u) :
    ∃ t, Run step s h₁ t ∧ Run step t h₂ u := by
  induction h₂ using List.reverseRecOn generalizing u with
  | nil => exact ⟨u, by simpa using h, .nil⟩
  | append_singleton h₂ x ih =>
    rw [← List.append_assoc] at h
    obtain ⟨hr, he⟩ := h.last
    obtain ⟨t, h1, h2⟩ := ih hr
    exact ⟨t, h1, h2.snoc he⟩

/-- The event after a prefix of the history happened in the state that the
prefix leads to. -/
theorem at_event {s u t : σ} {e : ε} {h₁ h₂ : List (σ × ε)}
    (h : Run step s (h₁ ++ (t, e) :: h₂) u) :
    Run step s h₁ t ∧ ∃ t', step t e = some t' ∧ Run step t' h₂ u := by
  have h' : Run step s ((h₁ ++ [(t, e)]) ++ h₂) u := by simpa using h
  obtain ⟨v, h1, h2⟩ := h'.split
  obtain ⟨h3, h4⟩ := h1.last
  exact ⟨h3, v, h4, h2⟩

/-- What no event undoes still holds later. -/
theorem stable {I : σ → Prop} (hs : ∀ t e t', I t → step t e = some t' → I t') {s t : σ}
    {h : List (σ × ε)} (hr : Run step s h t) (h0 : I s) : I t :=
  state_invariant h0 hs hr

end Run

/-! ### The parts of a system -/

/-- The history of a part of the system: `part` is its state and `ev` its event, if the
event of the system is one. -/
def partHistory {τ δ : Type*} (part : σ → τ) (ev : ε → Option δ) (h : List (σ × ε)) : List (τ × δ) :=
  h.filterMap fun x => (ev x.2).map fun d => (part x.1, d)

/-- **A run of a system is a run of each of its parts**, if every event is one of the part or
leaves the part alone. -/
theorem Run.part {τ δ : Type*} {step' : τ → δ → Option τ} (part : σ → τ) (ev : ε → Option δ)
    (hs : ∀ s e s', step s e = some s' →
      (∃ d, ev e = some d ∧ step' (part s) d = some (part s')) ∨ (ev e = none ∧ part s' = part s))
    {s t : σ} {h : List (σ × ε)} (hr : Run step s h t) :
    Run step' (part s) (partHistory part ev h) (part t) := by
  induction hr with
  | nil => exact .nil
  | @snoc h t t' e hr he ih =>
    unfold partHistory
    rw [filterMap_snoc]
    obtain ⟨d, hd, he'⟩ | ⟨hnone, hsame⟩ := hs t e t' he
    · simp only [hd, Option.map_some, Option.toList_some]
      exact ih.snoc he'
    · simp only [hnone, Option.map_none, Option.toList_none, List.append_nil]
      rw [hsame]
      exact ih

/-! ### Running a list of events -/

/-- The state after a list of events, if each is enabled when its turn comes. -/
def exec (step : σ → ε → Option σ) : σ → List ε → Option σ
  | s, [] => some s
  | s, e :: es => (step s e).bind fun s' => exec step s' es

theorem exec_singleton {s t : σ} {e : ε} (he : step s e = some t) : exec step s [e] = some t := by
  simp only [exec, he, Option.bind_some]

/-- The history of a list of events, up to the first that is not enabled. -/
def trace (step : σ → ε → Option σ) : σ → List ε → List (σ × ε)
  | _, [] => []
  | s, e :: es =>
    match step s e with
    | some s' => (s, e) :: trace step s' es
    | none => []

theorem run_cons {s t u : σ} {e : ε} {h : List (σ × ε)} (he : step s e = some t)
    (h' : Run step t h u) : Run step s ((s, e) :: h) u := by
  simpa using (Run.nil.snoc he).append h'

/-- Executing a list of events is a run. -/
theorem exec_run : ∀ {es : List ε} {s t : σ}, exec step s es = some t →
    Run step s (trace step s es) t
  | [], s, t, h => by
    simp only [exec, Option.some.injEq] at h
    subst h
    exact .nil
  | e :: es, s, t, h => by
    simp only [exec, Option.bind_eq_some_iff] at h
    obtain ⟨s', he, h⟩ := h
    simp only [trace, he]
    exact run_cons he (exec_run h)

/-- The events of a list, up to the first that is not enabled, are a run. -/
theorem trace_run (step : σ → ε → Option σ) : ∀ (es : List ε) (s : σ), ∃ t, Run step s (trace step s es) t
  | [], s => ⟨s, .nil⟩
  | e :: es, s => by
    unfold trace
    split
    · rename_i s' he
      obtain ⟨t, hr⟩ := trace_run step es s'
      exact ⟨t, run_cons he hr⟩
    · exact ⟨s, .nil⟩

theorem mem_trace : ∀ {es : List ε} {s : σ} {x : σ × ε}, x ∈ trace step s es → x.2 ∈ es
  | [], _, _, h => by simp [trace] at h
  | e :: es, s, x, h => by
    unfold trace at h
    split at h
    · rcases List.mem_cons.mp h with rfl | h
      · exact List.mem_cons_self
      · exact List.mem_cons_of_mem _ (mem_trace h)
    · simp at h

theorem exec_append (step : σ → ε → Option σ) : ∀ (es es' : List ε) (s : σ),
    exec step s (es ++ es') = (exec step s es).bind fun t => exec step t es'
  | [], _, _ => rfl
  | e :: es, es', s => by
    simp only [List.cons_append, exec, Option.bind_assoc]
    congr 1
    funext t
    exact exec_append step es es' t

/-- The history of two lists of events, one after the other. -/
theorem trace_append {s t : σ} : ∀ {es : List ε} (es' : List ε), exec step s es = some t →
    trace step s (es ++ es') = trace step s es ++ trace step t es'
  | [], es', h => by
    simp only [exec, Option.some.injEq] at h
    subst h
    rfl
  | e :: es, es', h => by
    simp only [exec, Option.bind_eq_some_iff] at h
    obtain ⟨s', he, h⟩ := h
    simp only [List.cons_append, trace, he]
    rw [trace_append es' h]

/-! ### Views of a system -/

/-- **A run, seen through a view of its states.** The view may depend on what has happened. Where each event
is seen as an event of another system, the run is seen as a run of it. `I` is what the view needs of a state,
and holds of a state if it holds of the next. -/
theorem Run.seen {τ δ : Type*} {step' : τ → δ → Option τ} (view : List (σ × ε) → σ → τ) (ev : σ × ε → δ)
    {I : σ → Prop} {s : σ}
    (hI : ∀ h t e t', Run step s h t → step t e = some t' → I t' →
      I t ∧ step' (view h t) (ev (t, e)) = some (view (h ++ [(t, e)]) t'))
    {h : List (σ × ε)} {t : σ} (hr : Run step s h t) (ht : I t) :
    exec step' (view [] s) (h.map ev) = some (view h t) := by
  induction hr with
  | nil => rfl
  | @snoc h t t' e hr he ih =>
    obtain ⟨ht', hstep⟩ := hI h t e t' hr he ht
    rw [List.map_append, exec_append, ih ht', Option.bind_some]
    exact exec_singleton hstep

/-! ### Events that take turns -/

section Turns

open Classical in
/-- **The balance of two kinds of events.** If `A`-events take a resource that
is free, `R`-events free it when it is held, and no other event touches it,
the two kinds are balanced up to who holds it at the ends of the run. -/
theorem balance {held I : σ → Prop} {A R : σ × ε → Bool}
    (hI : ∀ s e s', I s → step s e = some s' → I s')
    (hA : ∀ s e s', I s → step s e = some s' → A (s, e) → ¬ held s ∧ held s' ∧ ¬ R (s, e))
    (hR : ∀ s e s', I s → step s e = some s' → R (s, e) → held s ∧ ¬ held s')
    (hO : ∀ s e s', I s → step s e = some s' → ¬ A (s, e) → ¬ R (s, e) → (held s' ↔ held s))
    {s t : σ} {h : List (σ × ε)} (hr : Run step s h t) (hs : I s) :
    h.countP A + (if held s then 1 else 0) = h.countP R + (if held t then 1 else 0) := by
  induction hr with
  | nil => simp
  | @snoc h t t' e hr he ih =>
    have ht : I t := hr.stable hI hs
    rw [List.countP_append, List.countP_append, List.countP_singleton, List.countP_singleton]
    by_cases hAe : A (t, e)
    · obtain ⟨h1, h2, h3⟩ := hA t e t' ht he hAe
      simp only [h1, if_false] at ih
      simp only [hAe, h2, h3, if_true]
      simp only [Bool.false_eq_true, if_false]
      omega
    · by_cases hRe : R (t, e)
      · obtain ⟨h1, h2⟩ := hR t e t' ht he hRe
        simp only [h1, if_true] at ih
        simp only [hAe, hRe, h2, if_true, if_false, Bool.false_eq_true]
        omega
      · have h1 := hO t e t' ht he hAe hRe
        simp only [hAe, hRe, h1, Bool.false_eq_true, if_false]
        omega

/-- **Taking turns.** Under the same conditions, between two consecutive
`A`-events of a run there is exactly one `R`-event. -/
theorem alternate {held I : σ → Prop} {A R : σ × ε → Bool}
    (hI : ∀ s e s', I s → step s e = some s' → I s')
    (hA : ∀ s e s', I s → step s e = some s' → A (s, e) → ¬ held s ∧ held s' ∧ ¬ R (s, e))
    (hR : ∀ s e s', I s → step s e = some s' → R (s, e) → held s ∧ ¬ held s')
    (hO : ∀ s e s', I s → step s e = some s' → ¬ A (s, e) → ¬ R (s, e) → (held s' ↔ held s))
    {s u : σ} {x y : σ × ε} {h₁ h₂ h₃ : List (σ × ε)} (hs : I s)
    (hr : Run step s (h₁ ++ x :: h₂ ++ y :: h₃) u) (hx : A x) (hy : A y)
    (hn : ∀ z ∈ h₂, ¬ A z) : h₂.countP R = 1 := by
  obtain ⟨sx, ex⟩ := x
  obtain ⟨sy, ey⟩ := y
  obtain ⟨hr1, t', hy', -⟩ := hr.at_event
  obtain ⟨hr2, s', hx', hr3⟩ := hr1.at_event
  have hsx : I sx := hr2.stable hI hs
  have hs' : I s' := hI _ _ _ hsx hx'
  have hsy : I sy := hr3.stable hI hs'
  have hb := balance hI hA hR hO hr3 hs'
  have h1 : held s' := (hA _ _ _ hsx hx' hx).2.1
  have h2 : ¬ held sy := (hA _ _ _ hsy hy' hy).1
  have h3 : h₂.countP A = 0 := by simpa [List.countP_eq_zero] using hn
  simp only [h1, h2, h3, if_true, if_false] at hb
  omega

end Turns

/-! ### Potentials -/

/-- **The potential rule.** Where each event costs at most what it takes from the potential,
up to what it gains, a run costs at most its potential at the start and what it has gained. -/
theorem Run.potential {ok : σ × ε → Prop} {I : σ → Prop} {Φ : σ → ℕ} {cost gain : σ × ε → ℕ}
    (hI : ∀ s e s', I s → ok (s, e) → step s e = some s' →
      I s' ∧ Φ s' + cost (s, e) ≤ Φ s + gain (s, e))
    {s t : σ} {h : List (σ × ε)} (hr : Run step s h t) (hs : I s) (hok : ∀ x ∈ h, ok x) :
    I t ∧ Φ t + (h.map cost).sum ≤ Φ s + (h.map gain).sum := by
  induction hr with
  | nil => exact ⟨hs, Nat.le_refl _⟩
  | @snoc h t t' e hr he ih =>
    obtain ⟨ht, hle⟩ := ih fun x hx => hok x (List.mem_append_left _ hx)
    obtain ⟨ht', hstep⟩ := hI t e t' ht (hok (t, e) (by simp)) he
    refine ⟨ht', ?_⟩
    simp only [List.map_append, List.map_cons, List.map_nil, List.sum_append, List.sum_cons, List.sum_nil,
      Nat.add_zero]
    omega

/-- The cost of a kind of events is their number. -/
theorem sum_map_count (P : σ × ε → Bool) (h : List (σ × ε)) :
    (h.map fun x => if P x then 1 else 0).sum = h.countP P := by
  induction h with
  | nil => rfl
  | cons x h ih =>
    rw [List.map_cons, List.sum_cons, List.countP_cons, ih, Nat.add_comm]

/-- A cost that only a selection of the events has. -/
theorem sum_filterMap {α β : Type*} (f : α → Option β) (g : β → ℕ) (h : List α) :
    (h.map fun x => ((f x).map g).getD 0).sum = ((h.filterMap f).map g).sum := by
  induction h with
  | nil => rfl
  | cons x h ih =>
    rw [List.map_cons, List.sum_cons, List.filterMap_cons, ih]
    rcases f x with _ | b
    · exact Nat.zero_add _
    · rfl

/-- The cost of the events of some parties is the sum of what those of each party cost. -/
theorem sum_fibers {α ι : Type*} [DecidableEq ι] (f : α → Option ι) (g : α → ℕ) (I : Finset ι) :
    ∀ {h : List α}, (∀ x ∈ h, ∀ i, f x = some i → i ∈ I) →
      (h.map fun x => if (f x).isSome then g x else 0).sum = ∑ i ∈ I, (h.map fun x => if f x = some i then g x else 0).sum
  | [], _ => by
    simp only [List.map_nil, List.sum_nil, Finset.sum_const_zero]
  | x :: h, hI => by
    have ih := sum_fibers f g I fun y hy => hI y (List.mem_cons_of_mem x hy)
    simp only [List.map_cons, List.sum_cons, Finset.sum_add_distrib, ih]
    congr 1
    rcases hx : f x with _ | i
    · simp
    · have hi : i ∈ I := hI x List.mem_cons_self i hx
      simp [hi]

/-- The potential rule where nothing is gained: the potential bounds the number of events of a
kind that use it up. -/
theorem Run.count_le {ok : σ × ε → Prop} {I : σ → Prop} {Φ : σ → ℕ} {P : σ × ε → Bool}
    (hI : ∀ s e s', I s → ok (s, e) → step s e = some s' →
      I s' ∧ Φ s' + (if P (s, e) then 1 else 0) ≤ Φ s)
    {s t : σ} {h : List (σ × ε)} (hr : Run step s h t) (hs : I s) (hok : ∀ x ∈ h, ok x) :
    h.countP P ≤ Φ s := by
  have hp := (@Run.potential σ ε step ok I Φ (fun x => if P x then 1 else 0) (fun _ => 0) hI s t h hr hs
    hok).2
  rw [sum_map_count] at hp
  have hgain : (h.map fun _ => 0).sum = 0 := by simp
  omega

open Classical in
/-- What happens only where `A` holds, and ends that for good, happens at most once. -/
theorem Run.count_le_one {ok : σ × ε → Prop} {I A : σ → Prop} {P : σ × ε → Bool}
    (hI : ∀ s e s', I s → ok (s, e) → step s e = some s' →
      I s' ∧ (P (s, e) = true → A s ∧ ¬ A s') ∧ (A s' → A s))
    {s t : σ} {h : List (σ × ε)} (hr : Run step s h t) (hs : I s) (hok : ∀ x ∈ h, ok x) :
    h.countP P ≤ if A s then 1 else 0 := by
  refine @Run.count_le σ ε step ok I (fun s => if A s then 1 else 0) P ?_ s t h hr hs hok
  intro s e s' hs hok he
  obtain ⟨hs', hP, hA⟩ := hI s e s' hs hok he
  refine ⟨hs', ?_⟩
  by_cases hPe : P (s, e) = true
  · obtain ⟨h1, h2⟩ := hP hPe
    simp only [if_pos hPe, if_pos h1, if_neg h2, Nat.zero_add, Nat.le_refl]
  · rw [if_neg hPe]
    by_cases hA' : A s'
    · simp only [if_pos hA', if_pos (hA hA'), Nat.add_zero, Nat.le_refl]
    · rw [if_neg hA']
      omega

end LTS
