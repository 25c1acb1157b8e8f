/-
# A registry of shared rosters, one worker per entry

A protocol pattern. A registry maps a resource to a roster, a map from keys to
members that is shared by reference. The member that finds no entry for its
resource creates one and gets a token, with which it starts the worker of the
roster; later members of that resource join the roster they find. A worker
retires its entry when the roster is empty or when it fails, and then lets go
of the roster. A roster is counted: when nobody holds it any more, its members
are cut off. A worker may pin a key of its roster, and then nobody changes
that key.

Nothing ties a roster to the resource of its worker, the token to its holder or
the count to the holders but the order of these operations. What they
establish is that each roster has a life (`Life`) of which the entries, tokens,
workers and counts are the traces (`Own`), and that a member is found in the
roster it joined and nowhere else (`Roster`), whatever keys the members use.
`Seated` is what holds in addition when no two members that are in at the same
time have the same resource and key.

Key definitions: `Registry.Step`, `Registry.Life`, `Registry.Own`,
`Registry.Roster`, `Registry.Seated`.
Key theorems: `Registry.Step.sound`, `Registry.Step.found`,
`Registry.State.Dropped.step`.
-/
import Mathlib.Logic.Function.Basic
import Mathlib.Tactic.Common
import Mathlib.Order.Basic

namespace Registry

/-- Where a member stands. -/
inductive Seat (κ α : Type)
  | outside
  | member (c : κ) (k : α)
  | gone
deriving DecidableEq

/-- How a worker came to its end. -/
inductive Finish
  | empty
  | failed
  | crashed

/-- Where a worker is: serving its roster, done with its entry, or done with its
roster as well. -/
inductive Stage
  | active
  | retired (f : Finish)
  | ended (f : Finish)

/-- A registry. Rosters and workers are named by numbers; `next` and `nextWorker`
are the first that are not in use. -/
@[ext] structure State (κ α ι : Type) where
  entry : κ → Option ℕ
  members : ℕ → α → Option ι
  strong : ℕ → ℕ
  next : ℕ
  seat : ι → Seat κ α
  token : ι → Option ℕ
  worker : ℕ → Option (κ × ℕ × Stage)
  pin : ℕ → Option (α × ι)
  nextWorker : ℕ

set_option linter.unusedSectionVars false

variable {κ α ι : Type}

namespace State

def init : State κ α ι where
  entry _ := none
  members _ _ := none
  strong _ := 0
  next := 0
  seat _ := .outside
  token _ := none
  worker _ := none
  pin _ := none
  nextWorker := 0

/-- Some worker of the roster `r` pins the key `k`. -/
def Blocked (s : State κ α ι) (r : ℕ) (k : α) : Prop :=
  ∃ p c i x, s.worker p = some (c, r, x) ∧ s.pin p = some (k, i)

/-- No roster that is still held has `i` as a member. -/
def Dropped (s : State κ α ι) (i : ι) : Prop :=
  ∀ r k, s.members r k = some i → s.strong r = 0

variable [DecidableEq κ] [DecidableEq α] [DecidableEq ι]

def setSeat (s : State κ α ι) (i : ι) (x : Seat κ α) : State κ α ι :=
  { s with seat := Function.update s.seat i x }

def setMember (s : State κ α ι) (r : ℕ) (k : α) (x : Option ι) : State κ α ι :=
  { s with members := Function.update s.members r (Function.update (s.members r) k x) }

def setWorker (s : State κ α ι) (p : ℕ) (w : κ × ℕ × Stage) : State κ α ι :=
  { s with worker := Function.update s.worker p (some w) }

def setPin (s : State κ α ι) (p : ℕ) (x : Option (α × ι)) : State κ α ι :=
  { s with pin := Function.update s.pin p x }

/-- One holder of `r` less. -/
def drop (s : State κ α ι) (r : ℕ) : State κ α ι :=
  { s with strong := Function.update s.strong r (s.strong r - 1) }

/-- `i` no longer holds a token. -/
def dropToken (s : State κ α ι) (i : ι) : State κ α ι :=
  match s.token i with
  | some r => { s.drop r with token := Function.update s.token i none }
  | none => s

/-- The key `k` is removed from the roster of `c`. -/
def strike (s : State κ α ι) (c : κ) (k : α) : State κ α ι :=
  match s.entry c with
  | some r => s.setMember r k none
  | none => s

section Fields

variable (s : State κ α ι) (i : ι) (c : κ) (k : α) (r r' : ℕ)

theorem drop_strong_le : (s.drop r').strong r ≤ s.strong r := by
  simp only [drop, Function.update_apply]
  split_ifs with hr
  · rw [hr]
    exact Nat.sub_le ..
  · exact Nat.le_refl _

theorem dropToken_strong_le : (s.dropToken i).strong r ≤ s.strong r := by
  unfold dropToken
  split
  · exact s.drop_strong_le ..
  · exact Nat.le_refl _

@[simp] theorem dropToken_members : (s.dropToken i).members = s.members := by
  unfold dropToken; split <;> rfl

@[simp] theorem dropToken_seat : (s.dropToken i).seat = s.seat := by
  unfold dropToken; split <;> rfl

@[simp] theorem dropToken_pin : (s.dropToken i).pin = s.pin := by
  unfold dropToken; split <;> rfl

theorem dropToken_worker : (s.dropToken i).worker = s.worker := by
  unfold dropToken; split <;> rfl

theorem strike_members (k' : α) : (s.strike c k).members r k' =
    if s.entry c = some r ∧ k' = k then none else s.members r k' := by
  unfold strike
  rcases he : s.entry c with _ | r'
  · simp
  · simp only [setMember, Option.some.injEq, Function.update_apply]
    split_ifs <;> grind [Function.update_apply]

@[simp] theorem strike_strong : (s.strike c k).strong = s.strong := by
  unfold strike; split <;> rfl

@[simp] theorem strike_seat : (s.strike c k).seat = s.seat := by
  unfold strike; split <;> rfl

@[simp] theorem strike_pin : (s.strike c k).pin = s.pin := by
  unfold strike; split <;> rfl

theorem strike_worker : (s.strike c k).worker = s.worker := by
  unfold strike; split <;> rfl

end Fields

/-- A new roster for `c`, with one member, who gets the token. -/
def create (s : State κ α ι) (i : ι) (c : κ) (k : α) : State κ α ι :=
  { s with
    entry := Function.update s.entry c (some s.next)
    members := Function.update s.members s.next (Function.update (fun _ => none) k (some i))
    strong := Function.update s.strong s.next 2
    next := s.next + 1
    seat := Function.update s.seat i (.member c k)
    token := Function.update s.token i (some s.next) }

/-- The holder `i` of the token of `r` starts its worker. -/
def launch (s : State κ α ι) (i : ι) (c : κ) (r : ℕ) : State κ α ι :=
  { s with
    worker := Function.update s.worker s.nextWorker (some (c, r, .active))
    nextWorker := s.nextWorker + 1
    token := Function.update s.token i none }

/-- The worker `p` of `c` removes its entry, which refers to `r'`. -/
def retire (s : State κ α ι) (p : ℕ) (c : κ) (r r' : ℕ) (f : Finish) : State κ α ι :=
  { (s.drop r').setWorker p (c, r, .retired f) with entry := Function.update s.entry c none }

end State

inductive Action (κ α ι : Type)
  | join (i : ι) (c : κ) (k : α)
  | leave (i : ι)
  | quit (i : ι)
  | withdraw (i : ι)
  | launch (i : ι)
  | pin (p : ℕ) (k : α) (i : ι)
  | unpin (p : ℕ)
  | retire (p : ℕ) (f : Finish)
  | crash (p : ℕ)
  | release (p : ℕ)

section Steps

variable [DecidableEq κ] [DecidableEq α] [DecidableEq ι]

/-- The operations on a registry. -/
inductive Step : Action κ α ι → State κ α ι → State κ α ι → Prop
  /-- `i` joins the roster of `c`. -/
  | join {s i c k r} (seat : s.seat i = .outside) (entry : s.entry c = some r)
      (free : ¬ s.Blocked r k) :
      Step (.join i c k) s ((s.setMember r k (some i)).setSeat i (.member c k))
  /-- `i` finds no entry for `c` and makes one. -/
  | create {s i c k} (seat : s.seat i = .outside) (entry : s.entry c = none) :
      Step (.join i c k) s (s.create i c k)
  /-- `i` removes its key from the roster it finds, and drops its token if it has one. -/
  | leave {s i c k} (seat : s.seat i = .member c k) (free : ∀ r, s.entry c = some r → ¬ s.Blocked r k) :
      Step (.leave i) s (((s.strike c k).dropToken i).setSeat i .gone)
  /-- `i` has been cut off and goes without touching a roster. -/
  | quit {s i c k} (seat : s.seat i = .member c k) (token : s.token i = none) (dropped : s.Dropped i) :
      Step (.quit i) s (s.setSeat i .gone)
  /-- `i` goes before it has joined. -/
  | withdraw {s i} (seat : s.seat i = .outside) : Step (.withdraw i) s (s.setSeat i .gone)
  | launch {s i c k r} (seat : s.seat i = .member c k) (token : s.token i = some r) :
      Step (.launch i) s (s.launch i c r)
  | pin {s p c r k i} (worker : s.worker p = some (c, r, .active)) (found : s.members r k = some i) :
      Step (.pin p k i) s (s.setPin p (some (k, i)))
  | unpin {s p} : Step (.unpin p) s (s.setPin p none)
  /-- The worker retires: as empty, if the roster it finds at its entry is empty. -/
  | retire {s p c r r' f} (worker : s.worker p = some (c, r, .active)) (unpinned : s.pin p = none)
      (entry : s.entry c = some r') (sound : f ≠ .crashed)
      (empty : f = .empty → ∀ k, s.members r' k = none) : Step (.retire p f) s (s.retire p c r r' f)
  /-- The worker ends without removing the entry. -/
  | crash {s p c r} (worker : s.worker p = some (c, r, .active)) (unpinned : s.pin p = none) :
      Step (.crash p) s ((s.drop r).setWorker p (c, r, .ended .crashed))
  | release {s p c r f} (worker : s.worker p = some (c, r, .retired f)) :
      Step (.release p) s ((s.drop r).setWorker p (c, r, .ended f))

end Steps

/-! ### The life of a roster -/

/-- What has become of a roster: not made yet, made and waiting for its worker to
be started by `i`, with the worker `p`, or left without one. -/
inductive Life (κ ι : Type)
  | unborn
  | offered (c : κ) (i : ι)
  | worked (c : κ) (p : ℕ) (x : Stage)
  | orphan (c : κ)

/-- The resource of a roster. -/
def Life.home : Life κ ι → Option κ
  | .unborn => none
  | .offered c _ | .worked c _ _ | .orphan c => some c

/-- The resource whose entry refers to the roster. -/
def Life.entry : Life κ ι → Option κ
  | .unborn => none
  | .offered c _ | .orphan c | .worked c _ .active | .worked c _ (.ended .crashed) => some c
  | .worked _ _ _ => none

/-- The number of holders. -/
def Life.holders : Life κ ι → ℕ
  | .offered _ _ | .worked _ _ .active => 2
  | .orphan _ | .worked _ _ (.retired _) | .worked _ _ (.ended .crashed) => 1
  | .unborn | .worked _ _ (.ended _) => 0

/-- Entries, tokens, workers and counts are those of the rosters' lives. -/
structure Own (s : State κ α ι) (life : ℕ → Life κ ι) : Prop where
  entry : ∀ c r, s.entry c = some r ↔ (life r).entry = some c
  token : ∀ i r, s.token i = some r ↔ ∃ c, life r = .offered c i
  worker : ∀ p c r x, s.worker p = some (c, r, x) ↔ life r = .worked c p x
  strong : ∀ r, s.strong r = (life r).holders
  unborn : ∀ r, life r = .unborn ↔ s.next ≤ r
  worker_lt : ∀ p w, s.worker p = some w → p < s.nextWorker
  offered : ∀ r c i, life r = .offered c i → ∃ k, s.seat i = .member c k
  crashed : ∀ r c p, life r ≠ .worked c p (.retired .crashed)

namespace Own

theorem init : Own (State.init : State κ α ι) fun _ => .unborn := by
  constructor <;> simp [State.init, Life.entry, Life.holders]

variable {s : State κ α ι} {life : ℕ → Life κ ι}

/-- An operation that gives the roster `r₀` the life `x` and leaves the entries,
tokens, workers and counts of the others alone. -/
theorem relife {s' : State κ α ι} {r₀ : ℕ} {x : Life κ ι} (h : Own s life)
    (entry : ∀ c r, s'.entry c = some r ↔ if r = r₀ then x.entry = some c else s.entry c = some r)
    (token : ∀ i r, s'.token i = some r ↔ if r = r₀ then ∃ c, x = .offered c i else s.token i = some r)
    (worker : ∀ p c r y, s'.worker p = some (c, r, y) ↔
      if r = r₀ then x = .worked c p y else s.worker p = some (c, r, y))
    (strong : ∀ r, s'.strong r = if r = r₀ then x.holders else s.strong r)
    (unborn : ∀ r, (if r = r₀ then x = .unborn else s.next ≤ r) ↔ s'.next ≤ r)
    (worker_lt : ∀ p w, s'.worker p = some w → p < s'.nextWorker)
    (offered : ∀ r c i, (if r = r₀ then x = .offered c i else life r = .offered c i) →
      ∃ k, s'.seat i = .member c k)
    (crashed : ∀ c p, x ≠ .worked c p (.retired .crashed)) :
    Own s' (Function.update life r₀ x) := by
  refine ⟨fun c r => ?_, fun i r => ?_, fun p c r y => ?_, fun r => ?_, fun r => ?_, worker_lt,
    fun r c i hl => ?_, fun r c p => ?_⟩
  · rw [entry, Function.update_apply, h.entry]
    split_ifs <;> rfl
  · rw [token, Function.update_apply, h.token]
    split_ifs <;> rfl
  · rw [worker, Function.update_apply, h.worker]
    split_ifs <;> rfl
  · rw [strong, Function.update_apply, h.strong]
    split_ifs <;> rfl
  · rw [← unborn, Function.update_apply, ← h.unborn]
    split_ifs <;> rfl
  · rw [Function.update_apply] at hl
    apply offered r c i
    split_ifs at hl ⊢ <;> exact hl
  · rw [Function.update_apply]
    split_ifs
    · exact crashed c p
    · exact h.crashed r c p

/-- Nobody has a token before it has joined. -/
theorem token_none (h : Own s life) {i : ι} (hs : s.seat i = .outside) : s.token i = none := by
  rcases ht : s.token i with _ | r
  · rfl
  · obtain ⟨c, hl⟩ := (h.token i r).mp ht
    obtain ⟨k, hk⟩ := h.offered r c i hl
    rw [hs] at hk
    cases hk

section Steps

variable [DecidableEq ι]

/-- An operation that changes only rosters and the seat of one that holds no token. -/
theorem seat {s' : State κ α ι} {i : ι} {x : Seat κ α} (h : Own s life) (ht : s.token i = none)
    (he : s'.entry = s.entry) (htok : s'.token = s.token) (hw : s'.worker = s.worker)
    (hs : s'.strong = s.strong) (hn : s'.next = s.next) (hnw : s'.nextWorker = s.nextWorker)
    (hseat : s'.seat = Function.update s.seat i x) : Own s' life := by
  refine ⟨by rw [he]; exact h.entry, by rw [htok]; exact h.token, by rw [hw]; exact h.worker,
    by rw [hs]; exact h.strong, by rw [hn]; exact h.unborn, by rw [hw, hnw]; exact h.worker_lt,
    fun r c j hl => ?_, h.crashed⟩
  have hj : j ≠ i := by
    rintro rfl
    rw [(h.token j r).mpr ⟨c, hl⟩] at ht
    cases ht
  rw [hseat, Function.update_of_ne hj]
  exact h.offered r c j hl

variable [DecidableEq κ] [DecidableEq α]

theorem create (h : Own s life) {i : ι} {c : κ} {k : α} (hs : s.seat i = .outside)
    (he : s.entry c = none) :
    Own (s.create i c k) (Function.update life s.next (.offered c i)) := by
  have hu : life s.next = .unborn := (h.unborn _).mpr (Nat.le_refl _)
  have hne : ∀ c', s.entry c' ≠ some s.next := fun c' hc => by
    rw [h.entry, hu] at hc
    cases hc
  have hnn : ∀ j, s.token j ≠ some s.next := fun j ht => by
    obtain ⟨c', hl⟩ := (h.token j _).mp ht
    rw [hu] at hl
    cases hl
  have hnt : ∀ r, s.token i ≠ some r := fun r ht => by
    obtain ⟨c', hl⟩ := (h.token i r).mp ht
    obtain ⟨k', hk⟩ := h.offered r c' i hl
    rw [hs] at hk
    cases hk
  refine h.relife (fun c' r => ?_) (fun j r => ?_) (fun p c' r y => ?_) (fun r => ?_) (fun r => ?_)
    h.worker_lt (fun r c' j hl => ?_) (fun _ _ => by simp)
  · simp only [State.create, Function.update_apply, Life.entry]
    split_ifs <;> grind
  · simp only [State.create, Function.update_apply, Life.offered.injEq]
    by_cases hr : r = s.next
    · rw [hr, if_pos rfl]
      by_cases hj : j = i
      · simp [hj]
      · simp [hj, hnn j, Ne.symm hj]
    · rw [if_neg hr]
      by_cases hj : j = i
      · simp [hj, hnt r, Ne.symm hr]
      · simp [hj]
  · simp only [State.create]
    split_ifs <;> grind [h.worker]
  · simp only [State.create, Function.update_apply, Life.holders]
  · simp only [State.create]
    by_cases hr : r = s.next
    · simp [hr]
    · rw [if_neg hr]
      omega
  · simp only [State.create, Function.update_apply]
    split_ifs at hl with hr
    · cases hl
      exact ⟨k, by simp⟩
    · obtain ⟨k', hk⟩ := h.offered r c' j hl
      have hj : j ≠ i := by
        rintro rfl
        rw [hs] at hk
        cases hk
      exact ⟨k', by rw [if_neg hj]; exact hk⟩

theorem dropToken (h : Own s life) {i : ι} {c : κ} {r : ℕ} (hl : life r = .offered c i) :
    Own (s.dropToken i) (Function.update life r (.orphan c)) := by
  have ht : s.token i = some r := (h.token i r).mpr ⟨c, hl⟩
  have he : s.entry c = some r := (h.entry c r).mpr (by rw [hl]; rfl)
  have hs : s.strong r = 2 := by rw [h.strong, hl]; rfl
  simp only [State.dropToken, ht]
  refine h.relife (fun c' r' => ?_) (fun j r' => ?_) (fun p c' r' y => ?_) (fun r' => ?_) (fun r' => ?_)
    h.worker_lt (fun r' c' j hl' => ?_) (fun _ _ => by simp)
  · simp only [State.drop, Life.entry]
    split_ifs <;> grind [h.entry]
  · simp only [Function.update_apply]
    split_ifs <;> grind [h.token]
  · simp only [State.drop]
    split_ifs <;> grind [h.worker]
  · simp only [State.drop, Function.update_apply, Life.holders]
    split_ifs <;> grind
  · simp only [State.drop]
    split_ifs <;> grind [h.unborn]
  · split_ifs at hl' with hr
    exact h.offered r' c' j hl'

theorem launch (h : Own s life) {i : ι} {c : κ} {k : α} {r : ℕ} (hs : s.seat i = .member c k)
    (ht : s.token i = some r) :
    Own (s.launch i c r) (Function.update life r (.worked c s.nextWorker .active)) := by
  obtain ⟨c', hl⟩ := (h.token i r).mp ht
  obtain ⟨k', hk⟩ := h.offered r c' i hl
  obtain ⟨rfl, rfl⟩ : c = c' ∧ k = k' := by rw [hs] at hk; cases hk; exact ⟨rfl, rfl⟩
  have he : s.entry c = some r := (h.entry c r).mpr (by rw [hl]; rfl)
  have hst : s.strong r = 2 := by rw [h.strong, hl]; rfl
  have hw : ∀ w, s.worker s.nextWorker ≠ some w := fun w hw => Nat.lt_irrefl _ (h.worker_lt _ w hw)
  refine h.relife (fun c' r' => ?_) (fun j r' => ?_) (fun p c' r' y => ?_) (fun r' => ?_) (fun r' => ?_)
    (fun p w hp => ?_) (fun r' c' j hl' => ?_) (fun _ _ => by simp)
  · simp only [State.launch, Life.entry]
    split_ifs <;> grind [h.entry]
  · simp only [State.launch, Function.update_apply]
    split_ifs <;> grind [h.token]
  · simp only [State.launch, Function.update_apply]
    split_ifs <;> grind [h.worker]
  · simp only [State.launch, Life.holders]
    split_ifs <;> grind
  · simp only [State.launch]
    split_ifs <;> grind [h.unborn]
  · simp only [State.launch, Function.update_apply] at hp ⊢
    split_ifs at hp with hp'
    · omega
    · exact Nat.lt_succ_of_lt (h.worker_lt p w hp)
  · split_ifs at hl' with hr
    exact h.offered r' c' j hl'

theorem retire (h : Own s life) {p : ℕ} {c : κ} {r : ℕ} {f : Finish}
    (hw : s.worker p = some (c, r, .active)) (hf : f ≠ .crashed) :
    Own (s.retire p c r r f) (Function.update life r (.worked c p (.retired f))) := by
  have hl : life r = .worked c p .active := (h.worker p c r _).mp hw
  have he : s.entry c = some r := (h.entry c r).mpr (by rw [hl]; rfl)
  have hst : s.strong r = 2 := by rw [h.strong, hl]; rfl
  refine h.relife (fun c' r' => ?_) (fun j r' => ?_) (fun p' c' r' y => ?_) (fun r' => ?_) (fun r' => ?_)
    (fun p' w hp => ?_) (fun r' c' j hl' => ?_) (fun _ _ => by grind)
  · simp only [State.retire, State.setWorker, State.drop, Function.update_apply, Life.entry]
    split_ifs <;> grind [h.entry]
  · simp only [State.retire, State.setWorker, State.drop]
    split_ifs <;> grind [h.token]
  · simp only [State.retire, State.setWorker, State.drop, Function.update_apply]
    split_ifs <;> grind [h.worker]
  · simp only [State.retire, State.setWorker, State.drop, Function.update_apply, Life.holders]
    split_ifs <;> grind
  · simp only [State.retire, State.setWorker, State.drop]
    split_ifs <;> grind [h.unborn]
  · simp only [State.retire, State.setWorker, State.drop, Function.update_apply] at hp ⊢
    split_ifs at hp with hp'
    · exact hp' ▸ h.worker_lt p _ hw
    · exact h.worker_lt p' w hp
  · split_ifs at hl' with hr
    exact h.offered r' c' j hl'

/-- A worker that is done lets go of its roster. -/
theorem letGo (h : Own s life) {p : ℕ} {c : κ} {r : ℕ} {x : Stage} {f : Finish}
    (hw : s.worker p = some (c, r, x)) (hx : x = .active ∧ f = .crashed ∨ x = .retired f) :
    Own ((s.drop r).setWorker p (c, r, .ended f)) (Function.update life r (.worked c p (.ended f))) := by
  have hl : life r = .worked c p x := (h.worker p c r _).mp hw
  have hf : x = .retired f → f ≠ .crashed := by
    rintro rfl rfl
    exact h.crashed r c p hl
  have hst : s.strong r = (Life.worked c p x : Life κ ι).holders := by rw [h.strong, hl]
  refine h.relife (fun c' r' => ?_) (fun j r' => ?_) (fun p' c' r' y => ?_) (fun r' => ?_) (fun r' => ?_)
    (fun p' w hp => ?_) (fun r' c' j hl' => ?_) (fun _ _ => by simp)
  · have := h.entry c' r'
    simp only [State.setWorker, State.drop, Life.entry]
    split_ifs <;> cases f <;> grind [Life.entry]
  · simp only [State.setWorker, State.drop]
    split_ifs <;> grind [h.token]
  · simp only [State.setWorker, State.drop, Function.update_apply]
    split_ifs <;> grind [h.worker]
  · simp only [State.setWorker, State.drop, Function.update_apply]
    split_ifs <;> cases f <;> grind [Life.holders]
  · simp only [State.setWorker, State.drop]
    split_ifs <;> grind [h.unborn]
  · simp only [State.setWorker, State.drop, Function.update_apply] at hp ⊢
    split_ifs at hp with hp'
    · exact hp' ▸ h.worker_lt p _ hw
    · exact h.worker_lt p' w hp
  · split_ifs at hl' with hr
    exact h.offered r' c' j hl'

theorem strike (h : Own s life) (c : κ) (k : α) : Own (s.strike c k) life := by
  unfold State.strike
  split
  · exact ⟨h.entry, h.token, h.worker, h.strong, h.unborn, h.worker_lt, h.offered, h.crashed⟩
  · exact h

end Steps
end Own

/-! ### The members of a roster -/

theorem Life.entry_home {x : Life κ ι} {c : κ} (h : x.entry = some c) : x.home = some c := by
  rcases x with _ | ⟨c', i⟩ | ⟨c', p, y⟩ | c'
  · cases h
  · exact h
  · rcases y with _ | f | f
    · exact h
    · cases h
    · cases f
      · cases h
      · cases h
      · exact h
  · exact h

theorem Life.entry_none {x : Life κ ι} (h : x.holders = 0) : x.entry = none := by
  rcases x with _ | ⟨c, i⟩ | ⟨c, p, y⟩ | c
  · rfl
  · cases h
  · rcases y with _ | f | f
    · cases h
    · cases h
    · cases f
      · rfl
      · rfl
      · cases h
  · cases h

/-- The worker of the roster has retired or ended for the reason `f`. -/
def Life.Done (x : Life κ ι) (c : κ) (p : ℕ) (f : Finish) : Prop :=
  x = .worked c p (.retired f) ∨ x = .worked c p (.ended f)

/-- The roster still has its entry, or its worker has failed. -/
def Life.Keeps (x : Life κ ι) (c : κ) : Prop := x.entry = some c ∨ ∃ p, x.Done c p .failed

/-- For the members of the roster the two lives are the same. -/
def Life.Alike (x y : Life κ ι) : Prop :=
  x.home = y.home ∧ x.entry = y.entry ∧ ∀ c p f, x.Done c p f ↔ y.Done c p f

theorem Life.Alike.refl (x : Life κ ι) : x.Alike x := ⟨rfl, rfl, fun _ _ _ => Iff.rfl⟩

theorem Life.Alike.keeps {x y : Life κ ι} (h : x.Alike y) {c : κ} : x.Keeps c ↔ y.Keeps c := by
  simp only [Life.Keeps, h.2.1, h.2.2]

/-- The members of the rosters: one that is found in a roster joined it under that
key and for its resource; it is still in, or the roster has lost its entry. -/
structure Roster (s : State κ α ι) (life : ℕ → Life κ ι) : Prop where
  home : ∀ r k i, s.members r k = some i → ∃ c, (life r).home = some c ∧
    (s.seat i = .member c k ∨ s.seat i = .gone ∧ (life r).entry = none)
  once : ∀ r k r' k' i, s.members r k = some i → s.members r' k' = some i → r = r' ∧ k = k'
  empty : ∀ r c p, (life r).Done c p .empty → ∀ k, s.members r k = none
  pinned : ∀ p k i, s.pin p = some (k, i) → ∃ c r, s.worker p = some (c, r, .active) ∧
    s.members r k = some i

namespace Roster

theorem init : Roster (State.init : State κ α ι) fun _ => .unborn := by
  constructor <;> simp [State.init]

variable {s s' : State κ α ι} {life life' : ℕ → Life κ ι}

theorem not_outside (h : Roster s life) {r : ℕ} {k : α} {i : ι} (hm : s.members r k = some i) :
    s.seat i ≠ .outside := by
  intro ho
  obtain ⟨c, -, hc | ⟨hc, -⟩⟩ := h.home r k i hm <;> rw [ho] at hc <;> cases hc

/-- The entry of a resource shows the members that are in. -/
theorem entry_seat (h : Roster s life) (ho : Own s life) {c : κ} {r : ℕ} {k : α} {i : ι}
    (he : s.entry c = some r) (hm : s.members r k = some i) : s.seat i = .member c k := by
  have hl := (ho.entry c r).mp he
  obtain ⟨c', hc', hs | ⟨-, hn⟩⟩ := h.home r k i hm
  · rw [Life.entry_home hl] at hc'
    cases hc'
    exact hs
  · rw [hl] at hn
    cases hn

/-- A member that is in has its own key and resource in every roster it is found in. -/
theorem seat_home (h : Roster s life) {c : κ} {r : ℕ} {k k' : α} {i : ι}
    (hs : s.seat i = .member c k) (hm : s.members r k' = some i) :
    k' = k ∧ (life r).home = some c := by
  obtain ⟨c', hc', hs' | ⟨hs', -⟩⟩ := h.home r k' i hm
  · rw [hs] at hs'
    cases hs'
    exact ⟨rfl, hc'⟩
  · rw [hs] at hs'
    cases hs'

/-- An operation that makes nobody a member. -/
theorem shrink (h : Roster s life)
    (hm : ∀ r k i, s'.members r k = some i → s.members r k = some i ∧
      (s'.seat i = s.seat i ∨ s'.seat i = .gone ∧ (life' r).entry = none))
    (hl : ∀ r, (life' r).home = (life r).home ∧ ((life r).entry = none → (life' r).entry = none))
    (hd : ∀ r c p, (life' r).Done c p .empty → (life r).Done c p .empty ∨ ∀ k, s.members r k = none)
    (hp : ∀ p k i, s'.pin p = some (k, i) → ∃ c r, s'.worker p = some (c, r, .active) ∧
      s'.members r k = some i) : Roster s' life' := by
  refine ⟨fun r k i hmi => ?_, fun r k r' k' i h1 h2 => ?_, fun r c p hdone k => ?_, hp⟩
  · obtain ⟨hs, hseat⟩ := hm r k i hmi
    obtain ⟨c, hc, hi⟩ := h.home r k i hs
    refine ⟨c, by rw [(hl r).1]; exact hc, ?_⟩
    rcases hseat with hseat | ⟨hseat, hn⟩
    · rcases hi with hi | ⟨hi, hn⟩
      · exact Or.inl (by rw [hseat]; exact hi)
      · exact Or.inr ⟨by rw [hseat]; exact hi, (hl r).2 hn⟩
    · exact Or.inr ⟨hseat, hn⟩
  · exact h.once r k r' k' i (hm r k i h1).1 (hm r' k' i h2).1
  · rcases Option.eq_none_or_eq_some (s'.members r k) with hn | ⟨i, hi⟩
    · exact hn
    · have hsi := (hm r k i hi).1
      rcases hd r c p hdone with he | he
      · rw [h.empty r c p he k] at hsi
        cases hsi
      · rw [he k] at hsi
        cases hsi

section Steps

variable [DecidableEq κ] [DecidableEq α] [DecidableEq ι]

theorem join (h : Roster s life) (ho : Own s life) {i : ι} {c : κ} {k : α} {r : ℕ}
    (hs : s.seat i = .outside) (he : s.entry c = some r) (hb : ¬ s.Blocked r k) :
    Roster ((s.setMember r k (some i)).setSeat i (.member c k)) life := by
  have hl := (ho.entry c r).mp he
  have hout : ∀ r' k', s.members r' k' ≠ some i := fun r' k' hm => h.not_outside hm hs
  refine ⟨fun r' k' j hm => ?_, fun r' k' r'' k'' j hm hm' => ?_, fun r' c' p hd k' => ?_,
    fun p k' j hp => ?_⟩
  · simp only [State.setSeat, State.setMember, Function.update_apply] at hm ⊢
    by_cases hrk : r' = r ∧ k' = k
    · obtain ⟨rfl, rfl⟩ := hrk
      rw [if_pos rfl, Function.update_self, Option.some.injEq] at hm
      subst hm
      exact ⟨c, Life.entry_home hl, Or.inl (if_pos rfl)⟩
    · have hm' : s.members r' k' = some j := by split_ifs at hm <;> grind
      obtain ⟨c', hc', hj⟩ := h.home r' k' j hm'
      have hji : j ≠ i := fun hji => hout r' k' (hji ▸ hm')
      exact ⟨c', hc', by rw [if_neg hji]; exact hj⟩
  · simp only [State.setSeat, State.setMember, Function.update_apply] at hm hm'
    have := h.once r' k' r'' k'' j
    split_ifs at hm hm' <;> grind
  · have hne : r' ≠ r := by
      rintro rfl
      rcases hd with hd | hd <;> rw [hd] at hl <;> cases hl
    simp only [State.setSeat, State.setMember, Function.update_of_ne hne]
    exact h.empty r' c' p hd k'
  · obtain ⟨c', r', hw, hm⟩ := h.pinned p k' j hp
    refine ⟨c', r', hw, ?_⟩
    have hrk : ¬ (r' = r ∧ k' = k) := by
      rintro ⟨rfl, rfl⟩
      exact hb ⟨p, c', j, _, hw, hp⟩
    simp only [State.setSeat, State.setMember, Function.update_apply]
    split_ifs <;> grind

theorem create (h : Roster s life) (ho : Own s life) {i : ι} {c : κ} {k : α}
    (hs : s.seat i = .outside) :
    Roster (s.create i c k) (Function.update life s.next (.offered c i)) := by
  have hu : life s.next = .unborn := (ho.unborn _).mpr (Nat.le_refl _)
  have hnew : ∀ k' j, s.members s.next k' ≠ some j := fun k' j hm => by
    obtain ⟨c', hc', -⟩ := h.home _ _ _ hm
    rw [hu] at hc'
    cases hc'
  have hout : ∀ r' k', s.members r' k' ≠ some i := fun r' k' hm => h.not_outside hm hs
  refine ⟨fun r' k' j hm => ?_, fun r' k' r'' k'' j hm hm' => ?_, fun r' c' p hd k' => ?_,
    fun p k' j hp => ?_⟩
  · simp only [State.create, Function.update_apply] at hm ⊢
    by_cases hr : r' = s.next
    · rw [if_pos hr] at hm
      simp only [hr, if_true] at hm ⊢
      rw [Function.update_apply] at hm
      split_ifs at hm with hk
      cases hm
      exact ⟨c, rfl, Or.inl (by rw [if_pos rfl, hk])⟩
    · rw [if_neg hr] at hm
      obtain ⟨c', hc', hj⟩ := h.home r' k' j hm
      have hji : j ≠ i := fun hji => hout r' k' (hji ▸ hm)
      simp only [hr, hji, if_false]
      exact ⟨c', hc', hj⟩
  · simp only [State.create, Function.update_apply] at hm hm'
    have := h.once r' k' r'' k'' j
    split_ifs at hm hm' <;> grind [Function.update_apply]
  · have hne : r' ≠ s.next := by
      rintro rfl
      rcases hd with hd | hd <;> simp at hd
    simp only [State.create, Function.update_of_ne hne]
    exact h.empty r' c' p (by simpa [Life.Done, Function.update_of_ne hne] using hd) k'
  · obtain ⟨c', r', hw, hm⟩ := h.pinned p k' j hp
    refine ⟨c', r', hw, ?_⟩
    have hne : r' ≠ s.next := by
      rintro rfl
      exact hnew k' j hm
    simp only [State.create, Function.update_of_ne hne]
    exact hm

theorem leave (h : Roster s life) (ho : Own s life) {i : ι} {c : κ} {k : α}
    (hs : s.seat i = .member c k) (hb : ∀ r, s.entry c = some r → ¬ s.Blocked r k) :
    Roster (((s.strike c k).dropToken i).setSeat i .gone) life := by
  refine h.shrink (fun r' k' j hm => ?_) (fun _ => ⟨rfl, id⟩) (fun _ _ _ => Or.inl) (fun p k' j hp => ?_)
  · simp only [State.setSeat, State.dropToken_members, State.strike_members] at hm
    split_ifs at hm with hrk
    refine ⟨hm, ?_⟩
    by_cases hji : j = i
    · subst hji
      refine Or.inr ⟨Function.update_self .., ?_⟩
      obtain ⟨rfl, hhome⟩ := h.seat_home hs hm
      rcases he : (life r').entry with _ | c'
      · rfl
      · have hc := Life.entry_home he
        rw [hhome] at hc
        cases hc
        exact absurd ⟨(ho.entry c r').mpr he, rfl⟩ hrk
    · apply Or.inl
      simp [State.setSeat, Function.update_of_ne hji]
  · simp only [State.setSeat, State.dropToken_pin, State.strike_pin] at hp
    obtain ⟨c', r', hw, hm⟩ := h.pinned p k' j hp
    have hworker : (((s.strike c k).dropToken i).setSeat i .gone).worker p = some (c', r', .active) := by
      rw [State.setSeat, State.dropToken_worker, State.strike_worker]
      exact hw
    refine ⟨c', r', hworker, ?_⟩
    simp only [State.setSeat, State.dropToken_members, State.strike_members]
    rw [if_neg]
    · exact hm
    · rintro ⟨he, rfl⟩
      exact hb r' he ⟨p, c', j, _, hw, hp⟩

/-- One that is found in no roster goes. -/
theorem quit (h : Roster s life) (ho : Own s life) {i : ι}
    (hs : ∀ r k, s.members r k = some i → s.strong r = 0) :
    Roster (s.setSeat i .gone) life := by
  refine h.shrink (fun r k j hm => ⟨hm, ?_⟩) (fun _ => ⟨rfl, id⟩) (fun _ _ _ => Or.inl) h.pinned
  by_cases hji : j = i
  · subst hji
    have := hs r k hm
    rw [ho.strong] at this
    exact Or.inr ⟨Function.update_self .., Life.entry_none this⟩
  · exact Or.inl (Function.update_of_ne hji ..)

theorem pin (h : Roster s life) {p : ℕ} {c : κ} {r : ℕ} {k : α} {i : ι}
    (hw : s.worker p = some (c, r, .active)) (hm : s.members r k = some i) :
    Roster (s.setPin p (some (k, i))) life := by
  refine h.shrink (fun _ _ _ hm => ⟨hm, Or.inl rfl⟩) (fun _ => ⟨rfl, id⟩) (fun _ _ _ => Or.inl)
    (fun p' k' j hp => ?_)
  simp only [State.setPin, Function.update_apply] at hp
  split_ifs at hp with hpp
  · simp only [Option.some.injEq, Prod.mk.injEq] at hp
    obtain ⟨rfl, rfl⟩ := hp
    exact ⟨c, r, hpp ▸ hw, hm⟩
  · exact h.pinned p' k' j hp

theorem unpin (h : Roster s life) (p : ℕ) : Roster (s.setPin p none) life := by
  refine h.shrink (fun _ _ _ hm => ⟨hm, Or.inl rfl⟩) (fun _ => ⟨rfl, id⟩) (fun _ _ _ => Or.inl)
    (fun p' k' j hp => ?_)
  simp only [State.setPin, Function.update_apply] at hp
  split_ifs at hp
  exact h.pinned p' k' j hp

/-- The lives change without a change of the rosters, the seats or the pins. -/
theorem relife (h : Roster s life) {r₀ : ℕ} {x : Life κ ι} (hm : s'.members = s.members)
    (hs : s'.seat = s.seat) (hp : s'.pin = s.pin)
    (hx : x.home = (life r₀).home ∧ ((life r₀).entry = none → x.entry = none))
    (hd : ∀ c p, x.Done c p .empty → (life r₀).Done c p .empty ∨ ∀ k, s.members r₀ k = none)
    (hw : ∀ p k i c r, s.pin p = some (k, i) → s.worker p = some (c, r, .active) →
      s'.worker p = some (c, r, .active)) : Roster s' (Function.update life r₀ x) := by
  refine h.shrink (fun r k i hmi => ⟨by rw [← hm]; exact hmi, Or.inl (by rw [hs])⟩) (fun r => ?_)
    (fun r c p hdone => ?_) (fun p k i hpin => ?_)
  · rw [Function.update_apply]
    split_ifs with hr
    · rw [hr]
      exact hx
    · exact ⟨rfl, id⟩
  · rw [Function.update_apply] at hdone
    split_ifs at hdone with hr
    · rw [hr]
      exact hd c p hdone
    · exact Or.inl hdone
  · rw [hp] at hpin
    obtain ⟨c, r, hwk, hmi⟩ := h.pinned p k i hpin
    exact ⟨c, r, hw p k i c r hpin hwk, by rw [hm]; exact hmi⟩

/-- The token of `i`, if it has one, is dropped: a roster that waited for it is left
without a worker, and for the members nothing changes. -/
theorem dropToken_alike (s : State κ α ι) (ho : Own s life) (i : ι) :
    ∃ life', Own (s.dropToken i) life' ∧ (∀ r, (life' r).Alike (life r)) ∧
      (s.dropToken i).token i = none := by
  rcases ht : s.token i with _ | r
  · refine ⟨life, ?_, fun r => Life.Alike.refl _, ?_⟩ <;> simp only [State.dropToken, ht]
    exact ho
  · obtain ⟨c, hl⟩ := (ho.token i r).mp ht
    refine ⟨_, ho.dropToken hl, fun r' => ?_, by simp [State.dropToken, ht]⟩
    rw [Function.update_apply]
    split_ifs with hr
    · rw [hr, hl]
      exact ⟨rfl, rfl, fun c p f => by simp [Life.Done]⟩
    · exact Life.Alike.refl _

theorem alike (h : Roster s life) (ha : ∀ r, (life' r).Alike (life r)) : Roster s life' :=
  h.shrink (fun _ _ _ hm => ⟨hm, Or.inl rfl⟩)
    (fun r => ⟨(ha r).1, fun hn => by rw [(ha r).2.1]; exact hn⟩)
    (fun r c p hd => Or.inl (((ha r).2.2 c p _).mp hd)) h.pinned

end Steps
end Roster

/-! ### What distinct keys add -/

/-- No two members that are in at the same time have the same resource and key. -/
def State.Distinct (s : State κ α ι) : Prop :=
  ∀ i j c k, s.seat i = .member c k → s.seat j = .member c k → i = j

/-- Every member that is in is found in a roster that still has its entry or whose
worker has failed. -/
def Seated (s : State κ α ι) (life : ℕ → Life κ ι) : Prop :=
  ∀ i c k, s.seat i = .member c k → ∃ r, s.members r k = some i ∧ (life r).Keeps c

namespace Seated

variable {s s' : State κ α ι} {life life' : ℕ → Life κ ι}

theorem init : Seated (State.init : State κ α ι) fun _ => .unborn := by
  intro i c k h
  cases h

/-- An operation after which everyone who is in was in, and is still found there. -/
theorem keep (h : Seated s life)
    (hk : ∀ i c k, s'.seat i = .member c k → s.seat i = .member c k ∧
      ∀ r, s.members r k = some i → (life r).Keeps c → s'.members r k = some i ∧ (life' r).Keeps c) :
    Seated s' life' := by
  intro i c k hs
  obtain ⟨hs', hr⟩ := hk i c k hs
  obtain ⟨r, hm, hkeep⟩ := h i c k hs'
  exact ⟨r, hr r hm hkeep⟩

section Steps

variable [DecidableEq κ] [DecidableEq α] [DecidableEq ι]

theorem join (h : Seated s life) (ho : Own s life) (hr : Roster s life) {i : ι} {c : κ} {k : α} {r : ℕ}
    (hs : s.seat i = .outside) (he : s.entry c = some r)
    (hd : ((s.setMember r k (some i)).setSeat i (.member c k)).Distinct) :
    Seated ((s.setMember r k (some i)).setSeat i (.member c k)) life := by
  intro j c' k' hj
  by_cases hji : j = i
  · subst hji
    simp only [State.setSeat, State.setMember, Function.update_self, Seat.member.injEq] at hj ⊢
    obtain ⟨rfl, rfl⟩ := hj
    exact ⟨r, by simp, Or.inl ((ho.entry c r).mp he)⟩
  · have hj' : s.seat j = .member c' k' := by
      simpa [State.setSeat, State.setMember, Function.update_of_ne hji] using hj
    obtain ⟨r', hm, hkeep⟩ := h j c' k' hj'
    refine ⟨r', ?_, hkeep⟩
    have hne : ¬ (r' = r ∧ k' = k) := by
      rintro ⟨rfl, rfl⟩
      obtain rfl : c' = c := by
        have := hr.entry_seat ho he hm
        rw [hj'] at this
        cases this
        rfl
      exact hji (hd j i c' k' hj (Function.update_self ..))
    simp only [State.setSeat, State.setMember, Function.update_apply]
    split_ifs <;> grind [Function.update_apply]

theorem create (h : Seated s life) (ho : Own s life) (hr : Roster s life) {i : ι} {c : κ} {k : α} :
    Seated (s.create i c k) (Function.update life s.next (.offered c i)) := by
  intro j c' k' hj
  by_cases hji : j = i
  · subst hji
    simp only [State.create, Function.update_self, Seat.member.injEq] at hj ⊢
    obtain ⟨rfl, rfl⟩ := hj
    exact ⟨s.next, by simp, Or.inl (by simp [Life.entry])⟩
  · have hj' : s.seat j = .member c' k' := by
      simpa [State.create, Function.update_of_ne hji] using hj
    obtain ⟨r', hm, hkeep⟩ := h j c' k' hj'
    have hne : r' ≠ s.next := by
      rintro rfl
      obtain ⟨c'', hc, -⟩ := hr.home _ _ _ hm
      rw [(ho.unborn _).mpr (Nat.le_refl _)] at hc
      cases hc
    refine ⟨r', ?_, ?_⟩
    · simp only [State.create, Function.update_of_ne hne]
      exact hm
    · rw [Function.update_of_ne hne]
      exact hkeep

theorem leave (h : Seated s life) (ho : Own s life) (hr : Roster s life) {i : ι} {c : κ} {k : α}
    (hs : s.seat i = .member c k) (hd : s.Distinct) :
    Seated (((s.strike c k).dropToken i).setSeat i .gone) life := by
  refine h.keep fun j c' k' hj => ?_
  have hji : j ≠ i := by
    rintro rfl
    simp [State.setSeat] at hj
  have hj' : s.seat j = .member c' k' := by
    simpa [State.setSeat, Function.update_of_ne hji] using hj
  refine ⟨hj', fun r hm hkeep => ⟨?_, hkeep⟩⟩
  simp only [State.setSeat, State.dropToken_members, State.strike_members]
  rw [if_neg]
  · exact hm
  · rintro ⟨he, rfl⟩
    exact hji (hd j i c k' (hr.entry_seat ho he hm) hs)

end Steps
end Seated

/-! ### Every step -/

section Steps

variable [DecidableEq κ] [DecidableEq α] [DecidableEq ι] {s s' : State κ α ι} {a : Action κ α ι}
  {life : ℕ → Life κ ι}

/-- What all of the above says of the rosters' lives, with distinct keys in the
third part. -/
def Sound (s s' : State κ α ι) (life life' : ℕ → Life κ ι) : Prop :=
  Own s' life' ∧ Roster s' life' ∧ (s.Distinct → s'.Distinct → Seated s life → Seated s' life')

theorem leave_sound (ho : Own s life) (hr : Roster s life) {i : ι} {c : κ} {k : α}
    (hs : s.seat i = .member c k) (hb : ∀ r, s.entry c = some r → ¬ s.Blocked r k) :
    ∃ life', Sound s (((s.strike c k).dropToken i).setSeat i .gone) life life' := by
  obtain ⟨life', ho', ha, ht⟩ := Roster.dropToken_alike (s.strike c k) (ho.strike c k) i
  refine ⟨life', ho'.seat ht rfl rfl rfl rfl rfl rfl rfl, (hr.leave ho hs hb).alike ha,
    fun hd _ h => (h.leave ho hr hs hd).keep fun _ _ _ hj => ⟨hj, fun r hm hkeep => ⟨hm, ?_⟩⟩⟩
  exact (ha r).keeps.mpr hkeep

theorem go_sound (ho : Own s life) (hr : Roster s life) {i : ι} (ht : s.token i = none)
    (hm : ∀ r k, s.members r k = some i → s.strong r = 0) :
    Sound s (s.setSeat i .gone) life life := by
  refine ⟨ho.seat ht rfl rfl rfl rfl rfl rfl rfl, hr.quit ho hm, fun _ _ h => h.keep fun j c k hj => ?_⟩
  have hji : j ≠ i := by
    rintro rfl
    simp [State.setSeat] at hj
  refine ⟨by simpa [State.setSeat, Function.update_of_ne hji] using hj, fun r hmj hkeep => ⟨hmj, hkeep⟩⟩

theorem launch_sound (ho : Own s life) (hr : Roster s life) {i : ι} {c : κ} {k : α} {r : ℕ}
    (hs : s.seat i = .member c k) (ht : s.token i = some r) :
    Sound s (s.launch i c r) life (Function.update life r (.worked c s.nextWorker .active)) := by
  obtain ⟨c', hl⟩ := (ho.token i r).mp ht
  obtain ⟨k', hk⟩ := ho.offered r c' i hl
  obtain rfl : c = c' := by rw [hs] at hk; cases hk; rfl
  refine ⟨ho.launch hs ht, hr.relife rfl rfl rfl ⟨by rw [hl]; rfl, by rw [hl]; nofun⟩
    (fun _ _ hd => by simp [Life.Done] at hd) (fun p _ _ c' r' hp hw => ?_),
    fun _ _ h => h.keep fun j c' k' hj => ⟨hj, fun r' hm hkeep => ⟨hm, ?_⟩⟩⟩
  · have hp' : p ≠ s.nextWorker := Nat.ne_of_lt (ho.worker_lt p _ hw)
    simpa [State.launch, Function.update_of_ne hp'] using hw
  · rw [Function.update_apply]
    split_ifs with hr'
    · rw [hr', hl] at hkeep
      rcases hkeep with hkeep | ⟨p, hkeep⟩
      · exact Or.inl hkeep
      · simp [Life.Done] at hkeep
    · exact hkeep

theorem retire_sound (ho : Own s life) (hr : Roster s life) {p : ℕ} {c : κ} {r r' : ℕ} {f : Finish}
    (hw : s.worker p = some (c, r, .active)) (hu : s.pin p = none) (he : s.entry c = some r')
    (hf : f ≠ .crashed) (hempty : f = .empty → ∀ k, s.members r' k = none) :
    r' = r ∧ Sound s (s.retire p c r r' f) life (Function.update life r (.worked c p (.retired f))) := by
  have hl : life r = .worked c p .active := (ho.worker p c r _).mp hw
  obtain rfl : r' = r := by
    have : s.entry c = some r := (ho.entry c r).mpr (by rw [hl]; rfl)
    rw [he] at this
    cases this
    rfl
  refine ⟨rfl, ho.retire hw hf, hr.relife rfl rfl rfl ⟨by rw [hl]; rfl, fun _ => rfl⟩
    (fun _ _ hd => ?_) (fun p' k i c' r'' hp hw' => ?_),
    fun _ _ h => h.keep fun j c' k' hj => ⟨hj, fun r'' hm hkeep => ⟨hm, ?_⟩⟩⟩
  · rcases hd with hd | hd
    · simp only [Life.worked.injEq, Stage.retired.injEq] at hd
      exact Or.inr (hempty hd.2.2)
    · simp at hd
  · have hp' : p' ≠ p := by
      rintro rfl
      rw [hu] at hp
      cases hp
    simpa [State.retire, State.setWorker, State.drop, Function.update_of_ne hp'] using hw'
  · rw [Function.update_apply]
    split_ifs with hr'
    · subst hr'
      rw [hl] at hkeep
      rcases hkeep with hkeep | ⟨p, hkeep⟩
      · cases hkeep
        cases f with
        | empty =>
          rw [hempty rfl k'] at hm
          cases hm
        | failed => exact Or.inr ⟨p, Or.inl rfl⟩
        | crashed => exact absurd rfl hf
      · simp [Life.Done] at hkeep
    · exact hkeep

/-- A worker lets go of its roster: having crashed, or having retired before. -/
theorem letGo_sound (ho : Own s life) (hr : Roster s life) {p : ℕ} {c : κ} {r : ℕ} {x : Stage}
    {f : Finish} (hw : s.worker p = some (c, r, x)) (hx : x = .active ∧ f = .crashed ∨ x = .retired f)
    (hu : x = .active → s.pin p = none) :
    Sound s ((s.drop r).setWorker p (c, r, .ended f)) life
      (Function.update life r (.worked c p (.ended f))) := by
  have hl : life r = .worked c p x := (ho.worker p c r _).mp hw
  have hf : x = .retired f → f ≠ .crashed := by
    rintro rfl rfl
    exact ho.crashed r c p hl
  refine ⟨ho.letGo hw hx, hr.relife rfl rfl rfl ⟨by rw [hl]; rfl, fun hn => ?_⟩
    (fun c' p' hd => ?_) (fun p' k i c' r'' hp hw' => ?_),
    fun _ _ h => h.keep fun j c' k' hj => ⟨hj, fun r'' hm hkeep => ⟨hm, ?_⟩⟩⟩
  · rw [hl] at hn
    rcases hx with ⟨rfl, rfl⟩ | rfl
    · cases hn
    · cases f
      · rfl
      · rfl
      · exact absurd rfl (hf rfl)
  · rw [hl]
    simp only [Life.Done, Life.worked.injEq, reduceCtorEq, and_false, false_or, Stage.ended.injEq] at hd
    obtain ⟨rfl, rfl, rfl⟩ := hd
    rcases hx with ⟨-, hx⟩ | rfl
    · cases hx
    · exact Or.inl (Or.inl rfl)
  · have hp' : p' ≠ p := by
      rintro rfl
      rw [hw] at hw'
      cases hw'
      rw [hu rfl] at hp
      cases hp
    simpa [State.setWorker, State.drop, Function.update_of_ne hp'] using hw'
  · rw [Function.update_apply]
    split_ifs with hr'
    · subst hr'
      rw [hl] at hkeep
      rcases hx with ⟨rfl, rfl⟩ | rfl
      · rcases hkeep with hkeep | ⟨p, hkeep⟩
        · exact Or.inl hkeep
        · simp [Life.Done] at hkeep
      · rcases hkeep with hkeep | ⟨p', hkeep⟩
        · cases hkeep
        · simp only [Life.Done, Life.worked.injEq, Stage.retired.injEq, reduceCtorEq, and_false,
            or_false] at hkeep
          obtain ⟨rfl, rfl, rfl⟩ := hkeep
          exact Or.inr ⟨p, Or.inr rfl⟩
    · exact hkeep

/-- **One step.** The entries, tokens, workers, counts and members after a step are
those of rosters with lives again; with distinct keys, every member that is in
is still found. -/
theorem Step.sound (h : Step a s s') (ho : Own s life) (hr : Roster s life) :
    ∃ life', Sound s s' life life' := by
  cases h with
  | join seat entry free =>
    refine ⟨life, ?_, hr.join ho seat entry free, fun _ hd h => h.join ho hr seat entry hd⟩
    have ht : s.token _ = none := ho.token_none seat
    exact ho.seat ht rfl rfl rfl rfl rfl rfl rfl
  | create seat entry =>
    exact ⟨_, ho.create seat entry, hr.create ho seat, fun _ _ h => h.create ho hr⟩
  | leave seat free => exact leave_sound ho hr seat free
  | quit seat token dropped => exact ⟨life, go_sound ho hr token dropped⟩
  | withdraw seat =>
    exact ⟨life, go_sound ho hr (ho.token_none seat) fun r k hm => absurd seat (hr.not_outside hm)⟩
  | launch seat token => exact ⟨_, launch_sound ho hr seat token⟩
  | pin worker found =>
    exact ⟨life, ⟨ho.entry, ho.token, ho.worker, ho.strong, ho.unborn, ho.worker_lt, ho.offered,
      ho.crashed⟩, hr.pin worker found, fun _ _ h => h.keep fun _ _ _ hj => ⟨hj, fun _ => And.intro⟩⟩
  | unpin =>
    exact ⟨life, ⟨ho.entry, ho.token, ho.worker, ho.strong, ho.unborn, ho.worker_lt, ho.offered,
      ho.crashed⟩, hr.unpin _, fun _ _ h => h.keep fun _ _ _ hj => ⟨hj, fun _ => And.intro⟩⟩
  | retire worker unpinned entry sound empty =>
    exact ⟨_, (retire_sound ho hr worker unpinned entry sound empty).2⟩
  | crash worker unpinned =>
    exact ⟨_, letGo_sound ho hr worker (Or.inl ⟨rfl, rfl⟩) fun _ => unpinned⟩
  | release worker => exact ⟨_, letGo_sound ho hr worker (Or.inr rfl) nofun⟩

/-- One that has joined is found after a step only where it was found before, and
no roster it is found in gains a holder. -/
theorem Step.found (h : Step a s s') {i : ι} (hi : s.seat i ≠ .outside) {r : ℕ} {k : α}
    (hm : s'.members r k = some i) : s.members r k = some i ∧ s'.strong r ≤ s.strong r := by
  cases h with
  | @join j c k' r' seat entry free =>
    simp only [State.setSeat, State.setMember, Function.update_apply] at hm ⊢
    split_ifs at hm <;> grind [Function.update_apply]
  | @create j c k' seat entry =>
    simp only [State.create, Function.update_apply] at hm ⊢
    split_ifs at hm <;> grind [Function.update_apply]
  | leave seat free =>
    simp only [State.setSeat, State.dropToken_members, State.strike_members] at hm
    split_ifs at hm
    exact ⟨hm, Nat.le_trans (State.dropToken_strong_le ..)
      (Nat.le_of_eq (congrFun (State.strike_strong ..) r))⟩
  | quit | withdraw | launch | pin | unpin => exact ⟨hm, Nat.le_refl _⟩
  | retire | crash | release => exact ⟨hm, s.drop_strong_le ..⟩

/-- Nobody comes back to where it was before it joined. -/
theorem Step.outside (h : Step a s s') {i : ι} (hi : s'.seat i = .outside) : s.seat i = .outside := by
  cases h with
  | join seat | create seat | leave seat | quit seat | withdraw seat =>
    simp only [State.setSeat, State.create, State.setMember, State.dropToken_seat, State.strike_seat,
      Function.update_apply] at hi
    split_ifs at hi
    exact hi
  | launch | pin | unpin | retire | crash | release => exact hi

/-- Who has gone does not come back. -/
theorem Step.gone (h : Step a s s') {i : ι} (hi : s.seat i = .gone) : s'.seat i = .gone := by
  cases h with
  | join seat | create seat =>
    simp only [State.setSeat, State.create, State.setMember, Function.update_apply]
    split_ifs with hj
    · rw [← hj, hi] at seat
      cases seat
    · exact hi
  | leave | quit | withdraw =>
    simp only [State.setSeat, State.dropToken_seat, State.strike_seat, Function.update_apply]
    split_ifs
    · rfl
    · exact hi
  | launch | pin | unpin | retire | crash | release => exact hi

/-- Who has been cut off stays cut off. -/
theorem State.Dropped.step {i : ι} (hd : s.Dropped i) (hi : s.seat i ≠ .outside) (h : Step a s s') :
    s'.Dropped i := by
  intro r k hm
  obtain ⟨hm', hle⟩ := h.found hi hm
  have := hd r k hm'
  omega

end Steps
end Registry
