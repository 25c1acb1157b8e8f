/-
# One poller for each canister

The life of a canister's entry: it is made by the insert that returns the new
poller state, and removed by the poller that was started with it, as empty or
after a failure. An insert that returns `Some` needs an absent entry and a
removal a present one, so the two take turns (`insertsNew_removesEntry`); a
poller that has not removed its entry serves the poller state that is there
(`Sound.entry_of_active`), so there is never a second one.

Key definitions: `insertsNew`, `removesEntry`, `CanisterPoller.Serving`.
Key theorems: `insertsNew_removesEntry`, `serving_unique`,
`one_poller_per_canister`.
-/
import IcWsGateway.Pollers

namespace IcWsGateway

variable {cfg : Config} {w w' : World} {h : List (World × Event)}

/-! ### Inserts and removals -/

/-- The event inserts a client of `c` and returns a new poller state. -/
def insertsNew (c : CanisterPrincipal) : World × Event → Bool
  | (w, .commit i) =>
    match (w.handlers i).phase with
    | .setup _ c' k tx =>
      c' = c ∧ (w.gateway.insertClientChannelAndGetNewPollerState c' k tx).2.isSome
    | _ => false
  | _ => false

/-- The event removes the entry of `c`. -/
def removesEntry (c : CanisterPrincipal) : World × Event → Bool
  | (w, .checkTerminate p) => (w.pollers p).any fun q =>
      q.canisterId = c ∧ (w.gateway.removeCanisterIfEmpty q.canisterId).2 = .empty
  | (w, .removeFailed p) => (w.pollers p).any fun q =>
      q.canisterId = c ∧ (w.gateway.removeFailedCanister q.canisterId).toBool
  | _ => false

/-- The poller has started and has not removed its canister's entry yet. -/
def CanisterPoller.Serving (q : CanisterPoller) : Prop := q.phase.stage = .active

theorem insert_isSome (g : GatewayState) (c : CanisterPrincipal) (k : ClientKey) (tx : Sender) :
    (g.insertClientChannelAndGetNewPollerState c k tx).2.isSome ↔ g.data.lookup c = none := by
  unfold GatewayState.insertClientChannelAndGetNewPollerState
  rcases g.data.lookup c with _ | r <;> simp

theorem insert_lookup (g : GatewayState) (c c' : CanisterPrincipal) (k : ClientKey) (tx : Sender) :
    (g.insertClientChannelAndGetNewPollerState c k tx).1.data.lookup c' =
      if c' = c ∧ g.data.lookup c = none then some g.nextRef else g.data.lookup c' := by
  unfold GatewayState.insertClientChannelAndGetNewPollerState
  rcases he : g.data.lookup c with _ | r
  · simp only [FiniteMap.lookup_insert_eq, and_true]
  · simp [GatewayState.setClients]

theorem removeEntry_lookup (g : GatewayState) (c c' : CanisterPrincipal) (r : PollerRef) :
    (g.removeEntry c r).data.lookup c' = if c' = c then none else g.data.lookup c' := by
  simp only [GatewayState.removeEntry, GatewayState.dropArc, FiniteMap.lookup_erase_eq]

theorem removeCanisterIfEmpty_empty {g : GatewayState} {c : CanisterPrincipal} :
    (g.removeCanisterIfEmpty c).2 = .empty ↔ ∃ r, g.data.lookup c = some r ∧ g.clients r = ∅ := by
  unfold GatewayState.removeCanisterIfEmpty
  rcases g.data.lookup c with _ | r
  · simp
  · by_cases he : g.clients r = ∅ <;> simp [he]

theorem removeFailedCanister_toBool {g : GatewayState} {c : CanisterPrincipal} :
    (g.removeFailedCanister c).toBool ↔ ∃ r, g.data.lookup c = some r := by
  unfold GatewayState.removeFailedCanister
  rcases g.data.lookup c with _ | r <;> simp [Except.toBool]

@[simp] theorem struck_data (g : GatewayState) (c : CanisterPrincipal) (k : ClientKey) :
    (g.struck c k).data = g.data := by
  unfold GatewayState.struck GatewayState.removeKey
  split
  · split <;> rfl
  · rfl

@[simp] theorem dropToken_data (g : GatewayState) (t : Option PollerRef) :
    (g.dropToken t).data = g.data := by
  cases t <;> rfl

/-- An insert that returns a poller state finds no entry and leaves one. -/
theorem insertsNew_entry {c : CanisterPrincipal} {e : Event} (he : step cfg w e = some w')
    (hi : insertsNew c (w, e)) :
    w.gateway.data.lookup c = none ∧ w'.gateway.data.lookup c ≠ none ∧ ¬ removesEntry c (w, e) := by
  cases e with
  | commit i =>
    simp only [insertsNew] at hi
    split at hi
    · rename_i m c' k tx hph
      simp only [decide_eq_true_eq, insert_isSome] at hi
      obtain ⟨rfl, hn⟩ := hi
      refine ⟨hn, ?_, by simp [removesEntry]⟩
      have hg := step_gateway he
      rw [show w'.gateway = (w.gateway.insertClientChannelAndGetNewPollerState c' k tx).1 from ?_,
        insert_lookup, if_pos ⟨rfl, hn⟩]
      · nofun
      · simp only [step, World.commit, hph] at he
        split_ifs at he
        cases he
        rfl
    · cases hi
  | _ => cases hi

/-- A removal finds the entry and leaves none. -/
theorem removesEntry_entry {c : CanisterPrincipal} {e : Event} (he : step cfg w e = some w')
    (hr : removesEntry c (w, e)) :
    w.gateway.data.lookup c ≠ none ∧ w'.gateway.data.lookup c = none := by
  cases e with
  | checkTerminate p =>
    simp only [removesEntry, Option.any_eq_true] at hr
    obtain ⟨q, hq, hr⟩ := hr
    simp only [decide_eq_true_eq, removeCanisterIfEmpty_empty] at hr
    obtain ⟨rfl, r, hl, hempty⟩ := hr
    refine ⟨by rw [hl]; nofun, ?_⟩
    simp only [step, World.checkTerminate, hq, GatewayState.removeCanisterIfEmpty, hl, hempty,
      if_true] at he
    split_ifs at he
    cases he
    simp only [World.setPoller_gateway, World.setGateway_gateway, removeEntry_lookup, if_true]
  | removeFailed p =>
    simp only [removesEntry, Option.any_eq_true] at hr
    obtain ⟨q, hq, hr⟩ := hr
    simp only [decide_eq_true_eq, removeFailedCanister_toBool] at hr
    obtain ⟨rfl, r, hl⟩ := hr
    refine ⟨by rw [hl]; nofun, ?_⟩
    simp only [step, World.removeFailed, hq, GatewayState.removeFailedCanister, hl] at he
    split at he
    · split_ifs at he
      cases he
      simp only [World.setPoller_gateway, World.setGateway_gateway, removeEntry_lookup, if_true]
    · cases he
  | _ => cases hr

/-- No other event makes or removes an entry. -/
theorem entry_unchanged {c : CanisterPrincipal} {e : Event} (he : step cfg w e = some w')
    (hi : ¬ insertsNew c (w, e)) (hr : ¬ removesEntry c (w, e)) :
    w'.gateway.data.lookup c = w.gateway.data.lookup c := by
  have hg := step_gateway he
  generalize hg' : w'.gateway = g at hg
  cases hg with
  | other => rfl
  | insert phase free =>
    rw [insert_lookup, if_neg]
    rintro ⟨rfl, hn⟩
    apply hi
    simp [insertsNew, phase, insert_isSome, hn]
  | rollback | remove | relayOpenPanic | noncePanic | failPanic | stop =>
    simp [GatewayState.dropArc]
  | terminate poller phase entry empty =>
    rw [removeEntry_lookup, if_neg]
    rintro rfl
    apply hr
    simp [removesEntry, poller, removeCanisterIfEmpty_empty, entry, empty]
  | fail poller phase entry =>
    rw [removeEntry_lookup, if_neg]
    rintro rfl
    apply hr
    simp only [removesEntry, poller, Option.any_some, true_and, decide_eq_true_eq,
      removeFailedCanister_toBool]
    exact ⟨_, entry⟩

/-- **Inserts that start a poller and removals take turns.** -/
theorem insertsNew_removesEntry (hr : Runs cfg h w) {c : CanisterPrincipal} {x y : World × Event}
    {h₁ h₂ h₃ : List (World × Event)} (hh : h = h₁ ++ x :: h₂ ++ y :: h₃) (hx : insertsNew c x)
    (hy : insertsNew c y) (hn : ∀ z ∈ h₂, ¬ insertsNew c z) : h₂.countP (removesEntry c) = 1 := by
  subst hh
  refine @LTS.alternate World Event (step cfg) (fun w => w.gateway.data.lookup c ≠ none) (fun _ => True)
    (insertsNew c) (removesEntry c) (fun _ _ _ _ _ => trivial) (fun s e s' _ he hA => ?_)
    (fun s e s' _ he hR => ?_) (fun s e s' _ he hA hR => ?_) _ _ _ _ _ _ _ trivial hr hx hy hn
  · obtain ⟨h1, h2, h3⟩ := insertsNew_entry he hA
    exact ⟨not_not.mpr h1, h2, h3⟩
  · obtain ⟨h1, h2⟩ := removesEntry_entry he hR
    exact ⟨h1, not_not.mpr h2⟩
  · rw [entry_unchanged he hA hR]

/-! ### The pollers of a run -/

/-- At most one poller serves a canister. -/
theorem serving_unique (hw : Sound w) {p p' : PollerId} {q q' : CanisterPoller}
    (hq : w.pollers p = some q) (hq' : w.pollers p' = some q') (hs : q.Serving) (hs' : q'.Serving)
    (hc : q.canisterId = q'.canisterId) : p = p' := by
  have he := hw.entry_of_active hq hs
  have he' := hw.entry_of_active hq' hs'
  rw [← hc, he, Option.some.injEq] at he'
  obtain ⟨life, ho, -⟩ := hw.lives
  have hl := (ho.worker p q.canisterId q.pollerState .active).mp
    ((registry_worker hq).trans (by rw [show q.phase.stage = .active from hs]))
  have hl' := (ho.worker p' q'.canisterId q'.pollerState .active).mp
    ((registry_worker hq').trans (by rw [show q'.phase.stage = .active from hs']))
  rw [← he', hl, Registry.Life.worked.injEq] at hl'
  exact hl'.2.1

/-- The poller state of a poller that has removed its entry as empty stays empty. -/
theorem finished_empty (hw : Sound w) {p : PollerId} {q : CanisterPoller} (hq : w.pollers p = some q)
    (hs : q.phase = .returned (.ok ()) ∨ q.phase = .ended (.returned (.ok ()))) :
    w.gateway.clients q.pollerState = ∅ := by
  obtain ⟨life, ho, hr⟩ := hw.lives
  have hd : (life q.pollerState).Done q.canisterId p .empty := by
    rcases hs with hs | hs
    · exact Or.inl ((ho.worker ..).mp ((registry_worker hq).trans (by rw [hs]; rfl)))
    · exact Or.inr ((ho.worker ..).mp ((registry_worker hq).trans (by rw [hs]; rfl)))
  refine (FiniteMap.eq_empty_iff _).mpr fun k => ?_
  have := hr.empty _ _ _ hd k
  simpa [World.registry] using this

/-- After the insert the entry's poller state stores the sender. -/
theorem insert_stored (g : GatewayState) (c : CanisterPrincipal) (k : ClientKey) (tx : Sender) :
    ∃ r, (g.insertClientChannelAndGetNewPollerState c k tx).1.data.lookup c = some r ∧
      ((g.insertClientChannelAndGetNewPollerState c k tx).1.clients r).lookup k = some ⟨tx⟩ := by
  unfold GatewayState.insertClientChannelAndGetNewPollerState
  rcases he : g.data.lookup c with _ | r
  · exact ⟨g.nextRef, by simp, by simp⟩
  · exact ⟨r, by simp [GatewayState.setClients, he], by simp [GatewayState.setClients]⟩

/-- **One poller per canister, always on the map's own poller state**, in every run:
an entry is removed exactly once between two inserts that return `Some`, and at
most one poller serves a canister; that poller holds the poller state stored in
the entry, and a client inserted with `None` is stored there; so
`remove_failed_canister` does not panic and `remove_canister_if_empty` finds the
entry; and an entry is removed as empty only when no client is registered in it,
which stays so for the poller's state. -/
theorem one_poller_per_canister (hr : Runs cfg h w) :
    (∀ c h₁ x h₂ y h₃, h = h₁ ++ x :: h₂ ++ y :: h₃ → insertsNew c x → insertsNew c y →
      (∀ z ∈ h₂, ¬ insertsNew c z) → h₂.countP (removesEntry c) = 1) ∧
    (∀ p p' q q', w.pollers p = some q → w.pollers p' = some q' → q.Serving → q'.Serving →
      q.canisterId = q'.canisterId → p = p') ∧
    (∀ p q, w.pollers p = some q → q.Serving →
      w.gateway.data.lookup q.canisterId = some q.pollerState) ∧
    (∀ c k tx g, w.gateway.insertClientChannelAndGetNewPollerState c k tx = (g, none) →
      ∃ r, w.gateway.data.lookup c = some r ∧ (g.clients r).lookup k = some ⟨tx⟩ ∧
        ∀ p q, w.pollers p = some q → q.Serving → q.canisterId = c → q.pollerState = r) ∧
    (∀ p q e, w.pollers p = some q → q.phase = .failed e →
      ∃ g, w.gateway.removeFailedCanister q.canisterId = .ok g) ∧
    (∀ p q, w.pollers p = some q → q.phase = .checking →
      w.gateway.data.lookup q.canisterId = some q.pollerState ∧
      ((w.gateway.removeCanisterIfEmpty q.canisterId).2 = .empty ↔
        w.gateway.clients q.pollerState = ∅)) ∧
    (∀ p q, w.pollers p = some q → q.phase = .returned (.ok ()) ∨ q.phase = .ended (.returned (.ok ())) →
      w.gateway.clients q.pollerState = ∅) := by
  have hw := reachable hr
  refine ⟨fun c h₁ x h₂ y h₃ hh hx hy hn => insertsNew_removesEntry hr hh hx hy hn,
    fun p p' q q' hq hq' hs hs' hc => serving_unique hw hq hq' hs hs' hc,
    fun p q hq hs => hw.entry_of_active hq hs, fun c k tx g hg => ?_, fun p q e hq hph => ?_,
    fun p q hq hph => ?_, fun p q hq hs => finished_empty hw hq hs⟩
  · have hn : w.gateway.data.lookup c ≠ none := fun hn => by
      have := (insert_isSome w.gateway c k tx).mpr hn
      rw [hg] at this
      cases this
    obtain ⟨r, hr, hk⟩ := insert_stored w.gateway c k tx
    rw [insert_lookup, if_neg (by simp [hn])] at hr
    rw [hg] at hk
    refine ⟨r, hr, hk, fun p q hq hs hc => ?_⟩
    have he := hw.entry_of_active hq hs
    rw [hc, hr] at he
    exact (Option.some.inj he).symm
  · have he := hw.entry_of_active hq (by rw [hph]; rfl)
    exact ⟨_, by simp only [GatewayState.removeFailedCanister, he]; rfl⟩
  · have he := hw.entry_of_active hq (by rw [hph]; rfl)
    refine ⟨he, ?_⟩
    rw [removeCanisterIfEmpty_empty]
    simp [he]

/-- The first client of a canister leaves, its poller stops, and a second client
starts another. -/
def rejoins (c : CanisterPrincipal) : List Event :=
  opens 0 (wsOpen c ⟨[1], 1⟩) ++ closes 0 ++ [polls 0 [], .wake 0, .checkTerminate 0, .endPoller 0] ++
    opens 1 (wsOpen c ⟨[2], 2⟩)

set_option maxRecDepth 20000 in
/-- The poller of the second client serves the second poller state. -/
theorem one_poller_per_canister_rejoins :
    (World.after .simple (rejoins [9])).gateway.data.lookup [9] = some 1 :=
  have hr : Runs .simple _ (World.after .simple (rejoins [9])) := runs_after (by decide)
  (one_poller_per_canister hr).2.2.1 1 ⟨[9], 1, 0, .polling⟩ (by decide) rfl

end IcWsGateway
