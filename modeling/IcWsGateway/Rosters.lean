/-
# The registered clients of each canister

`GatewayState.rosters` forgets the references and the counts of the gateway
state: for each canister it gives the clients that are registered in the poller
state at the canister's entry, and nobody where there is no entry. Four
operations work on the gateway map (`MapOp`): a client is inserted or removed,
and a poller removes its entry, as empty or after a failure. On the rosters
each is an update at a client key or at a canister (`MapOp.run_rosters`), so
what two clients do with different keys can be told apart.

`mapOp` is the operation of an event, and `replay` does those of a history on
another gateway state.

Key definitions: `GatewayState.rosters`, `MapOp`, `mapOp`, `replay`.
Key theorems: `MapOp.run_rosters`, `step_rosters`, `rosters_run`,
`rosters_replay`, `MapOp.onRosters_clear`.
-/
import IcWsGateway.Registrations

namespace IcWsGateway

variable {cfg : Config} {s w w' : World} {h : List (World × Event)} {e : Event} {g g' : GatewayState}
  {c c' : CanisterPrincipal} {k k' : ClientKey} {r : PollerRef}

/-! ### Rosters -/

/-- The registered clients of each canister. -/
abbrev Rosters := CanisterPrincipal → ClientKey → Option ClientSender

namespace Rosters

def set (R : Rosters) (c : CanisterPrincipal) (k : ClientKey) (x : Option ClientSender) : Rosters :=
  Function.update R c (Function.update (R c) k x)

theorem set_apply (R : Rosters) (x : Option ClientSender) :
    R.set c k x c' k' = if c' = c ∧ k' = k then x else R c' k' := by
  unfold set
  by_cases hc : c' = c
  · subst hc
    simp only [Function.update_self, Function.update_apply, true_and]
  · simp only [Function.update_of_ne hc, hc, false_and, if_false]

theorem set_set (R : Rosters) (x y : Option ClientSender) : (R.set c k x).set c k y = R.set c k y := by
  funext c' k'
  simp only [set_apply]
  split_ifs <;> rfl

theorem set_of_eq {R : Rosters} {x : Option ClientSender} (hx : R c k = x) : R.set c k x = R := by
  funext c' k'
  rw [set_apply]
  split_ifs with hc
  · rw [hc.1, hc.2, hx]
  · rfl

end Rosters

def GatewayState.rosters (g : GatewayState) : Rosters :=
  fun c k => (g.data.lookup c).bind fun r => (g.clients r).lookup k

theorem GatewayState.rosters_none (hc : g.data.lookup c = none) (k : ClientKey) : g.rosters c k = none := by
  rw [rosters, hc, Option.bind_none]

theorem GatewayState.rosters_some (hc : g.data.lookup c = some r) (k : ClientKey) :
    g.rosters c k = (g.clients r).lookup k := by
  rw [rosters, hc, Option.bind_some]

/-- A poller state is empty when nobody is registered with the canister. -/
theorem GatewayState.empty_iff (hc : g.data.lookup c = some r) :
    g.clients r = ∅ ↔ ∀ k, g.rosters c k = none := by
  rw [FiniteMap.eq_empty_iff]
  simp only [rosters_some hc]

/-- The entries refer to different poller states, none of them a future one. -/
structure GatewayState.Tidy (g : GatewayState) : Prop where
  lt : ∀ c r, g.data.lookup c = some r → r < g.nextRef
  inj : ∀ c c' r, g.data.lookup c = some r → g.data.lookup c' = some r → c = c'

theorem Sound.tidy (hw : Sound w) : w.gateway.Tidy := by
  obtain ⟨life, ho, -⟩ := hw.lives
  have hentry : ∀ c r, w.gateway.data.lookup c = some r → (life r).entry = some c :=
    fun c r hc => (ho.entry c r).mp hc
  constructor
  · intro c r hc
    by_contra hle
    have hl := hentry c r hc
    rw [(ho.unborn r).mpr (Nat.not_lt.mp hle)] at hl
    cases hl
  · intro c c' r hc hc'
    have hl := hentry c r hc
    rw [hentry c' r hc'] at hl
    exact (Option.some.inj hl).symm

/-! ### The operations on the gateway map -/

/-- An operation on the gateway map. -/
inductive MapOp
  /-- `insert_client_channel_and_get_new_poller_state` -/
  | insert (c : CanisterPrincipal) (k : ClientKey) (tx : Sender)
  /-- `remove_client`, or `remove_client_if_exists` -/
  | strike (c : CanisterPrincipal) (k : ClientKey)
  /-- `remove_canister_if_empty` -/
  | check (c : CanisterPrincipal)
  /-- `remove_failed_canister` -/
  | fail (c : CanisterPrincipal)

namespace MapOp

def run : MapOp → GatewayState → GatewayState
  | .insert c k tx, g => (g.insertClientChannelAndGetNewPollerState c k tx).1
  | .strike c k, g => g.struck c k
  | .check c, g => (g.removeCanisterIfEmpty c).1
  | .fail c, g =>
    match g.removeFailedCanister c with
    | .ok g' => g'
    | .error _ => g

theorem run_fail_ok (hg : g.removeFailedCanister c = .ok g') : (MapOp.fail c).run g = g' := by
  rw [run, hg]

theorem run_fail_error {m : String} (hg : g.removeFailedCanister c = .error m) :
    (MapOp.fail c).run g = g := by
  rw [run, hg]

/-- The same operation on the rosters. -/
def onRosters : MapOp → Rosters → Rosters
  | .insert c k tx, R => R.set c k (some ⟨tx⟩)
  | .strike c k, R => R.set c k none
  | .check _, R => R
  | .fail c, R => Function.update R c fun _ => none

/-- The operation inserts or removes the client `k` of `c`. -/
def Touches (c : CanisterPrincipal) (k : ClientKey) : MapOp → Prop
  | .insert c' k' _ | .strike c' k' => c' = c ∧ k' = k
  | .check _ | .fail _ => False

@[simp] theorem struck_nextRef (g : GatewayState) (c : CanisterPrincipal) (k : ClientKey) :
    (g.struck c k).nextRef = g.nextRef := by
  unfold GatewayState.struck GatewayState.removeKey
  split
  · split <;> rfl
  · rfl

/-- An operation keeps or removes the entries there are, or makes one. -/
theorem run_entries (o : MapOp) (g : GatewayState) :
    (o.run g).nextRef = g.nextRef ∧
        (∀ c, (o.run g).data.lookup c = g.data.lookup c ∨ (o.run g).data.lookup c = none) ∨
      ∃ c, (o.run g).data = g.data.insert c g.nextRef ∧ (o.run g).nextRef = g.nextRef + 1 := by
  have herase : ∀ c r, ∀ c', (g.removeEntry c r).data.lookup c' = g.data.lookup c' ∨
      (g.removeEntry c r).data.lookup c' = none := by
    intro c r c'
    rw [removeEntry_lookup]
    split_ifs
    · exact Or.inr rfl
    · exact Or.inl rfl
  cases o with
  | insert c k tx =>
    simp only [run, GatewayState.insertClientChannelAndGetNewPollerState]
    rcases g.data.lookup c with _ | r
    · exact Or.inr ⟨c, rfl, rfl⟩
    · exact Or.inl ⟨rfl, fun _ => Or.inl rfl⟩
  | strike c k =>
    rw [run, struck_data, struck_nextRef]
    exact Or.inl ⟨rfl, fun _ => Or.inl rfl⟩
  | check c =>
    simp only [run, GatewayState.removeCanisterIfEmpty]
    rcases g.data.lookup c with _ | r
    · exact Or.inl ⟨rfl, fun _ => Or.inl rfl⟩
    · dsimp only
      split_ifs
      · exact Or.inl ⟨rfl, herase c r⟩
      · exact Or.inl ⟨rfl, fun _ => Or.inl rfl⟩
  | fail c =>
    simp only [run, GatewayState.removeFailedCanister]
    rcases g.data.lookup c with _ | r
    · exact Or.inl ⟨rfl, fun _ => Or.inl rfl⟩
    · exact Or.inl ⟨rfl, herase c r⟩

theorem nextRef_le_run (o : MapOp) (g : GatewayState) : g.nextRef ≤ (o.run g).nextRef := by
  obtain ⟨hn, -⟩ | ⟨c, -, hn⟩ := o.run_entries g
  · exact hn.ge
  · exact hn ▸ Nat.le_succ _

theorem run_tidy (o : MapOp) (hg : g.Tidy) : (o.run g).Tidy := by
  obtain ⟨hn, hold⟩ | ⟨c₀, hd, hn⟩ := o.run_entries g
  · have hback : ∀ c r, (o.run g).data.lookup c = some r → g.data.lookup c = some r := by
      intro c r hc
      rcases hold c with hs | hs
      · rw [← hs]
        exact hc
      · rw [hs] at hc
        cases hc
    constructor
    · intro c r hc
      rw [hn]
      exact hg.lt c r (hback c r hc)
    · intro c c' r hc hc'
      exact hg.inj c c' r (hback c r hc) (hback c' r hc')
  · have hback : ∀ c r, (o.run g).data.lookup c = some r →
        c = c₀ ∧ r = g.nextRef ∨ g.data.lookup c = some r ∧ r < g.nextRef := by
      intro c r hc
      rw [hd, FiniteMap.lookup_insert_eq] at hc
      split_ifs at hc with h
      · exact Or.inl ⟨h, (Option.some.inj hc).symm⟩
      · exact Or.inr ⟨hc, hg.lt c r hc⟩
    constructor
    · intro c r hc
      rw [hn]
      rcases hback c r hc with ⟨-, hr⟩ | ⟨-, hr⟩
      · exact Nat.lt_succ_of_le (Nat.le_of_eq hr)
      · exact Nat.lt_succ_of_lt hr
    · intro c c' r hc hc'
      rcases hback c r hc with ⟨h1, hr⟩ | ⟨h1, hr⟩
      · rcases hback c' r hc' with ⟨h2, -⟩ | ⟨-, hr'⟩
        · rw [h1, h2]
        · exact absurd hr (Nat.ne_of_lt hr')
      · rcases hback c' r hc' with ⟨-, hr'⟩ | ⟨h2, -⟩
        · exact absurd hr' (Nat.ne_of_lt hr)
        · exact hg.inj c c' r h1 h2

/-! ### What they do to the rosters -/

theorem insert_rosters (hg : g.Tidy) (c : CanisterPrincipal) (k : ClientKey) (tx : Sender) :
    (g.insertClientChannelAndGetNewPollerState c k tx).1.rosters = g.rosters.set c k (some ⟨tx⟩) := by
  funext c' k'
  rw [Rosters.set_apply]
  simp only [GatewayState.rosters, GatewayState.insertClientChannelAndGetNewPollerState]
  rcases hc : g.data.lookup c with _ | r
  · simp only [FiniteMap.lookup_insert_eq]
    by_cases hcc : c' = c
    · subst hcc
      simp only [if_true, Option.bind_some, Function.update_self, FiniteMap.lookup_insert_eq,
        FiniteMap.lookup_empty, true_and, hc, Option.bind_none]
    · simp only [hcc, if_false, false_and]
      rcases hc' : g.data.lookup c' with _ | r'
      · rfl
      · have hne : r' ≠ g.nextRef := Nat.ne_of_lt (hg.lt c' r' hc')
        simp only [Option.bind_some, Function.update_of_ne hne]
  · simp only [GatewayState.setClients]
    rcases hc' : g.data.lookup c' with _ | r'
    · have hne : c' ≠ c := by
        rintro rfl
        rw [hc] at hc'
        cases hc'
      simp only [Option.bind_none, hne, false_and, if_false]
    · simp only [Option.bind_some]
      by_cases hcc : c' = c
      · subst hcc
        rw [hc, Option.some.injEq] at hc'
        subst hc'
        simp only [Function.update_self, FiniteMap.lookup_insert_eq, true_and]
      · have hne : r' ≠ r := by
          rintro rfl
          exact hcc (hg.inj c' c r' hc' hc)
        simp only [Function.update_of_ne hne, hcc, false_and, if_false]

theorem struck_rosters (hg : g.Tidy) (c : CanisterPrincipal) (k : ClientKey) :
    (g.struck c k).rosters = g.rosters.set c k none := by
  funext c' k'
  rw [Rosters.set_apply]
  rcases hc' : g.data.lookup c' with _ | r'
  · rw [GatewayState.rosters_none hc', GatewayState.rosters_none (by rw [struck_data]; exact hc')]
    split_ifs <;> rfl
  · rw [GatewayState.rosters_some hc', GatewayState.rosters_some (by rw [struck_data]; exact hc'),
      struck_clients]
    have hiff : g.data.lookup c = some r' ↔ c' = c := by
      constructor
      · intro hc
        exact hg.inj c' c r' hc' hc
      · rintro rfl
        exact hc'
    simp only [hiff]

/-- What the removal of its entry does to the clients of a canister. -/
theorem removeEntry_rosters (g : GatewayState) (c : CanisterPrincipal) (r : PollerRef) :
    (g.removeEntry c r).rosters = Function.update g.rosters c fun _ => none := by
  funext c' k'
  simp only [GatewayState.rosters, removeEntry_lookup]
  by_cases hc : c' = c
  · subst hc
    simp only [if_true, Option.bind_none, Function.update_self]
  · rw [if_neg hc, Function.update_of_ne hc]
    rfl

/-- **The operations, seen in the rosters.** -/
theorem run_rosters (o : MapOp) (hg : g.Tidy) : (o.run g).rosters = o.onRosters g.rosters := by
  cases o with
  | insert c k tx => exact insert_rosters hg c k tx
  | strike c k => exact struck_rosters hg c k
  | check c =>
    simp only [run, onRosters, GatewayState.removeCanisterIfEmpty]
    rcases hc : g.data.lookup c with _ | r
    · rfl
    · dsimp only
      split_ifs with hempty
      · have hnone : g.rosters c = fun _ => none :=
          funext ((GatewayState.empty_iff hc).mp hempty)
        rw [removeEntry_rosters, ← hnone, Function.update_eq_self]
      · rfl
  | fail c =>
    simp only [run, onRosters, GatewayState.removeFailedCanister]
    rcases hc : g.data.lookup c with _ | r
    · have hnone : g.rosters c = fun _ => none := funext (GatewayState.rosters_none hc)
      rw [← hnone, Function.update_eq_self]
    · exact removeEntry_rosters g c r

/-- An operation that does not touch a client does the same whether or not it is
registered. -/
theorem onRosters_clear {o : MapOp} (ho : ¬ o.Touches c k) (R : Rosters) :
    o.onRosters (R.set c k none) = (o.onRosters R).set c k none := by
  have hset : ∀ c' k' x, ¬ (c' = c ∧ k' = k) →
      (R.set c k none).set c' k' x = (R.set c' k' x).set c k none := by
    intro c' k' x hne
    funext c₁ k₁
    simp only [Rosters.set_apply]
    split_ifs with h1 h2
    · exact absurd ⟨h1.1.symm.trans h2.1, h1.2.symm.trans h2.2⟩ hne
    · rfl
    · rfl
    · rfl
  cases o with
  | insert c' k' tx => exact hset c' k' _ ho
  | strike c' k' => exact hset c' k' _ ho
  | check c' => rfl
  | fail c' =>
    funext c₁ k₁
    by_cases hc : c₁ = c'
    · subst hc
      simp only [onRosters, Rosters.set_apply, Function.update_self, ite_self]
    · simp only [onRosters, Rosters.set_apply, Function.update_of_ne hc]

/-- What an operation does to the entries, it does wherever these are the same and,
if it looks for emptiness, as many canisters have nobody left. -/
theorem run_data (o : MapOp) (hd : g'.data = g.data) (hn : g'.nextRef = g.nextRef)
    (hempty : ∀ c, o = .check c → ((∀ k, g'.rosters c k = none) ↔ ∀ k, g.rosters c k = none)) :
    (o.run g').data = (o.run g).data ∧ (o.run g').nextRef = (o.run g).nextRef := by
  cases o with
  | insert c k tx =>
    simp only [run, GatewayState.insertClientChannelAndGetNewPollerState, hd, hn]
    rcases g.data.lookup c with _ | r
    · exact ⟨rfl, rfl⟩
    · exact ⟨hd, hn⟩
  | strike c k =>
    rw [run, run, struck_data, struck_data, struck_nextRef, struck_nextRef]
    exact ⟨hd, hn⟩
  | check c =>
    simp only [run, GatewayState.removeCanisterIfEmpty]
    rcases hc : g.data.lookup c with _ | r
    · have hc' : g'.data.lookup c = none := by rw [hd, hc]
      rw [hc']
      exact ⟨hd, hn⟩
    · have hc' : g'.data.lookup c = some r := by rw [hd, hc]
      have hiff : g'.clients r = ∅ ↔ g.clients r = ∅ := by
        rw [GatewayState.empty_iff hc', GatewayState.empty_iff hc]
        exact hempty c rfl
      simp only [hc', hiff]
      split_ifs
      · exact ⟨by simp only [GatewayState.removeEntry, GatewayState.dropArc, hd], hn⟩
      · exact ⟨hd, hn⟩
  | fail c =>
    simp only [run, GatewayState.removeFailedCanister]
    rw [hd]
    rcases g.data.lookup c with _ | r
    · exact ⟨hd, hn⟩
    · exact ⟨by simp only [GatewayState.removeEntry, GatewayState.dropArc, hd], hn⟩

/-- Which canisters have an entry after an operation, by who is registered before. -/
theorem run_entry (o : MapOp) (g : GatewayState) (c : CanisterPrincipal) :
    (o.run g).data.lookup c ≠ none ↔
      match o with
      | .insert c' _ _ => c = c' ∨ g.data.lookup c ≠ none
      | .strike _ _ => g.data.lookup c ≠ none
      | .check c' => g.data.lookup c ≠ none ∧ ¬ (c = c' ∧ ∀ k, g.rosters c k = none)
      | .fail c' => g.data.lookup c ≠ none ∧ c ≠ c' := by
  cases o with
  | insert c' k tx =>
    simp only [run, insert_lookup]
    split_ifs with hc
    · simp only [hc.1, ne_eq, reduceCtorEq, not_false_eq_true, true_or]
    · constructor
      · exact Or.inr
      · rintro (rfl | hl)
        · exact fun hn => hc ⟨rfl, hn⟩
        · exact hl
  | strike c' k => rw [run, struck_data]
  | check c' =>
    rw [run]
    by_cases hcc : c = c'
    · subst hcc
      rcases hl : g.data.lookup c with _ | r
      · simp [GatewayState.removeCanisterIfEmpty, hl]
      · by_cases hempty : g.clients r = ∅
        · have hnone := (GatewayState.empty_iff hl).mp hempty
          simp [GatewayState.removeCanisterIfEmpty, hl, hempty, removeEntry_lookup, hnone]
        · have hsome : ¬ ∀ k, g.rosters c k = none := fun h => hempty ((GatewayState.empty_iff hl).mpr h)
          simp [GatewayState.removeCanisterIfEmpty, hl, hempty, hsome]
    · have hother : (g.removeCanisterIfEmpty c').1.data.lookup c = g.data.lookup c := by
        unfold GatewayState.removeCanisterIfEmpty
        rcases g.data.lookup c' with _ | r
        · rfl
        · dsimp only
          split_ifs
          · rw [removeEntry_lookup, if_neg hcc]
          · rfl
      rw [hother]
      simp only [hcc, false_and, not_false_eq_true, and_true]
  | fail c' =>
    simp only [run, GatewayState.removeFailedCanister]
    rcases hl : g.data.lookup c' with _ | r
    · dsimp only
      constructor
      · intro h
        refine ⟨h, ?_⟩
        rintro rfl
        exact h hl
      · exact And.left
    · simp only [removeEntry_lookup]
      split_ifs with hcc
      · simp [hcc]
      · simp [hcc]

/-- Where more canisters have an entry and as many have somebody left, it stays so. -/
theorem run_entry_mono (o : MapOp) (hsub : ∀ c, g'.data.lookup c ≠ none → g.data.lookup c ≠ none)
    (hempty : ∀ c, (∀ k, g.rosters c k = none) → ∀ k, g'.rosters c k = none) (c : CanisterPrincipal)
    (hc : (o.run g').data.lookup c ≠ none) : (o.run g).data.lookup c ≠ none := by
  rw [run_entry] at hc ⊢
  cases o with
  | insert c' k tx => exact hc.imp_right (hsub c)
  | strike c' k => exact hsub c hc
  | check c' =>
    refine ⟨hsub c hc.1, ?_⟩
    rintro ⟨hcc, hnone⟩
    exact hc.2 ⟨hcc, hempty c hnone⟩
  | fail c' => exact ⟨hsub c hc.1, hc.2⟩

/-- Where more canisters have an entry, no more entries are made. -/
theorem run_nextRef_le (o : MapOp) (hsub : ∀ c, g'.data.lookup c ≠ none → g.data.lookup c ≠ none)
    (hn : g.nextRef ≤ g'.nextRef) : (o.run g).nextRef ≤ (o.run g').nextRef := by
  cases o with
  | insert c k tx =>
    simp only [run, GatewayState.insertClientChannelAndGetNewPollerState]
    rcases hg : g.data.lookup c with _ | r
    · have hg' : g'.data.lookup c = none := by
        by_contra hne
        exact hsub c hne hg
      rw [hg']
      exact Nat.succ_le_succ hn
    · rcases g'.data.lookup c with _ | r'
      · exact Nat.le_succ_of_le hn
      · exact hn
  | strike c k =>
    rw [run, run, struck_nextRef, struck_nextRef]
    exact hn
  | check c =>
    have hsame : ∀ g : GatewayState, (g.removeCanisterIfEmpty c).1.nextRef = g.nextRef := by
      intro g
      unfold GatewayState.removeCanisterIfEmpty
      rcases g.data.lookup c with _ | r
      · rfl
      · dsimp only
        split_ifs <;> rfl
    rw [run, run, hsame, hsame]
    exact hn
  | fail c =>
    have hsame : ∀ g : GatewayState, ((MapOp.fail c).run g).nextRef = g.nextRef := by
      intro g
      simp only [run, GatewayState.removeFailedCanister]
      rcases g.data.lookup c with _ | r <;> rfl
    rw [hsame, hsame]
    exact hn

end MapOp

/-! ### The operation of an event -/

/-- The operation on the gateway map that the event is. -/
def mapOp : World × Event → Option MapOp
  | (w, .commit i) =>
    match (w.handlers i).phase with
    | .setup _ c k tx => some (.insert c k tx)
    | .rollback _ c k _ | .closed c k | .failed _ c k => some (.strike c k)
    | _ => none
  | (w, .checkTerminate p) => (w.pollers p).map fun q => .check q.canisterId
  | (w, .removeFailed p) => (w.pollers p).map fun q => .fail q.canisterId
  | _ => none

/-- What the operations of a history make of another gateway state. -/
def replay (h : List (World × Event)) (g : GatewayState) : GatewayState :=
  (h.filterMap mapOp).foldl (fun g o => o.run g) g

/-- The gateway states differ in their counts at most. -/
structure GatewayState.SameMap (g g' : GatewayState) : Prop where
  data : g.data = g'.data
  clients : g.clients = g'.clients
  nextRef : g.nextRef = g'.nextRef

theorem GatewayState.SameMap.of_eq (h : g = g') : g.SameMap g' := by
  subst h
  exact ⟨rfl, rfl, rfl⟩

theorem GatewayState.SameMap.rosters (h : g.SameMap g') : g.rosters = g'.rosters := by
  funext c k
  rw [GatewayState.rosters, GatewayState.rosters, h.data, h.clients]

theorem GatewayState.SameMap.dropToken (g : GatewayState) (t : Option PollerRef) :
    (g.dropToken t).SameMap g := by
  cases t <;> exact ⟨rfl, rfl, rfl⟩

/-- The other events change the counts at most. -/
theorem GatewayStep.sameMap (hg : GatewayStep cfg w e g) (hc : ∀ i, e ≠ .commit i)
    (ht : ∀ p, e ≠ .checkTerminate p) (hf : ∀ p, e ≠ .removeFailed p) : g.SameMap w.gateway := by
  cases hg with
  | other | noncePanic | stop => exact ⟨rfl, rfl, rfl⟩
  | relayOpenPanic => exact .dropToken ..
  | insert | rollback | remove => exact absurd rfl (hc _)
  | terminate => exact absurd rfl (ht _)
  | fail | failPanic => exact absurd rfl (hf _)

theorem mapOp_setup {i : ClientId} {m : Message} {tx : Sender}
    (hph : (w.handlers i).phase = .setup m c k tx) : mapOp (w, .commit i) = some (.insert c k tx) := by
  simp only [mapOp, hph]

theorem mapOp_removing {i : ClientId} (hph : (w.handlers i).phase.Removing c k) :
    mapOp (w, .commit i) = some (.strike c k) := by
  rcases hph with hph | ⟨x, t, hph⟩ <;> simp only [mapOp, hph]

theorem mapOp_failed {i : ClientId} {x : IcWsError} (hph : (w.handlers i).phase = .failed x c k) :
    mapOp (w, .commit i) = some (.strike c k) := by
  simp only [mapOp, hph]

theorem commit_mapOp {i : ClientId} (he : WorldStep cfg w (.commit i) w') :
    w'.gateway.SameMap ((mapOp (w, .commit i)).elim w.gateway fun o => o.run w.gateway) := by
  cases he with
  | insert phase =>
    rw [mapOp_setup phase]
    exact .of_eq rfl
  | rollback phase free removed =>
    obtain rfl := struck_of_removeClient removed
    rw [mapOp_removing (Or.inr ⟨_, _, phase⟩)]
    exact .dropToken ..
  | @rollbackPanic _ _ c k _ _ phase free panic =>
    have hs : (MapOp.strike c k).run w.gateway = w.gateway := struck_of_panic panic
    rw [mapOp_removing (Or.inr ⟨_, _, phase⟩), Option.elim_some, hs]
    exact .dropToken ..
  | remove phase free removed =>
    obtain rfl := struck_of_removeClient removed
    rw [mapOp_removing (Or.inl phase)]
    exact .of_eq rfl
  | @removePanic _ c k _ phase free panic =>
    have hs : (MapOp.strike c k).run w.gateway = w.gateway := struck_of_panic panic
    rw [mapOp_removing (Or.inl phase), Option.elim_some, hs]
    exact .of_eq rfl
  | removeIfExists phase free removed | removeVacant phase free removed =>
    obtain rfl := struck_of_removeClientIfExists removed
    rw [mapOp_failed phase]
    exact .of_eq rfl

theorem mapOp_checkTerminate {p : PollerId} {q : CanisterPoller} (hq : w.pollers p = some q) :
    mapOp (w, .checkTerminate p) = some (.check q.canisterId) := by
  rw [mapOp, hq, Option.map_some]

theorem mapOp_removeFailed {p : PollerId} {q : CanisterPoller} (hq : w.pollers p = some q) :
    mapOp (w, .removeFailed p) = some (.fail q.canisterId) := by
  rw [mapOp, hq, Option.map_some]

theorem checkTerminate_mapOp {p : PollerId} (he : WorldStep cfg w (.checkTerminate p) w') :
    w'.gateway.SameMap ((mapOp (w, .checkTerminate p)).elim w.gateway fun o => o.run w.gateway) := by
  cases he with
  | terminate poller phase free entry empty =>
    rw [mapOp_checkTerminate poller, Option.elim_some, MapOp.run, removeCanisterIfEmpty_terminate entry empty]
    exact .of_eq rfl
  | goOn poller phase free inUse =>
    rw [mapOp_checkTerminate poller, Option.elim_some, MapOp.run, removeCanisterIfEmpty_goOn inUse]
    exact .of_eq rfl

theorem removeFailed_mapOp {p : PollerId} (he : WorldStep cfg w (.removeFailed p) w') :
    w'.gateway.SameMap ((mapOp (w, .removeFailed p)).elim w.gateway fun o => o.run w.gateway) := by
  cases he with
  | fail poller phase free entry =>
    rw [mapOp_removeFailed poller, Option.elim_some, MapOp.run_fail_ok (removeFailedCanister_entry entry)]
    exact .of_eq rfl
  | failPanic poller phase free entry panic =>
    rw [mapOp_removeFailed poller, Option.elim_some, MapOp.run_fail_error panic]
    exact ⟨rfl, rfl, rfl⟩

/-- **What an event does to the gateway map** is its operation. -/
theorem step_mapOp (he : step cfg w e = some w') :
    w'.gateway.SameMap ((mapOp (w, e)).elim w.gateway fun o => o.run w.gateway) := by
  have hg := step_gateway he
  cases e with
  | commit i => exact commit_mapOp (step_cases he)
  | checkTerminate p => exact checkTerminate_mapOp (step_cases he)
  | removeFailed p => exact removeFailed_mapOp (step_cases he)
  | _ => exact hg.sameMap nofun nofun nofun

/-! ### Histories -/

/-- The rosters after an event. -/
theorem step_rosters (hw : Sound w) (he : step cfg w e = some w') :
    w'.gateway.rosters = (mapOp (w, e)).elim w.gateway.rosters fun o => o.onRosters w.gateway.rosters := by
  rw [(step_mapOp he).rosters]
  rcases mapOp (w, e) with _ | o
  · rfl
  · exact o.run_rosters hw.tidy

theorem filterMap_mapOp_snoc (h : List (World × Event)) (x : World × Event) :
    (h ++ [x]).filterMap mapOp = h.filterMap mapOp ++ (mapOp x).toList :=
  LTS.filterMap_snoc mapOp h x

theorem replay_snoc (h : List (World × Event)) (x : World × Event) (g : GatewayState) :
    replay (h ++ [x]) g = (mapOp x).elim (replay h g) fun o => o.run (replay h g) := by
  unfold replay
  rw [filterMap_mapOp_snoc, List.foldl_append]
  rcases mapOp x with _ | o <;> rfl

theorem replay_append (h h' : List (World × Event)) (g : GatewayState) :
    replay (h ++ h') g = replay h' (replay h g) := by
  unfold replay
  rw [List.filterMap_append, List.foldl_append]

theorem replay_nextRef_le (h : List (World × Event)) (g : GatewayState) :
    g.nextRef ≤ (replay h g).nextRef := by
  induction h using List.reverseRecOn with
  | nil => exact Nat.le_refl _
  | append_singleton h x ih =>
    rw [replay_snoc]
    rcases mapOp x with _ | o
    · exact ih
    · exact ih.trans (o.nextRef_le_run _)

/-- An entry that was not there before is new. -/
theorem replay_newer (hc : g.data.lookup c = none) (h : List (World × Event)) :
    ∀ r, (replay h g).data.lookup c = some r → g.nextRef ≤ r := by
  induction h using List.reverseRecOn with
  | nil =>
    intro r hr
    have hnone : (replay [] g).data.lookup c = none := hc
    rw [hnone] at hr
    cases hr
  | append_singleton h x ih =>
    rw [replay_snoc]
    rcases mapOp x with _ | o
    · exact ih
    · intro r hr
      rw [Option.elim_some] at hr
      obtain ⟨-, hold⟩ | ⟨c₀, hd, -⟩ := o.run_entries (replay h g)
      · obtain hsame | hgone := hold c
        · exact ih r (hsame.symm.trans hr)
        · rw [hgone] at hr
          cases hr
      · rw [hd, FiniteMap.lookup_insert_eq] at hr
        split_ifs at hr
        · cases hr
          exact replay_nextRef_le h g
        · exact ih r hr

/-- The rosters after a run: those of the start, changed by one operation after
another. -/
theorem rosters_run (hr : LTS.Run (step cfg) s h w) (hs : Sound s) :
    w.gateway.rosters = (h.filterMap mapOp).foldl (fun R o => o.onRosters R) s.gateway.rosters := by
  induction hr with
  | nil => rfl
  | @snoc h t t' e hr he ih =>
    have ht : Sound t := hr.stable (fun _ _ _ hI he => hI.step he) hs
    rw [filterMap_mapOp_snoc, List.foldl_append, ← ih, step_rosters ht he]
    rcases mapOp (t, e) with _ | o <;> rfl

/-- The same operations on another gateway state do the same to its rosters. -/
theorem rosters_replay (hg : g.Tidy) (h : List (World × Event)) :
    (replay h g).Tidy ∧
      (replay h g).rosters = (h.filterMap mapOp).foldl (fun R o => o.onRosters R) g.rosters := by
  unfold replay
  apply List.foldl_rel (r := fun (g : GatewayState) (R : Rosters) => g.Tidy ∧ g.rosters = R)
  · exact ⟨hg, rfl⟩
  · intro o _ g R hrel
    refine ⟨o.run_tidy hrel.1, ?_⟩
    rw [o.run_rosters hrel.1, hrel.2]

/-- Operations that do not touch a client do the same whether or not it was there. -/
theorem foldl_clear {os : List MapOp} (hos : ∀ o ∈ os, ¬ o.Touches c k) (R : Rosters) :
    os.foldl (fun R o => o.onRosters R) (R.set c k none) =
      (os.foldl (fun R o => o.onRosters R) R).set c k none := by
  induction os generalizing R with
  | nil => rfl
  | cons o os ih =>
    have ho : ¬ o.Touches c k := hos o List.mem_cons_self
    have hos' : ∀ o ∈ os, ¬ o.Touches c k := fun o ho => hos o (List.mem_cons_of_mem _ ho)
    rw [List.foldl_cons, List.foldl_cons, MapOp.onRosters_clear ho]
    exact ih hos' _

end IcWsGateway
