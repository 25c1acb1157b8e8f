/-
# What belongs to one canister

The gateway serves all canisters from one map, one counter of poller states and one of tasks. Still
each poller state is made for one canister and stays its own (`made_for`): the entry, the token, the
pollers and the clients that refer to it are that canister's. So the gateway state can be cut down to the
share of one canister (`GatewayState.only`): every operation on this canister does on the share what it does on
the whole, and those on the others do nothing to it.

Key definitions: `madeFor`, `Made`, `Share`, `GatewayState.only`.
Key theorems: `made_for`, `only_insert_new`, `only_removeClient`, `others_insert`.
-/
import IcWsGateway.CriticalSections
import IcWsGateway.PollerLoop

namespace IcWsGateway

variable {cfg : Config} {w w' : World} {h : List (World × Event)} {e : Event} {i : ClientId} {p : PollerId}
  {c : CanisterPrincipal} {k : ClientKey} {r : PollerRef}

/-! ### For whom a poller state was made -/

/-- The poller state that the event makes, and its canister. -/
def makes : World × Event → Option (PollerRef × CanisterPrincipal)
  | (w, .commit i) =>
    match (w.handlers i).phase with
    | .setup _ c _ _ => if w.gateway.data.lookup c = none then some (w.gateway.nextRef, c) else none
    | _ => none
  | _ => none

/-- The canister that the poller state `r` was made for. -/
def madeFor (h : List (World × Event)) (r : PollerRef) : Option CanisterPrincipal := (h.filterMap makes).lookup r

theorem madeFor_snoc (h : List (World × Event)) (x : World × Event) (r : PollerRef) :
    madeFor (h ++ [x]) r = (madeFor h r).or ((makes x).toList.lookup r) := by
  unfold madeFor
  rw [LTS.filterMap_snoc, List.lookup_append]

theorem lookup_toList {x : Option (PollerRef × CanisterPrincipal)} :
    x.toList.lookup r = some c ↔ x = some (r, c) := by
  rcases x with _ | ⟨r', c'⟩
  · simp
  · by_cases hr : r = r'
    · subst hr
      simp
    · have hne : (r == r') = false := beq_false_of_ne hr
      simp [List.lookup, hne, Ne.symm hr]

/-- The poller states of a world belong to canisters. -/
structure Made (owner : PollerRef → Option CanisterPrincipal) (w : World) : Prop where
  entry : ∀ c r, w.gateway.data.lookup c = some r → owner r = some c
  token : ∀ i c r, (w.handlers i).session.canisterId = some c → (w.handlers i).phase.token = some r → owner r = some c
  poller : ∀ p q, w.pollers p = some q → owner q.pollerState = some q.canisterId
  stored : ∀ r k i, (w.gateway.clients r).lookup k = some ⟨i⟩ →
    ∃ c, (w.handlers i).session.canisterId = some c ∧ owner r = some c
  bound : ∀ r c, owner r = some c → r < w.gateway.nextRef

/-- A session keeps its canister. -/
theorem HandlerStep.canister {a b : Handler} (hs : HandlerStep w i a e b) (ha : a.Wf i)
    (hc : a.session.canisterId = some c) : b.session.canisterId = some c := by
  cases hs with
  | update phase updated =>
    obtain ⟨hf, -⟩ | ⟨c', k, hk, hl⟩ := ha.updating phase
    · rw [hf.canisterId] at hc
      cases hc
    · have hb := (update_keyed hk hl updated).keyed hk
      rw [hk.canisterId] at hc
      rw [hb.canisterId, hc]
  | _ => exact hc

theorem makes_eq {m : Message} {tx : Sender} (hph : (w.handlers i).phase = .setup m c k tx) :
    makes (w, .commit i) = if w.gateway.data.lookup c = none then some (w.gateway.nextRef, c) else none := by
  simp only [makes, hph]

/-- What the insert returns is the poller state it makes. -/
theorem insert_token (g : GatewayState) (c : CanisterPrincipal) (k : ClientKey) (tx : Sender) :
    (g.insertClientChannelAndGetNewPollerState c k tx).2 =
      if g.data.lookup c = none then some g.nextRef else none := by
  unfold GatewayState.insertClientChannelAndGetNewPollerState
  rcases g.data.lookup c with _ | r <;> rfl

theorem insert_nextRef (g : GatewayState) (c : CanisterPrincipal) (k : ClientKey) (tx : Sender) :
    (g.insertClientChannelAndGetNewPollerState c k tx).1.nextRef =
      if g.data.lookup c = none then g.nextRef + 1 else g.nextRef := by
  unfold GatewayState.insertClientChannelAndGetNewPollerState
  rcases g.data.lookup c with _ | r <;> rfl

@[simp] theorem dropToken_nextRef (g : GatewayState) (t : Option PollerRef) :
    (g.dropToken t).nextRef = g.nextRef := by
  cases t <;> rfl

/-- A poller state is new, and made by an insert of its canister. -/
theorem makes_cases (he : step cfg w e = some w') (hm : makes (w, e) = some (r, c)) :
    r = w.gateway.nextRef ∧ w'.gateway.nextRef = w.gateway.nextRef + 1 := by
  cases e with
  | commit i =>
    simp only [makes] at hm
    split at hm
    · rename_i m c' k tx hph
      split_ifs at hm with hnone
      cases hm
      refine ⟨rfl, ?_⟩
      cases step_cases he with
      | insert phase =>
        rw [hph] at phase
        cases phase
        show (w.gateway.insertClientChannelAndGetNewPollerState c k tx).1.nextRef = _
        rw [insert_nextRef, if_pos hnone]
      | rollback phase | rollbackPanic phase | remove phase | removePanic phase =>
        rw [hph] at phase
        cases phase
      | removeIfExists phase | removeVacant phase =>
        rw [hph] at phase
        cases phase
    · cases hm
  | _ => cases hm

theorem nextRef_mono (he : step cfg w e = some w') : w.gateway.nextRef ≤ w'.gateway.nextRef := by
  have hg := step_gateway he
  generalize w'.gateway = g at hg
  cases hg with
  | insert =>
    rw [insert_nextRef]
    split_ifs
    · exact Nat.le_succ _
    · exact Nat.le_refl _
  | rollback | remove => simp
  | relayOpenPanic => simp
  | _ => exact Nat.le_refl _

/-- An entry is an old one, or that of a poller state just made. -/
theorem entry_before (he : step cfg w e = some w') (hr : w'.gateway.data.lookup c = some r) :
    w.gateway.data.lookup c = some r ∨ makes (w, e) = some (r, c) := by
  have hg := step_gateway he
  generalize w'.gateway = g at hg hr
  cases hg with
  | insert phase =>
    rw [insert_lookup] at hr
    rw [makes_eq phase]
    split_ifs at hr with hnew
    · obtain ⟨rfl, hnone⟩ := hnew
      exact Or.inr (by rw [if_pos hnone, Option.some.inj hr])
    · exact Or.inl hr
  | terminate | fail =>
    rw [removeEntry_lookup] at hr
    split_ifs at hr
    exact Or.inl hr
  | other => exact Or.inl hr
  | rollback | remove | relayOpenPanic | noncePanic | failPanic | stop =>
    simp only [GatewayState.dropArc, dropToken_data, struck_data] at hr
    exact Or.inl hr

/-- A token is an old one, or that of a poller state just made for the canister of its session. -/
theorem token_before (hw : Sound w) (he : step cfg w e = some w') (ht : (w'.handlers i).phase.token = some r)
    (hc : (w'.handlers i).session.canisterId = some c) :
    ((w.handlers i).phase.token = some r ∧ (w.handlers i).session.canisterId = some c) ∨
      makes (w, e) = some (r, c) := by
  have hs := step_handler he i
  have hwf := hw.wf i
  generalize hb : w'.handlers i = b at hs ht hc
  generalize ha : w.handlers i = a at hs hwf
  cases hs with
  | other | push => exact Or.inl ⟨ht, hc⟩
  | @insert m c' k tx phase =>
    have hkeyed := (hwf.setup phase).2.1
    have hcc : c' = c := Option.some.inj (hkeyed.canisterId.symm.trans hc)
    subst hcc
    have ht' : (w.gateway.insertClientChannelAndGetNewPollerState c' k tx).2 = some r := ht
    rw [insert_token] at ht'
    rw [makes_eq (ha ▸ phase)]
    split_ifs at ht' ⊢ with hnone
    · exact Or.inr (by rw [Option.some.inj ht'])
  | relayOpen phase | relayOpenFail phase => exact Or.inl ⟨by rw [phase]; exact ht, hc⟩
  | @update u io s out x phase updated =>
    obtain ⟨hf, -⟩ | ⟨c', k, hk, hl⟩ := hwf.updating phase
    · obtain ⟨m, k, c', -, -, -, -, hd⟩ | ⟨-, x, hd⟩ := update_fresh hf updated
      · rw [hd] at ht
        cases ht
      · rw [hd] at ht
        cases ht
    · have hd := update_keyed hk hl updated
      generalize ({ a with session := s } : Handler).dispatch x = b' at hd ht
      cases hd <;> cases ht
  | readWs | recv | cutOff | rollback | remove | removePanic | removeIfExists | removeVacant => cases ht
  | relayOpenPanic | startPoller | wsClosed => cases ht

/-- A poller is an old one, or is started with the token of a session of its canister. -/
theorem poller_before {q' : CanisterPoller} (hw : Sound w) (he : step cfg w e = some w')
    (hq' : w'.pollers p = some q') :
    (∃ q, w.pollers p = some q ∧ q.canisterId = q'.canisterId ∧ q.pollerState = q'.pollerState) ∨
      ∃ i, e = .startPoller i ∧ (w.handlers i).phase.token = some q'.pollerState ∧
        (w.handlers i).session.canisterId = some q'.canisterId := by
  have hs := step_poller he p
  rw [hq'] at hs
  generalize w.pollers p = x at hs ⊢
  generalize hy : some q' = y at hs
  cases hs with
  | other => exact Or.inl ⟨q', hy.symm, rfl, rfl⟩
  | @start _ i c r phase =>
    cases hy
    obtain ⟨k, hkeyed, -⟩ := (hw.wf i).startingPoller phase
    exact Or.inr ⟨i, rfl, by rw [phase]; rfl, hkeyed.canisterId⟩
  | _ =>
    cases hy
    exact Or.inl ⟨_, rfl, rfl, rfl⟩

/-- Every event keeps the poller states with their canisters. -/
theorem Made.step {owner : PollerRef → Option CanisterPrincipal} (hm : Made owner w) (hw : Sound w)
    (he : step cfg w e = some w') : Made (fun r => (owner r).or ((makes (w, e)).toList.lookup r)) w' := by
  have hold : ∀ {r c}, owner r = some c → (owner r).or ((makes (w, e)).toList.lookup r) = some c := by
    intro r c hr
    rw [hr]
    rfl
  have hnew : ∀ {r c}, makes (w, e) = some (r, c) →
      (owner r).or ((makes (w, e)).toList.lookup r) = some c := by
    intro r c hr
    have hnone : owner r = none := by
      by_contra hne
      obtain ⟨c', hc'⟩ := Option.ne_none_iff_exists'.mp hne
      exact Nat.ne_of_lt (hm.bound r c' hc') (makes_cases he hr).1
    rw [hnone, Option.none_or]
    exact lookup_toList.mpr hr
  constructor
  · intro c r hr
    obtain hr | hr := entry_before he hr
    · exact hold (hm.entry c r hr)
    · exact hnew hr
  · intro i c r hc ht
    obtain ⟨ht, hc⟩ | hr := token_before hw he ht hc
    · exact hold (hm.token i c r hc ht)
    · exact hnew hr
  · intro p q hq
    obtain ⟨q₀, hq₀, hcan, href⟩ | ⟨i, -, ht, hc⟩ := poller_before hw he hq
    · rw [← hcan, ← href]
      exact hold (hm.poller p q₀ hq₀)
    · exact hold (hm.token i _ _ hc ht)
  · intro r k i hx
    obtain hx | ⟨j, m, c, rfl, hph, hr⟩ := stored_cases he hx
    · obtain ⟨c, hc, hr⟩ := hm.stored r k i hx
      exact ⟨c, (step_handler he i).canister (hw.wf i) hc, hold hr⟩
    · obtain ⟨rfl, hkeyed, -⟩ := (hw.wf j).setup hph
      refine ⟨c, (step_handler he i).canister (hw.wf i) hkeyed.canisterId, ?_⟩
      rcases hentry : w.gateway.data.lookup c with _ | r'
      · rw [GatewayState.target, hentry] at hr
        apply hnew
        rw [makes_eq hph, if_pos hentry, hr]
        rfl
      · rw [GatewayState.target, hentry] at hr
        rw [hr]
        exact hold (hm.entry c r' hentry)
  · intro r c hr
    rcases hr₀ : owner r with _ | c'
    · rw [hr₀, Option.none_or] at hr
      obtain ⟨rfl, hnext⟩ := makes_cases he (lookup_toList.mp hr)
      rw [hnext]
      exact Nat.lt_succ_self _
    · exact Nat.lt_of_lt_of_le (hm.bound r c' hr₀) (nextRef_mono he)

theorem Made.new : Made (madeFor []) World.new := by
  refine ⟨?_, ?_, ?_, ?_, ?_⟩
  · intro c r hr
    rw [World.new, GatewayState.new, FiniteMap.lookup_empty] at hr
    cases hr
  · intro i c r hc
    cases hc
  · intro p q hq
    cases hq
  · intro r k i hx
    rw [World.new, GatewayState.new, FiniteMap.lookup_empty] at hx
    cases hx
  · intro r c hr
    cases hr

/-- **Each poller state is made for one canister, and only that canister refers to it.** -/
theorem made_for (hr : Runs cfg h w) : Made (madeFor h) w := by
  induction hr with
  | nil => exact Made.new
  | @snoc h t t' e hr he ih =>
    have hstep := ih.step (reachable hr) he
    have heq : (fun r => (madeFor h r).or ((makes (t, e)).toList.lookup r)) = madeFor (h ++ [(t, e)]) := by
      funext r
      exact (madeFor_snoc h (t, e) r).symm
    rwa [heq] at hstep

/-! ### The share of a canister -/

/-- A canister, its sessions, and the poller states made for it. -/
structure Share where
  canister : CanisterPrincipal
  sessions : Set ClientId
  refs : Set PollerRef

section Cut

variable {α β : Type*} {S : Set α} {f d : α → β} {a : α}

open Classical in
/-- The function `f` on `S`, and `d` outside. -/
noncomputable def cut (S : Set α) (f d : α → β) (a : α) : β := if a ∈ S then f a else d a

theorem cut_of_mem (ha : a ∈ S) : cut S f d a = f a := if_pos ha

theorem cut_outside (ha : a ∉ S) : cut S f d a = d a := if_neg ha

theorem cut_self : cut S d d = d := by
  funext x
  by_cases hS : x ∈ S
  · exact cut_of_mem hS
  · exact cut_outside hS

theorem cut_congr {f' : α → β} (hf : ∀ a ∈ S, f a = f' a) : cut S f d = cut S f' d := by
  funext x
  by_cases hS : x ∈ S
  · rw [cut_of_mem hS, cut_of_mem hS, hf x hS]
  · rw [cut_outside hS, cut_outside hS]

theorem cut_update [DecidableEq α] (ha : a ∈ S) (b : β) :
    cut S (Function.update f a b) d = Function.update (cut S f d) a b := by
  funext x
  by_cases hx : x = a
  · rw [hx, Function.update_self, cut_of_mem ha, Function.update_self]
  · rw [Function.update_of_ne hx]
    by_cases hS : x ∈ S
    · rw [cut_of_mem hS, cut_of_mem hS, Function.update_of_ne hx]
    · rw [cut_outside hS, cut_outside hS]

theorem cut_update_outside [DecidableEq α] (ha : a ∉ S) (b : β) : cut S (Function.update f a b) d = cut S f d :=
  cut_congr fun x hS => Function.update_of_ne (fun hxa : x = a => ha (hxa ▸ hS)) _ _

/-- One more point, where `f` is updated. -/
theorem cut_insert [DecidableEq α] (b : β) :
    cut (insert a S) (Function.update f a b) d = Function.update (cut S f d) a b := by
  funext x
  by_cases hx : x = a
  · rw [hx, Function.update_self, cut_of_mem (Set.mem_insert a S), Function.update_self]
  · rw [Function.update_of_ne hx]
    by_cases hS : x ∈ S
    · rw [cut_of_mem hS, cut_of_mem (Set.mem_insert_of_mem a hS), Function.update_of_ne hx]
    · have hS' : x ∉ insert a S := fun hin => (Set.mem_insert_iff.mp hin).elim hx hS
      rw [cut_outside hS, cut_outside hS']

end Cut

attribute [ext] GatewayState

namespace GatewayState

variable {g : GatewayState} {σ : Share}

/-- What the gateway state holds for a share. -/
noncomputable def only (g : GatewayState) (σ : Share) : GatewayState where
  data := FiniteMap.only g.data σ.canister
  clients := cut σ.refs g.clients fun _ => ∅
  strong := cut σ.refs g.strong fun _ => 0
  nextRef := g.nextRef

/-- The entry of the canister is in its share, and no other entry is. -/
structure Splits (g : GatewayState) (σ : Share) : Prop where
  own : ∀ r, g.data.lookup σ.canister = some r → r ∈ σ.refs
  other : ∀ c r, c ≠ σ.canister → g.data.lookup c = some r → r ∉ σ.refs

theorem only_lookup (g : GatewayState) (σ : Share) :
    (g.only σ).data.lookup σ.canister = g.data.lookup σ.canister :=
  FiniteMap.lookup_only_self ..

theorem only_clients (hr : r ∈ σ.refs) : (g.only σ).clients r = g.clients r := by
  show cut σ.refs g.clients (fun _ => ∅) r = g.clients r
  exact cut_of_mem hr

theorem only_strong (hr : r ∈ σ.refs) : (g.only σ).strong r = g.strong r := by
  show cut σ.refs g.strong (fun _ => 0) r = g.strong r
  exact cut_of_mem hr

theorem only_strong_outside (hr : r ∉ σ.refs) : (g.only σ).strong r = 0 := by
  show cut σ.refs g.strong (fun _ => 0) r = 0
  exact cut_outside hr

/-! ### Operations on the canister of the share -/

theorem only_setClients (hr : r ∈ σ.refs) (m : Clients) :
    (g.setClients r m).only σ = (g.only σ).setClients r m := by
  refine GatewayState.ext rfl ?_ rfl rfl
  exact cut_update hr m

theorem only_dropArc (hr : r ∈ σ.refs) : (g.dropArc r).only σ = (g.only σ).dropArc r := by
  refine GatewayState.ext rfl rfl ?_ rfl
  show cut σ.refs (Function.update g.strong r (g.strong r - 1)) _ =
    Function.update (g.only σ).strong r ((g.only σ).strong r - 1)
  rw [only_strong hr]
  exact cut_update hr _

theorem only_dropToken {t : Option PollerRef} (ht : ∀ r, t = some r → r ∈ σ.refs) :
    (g.dropToken t).only σ = (g.only σ).dropToken t := by
  cases t with
  | none => rfl
  | some r => exact only_dropArc (ht r rfl)

theorem only_removeEntry (hr : r ∈ σ.refs) :
    (g.removeEntry σ.canister r).only σ = (g.only σ).removeEntry σ.canister r := by
  show (({ g with data := g.data.erase σ.canister } : GatewayState).dropArc r).only σ = _
  rw [only_dropArc hr]
  refine GatewayState.ext ?_ rfl rfl rfl
  exact FiniteMap.only_erase g.data σ.canister

theorem only_removeKey (hr : r ∈ σ.refs) (k : ClientKey) :
    (g.only σ).removeKey r k = (g.removeKey r k).map (·.only σ) := by
  unfold removeKey
  rw [only_clients hr]
  rcases (g.clients r).lookup k with _ | x
  · rfl
  · dsimp only
    rw [Option.map_some, only_setClients hr]

theorem only_removeClient (hg : g.Splits σ) (k : ClientKey) :
    (g.only σ).removeClient σ.canister k = (g.removeClient σ.canister k).map (·.only σ) := by
  unfold removeClient
  rw [only_lookup]
  rcases hentry : g.data.lookup σ.canister with _ | r
  · rfl
  · dsimp only
    rw [only_removeKey (hg.own r hentry)]
    rcases g.removeKey r k with _ | g' <;> rfl

theorem only_removeClientIfExists (hg : g.Splits σ) (k : ClientKey) :
    (g.only σ).removeClientIfExists σ.canister k =
      ((g.removeClientIfExists σ.canister k).1.only σ, (g.removeClientIfExists σ.canister k).2) := by
  unfold removeClientIfExists
  rw [only_lookup]
  rcases hentry : g.data.lookup σ.canister with _ | r
  · rfl
  · dsimp only
    rw [only_removeKey (hg.own r hentry)]
    rcases g.removeKey r k with _ | g' <;> rfl

theorem only_removeCanisterIfEmpty (hg : g.Splits σ) :
    (g.only σ).removeCanisterIfEmpty σ.canister =
      ((g.removeCanisterIfEmpty σ.canister).1.only σ, (g.removeCanisterIfEmpty σ.canister).2) := by
  unfold removeCanisterIfEmpty
  rw [only_lookup]
  rcases hentry : g.data.lookup σ.canister with _ | r
  · rfl
  · have hr := hg.own r hentry
    dsimp only
    rw [only_clients hr]
    by_cases hempty : g.clients r = ∅
    · rw [if_pos hempty, if_pos hempty, only_removeEntry hr]
    · rw [if_neg hempty, if_neg hempty]

theorem only_removeFailedCanister (hg : g.Splits σ) :
    (g.only σ).removeFailedCanister σ.canister = (g.removeFailedCanister σ.canister).map (·.only σ) := by
  unfold removeFailedCanister
  rw [only_lookup]
  rcases hentry : g.data.lookup σ.canister with _ | r
  · rfl
  · dsimp only
    rw [← only_removeEntry (hg.own r hentry)]
    rfl

theorem only_insert_entry (hg : g.Splits σ) (hentry : g.data.lookup σ.canister ≠ none) (k : ClientKey)
    (tx : Sender) : (g.only σ).insertClientChannelAndGetNewPollerState σ.canister k tx =
      ((g.insertClientChannelAndGetNewPollerState σ.canister k tx).1.only σ,
        (g.insertClientChannelAndGetNewPollerState σ.canister k tx).2) := by
  obtain ⟨r, hr⟩ := Option.ne_none_iff_exists'.mp hentry
  have href := hg.own r hr
  unfold insertClientChannelAndGetNewPollerState
  rw [only_lookup, hr]
  dsimp only
  rw [only_clients href, only_setClients href]

/-- A new poller state joins the share. -/
theorem only_insert_new (hnone : g.data.lookup σ.canister = none) (k : ClientKey) (tx : Sender) :
    (g.only σ).insertClientChannelAndGetNewPollerState σ.canister k tx =
      ((g.insertClientChannelAndGetNewPollerState σ.canister k tx).1.only
        { σ with refs := insert g.nextRef σ.refs },
        (g.insertClientChannelAndGetNewPollerState σ.canister k tx).2) := by
  unfold insertClientChannelAndGetNewPollerState
  rw [only_lookup, hnone]
  refine Prod.ext (GatewayState.ext ?_ ?_ ?_ rfl) rfl
  · exact (FiniteMap.only_insert g.data σ.canister g.nextRef).symm
  · exact (cut_insert _).symm
  · exact (cut_insert _).symm

/-! ### Operations of the others -/

theorem others_setClients (hr : r ∉ σ.refs) (m : Clients) : (g.setClients r m).only σ = g.only σ := by
  refine GatewayState.ext rfl ?_ rfl rfl
  exact cut_update_outside hr m

theorem others_dropArc (hr : r ∉ σ.refs) : (g.dropArc r).only σ = g.only σ := by
  refine GatewayState.ext rfl rfl ?_ rfl
  exact cut_update_outside hr _

theorem others_dropToken {t : Option PollerRef} (ht : ∀ r, t = some r → r ∉ σ.refs) :
    (g.dropToken t).only σ = g.only σ := by
  cases t with
  | none => rfl
  | some r => exact others_dropArc (ht r rfl)

theorem others_removeEntry (hc : c ≠ σ.canister) (hr : r ∉ σ.refs) : (g.removeEntry c r).only σ = g.only σ := by
  show (({ g with data := g.data.erase c } : GatewayState).dropArc r).only σ = _
  rw [others_dropArc hr]
  refine GatewayState.ext ?_ rfl rfl rfl
  exact FiniteMap.only_congr (Finmap.lookup_erase_ne (Ne.symm hc))

theorem others_struck (hg : g.Splits σ) (hc : c ≠ σ.canister) (k : ClientKey) :
    (g.struck c k).only σ = g.only σ := by
  unfold struck removeKey
  rcases hentry : g.data.lookup c with _ | r
  · rfl
  · dsimp only
    rcases (g.clients r).lookup k with _ | x
    · rfl
    · exact others_setClients (hg.other c r hc hentry) _

/-- An insert for another canister may use up a number. -/
theorem others_insert (hg : g.Splits σ) (hnext : g.nextRef ∉ σ.refs) (hc : c ≠ σ.canister) (k : ClientKey)
    (tx : Sender) : (g.insertClientChannelAndGetNewPollerState c k tx).1.only σ =
      { g.only σ with nextRef := (g.insertClientChannelAndGetNewPollerState c k tx).1.nextRef } := by
  unfold insertClientChannelAndGetNewPollerState
  rcases hentry : g.data.lookup c with _ | r
  · refine GatewayState.ext ?_ ?_ ?_ rfl
    · exact FiniteMap.only_congr (Finmap.lookup_insert_of_ne _ (Ne.symm hc))
    · exact cut_update_outside hnext _
    · exact cut_update_outside hnext _
  · exact others_setClients (hg.other c r hc hentry) _

end GatewayState

end IcWsGateway
