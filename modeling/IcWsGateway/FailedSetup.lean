/-
# A `Setup` whose relay fails

When the first envelope of a client cannot be relayed, the handler removes the
client again. That undoes the registration, whatever the other sessions and the
pollers have done meanwhile (`beside`). It does not undo all that the insert has
done: the handler alone holds the token to start the poller of an entry that the
insert has made, the token is dropped with the handler's local variables, and the
entry stays without a poller; and a poller that looks for emptiness while the
client is alone in its canister keeps an entry that it would have removed. Where
neither happens, every entry has a poller that runs or is about to be started, and
a failed `Setup` leaves the gateway map as it would be without that session
(`failed_setup_rolled_back`).

Key definitions: `FailedSetup`, `Struck`, `Undone`, `looksAlone`.
Key theorems: `beside`, `entries_beside`, `failed_setup_rolled_back`.
-/
import IcWsGateway.Attendance
import IcWsGateway.Delivery
import IcWsGateway.Rosters

namespace IcWsGateway

variable {cfg : Config} {s w w' : World} {h g : List (World × Event)} {e : Event} {i : ClientId}
  {c : CanisterPrincipal} {k : ClientKey} {r : PollerRef} {p : PollerId}

/-! ### Undoing an insert -/

/-- The poller of `c` looks for emptiness while `k` is its only client. -/
def looksAlone (c : CanisterPrincipal) (k : ClientKey) : World × Event → Prop
  | (w, .checkTerminate p) => (∃ q, w.pollers p = some q ∧ q.canisterId = c) ∧
      w.gateway.rosters c k ≠ none ∧ ∀ k', k' ≠ k → w.gateway.rosters c k' = none
  | _ => False

/-- In the history `h` the session `i` inserts the new client `k` of `c` in `s`; the
relay of its first envelope fails during `g`; and the cleanup leads from `v` to `v'`. -/
structure FailedSetup (cfg : Config) (h : List (World × Event)) (i : ClientId) (c : CanisterPrincipal)
    (k : ClientKey) (s : World) (g : List (World × Event)) (v v' : World) : Prop where
  history : ∃ h₁ h₂, h = h₁ ++ (s, .commit i) :: (g ++ (v, .commit i) :: h₂)
  between : ∀ x ∈ g, x.2 ≠ .commit i
  setup : ∃ m tx, (s.handlers i).phase = .setup m c k tx
  failed : ∃ x t, (v.handlers i).phase = .rollback x c k t
  cleanup : step cfg v (.commit i) = some v'
  /-- nobody is registered under the key yet -/
  newKey : s.gateway.rosters c k = none
  /-- nor does another session have it -/
  ownKey : ∀ j, j ≠ i → (v.handlers j).session.canisterId = some c →
    (v.handlers j).session.clientKey ≠ some k

/-- The clients registered in `v` are those that the operations of `g` make of the ones
in `s`; no entry is missing; and an entry too many has nobody left. -/
structure Struck (s : World) (g : List (World × Event)) (v : World) : Prop where
  clients : v.gateway.rosters = (replay g s.gateway).rosters
  kept : ∀ c, (replay g s.gateway).data.lookup c ≠ none → v.gateway.data.lookup c ≠ none
  vacant : ∀ c, (replay g s.gateway).data.lookup c = none → ∀ k, v.gateway.rosters c k = none

/-- The gateway map in `v` is what the operations of `g` make of the one in `s`: the
same clients are registered with each canister, at the same entries. -/
structure Undone (s : World) (g : List (World × Event)) (v : World) : Prop extends Struck s g v where
  entries : v.gateway.data = (replay g s.gateway).data

/-- Only a session with that key inserts or removes the client. -/
theorem mapOp_touches (hw : Sound w) {o : MapOp} (ho : mapOp (w, e) = some o) (ht : o.Touches c k) :
    ∃ j, e = .commit j ∧ (w.handlers j).session.canisterId = some c ∧
      (w.handlers j).session.clientKey = some k := by
  cases e with
  | commit j =>
    have hkeys : ∀ {c' k'}, (w.handlers j).Keyed c' k' → c' = c ∧ k' = k →
        (w.handlers j).session.canisterId = some c ∧ (w.handlers j).session.clientKey = some k := by
      rintro c' k' hk ⟨rfl, rfl⟩
      exact ⟨hk.canisterId, hk.clientKey⟩
    refine ⟨j, rfl, ?_⟩
    have hwf := hw.wf j
    simp only [mapOp] at ho
    split at ho <;> cases ho <;> rename_i hph
    · exact hkeys (hwf.setup hph).2.1 ht
    · exact hkeys (hwf.rollback hph) ht
    · exact hkeys (hwf.closed hph) ht
    · exact hkeys (hwf.failed hph) ht
  | checkTerminate p =>
    simp only [mapOp, Option.map_eq_some_iff] at ho
    obtain ⟨q, -, rfl⟩ := ho
    exact ht.elim
  | removeFailed p =>
    simp only [mapOp, Option.map_eq_some_iff] at ho
    obtain ⟨q, -, rfl⟩ := ho
    exact ht.elim
  | _ => cases ho

/-- **Beside the run**: while nobody touches the new client `k` of `c`, the same
operations without it register everybody else. -/
theorem beside (hs : Sound s) (hw : Sound w) (hr : LTS.Run (step cfg) w g w') {x : Option ClientSender}
    (hins : w.gateway.rosters = s.gateway.rosters.set c k x) (hnew : s.gateway.rosters c k = none)
    (hos : ∀ x ∈ g, ∀ o, mapOp x = some o → ¬ o.Touches c k) :
    (replay g s.gateway).rosters = w'.gateway.rosters.set c k none := by
  have hos' : ∀ o ∈ g.filterMap mapOp, ¬ o.Touches c k := by
    intro o ho
    obtain ⟨x, hx, hxo⟩ := List.mem_filterMap.mp ho
    exact hos x hx o hxo
  have hclear : w.gateway.rosters.set c k none = s.gateway.rosters := by
    rw [hins, Rosters.set_set, Rosters.set_of_eq hnew]
  calc (replay g s.gateway).rosters
      = (g.filterMap mapOp).foldl (fun R o => o.onRosters R) s.gateway.rosters :=
        (rosters_replay hs.tidy g).2
    _ = (g.filterMap mapOp).foldl (fun R o => o.onRosters R) (w.gateway.rosters.set c k none) := by
        rw [hclear]
    _ = ((g.filterMap mapOp).foldl (fun R o => o.onRosters R) w.gateway.rosters).set c k none :=
        foldl_clear hos' _
    _ = w'.gateway.rosters.set c k none := by rw [rosters_run hr hw]

/-- A canister has somebody left beside the new client as it has without it, unless
that client is alone. -/
theorem nobody_beside {R : Rosters} {c' : CanisterPrincipal}
    (halone : c' = c → ¬ (R c k ≠ none ∧ ∀ k', k' ≠ k → R c k' = none)) :
    (∀ k', R.set c k none c' k' = none) ↔ ∀ k', R c' k' = none := by
  constructor
  · intro hnone k'
    by_cases hk : c' = c ∧ k' = k
    · obtain ⟨rfl, rfl⟩ := hk
      by_contra hsome
      refine halone rfl ⟨hsome, fun k₁ hne => ?_⟩
      have h1 := hnone k₁
      rwa [Rosters.set_apply, if_neg (fun h => hne h.2)] at h1
    · have h1 := hnone k'
      rwa [Rosters.set_apply, if_neg hk] at h1
  · intro hnone k'
    rw [Rosters.set_apply]
    split_ifs
    · rfl
    · exact hnone k'

theorem mapOp_check (ho : mapOp (w, e) = some (.check c)) :
    ∃ p q, e = .checkTerminate p ∧ w.pollers p = some q ∧ q.canisterId = c := by
  cases e with
  | commit j =>
    simp only [mapOp] at ho
    split at ho <;> cases ho
  | checkTerminate p =>
    simp only [mapOp, Option.map_eq_some_iff] at ho
    obtain ⟨q, hq, hqc⟩ := ho
    cases hqc
    exact ⟨p, q, rfl, hq, rfl⟩
  | removeFailed p =>
    simp only [mapOp, Option.map_eq_some_iff] at ho
    obtain ⟨q, -, hqc⟩ := ho
    cases hqc
  | _ => cases ho

/-- No canister has an entry without the new client only. -/
theorem kept_beside (hs : Sound s) (hw : Sound w) (hr : LTS.Run (step cfg) w g w')
    {x : Option ClientSender} (hins : w.gateway.rosters = s.gateway.rosters.set c k x)
    (hnew : s.gateway.rosters c k = none)
    (hsub : ∀ c, s.gateway.data.lookup c ≠ none → w.gateway.data.lookup c ≠ none)
    (hos : ∀ x ∈ g, ∀ o, mapOp x = some o → ¬ o.Touches c k) :
    ∀ c, (replay g s.gateway).data.lookup c ≠ none → w'.gateway.data.lookup c ≠ none := by
  induction hr with
  | nil => exact hsub
  | @snoc g t t' e hr he ih =>
    have hos' : ∀ x ∈ g, ∀ o, mapOp x = some o → ¬ o.Touches c k :=
      fun x hx => hos x (List.mem_append_left _ hx)
    have hkept := ih hos'
    have hR := beside hs hw hr hins hnew hos'
    have hstep := (step_mapOp he).data
    rw [replay_snoc, hstep]
    rcases ho : mapOp (t, e) with _ | o
    · exact hkept
    · refine o.run_entry_mono hkept fun c' hnone k' => ?_
      rw [hR, Rosters.set_apply]
      split_ifs
      · rfl
      · exact hnone k'

/-- The entries are the same, if no poller takes the new client for a reason to stay. -/
theorem entries_beside (hs : Sound s) (hw : Sound w) (hr : LTS.Run (step cfg) w g w')
    {x : Option ClientSender} (hins : w.gateway.rosters = s.gateway.rosters.set c k x)
    (hnew : s.gateway.rosters c k = none) (hd : w.gateway.data = s.gateway.data)
    (hn : w.gateway.nextRef = s.gateway.nextRef)
    (hos : ∀ x ∈ g, ∀ o, mapOp x = some o → ¬ o.Touches c k) (hla : ∀ x ∈ g, ¬ looksAlone c k x) :
    w'.gateway.data = (replay g s.gateway).data ∧ w'.gateway.nextRef = (replay g s.gateway).nextRef := by
  induction hr with
  | nil => exact ⟨hd, hn⟩
  | @snoc g t t' e hr he ih =>
    have hos' : ∀ x ∈ g, ∀ o, mapOp x = some o → ¬ o.Touches c k :=
      fun x hx => hos x (List.mem_append_left _ hx)
    obtain ⟨hd', hn'⟩ := ih hos' fun x hx => hla x (List.mem_append_left _ hx)
    have hR := beside hs hw hr hins hnew hos'
    have hstep := step_mapOp he
    rw [replay_snoc, hstep.data, hstep.nextRef]
    rcases ho : mapOp (t, e) with _ | o
    · exact ⟨hd', hn'⟩
    · have hempty : ∀ c', o = .check c' → ((∀ k', (replay g s.gateway).rosters c' k' = none) ↔
          ∀ k', t.gateway.rosters c' k' = none) := by
        rintro c' rfl
        obtain ⟨p, q, rfl, hq, hqc⟩ := mapOp_check ho
        rw [hR]
        refine nobody_beside fun hcc halone => hla (t, .checkTerminate p) (by simp) ?_
        exact ⟨⟨q, hq, hqc.trans hcc⟩, halone⟩
      obtain ⟨h1, h2⟩ := o.run_data hd'.symm hn'.symm hempty
      exact ⟨h1.symm, h2.symm⟩

/-! ### A look at a client that is alone -/

/-- As many entries are made without the new client, or more. -/
theorem nextRef_beside (hs : Sound s) (hw : Sound w) (hr : LTS.Run (step cfg) w g w')
    {x : Option ClientSender} (hins : w.gateway.rosters = s.gateway.rosters.set c k x)
    (hnew : s.gateway.rosters c k = none)
    (hsub : ∀ c, s.gateway.data.lookup c ≠ none → w.gateway.data.lookup c ≠ none)
    (hn : w.gateway.nextRef ≤ s.gateway.nextRef)
    (hos : ∀ x ∈ g, ∀ o, mapOp x = some o → ¬ o.Touches c k) :
    w'.gateway.nextRef ≤ (replay g s.gateway).nextRef := by
  induction hr with
  | nil => exact hn
  | @snoc g t t' e hr he ih =>
    have hos' : ∀ x ∈ g, ∀ o, mapOp x = some o → ¬ o.Touches c k :=
      fun x hx => hos x (List.mem_append_left _ hx)
    have hkept := kept_beside hs hw hr hins hnew hsub hos'
    rw [replay_snoc, (step_mapOp he).nextRef]
    rcases mapOp (t, e) with _ | o
    · exact ih hos'
    · exact o.run_nextRef_le hkept (ih hos')

/-- A look at a client that is alone keeps the entry, which would be removed without it. -/
theorem looksAlone_entry (he : step cfg w e = some w') (hla : looksAlone c k (w, e))
    {g : GatewayState} (hg : g.rosters = w.gateway.rosters.set c k none) :
    (∃ r, w.gateway.data.lookup c = some r ∧ w'.gateway.data.lookup c = some r) ∧
      (replay [(w, e)] g).data.lookup c = none := by
  cases e with
  | checkTerminate p =>
    obtain ⟨⟨q, hq, rfl⟩, hk, halone⟩ := hla
    have ho : mapOp (w, .checkTerminate p) = some (.check q.canisterId) := mapOp_checkTerminate hq
    have hentry : w.gateway.data.lookup q.canisterId ≠ none := fun hn => hk (GatewayState.rosters_none hn k)
    have hnot : ¬ removesEntry q.canisterId (w, .checkTerminate p) := by
      intro hrm
      have hgone := (removesEntry_entry he hrm).2
      have hrun := (step_mapOp he).data
      rw [ho] at hrun
      rw [hrun] at hgone
      have hstays := ((MapOp.check q.canisterId).run_entry w.gateway q.canisterId).mpr
        ⟨hentry, fun h => hk (h.2 k)⟩
      exact hstays hgone
    obtain ⟨r, hr⟩ := Option.ne_none_iff_exists'.mp hentry
    refine ⟨⟨r, hr, ?_⟩, ?_⟩
    · rw [entry_unchanged he nofun hnot, hr]
    · have hnobody : ∀ k', g.rosters q.canisterId k' = none := by
        intro k'
        rw [hg, Rosters.set_apply]
        split_ifs with hk'
        · rfl
        · exact halone k' fun h => hk' ⟨rfl, h⟩
      by_contra hne
      have hrun : replay [(w, .checkTerminate p)] g = (MapOp.check q.canisterId).run g := by
        rw [replay, List.filterMap_cons_some ho]
        rfl
      rw [hrun] at hne
      exact (((MapOp.check q.canisterId).run_entry g q.canisterId).mp hne).2 ⟨rfl, hnobody⟩
  | _ => exact hla.elim

/-- An entry that nobody removes stays. -/
theorem entry_stays (hr : LTS.Run (step cfg) s h w) (hl : s.gateway.data.lookup c = some r)
    (hno : ∀ x ∈ h, ¬ removesEntry c x) : w.gateway.data.lookup c = some r := by
  induction hr with
  | nil => exact hl
  | @snoc h t t' e hr he ih =>
    have ih := ih fun x hx => hno x (List.mem_append_left _ hx)
    have hins : ¬ insertsNew c (t, e) := by
      intro hi
      have hn := (insertsNew_entry he hi).1
      rw [ih] at hn
      cases hn
    rw [entry_unchanged he hins (hno (t, e) (by simp)), ih]

/-! ### The handler between the insert and the cleanup -/

/-- The handler has inserted its client and has not got past the relay. -/
def Phase.opening : Phase → Bool
  | .relayingOpen .. | .rollback .. => true
  | _ => false

theorem dispatch_opening (h : Handler) (r : Outcome IcWsError (Option IcWsSessionState)) :
    (h.dispatch r).phase.opening = false := by
  unfold Handler.dispatch
  split
  · rfl
  · rfl
  · rfl
  · split <;> rfl
  · split <;> rfl
  · split <;> rfl
  · rfl
  · split <;> rfl

/-- The token that is dropped in the cleanup is the one that the insert has returned,
so there is none. -/
theorem no_token (hr : LTS.Run (step cfg) w g w') {m : Message} {t t' : Option PollerRef} {x : IcWsError}
    {c' : CanisterPrincipal} {k' : ClientKey} (hph : (w.handlers i).phase = .relayingOpen m c k t)
    (hbetween : ∀ x ∈ g, x.2 ≠ .commit i) (hok : ∀ x ∈ g, ¬ abandons cfg x)
    (hph' : (w'.handlers i).phase = .rollback x c' k' t') : t = none := by
  have hI : (w'.handlers i).phase = .relayingOpen m c k t ∨ t = none ∨
      (w'.handlers i).phase.opening = false := by
    clear hph'
    induction hr with
    | nil => exact Or.inl hph
    | @snoc g u u' e hr he ih =>
      have hne : e ≠ .commit i := hbetween (u, e) (by simp)
      have hok' : ¬ abandons cfg (u, e) := hok (u, e) (by simp)
      have hs := step_handler he i
      obtain hu | hu | hu := ih (fun x hx => hbetween x (List.mem_append_left _ hx))
        fun x hx => hok x (List.mem_append_left _ hx)
      · generalize u'.handlers i = h' at hs ⊢
        cases hs with
        | other | push => exact Or.inl hu
        | relayOpen phase | relayOpenPanic phase => exact Or.inr (Or.inr rfl)
        | relayOpenFail phase relayed =>
          rw [hu] at phase
          cases phase
          rcases t with _ | r
          · exact Or.inr (Or.inl rfl)
          · exact absurd (abandons_relayOpen hu relayed) hok'
        | insert | rollback | remove | removePanic | removeIfExists | removeVacant => exact absurd rfl hne
        | readWs phase | recv phase | cutOff phase | update phase | startPoller phase | wsClosed phase =>
          rw [hu] at phase
          cases phase
      · exact Or.inr (Or.inl hu)
      · refine Or.inr (Or.inr ?_)
        generalize u'.handlers i = h' at hs ⊢
        cases hs with
        | other | push => exact hu
        | update => exact dispatch_opening ..
        | insert => exact absurd rfl hne
        | relayOpenFail phase =>
          rw [phase] at hu
          cases hu
        | _ => rfl
  rw [hph'] at hI
  obtain hI | hI | hI := hI
  · cases hI
  · exact hI
  · cases hI

/-! ### A failed `Setup` is undone -/

section Undo

variable {v v' : World}

/-- What happens between the insert and the cleanup touches other clients only. -/
theorem FailedSetup.window (hf : FailedSetup cfg h i c k s g v v') (hr : Runs cfg h w) :
    Sound s ∧ ∃ s', step cfg s (.commit i) = some s' ∧ Sound s' ∧ LTS.Run (step cfg) s' g v ∧
      ∀ x ∈ g, ∀ o, mapOp x = some o → ¬ o.Touches c k := by
  obtain ⟨h₁, h₂, rfl⟩ := hf.history
  obtain ⟨hr₁, s', hs', hr₂⟩ := hr.at_event
  obtain ⟨hr₃, -⟩ := hr₂.at_event
  have hs : Sound s := reachable hr₁
  refine ⟨hs, s', hs', hs.step hs', hr₃, ?_⟩
  rintro ⟨u, e⟩ hx o ho ht
  obtain ⟨g₁, g₂, rfl⟩ := List.append_of_mem hx
  obtain ⟨hr₄, u', hu, hr₅⟩ := hr₃.at_event
  have hsu : Sound u := hr₄.stable (fun _ _ _ hI he => hI.step he) (hs.step hs')
  obtain ⟨j, rfl, hcj, hkj⟩ := mapOp_touches hsu ho ht
  by_cases hj : j = i
  · exact hf.between (u, .commit j) hx (by rw [hj])
  · obtain ⟨hcv, hkv⟩ := keys_keep (LTS.run_cons hu hr₅) hsu hcj hkj
    exact hf.ownKey j hj hcv hkv

/-- The insert enters the new client. It removes no entry, and leaves the entries as they
are if there is one. -/
theorem FailedSetup.inserted (hf : FailedSetup cfg h i c k s g v v') (hs : Sound s) {s' : World}
    (hs' : step cfg s (.commit i) = some s') :
    (∃ x, s'.gateway.rosters = s.gateway.rosters.set c k x) ∧
      (∀ c', s.gateway.data.lookup c' ≠ none → s'.gateway.data.lookup c' ≠ none) ∧
      (s.gateway.data.lookup c ≠ none →
        s'.gateway.data = s.gateway.data ∧ s'.gateway.nextRef = s.gateway.nextRef) := by
  obtain ⟨m, tx, hph⟩ := hf.setup
  obtain ⟨-, hg, -, -⟩ := commit_setup hs hph hs'
  refine ⟨⟨some ⟨tx⟩, ?_⟩, fun c' hc' => ?_, fun hl => ?_⟩
  · rw [hg]
    exact MapOp.insert_rosters hs.tidy c k tx
  · rw [hg, insert_lookup]
    split_ifs
    · nofun
    · exact hc'
  · obtain ⟨r, hr⟩ := Option.ne_none_iff_exists'.mp hl
    rw [hg, GatewayState.insertClientChannelAndGetNewPollerState, hr]
    exact ⟨rfl, rfl⟩

/-- The cleanup takes the client off the roster, and nothing else. -/
theorem FailedSetup.cleanup_map (hf : FailedSetup cfg h i c k s g v v') (hr : Runs cfg h w) :
    v'.gateway.rosters = v.gateway.rosters.set c k none ∧ v'.gateway.data = v.gateway.data := by
  obtain ⟨-, s', -, hs', hrun, -⟩ := hf.window hr
  have hv : Sound v := hrun.stable (fun _ _ _ hI he => hI.step he) hs'
  obtain ⟨x, t, hph⟩ := hf.failed
  have ho : mapOp (v, .commit i) = some (.strike c k) := mapOp_removing (Or.inr ⟨x, t, hph⟩)
  have hro := step_rosters hv hf.cleanup
  have hmap := (step_mapOp hf.cleanup).data
  rw [ho] at hro hmap
  refine ⟨hro, hmap.trans ?_⟩
  exact struck_data ..

/-- The clients are those of a run without the session, whatever happens. -/
theorem FailedSetup.struck (hf : FailedSetup cfg h i c k s g v v') (hr : Runs cfg h w) : Struck s g v' := by
  obtain ⟨hs, s', hs', hss, hrun, hos⟩ := hf.window hr
  obtain ⟨⟨x, hins⟩, hsub, -⟩ := hf.inserted hs hs'
  obtain ⟨hro, hd⟩ := hf.cleanup_map hr
  have hrosters : v'.gateway.rosters = (replay g s.gateway).rosters := by
    rw [hro]
    exact (beside hs hss hrun hins hf.newKey hos).symm
  refine ⟨hrosters, ?_, fun c hnone k => ?_⟩
  · rw [hd]
    exact kept_beside hs hss hrun hins hf.newKey hsub hos
  · rw [hrosters]
    exact GatewayState.rosters_none hnone k

/-- Where no entry is left without a poller, the client has joined an entry: there is no
token to drop. -/
theorem FailedSetup.joins (hf : FailedSetup cfg h i c k s g v v') (hr : Runs cfg h w)
    (hok : ∀ x ∈ h, ¬ abandons cfg x) : s.gateway.data.lookup c ≠ none := by
  obtain ⟨hs, s', hs', -, hrun, -⟩ := hf.window hr
  obtain ⟨m, tx, hph⟩ := hf.setup
  obtain ⟨-, -, hph', -⟩ := commit_setup hs hph hs'
  obtain ⟨x, t, hphv⟩ := hf.failed
  have hsub : ∀ y ∈ g, ¬ abandons cfg y := by
    obtain ⟨h₁, h₂, rfl⟩ := hf.history
    exact fun y hy => hok y (by simp [hy])
  have hnone := no_token hrun hph' hf.between hsub hphv
  intro hn
  have hsome := (insert_isSome s.gateway c k tx).mpr hn
  rw [hnone] at hsome
  cases hsome

/-- **A failed `Setup` is undone** where no entry is left without a poller and no poller
looks for emptiness while the client is alone. -/
theorem FailedSetup.undone (hf : FailedSetup cfg h i c k s g v v') (hr : Runs cfg h w)
    (hok : ∀ x ∈ h, ¬ abandons cfg x) (hla : ∀ x ∈ g, ¬ looksAlone c k x) : Undone s g v' := by
  refine ⟨hf.struck hr, ?_⟩
  obtain ⟨hs, s', hs', hss, hrun, hos⟩ := hf.window hr
  obtain ⟨⟨x, hins⟩, -, hsame⟩ := hf.inserted hs hs'
  obtain ⟨hdata, hnext⟩ := hsame (hf.joins hr hok)
  rw [(hf.cleanup_map hr).2]
  exact (entries_beside hs hss hrun hins hf.newKey hdata hnext hos hla).1

/-- A poller that has looked while the client was alone has kept the entry, unless it was
removed later. -/
theorem FailedSetup.removed_later (hf : FailedSetup cfg h i c k s g v v') (hr : Runs cfg h w)
    (hok : ∀ x ∈ h, ¬ abandons cfg x) (hu : Undone s g v') {g₁ g₂ : List (World × Event)} {x : World × Event}
    (hg : g = g₁ ++ x :: g₂) (hx : looksAlone c k x) : ∃ y ∈ g₂, removesEntry c y := by
  by_contra hno
  push Not at hno
  obtain ⟨hs, s', hs', hss, hrun, hos⟩ := hf.window hr
  obtain ⟨⟨z, hins⟩, hsub, hsame⟩ := hf.inserted hs hs'
  have hnext : s'.gateway.nextRef = s.gateway.nextRef := (hsame (hf.joins hr hok)).2
  obtain ⟨u, e⟩ := x
  subst hg
  obtain ⟨hr₁, u', hu', hr₂⟩ := hrun.at_event
  have hos₁ : ∀ x ∈ g₁, ∀ o, mapOp x = some o → ¬ o.Touches c k := fun x hx => hos x (List.mem_append_left _ hx)
  have hsu : Sound u := hr₁.stable (fun _ _ _ hI he => hI.step he) hss
  have hbeside := beside hs hss hr₁ hins hf.newKey hos₁
  obtain ⟨⟨r, hl, hl'⟩, hgone⟩ := looksAlone_entry hu' hx hbeside
  have hsplit : replay (g₁ ++ (u, e) :: g₂) s.gateway = replay g₂ (replay [(u, e)] (replay g₁ s.gateway)) := by
    rw [← replay_append, ← replay_append, List.singleton_append]
  have hv : v'.gateway.data.lookup c = some r := by
    rw [(hf.cleanup_map hr).2]
    exact entry_stays hr₂ hl' fun y hy => hno y hy
  rw [hu.entries, hsplit] at hv
  -- the entry that stays is older than any that the others make
  have holder : r < r :=
    calc r < u.gateway.nextRef := hsu.tidy.lt c r hl
      _ ≤ (replay g₁ s.gateway).nextRef :=
        nextRef_beside hs hss hr₁ hins hf.newKey hsub hnext.le hos₁
      _ ≤ (replay [(u, e)] (replay g₁ s.gateway)).nextRef := replay_nextRef_le _ _
      _ ≤ r := replay_newer hgone g₂ r hv
  exact Nat.lt_irrefl r holder

/-- **A failed `Setup` is rolled back where no entry loses its poller and no poller looks
while the client is alone.** In a run in which no relay of a first envelope fails in a
handler that holds the token to start the poller, and no poller panics, every failed
`Setup` leaves the gateway map as it would be without that session, if no poller of its
canister looks for emptiness while its client is alone; and exactly in these runs every
entry has at all times a poller that runs or is about to be started. A look at the client
alone leaves an entry that would not be there, unless it is removed before the cleanup.
In any case the registered clients are those of a run without that session. -/
theorem failed_setup_rolled_back (hr : Runs cfg h w) :
    ((∀ x ∈ h, ¬ abandons cfg x) → ∀ i c k s g v v', FailedSetup cfg h i c k s g v v' →
      (∀ x ∈ g, ¬ looksAlone c k x) → Undone s g v') ∧
    ((∀ g v, g <+: h → Runs cfg g v → v.Served) ↔ ∀ x ∈ h, ¬ abandons cfg x) ∧
    ((∀ x ∈ h, ¬ abandons cfg x) → ∀ i c k s g v v', FailedSetup cfg h i c k s g v v' → Undone s g v' →
      ∀ g₁ x g₂, g = g₁ ++ x :: g₂ → looksAlone c k x → ∃ y ∈ g₂, removesEntry c y) ∧
    ∀ i c k s g v v', FailedSetup cfg h i c k s g v v' → Struck s g v' := by
  refine ⟨fun hok i c k s g v v' hf hla => hf.undone hr hok hla, ⟨fun hserved => ?_, fun hok g v hpre hg => ?_⟩,
    fun hok i c k s g v v' hf hu g₁ x g₂ hg hx => hf.removed_later hr hok hu hg hx,
    fun i c k s g v v' hf => hf.struck hr⟩
  · rintro ⟨t, e⟩ hx ha
    obtain ⟨h₁, h₂, rfl⟩ := List.append_of_mem hx
    obtain ⟨hr₁, t', he, -⟩ := hr.at_event
    have hpre : h₁ ++ [(t, e)] <+: h₁ ++ (t, e) :: h₂ := ⟨h₂, by simp⟩
    exact abandons_unserved (reachable hr₁) he ha (hserved _ t' hpre (hr₁.snoc he))
  · exact served_run hg fun x hx => hok x (hpre.subset hx)

end Undo

/-! ### Two runs -/

/-- The events of a session whose first envelope cannot be relayed. -/
def failsToOpen (i : ClientId) (m : Message) : List Event :=
  [.readWs i (.ok m), .update i .ok, .lock i, .commit i,
    .relayOpen i { socket := .ok (), cbor := .error (.value "io") }, .lock i, .commit i]

/-- A client is about to join the entry of another. -/
def aboutToJoin (c : CanisterPrincipal) : List Event :=
  opens 0 (wsOpen c ⟨[1], 1⟩) ++ [.readWs 1 (.ok (wsOpen c ⟨[2], 2⟩)), .update 1 .ok, .lock 1]

/-- Its first envelope cannot be relayed, and the poller of the other looks for emptiness. -/
def failsMeanwhile : List Event :=
  [polls 0 [], .relayOpen 1 { socket := .ok (), cbor := .error (.value "io") }, .wake 0, .checkTerminate 0, .lock 1]

/-- A client whose `Setup` fails joins the entry of another. -/
def failsToJoin (c : CanisterPrincipal) : List Event :=
  aboutToJoin c ++ .commit 1 :: (failsMeanwhile ++ [.commit 1])

set_option maxRecDepth 20000 in
/-- After the cleanup the gateway map is as if only the other had come. -/
theorem failed_setup_rolled_back_joined :
    Undone (World.after .simple (aboutToJoin [9]))
      (LTS.trace (step .simple) (World.after .simple (aboutToJoin [9] ++ [.commit 1])) failsMeanwhile)
      (World.after .simple (failsToJoin [9])) := by
  have h₁ : (LTS.exec (step .simple) World.new (aboutToJoin [9])).isSome := by decide
  have h₂ : (LTS.exec (step .simple) World.new (aboutToJoin [9] ++ .commit 1 :: failsMeanwhile)).isSome := by decide
  have hes : (LTS.exec (step .simple) World.new (failsToJoin [9])).isSome := by decide
  have hs : step .simple (World.after .simple (aboutToJoin [9])) (.commit 1) =
      some (World.after .simple (aboutToJoin [9] ++ [.commit 1])) := step_after (by decide)
  have hg : LTS.exec (step .simple) (World.after .simple (aboutToJoin [9] ++ [.commit 1])) failsMeanwhile =
      some (World.after .simple (aboutToJoin [9] ++ [.commit 1] ++ failsMeanwhile)) := exec_more (by decide)
  have hv : step .simple (World.after .simple (aboutToJoin [9] ++ [.commit 1] ++ failsMeanwhile)) (.commit 1) =
      some (World.after .simple (failsToJoin [9])) := step_after (by decide)
  have htrace : LTS.trace (step .simple) World.new (failsToJoin [9]) = _ ++ _ :: _ := trace_after h₁ hs
  rw [LTS.trace_append _ hg] at htrace
  have hd : DistinctKeys (World.after .simple (aboutToJoin [9] ++ [.commit 1] ++ failsMeanwhile)) :=
    distinctKeys_after h₂ 2 (by decide) (by decide)
  have hf : FailedSetup .simple (LTS.trace (step .simple) World.new (failsToJoin [9])) 1 [9] ⟨[2], 2⟩
      (World.after .simple (aboutToJoin [9]))
      (LTS.trace (step .simple) (World.after .simple (aboutToJoin [9] ++ [.commit 1])) failsMeanwhile)
      (World.after .simple (aboutToJoin [9] ++ [.commit 1] ++ failsMeanwhile))
      (World.after .simple (failsToJoin [9])) := by
    refine ⟨⟨LTS.trace (step .simple) World.new (aboutToJoin [9]), [], ?_⟩, fun x hx he => ?_, ⟨wsOpen [9] ⟨[2], 2⟩, 1, by decide⟩, ⟨_, none, rfl⟩, hv, by decide,
      fun j hj hc hk => ?_⟩
    · rw [htrace]
      simp only [LTS.trace, hv]
    · have hmem := LTS.mem_trace hx
      rw [he] at hmem
      revert hmem
      simp [failsMeanwhile, polls]
    · exact hj (hd j 1 [9] ⟨[2], 2⟩ hc hk (by decide) (by decide))
  refine (failed_setup_rolled_back (runs_after hes)).1 (by decide) 1 [9] ⟨[2], 2⟩ _ _ _ _ hf ?_
  -- the other client is registered whenever the poller looks
  have hother : ∀ x ∈ LTS.trace (step .simple) (World.after .simple (aboutToJoin [9] ++ [.commit 1])) failsMeanwhile,
      x.1.gateway.rosters [9] ⟨[1], 1⟩ ≠ none := by decide
  rintro ⟨u, e⟩ hx hla
  cases e with
  | checkTerminate p => exact hother _ hx (hla.2.2 ⟨[1], 1⟩ (by decide))
  | _ => exact hla.elim

/-- A client whose `Setup` fails makes the entry, and another joins it. -/
def failsAndIsJoined (c : CanisterPrincipal) : List Event :=
  failsToOpen 0 (wsOpen c ⟨[1], 1⟩) ++ opens 1 (wsOpen c ⟨[2], 2⟩)

/-- An entry whose poller state has one holder has no poller. -/
theorem unserved_of_strong (hw : Sound w) (hl : w.gateway.data.lookup c = some r)
    (hone : w.gateway.strong r = 1) : ¬ w.Served := by
  intro hs
  have htwo := (hs.entries c r hl).strong hw
  omega

set_option maxRecDepth 20000 in
/-- After the cleanup the entry is still there, with one holder and no poller: without
the session there would be none. The client that joins it is registered and waits
for messages, and no poller has ever been started. -/
theorem failed_setup_abandons_entry :
    let v := World.after .simple (failsToOpen 0 (wsOpen [9] ⟨[1], 1⟩))
    let w := World.after .simple (failsAndIsJoined [9])
    Runs .simple (LTS.trace (step .simple) World.new (failsAndIsJoined [9])) w ∧
      (v.handlers 0).rxDropped = true ∧ World.new.gateway.data.lookup [9] = none ∧
      v.gateway.data.lookup [9] = some 0 ∧ ¬ v.Served ∧
      (w.handlers 1).phase = .awaiting ∧ w.gateway.rosters [9] ⟨[2], 2⟩ = some ⟨1⟩ ∧
      w.nextPoller = 0 ∧ ¬ w.Served := by
  intro v w
  have hv : Runs .simple _ v := runs_after (by decide)
  have hw : Runs .simple _ w := runs_after (by decide)
  have hlv : v.gateway.data.lookup [9] = some 0 := by decide
  have hlw : w.gateway.data.lookup [9] = some 0 := by decide
  have hsv : v.gateway.strong 0 = 1 := by decide
  have hsw : w.gateway.strong 0 = 1 := by decide
  exact ⟨hw, by decide, by decide, hlv, unserved_of_strong (reachable hv) hlv hsv, by decide, by decide, by decide,
    unserved_of_strong (reachable hw) hlw hsw⟩

end IcWsGateway
