/-
# Telling the canister

The handler of a session calls `ws_close` in the `Closed` arm, after `remove_client`,
and in the `Err` arm only where `remove_client_if_exists` has removed something. A
session whose `ws_open` envelope was relayed stays registered until one of them, unless
its poller fails, so the canister is told about it exactly once; and a call is never
made for a session that is still registered, or that the canister was never told of.

Key definitions: `wsCloseOf`, `relaysOpen`.
Key theorems: `wsCloseOf_iff`, `relayed_of_member`, `wsCloseOf_left`,
`closed_session_told_once`.
-/
import IcWsGateway.ClientMessages
import IcWsGateway.Delivery
import IcWsGateway.PollerFailure

namespace IcWsGateway

variable {cfg : Config} {w w' : World} {h : List (World × Event)} {i : ClientId}
  {c : CanisterPrincipal} {k : ClientKey} {e : Event}

/-! ### The calls -/

/-- `call_ws_close` of session `i`: the canister and the arguments it is called with. -/
def wsCloseOf (i : ClientId) : World × Event → Option (CanisterPrincipal × CanisterWsCloseArguments)
  | (w, .commit j) =>
    if j = i then
      match (w.handlers i).phase with
      | .closed c k =>
        match w.gateway.removeClient c k with
        | .ok _ => some (c, ⟨k⟩)
        | .error _ => none
      | .failed _ c k =>
        match (w.gateway.removeClientIfExists c k).2 with
        | .removed clientKey => some (c, ⟨clientKey⟩)
        | .vacant => none
      | _ => none
    else none
  | _ => none

/-- In the event the `ws_open` envelope of session `i` is relayed. -/
def relaysOpen (i : ClientId) : World × Event → Prop
  | (w, .relayOpen j io) => j = i ∧ ∃ m c k t out, (w.handlers i).phase = .relayingOpen m c k t ∧
      (w.handlers i).session.relayClientMessage m io = (out, .ok ())
  | _ => False

/-- A call is made by a session that is about to leave, with its own keys, which then
awaits it. -/
theorem wsCloseOf_cases (hw : Sound w) (he : step cfg w e = some w')
    {x : CanisterPrincipal × CanisterWsCloseArguments} (hx : wsCloseOf i (w, e) = some x) :
    ∃ c k, x = (c, ⟨k⟩) ∧ (w.handlers i).Keyed c k ∧
      ((w.handlers i).phase = .closed c k ∨ ∃ err, (w.handlers i).phase = .failed err c k) ∧
      ∃ r, (w'.handlers i).phase = .closing c k r := by
  cases e with
  | commit j =>
    simp only [wsCloseOf] at hx
    split_ifs at hx with hj
    subst hj
    split at hx
    · rename_i c k hph
      rcases hrc : w.gateway.removeClient c k with m | g
      · simp [hrc] at hx
      · simp only [hrc, Option.some.injEq] at hx
        simp only [step, World.commit, hph, World.removeClient, hrc] at he
        split_ifs at he
        cases he
        exact ⟨c, k, hx.symm, (hw.wf j).closed hph, Or.inl hph, .ok (), by simp⟩
    · rename_i err c k hph
      rcases hrc : w.gateway.removeClientIfExists c k with ⟨g, k' | ⟨⟩⟩
      · simp only [hrc, Option.some.injEq] at hx
        obtain rfl := removeClientIfExists_key hrc
        simp only [step, World.commit, hph, hrc] at he
        split_ifs at he
        cases he
        exact ⟨c, k', hx.symm, (hw.wf j).failed hph, Or.inr ⟨err, hph⟩,
          .error ("Client session error: " ++ err.debug), by simp⟩
      · simp [hrc] at hx
    · cases hx
  | _ => cases hx

theorem dispatch_not_closing (a : Handler) (o : Outcome IcWsError (Option IcWsSessionState)) {r : Except String Unit} :
    (a.dispatch o).phase ≠ .closing c k r := by
  unfold Handler.dispatch
  split
  · nofun
  · nofun
  · nofun
  · split <;> nofun
  · split <;> nofun
  · split <;> nofun
  · nofun
  · split <;> nofun

/-- **A call is made exactly when the session comes to await it**, with the keys it
awaits it for. -/
theorem wsCloseOf_iff (hw : Sound w) (he : step cfg w e = some w')
    {x : CanisterPrincipal × CanisterWsCloseArguments} :
    wsCloseOf i (w, e) = some x ↔
      ∃ c k r, x = (c, ⟨k⟩) ∧ (w'.handlers i).phase = .closing c k r ∧ (w.handlers i).phase ≠ .closing c k r := by
  constructor
  · intro hx
    obtain ⟨c, k, rfl, -, hph, r, hph'⟩ := wsCloseOf_cases hw he hx
    refine ⟨c, k, r, rfl, hph', ?_⟩
    rcases hph with hph | ⟨err, hph⟩ <;> rw [hph] <;> nofun
  · rintro ⟨c, k, r, rfl, hph', hne⟩
    have hh := step_handler he i
    generalize ha : w.handlers i = a at hh hne
    generalize hb : w'.handlers i = b at hh hph'
    cases hh with
    | other | push => exact absurd hph' hne
    | update => exact (dispatch_not_closing _ _ hph').elim
    | remove phase =>
      cases hph'
      rw [← ha] at phase
      have hcl := commit_closed phase he
      rw [hb] at hcl
      rcases hrc : w.gateway.removeClient c k with m | g
      · rw [hrc] at hcl
        cases hcl
      · simp [wsCloseOf, phase, hrc]
    | @removeIfExists err c' k' phase =>
      cases hph'
      rw [← ha] at phase
      rcases hrc : w.gateway.removeClientIfExists c k with ⟨g, k' | ⟨⟩⟩
      · obtain rfl := removeClientIfExists_key hrc
        simp [wsCloseOf, phase, hrc]
      · simp only [step, World.commit, phase, hrc] at he
        split_ifs at he
        cases he
        simp at hb
    | _ => cases hph'

/-! ### First `ws_open`, then `ws_close` -/

/-- A member has had its `ws_open` envelope relayed, or is about to have it relayed, or
the relay has failed. -/
theorem relayed_of_member (hr : Runs cfg h w) (hs : w.registry.seat i = .member c k) :
    (∃ x ∈ h, relaysOpen i x) ∨ (∃ m t, (w.handlers i).phase = .relayingOpen m c k t) ∨
      ∃ err t, (w.handlers i).phase = .rollback err c k t := by
  induction hr with
  | nil =>
    rw [registry_new] at hs
    cases hs
  | @snoc h t t' e hr he ih =>
    have hw := reachable hr
    obtain hs' | ⟨m, tx, rfl, hph⟩ := member_before hw he hs
    · have hh := step_handler he i
      obtain ⟨x, hx, hrel⟩ | ⟨m, tok, hph⟩ | ⟨err, tok, hph⟩ := ih hs'
      · exact Or.inl ⟨x, List.mem_append_left _ hx, hrel⟩
      · change (t'.handlers i).seat = _ at hs
        generalize ha : t.handlers i = a at hh hph
        generalize t'.handlers i = b at hh hs ⊢
        cases hh with
        | other | push => exact Or.inr (Or.inl ⟨m, tok, hph⟩)
        | @relayOpen m' c' k' t' io out phase relayed =>
          refine Or.inl ⟨(t, .relayOpen i io), by simp, rfl, m', c', k', t', out, ?_, ?_⟩
          · rw [ha]
            exact phase
          · rw [ha]
            exact relayed
        | relayOpenFail phase =>
          rw [hph] at phase
          cases phase
          exact Or.inr (Or.inr ⟨_, tok, rfl⟩)
        | relayOpenPanic => cases hs
        | readWs phase | recv phase | cutOff phase | update phase | insert phase | rollback phase =>
          rw [hph] at phase
          cases phase
        | remove phase | removePanic phase | removeIfExists phase | removeVacant phase =>
          rw [hph] at phase
          cases phase
        | startPoller phase | wsClosed phase =>
          rw [hph] at phase
          cases phase
      · change (t'.handlers i).seat = _ at hs
        generalize t.handlers i = a at hh hph
        generalize t'.handlers i = b at hh hs ⊢
        cases hh with
        | other | push => exact Or.inr (Or.inr ⟨err, tok, hph⟩)
        | rollback => cases hs
        | readWs phase | recv phase | cutOff phase | update phase | insert phase | relayOpen phase =>
          rw [hph] at phase
          cases phase
        | remove phase | removePanic phase | removeIfExists phase | removeVacant phase =>
          rw [hph] at phase
          cases phase
        | relayOpenFail phase | relayOpenPanic phase | startPoller phase | wsClosed phase =>
          rw [hph] at phase
          cases phase
    · exact Or.inr (Or.inl ⟨m, _, (commit_setup hw hph he).2.2.1⟩)

/-- **A session for which `ws_close` was called** has left the registry; the canister
was told of it before, and is told once that it has gone. -/
theorem wsCloseOf_left (hr : Runs cfg h w) (hc : h.filterMap (wsCloseOf i) ≠ []) :
    w.registry.seat i = .gone ∧ (∃ x ∈ h, relaysOpen i x) ∧
      ∃ c k, h.filterMap (wsCloseOf i) = [(c, ⟨k⟩)] ∧
        (w.handlers i).session.canisterId = some c ∧ (w.handlers i).session.clientKey = some k := by
  induction hr with
  | nil => exact absurd rfl hc
  | @snoc h t t' e hr he ih =>
    have hw := reachable hr
    rw [LTS.filterMap_snoc] at hc ⊢
    by_cases hold : h.filterMap (wsCloseOf i) = []
    · rcases hx : wsCloseOf i (t, e) with _ | x
      · rw [hold, hx] at hc
        exact absurd rfl hc
      · obtain ⟨c, k, rfl, hk, hph, r, hclosing⟩ := wsCloseOf_cases hw he hx
        have hgone : t'.registry.seat i = .gone := by
          show (t'.handlers i).seat = .gone
          rw [Handler.seat, hclosing]
        have hseat : t.registry.seat i = .member c k := by
          rcases hph with hph | ⟨err, hph⟩ <;> exact seat_of_keyed hk (by rw [hph]; rfl)
        have hrel : ∃ x ∈ h, relaysOpen i x := by
          apply (relayed_of_member hr hseat).resolve_right
          rcases hph with hph | ⟨err, hph⟩ <;> simp [hph]
        obtain ⟨x, hx', hrel⟩ := hrel
        have hkeys := (step_handler he i).keys (hw.wf i) hk.canisterId hk.clientKey
        refine ⟨hgone, ⟨x, List.mem_append_left _ hx', hrel⟩, c, k, ?_, hkeys⟩
        rw [hold]
        rfl
    · obtain ⟨hgone, ⟨x, hx', hrel⟩, c, k, hcalls, hcid, hkey⟩ := ih hold
      have hnone : wsCloseOf i (t, e) = none := by
        by_contra hne
        obtain ⟨y, hy⟩ := Option.ne_none_iff_exists'.mp hne
        obtain ⟨c', k', -, hk, hph, -⟩ := wsCloseOf_cases hw he hy
        have hseat : t.registry.seat i = .member c' k' := by
          rcases hph with hph | ⟨err, hph⟩ <;> exact seat_of_keyed hk (by rw [hph]; rfl)
        rw [hgone] at hseat
        cases hseat
      have hkeys := (step_handler he i).keys (hw.wf i) hcid hkey
      refine ⟨(step_refines hw he).gone hgone, ⟨x, List.mem_append_left _ hx', hrel⟩, c, k, ?_, hkeys⟩
      rw [hnone, hcalls]
      rfl

/-! ### Every session that was announced is told about -/

/-- The session has joined and not begun to end, but for the two arms that remove it. -/
def Phase.tells : Phase → Bool
  | .awaiting | .updating (.client _) | .updating (.canister (some _)) | .startingPoller .. | .closed .. |
    .failed .. => true
  | _ => false

/-- A poller of the poller state that session `i` joined has failed. -/
def ServerFailed (h : List (World × Event)) (w : World) (i : ClientId) : Prop :=
  ∃ p c r, joined h i = some r ∧ w.FailedPoller p c r

theorem ServerFailed.next (hf : ServerFailed h w i) (hw : Sound w) (he : step cfg w e = some w') :
    ServerFailed (h ++ [(w, e)]) w' i := by
  obtain ⟨p, c, r, hj, hp⟩ := hf
  refine ⟨p, c, r, ?_, hp.next hw he⟩
  rw [joined_snoc, hj]
  rfl

/-- A registered session finds itself in both arms that remove it. -/
theorem wsCloseOf_registered (hreg : w.Registered i c k)
    (hph : (w.handlers i).phase = .closed c k ∨ ∃ err, (w.handlers i).phase = .failed err c k) :
    wsCloseOf i (w, .commit i) = some (c, ⟨k⟩) := by
  obtain ⟨r, hentry, hk⟩ := Option.bind_eq_some_iff.mp hreg
  rcases hph with hph | ⟨err, hph⟩
  · simp only [wsCloseOf, if_true, hph, GatewayState.removeClient, GatewayState.removeKey, hentry, hk]
  · simp only [wsCloseOf, if_true, hph, GatewayState.removeClientIfExists, GatewayState.removeKey, hentry, hk]

/-- What happens next to a session that was announced to the canister. -/
theorem tells_next (hr : Runs cfg h w) (hd : DistinctKeys w) (hk : (w.handlers i).Keyed c k)
    (ht : (w.handlers i).phase.tells = true) (he : step cfg w e = some w') :
    (w'.handlers i).phase.tells = true ∨ wsCloseOf i (w, e) ≠ none ∨ ServerFailed h w i := by
  have hw := reachable hr
  by_cases hcommit : e = .commit i ∧
      ((w.handlers i).phase = .closed c k ∨ ∃ err, (w.handlers i).phase = .failed err c k)
  · obtain ⟨rfl, hph⟩ := hcommit
    have hseat : w.registry.seat i = .member c k := by
      rcases hph with hph | ⟨err, hph⟩ <;> exact seat_of_keyed hk (by rw [hph]; rfl)
    obtain hreg | ⟨p, q, hq, hj, hf⟩ := member_registered hr hd hseat
    · have hcall := wsCloseOf_registered hreg hph
      exact Or.inr (Or.inl (by rw [hcall]; nofun))
    · exact Or.inr (Or.inr ⟨p, q.canisterId, q.pollerState, hj, q, hq, rfl, rfl, hf⟩)
  · by_cases hnone : e = .recv i ∧ (w.handlers i).phase = .awaiting ∧ w.buffer i = []
    · obtain ⟨rfl, hph, hb⟩ := hnone
      obtain ⟨p, c', r, -, hj, hf⟩ := none_read hr hd hph hb he
      exact Or.inr (Or.inr ⟨p, c', r, hj, hf⟩)
    · apply Or.inl
      have hwf := hw.wf i
      have hh := step_handler he i
      have hbuf : w.buffer i = (w.handlers i).session.clientChannelRx := rfl
      rw [hbuf] at hnone
      generalize w.handlers i = a at hh hk ht hcommit hnone hwf
      generalize w'.handlers i = b at hh ⊢
      cases hh with
      | other | push => exact ht
      | readWs | recv | startPoller => rfl
      | cutOff phase rx => exact absurd ⟨rfl, phase, rx⟩ hnone
      | update phase updated =>
        obtain ⟨c', k', hk', hl⟩ := hwf.updating_of_tx phase hk.tx
        have hd := update_keyed hk' hl updated
        generalize ({ a with session := _ } : Handler).dispatch _ = b at hd ⊢
        cases hd with
        | cutOff =>
          rw [phase] at ht
          cases ht
        | _ => rfl
      | relayOpen => rfl
      | remove phase | removePanic phase =>
        have hk' := hwf.closed phase
        obtain ⟨rfl, rfl⟩ := hk'.inj hk.canisterId hk.clientKey
        exact absurd ⟨rfl, Or.inl phase⟩ hcommit
      | removeIfExists phase | removeVacant phase =>
        have hk' := hwf.failed phase
        obtain ⟨rfl, rfl⟩ := hk'.inj hk.canisterId hk.clientKey
        exact absurd ⟨rfl, Or.inr ⟨_, phase⟩⟩ hcommit
      | insert phase | rollback phase | relayOpenFail phase | relayOpenPanic phase | wsClosed phase =>
        rw [phase] at ht
        cases ht

/-- The envelope has been relayed: the session goes on to start its poller. -/
theorem tells_of_relaysOpen (hw : Sound w) (he : step cfg w e = some w') (hrel : relaysOpen i (w, e)) :
    (∃ c k, (w'.handlers i).Keyed c k) ∧ (w'.handlers i).phase.tells = true := by
  cases e with
  | relayOpen j io =>
    obtain ⟨rfl, m, c, k, t, out, hph, hok⟩ := hrel
    have hk := ((hw.wf j).relayingOpen hph).1
    refine ⟨⟨c, k, (step_handler he j).keyed (hw.wf j) hk⟩, ?_⟩
    simp only [step, World.relayOpen, hph, hok] at he
    cases he
    simp [Phase.tells]
  | _ => exact hrel.elim

/-- **An announced session** is on its way to `ws_close`, or it was called, or the
poller of the session has failed. -/
theorem told_or_failed (hr : Runs cfg h w) (hd : DistinctKeys w) (ho : ∃ x ∈ h, relaysOpen i x) :
    ((∃ c k, (w.handlers i).Keyed c k) ∧ (w.handlers i).phase.tells = true) ∨
      h.filterMap (wsCloseOf i) ≠ [] ∨ ServerFailed h w i := by
  induction hr with
  | nil => simp at ho
  | @snoc h t t' e hr he ih =>
    have hw := reachable hr
    have hd' := hd.before hw he
    have hwf' := (hw.step he).wf i
    obtain ⟨x, hx, hrel⟩ := ho
    rw [LTS.filterMap_snoc]
    rcases List.mem_append.mp hx with hx | hx
    · obtain ⟨⟨c, k, hk⟩, ht⟩ | hc | hf := ih hd' ⟨x, hx, hrel⟩
      · obtain ht' | hc | hf := tells_next hr hd' hk ht he
        · exact Or.inl ⟨⟨c, k, (step_handler he i).keyed (hw.wf i) hk⟩, ht'⟩
        · obtain ⟨y, hy⟩ := Option.ne_none_iff_exists'.mp hc
          exact Or.inr (Or.inl (by simp [hy]))
        · exact Or.inr (Or.inr (hf.next hw he))
      · exact Or.inr (Or.inl (by simp [hc]))
      · exact Or.inr (Or.inr (hf.next hw he))
    · rw [List.mem_singleton] at hx
      subst hx
      exact Or.inl (tells_of_relaysOpen hw he hrel)

/-- **The canister is told about every session that ends.** With distinct keys: `ws_close`
is called for a session at most once, with its own canister and client key, once its
`ws_open` envelope has been relayed and no entry stores its sender; and a session that
was announced and has ended is told about, unless its poller has failed. -/
theorem closed_session_told_once (hr : Runs cfg h w) (hd : DistinctKeys w) (i : ClientId) :
    (h.filterMap (wsCloseOf i) ≠ [] → (∃ x ∈ h, relaysOpen i x) ∧
      (∃ c k, h.filterMap (wsCloseOf i) = [(c, ⟨k⟩)] ∧ (w.handlers i).session.canisterId = some c ∧
        (w.handlers i).session.clientKey = some k) ∧
      ∀ c r k, w.gateway.data.lookup c = some r → (w.gateway.clients r).lookup k ≠ some ⟨i⟩) ∧
    (∀ res, (w.handlers i).phase = .ended res → (∃ x ∈ h, relaysOpen i x) →
      (∀ p q, w.pollers p = some q → joined h i = some q.pollerState → ¬ q.Failed) →
      ∃ c k, h.filterMap (wsCloseOf i) = [(c, ⟨k⟩)] ∧ (w.handlers i).session.canisterId = some c ∧
        (w.handlers i).session.clientKey = some k) := by
  refine ⟨fun hc => ?_, fun res hres ho hnf => ?_⟩
  · obtain ⟨hgone, hrel, hcalls⟩ := wsCloseOf_left hr hc
    refine ⟨hrel, hcalls, fun c r k hentry hk => ?_⟩
    have hseat := (reachable hr).stored_seat hentry hk
    rw [hgone] at hseat
    cases hseat
  · obtain ⟨-, ht⟩ | hc | ⟨p, c, r, hj, q, hq, -, rfl, hf⟩ := told_or_failed hr hd ho
    · rw [hres] at ht
      cases ht
    · exact (wsCloseOf_left hr hc).2.2
    · exact absurd hf (hnf p q hq hj)

set_option maxRecDepth 20000 in
/-- A client comes and goes, and its poller goes on: the canister is told once. -/
theorem closed_session_told_once_gone :
    ∃ c k, (LTS.trace (step .simple) World.new (comesAndGoes [9] ⟨[1], 1⟩)).filterMap (wsCloseOf 0) = [(c, ⟨k⟩)] ∧
      ((World.after .simple (comesAndGoes [9] ⟨[1], 1⟩)).handlers 0).session.canisterId = some c ∧
      ((World.after .simple (comesAndGoes [9] ⟨[1], 1⟩)).handlers 0).session.clientKey = some k := by
  have hes : (LTS.exec (step .simple) World.new (comesAndGoes [9] ⟨[1], 1⟩)).isSome := by decide
  have hd := distinctKeys_after hes 1 (by decide) (by decide)
  have hend : ((World.after .simple (comesAndGoes [9] ⟨[1], 1⟩)).handlers 0).phase =
      .ended (.returned (.ok ())) := by decide
  have hp0 : (World.after .simple (comesAndGoes [9] ⟨[1], 1⟩)).pollers 0 = some ⟨[9], 0, 0, .polling⟩ := by
    decide
  have hn : (World.after .simple (comesAndGoes [9] ⟨[1], 1⟩)).nextPoller = 1 := by decide
  have hrel : ∃ x ∈ LTS.trace (step .simple) World.new (comesAndGoes [9] ⟨[1], 1⟩), relaysOpen 0 x := by
    have hpre : (LTS.exec (step .simple) World.new ((comesAndGoes [9] ⟨[1], 1⟩).take 4)).isSome := by decide
    have hs : (step .simple (World.after .simple ((comesAndGoes [9] ⟨[1], 1⟩).take 4)) (.relayOpen 0 .ok)).isSome := by
      decide
    obtain ⟨w', he⟩ := Option.isSome_iff_exists.mp hs
    refine ⟨(World.after .simple ((comesAndGoes [9] ⟨[1], 1⟩).take 4), .relayOpen 0 .ok), ?_, rfl,
      wsOpen [9] ⟨[1], 1⟩, [9], ⟨[1], 1⟩, some 0, [.relayEnvelope [9] ⟨.call [9] [1] (.ok ⟨1, []⟩) [], []⟩],
      by decide, by decide⟩
    have ht : LTS.trace (step .simple) World.new (comesAndGoes [9] ⟨[1], 1⟩) =
        LTS.trace (step .simple) World.new ((comesAndGoes [9] ⟨[1], 1⟩).take 4) ++
          (World.after .simple ((comesAndGoes [9] ⟨[1], 1⟩).take 4), .relayOpen 0 .ok) ::
            LTS.trace (step .simple) w' ((comesAndGoes [9] ⟨[1], 1⟩).drop 5) := trace_after hpre he
    rw [ht]
    exact List.mem_append_right _ List.mem_cons_self
  exact (closed_session_told_once (runs_after hes) hd 0).2 _ hend hrel fun p q hq _ =>
    unfailed_of_one (runs_after hes) hn hp0 rfl p q hq

end IcWsGateway
