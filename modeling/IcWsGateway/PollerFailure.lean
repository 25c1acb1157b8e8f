/-
# The failure of a poller

A poller whose iteration fails removes its canister's entry, for it does nothing else
from then on (`Failing`), and then ends and drops its poller state (`Returning`). The
sessions in that poller state are left with what is buffered for them: they are never
stored at an entry and never served again, no message is put on their channels, and
once the poller's task is gone they read `None` and end. A session reads `None` only
for this reason.

Key definitions: `World.FailedPoller`, `cutsOff`, `byClient`, `Failing`, `Returning`,
`AfterFailure`.
Key theorems: `failing_iteration_quiet`, `failed_poller_reaches_its_sessions`.
-/
import IcWsGateway.Channels
import IcWsGateway.Registrations

namespace IcWsGateway

variable {cfg : Config} {s w w' : World} {h : List (World × Event)} {i : ClientId} {p : PollerId}
  {c : CanisterPrincipal} {k : ClientKey} {r : PollerRef} {e : Event}

/-! ### The failing iteration -/

/-- The poller has got its reply and has not looked for emptiness yet. -/
def PollerPhase.Busy : PollerPhase → Prop
  | .relaying _ | .sending .. | .sleeping | .checking => True
  | _ => False

/-- A busy poller stays so until it looks for emptiness. -/
theorem busy_step (hw : Sound w) (he : step cfg w e = some w') (hc : e ≠ .checkTerminate p)
    {q : CanisterPoller} (hq : w.pollers p = some q) (hb : q.phase.Busy) :
    ∃ q', w'.pollers p = some q' ∧ q'.phase.Busy := by
  have hno : ∀ ph, q.phase = ph → ¬ ph.Busy → False := fun ph hph h => h (by rw [← hph]; exact hb)
  have hs := step_poller he p
  rw [hq] at hs
  generalize w'.pollers p = y at hs ⊢
  cases hs with
  | other => exact ⟨q, rfl, hb⟩
  | start phase fresh => exact absurd fresh (hw.not_next hq)
  | relayed phase done next =>
    refine ⟨_, rfl, ?_⟩
    rcases next with rfl | rfl <;> trivial
  | send | skip | put | wake => exact ⟨_, rfl, trivial⟩
  | terminate | goOn => exact absurd rfl hc
  | pollFailed phase | polled phase | nonceFailed phase | noncePanic phase => exact (hno _ phase id).elim
  | timedOut phase | noMessages phase | fail phase | failPanic phase | stop phase => exact (hno _ phase id).elim

theorem busy_after_put (he : step cfg w (.put p) = some w') :
    ∃ q, w'.pollers p = some q ∧ q.phase.Busy := by
  cases step_cases he with
  | putDropped | put => exact ⟨_, Function.update_self .., trivial⟩

/-- **A failing iteration puts nothing**: whenever a poller has put a message, it has
looked for emptiness, which ends an iteration that has not failed, before it fails. -/
theorem failing_iteration_quiet {g₁ g₂ : List (World × Event)} {t : World}
    (hr : Runs cfg (g₁ ++ (t, .put p) :: g₂) w) {q : CanisterPoller} (hq : w.pollers p = some q)
    {x : String} (hph : q.phase = .failed x) : ∃ y ∈ g₂, y.2 = .checkTerminate p := by
  by_contra hno
  push Not at hno
  obtain ⟨hr1, t', he, hr2⟩ := hr.at_event
  have hs : Sound t' := (reachable hr1).step he
  have hquiet : LTS.Along (fun _ _ e => e ≠ .checkTerminate p) g₂ := by
    rintro g u e g' rfl
    exact hno (u, e) (by simp)
  have hbusy : Sound w ∧ ∃ q, w.pollers p = some q ∧ q.phase.Busy := by
    refine LTS.Run.invariant (I := fun _ w => Sound w ∧ ∃ q, w.pollers p = some q ∧ q.phase.Busy)
      ⟨hs, busy_after_put he⟩ (fun g u e u' _ _ hI hok hu => ?_) hr2 hquiet
    obtain ⟨hsu, q, hq, hb⟩ := hI
    exact ⟨hsu.step hu, busy_step hsu hu hok hq hb⟩
  obtain ⟨-, q', hq', hb⟩ := hbusy
  rw [hq, Option.some.injEq] at hq'
  subst hq'
  rw [hph] at hb
  exact hb

/-- A poller whose iteration has failed or that has returned has one step left to make. -/
theorem done_step (hw : Sound w) (he : step cfg w e = some w') {q : CanisterPoller} (hq : w.pollers p = some q)
    (hd : (∃ x, q.phase = .failed x) ∨ ∃ r, q.phase = .returned r) :
    w'.pollers p = some q ∨ (e = .removeFailed p ∧ ∃ x, q.phase = .failed x) ∨
      e = .endPoller p ∧ ∃ r, q.phase = .returned r := by
  have hno : ∀ ph, q.phase = ph → (∀ x, ph ≠ .failed x) → (∀ r, ph ≠ .returned r) → False := by
    rintro ph rfl hf hr
    obtain ⟨x, hx⟩ | ⟨r, hx⟩ := hd
    · exact hf x hx
    · exact hr r hx
  have hs := step_poller he p
  rw [hq] at hs
  generalize w'.pollers p = y at hs ⊢
  cases hs with
  | other => exact Or.inl rfl
  | start phase fresh => exact absurd fresh (hw.not_next hq)
  | fail phase | failPanic phase => exact Or.inr (Or.inl ⟨rfl, _, phase⟩)
  | stop phase => exact Or.inr (Or.inr ⟨rfl, _, phase⟩)
  | pollFailed phase | polled phase | nonceFailed phase | noncePanic phase =>
    exact (hno _ phase (by simp) (by simp)).elim
  | timedOut phase | noMessages phase | relayed phase | send phase =>
    exact (hno _ phase (by simp) (by simp)).elim
  | skip phase | put phase | wake phase | terminate phase | goOn phase =>
    exact (hno _ phase (by simp) (by simp)).elim

/-- A poller whose iteration has failed only waits to remove its entry. -/
theorem failed_waits (hw : Sound w) (he : step cfg w e = some w') (hne : e ≠ .removeFailed p)
    {q : CanisterPoller} (hq : w.pollers p = some q) {x : String} (hph : q.phase = .failed x) :
    w'.pollers p = some q := by
  obtain hsame | ⟨hev, -⟩ | ⟨-, r, hr⟩ := done_step hw he hq (Or.inl ⟨x, hph⟩)
  · exact hsame
  · exact absurd hev hne
  · rw [hph] at hr
    cases hr

/-- It can do so once the shard of its canister is free. -/
theorem removeFailed_enabled {q : CanisterPoller} (hq : w.pollers p = some q) {x : String}
    (hph : q.phase = .failed x) (hfree : w.gatewayLock (cfg.gatewayShard q.canisterId) = none) :
    ∃ w', step cfg w (.removeFailed p) = some w' := by
  simp only [step, World.removeFailed, hq, hph, if_pos hfree]
  split <;> exact ⟨_, rfl⟩

/-- A poller that has returned only waits to end. -/
theorem returned_waits (hw : Sound w) (he : step cfg w e = some w') (hne : e ≠ .endPoller p)
    {q : CanisterPoller} (hq : w.pollers p = some q) {r : Except String Unit} (hph : q.phase = .returned r) :
    w'.pollers p = some q := by
  obtain hsame | ⟨-, x, hx⟩ | ⟨hev, -⟩ := done_step hw he hq (Or.inr ⟨r, hph⟩)
  · exact hsame
  · rw [hph] at hx
    cases hx
  · exact absurd hev hne

/-- Once the next shard is free it reads it to count the pollers, and at the last one ends. -/
theorem returned_enabled (hr : Runs cfg h w) {q : CanisterPoller} (hq : w.pollers p = some q)
    {r : Except String Unit} (hph : q.phase = .returned r)
    (hfree : w.gatewayLock (w.shardsRead (.poller p)) = none) :
    (∃ w', step cfg w (.readShard (.poller p)) = some w') ∨ ∃ w', step cfg w (.endPoller p) = some w' := by
  have hlt := shardsRead_lt hr (.poller p)
  by_cases hmore : w.shardsRead (.poller p) + 1 < cfg.gatewayShards
  · have hcounts : w.counts (.poller p) = true := by simp only [World.counts, hq, Option.map_some, hph]
    apply Or.inl
    simp only [step, World.readShard]
    rw [if_pos ⟨hcounts, hmore, hfree⟩]
    exact ⟨_, rfl⟩
  · have hlast : w.LastShard cfg (.poller p) := ⟨by omega, hfree⟩
    apply Or.inr
    simp only [step, World.endPoller, hq, hph, if_pos hlast]
    exact ⟨_, rfl⟩

/-! ### A poller that has failed -/

theorem insert_clients_other (g : GatewayState) {tx : Sender} (hne : g.target c ≠ r) :
    (g.insertClientChannelAndGetNewPollerState c k tx).1.clients r = g.clients r := by
  unfold GatewayState.target at hne
  unfold GatewayState.insertClientChannelAndGetNewPollerState
  rcases hl : g.data.lookup c with _ | r'
  · rw [hl] at hne
    exact Function.update_of_ne (Ne.symm hne) ..
  · rw [hl] at hne
    exact Function.update_of_ne (Ne.symm hne) ..

/-- The poller `p` of `c`, with the poller state `r`, has failed. -/
def World.FailedPoller (w : World) (p : PollerId) (c : CanisterPrincipal) (r : PollerRef) : Prop :=
  ∃ q, w.pollers p = some q ∧ q.canisterId = c ∧ q.pollerState = r ∧ q.Failed

namespace World.FailedPoller

theorem next (hf : w.FailedPoller p c r) (hw : Sound w) (he : step cfg w e = some w') :
    w'.FailedPoller p c r := by
  obtain ⟨q, hq, hc, hr, x, hx⟩ := hf
  have hno : ∀ ph, q.phase = ph → ph.stage = .active → False := fun ph hph h => by
    rw [← hph] at h
    rcases hx with hx | hx <;> rw [hx] at h <;> cases h
  have hs := step_poller he p
  rw [hq] at hs
  generalize hy : w'.pollers p = y at hs
  unfold World.FailedPoller
  rw [hy]
  cases hs with
  | other => exact ⟨q, rfl, hc, hr, x, hx⟩
  | start phase fresh => exact absurd fresh (hw.not_next hq)
  | stop phase =>
    refine ⟨_, rfl, hc, hr, x, Or.inr ?_⟩
    rw [phase] at hx
    rcases hx with hx | hx <;> cases hx
    rfl
  | pollFailed phase | polled phase | nonceFailed phase | noncePanic phase => exact (hno _ phase rfl).elim
  | timedOut phase | noMessages phase | relayed phase | send phase => exact (hno _ phase rfl).elim
  | skip phase | put phase | wake phase | terminate phase | goOn phase => exact (hno _ phase rfl).elim
  | fail phase | failPanic phase => exact (hno _ phase rfl).elim

/-- The life of its poller state. -/
theorem life (hf : w.FailedPoller p c r) {life : ℕ → Registry.Life CanisterPrincipal ClientId}
    (ho : Registry.Own w.registry life) : (life r).Done c p .failed := by
  obtain ⟨q, hq, rfl, rfl, x, hx | hx⟩ := hf
  · exact Or.inl ((ho.worker ..).mp ((registry_worker hq).trans (by rw [hx]; rfl)))
  · exact Or.inr ((ho.worker ..).mp ((registry_worker hq).trans (by rw [hx]; rfl)))

/-- Its poller state is at no entry, and it is not a new one. -/
theorem not_entry (hf : w.FailedPoller p c r) (hw : Sound w) :
    (∀ c', w.gateway.data.lookup c' ≠ some r) ∧ r < w.gateway.nextRef := by
  obtain ⟨life, ho, -⟩ := hw.lives
  have hl := hf.life ho
  constructor
  · intro c' he
    have hc' := (ho.entry c' r).mp he
    rcases hl with hl | hl <;> rw [hl] at hc' <;> cases hc'
  · by_contra hge
    have hu := (ho.unborn r).mpr (Nat.le_of_not_lt hge)
    rcases hl with hl | hl <;> rw [hl] at hu <;> cases hu

theorem target_ne (hf : w.FailedPoller p c r) (hw : Sound w) (c' : CanisterPrincipal) :
    w.gateway.target c' ≠ r := by
  obtain ⟨h1, h2⟩ := hf.not_entry hw
  unfold GatewayState.target
  rcases hl : w.gateway.data.lookup c' with _ | r'
  · exact Nat.ne_of_gt h2
  · intro hr
    rw [Option.getD_some] at hr
    exact h1 c' (by rw [hl, hr])

/-- No event stores anything in its poller state or removes anything from it. -/
theorem clients (hf : w.FailedPoller p c r) (hw : Sound w) (he : step cfg w e = some w')
    (k : ClientKey) : (w'.gateway.clients r).lookup k = (w.gateway.clients r).lookup k := by
  have hg := step_gateway he
  have hne := hf.target_ne hw
  have hno := (hf.not_entry hw).1
  generalize w'.gateway = g at hg
  cases hg with
  | other | noncePanic | terminate | fail | failPanic | stop => rfl
  | insert => rw [insert_clients_other _ (hne _)]
  | rollback => rw [dropToken_clients, struck_clients, if_neg fun h => hno _ h.1]
  | remove => rw [struck_clients, if_neg fun h => hno _ h.1]
  | relayOpenPanic => rw [dropToken_clients]

end World.FailedPoller

/-! ### The sessions of a poller that has failed -/

/-- Session `i` is stored, under `k`, in the poller state `r` of a poller that has failed. -/
structure World.Stranded (w : World) (p : PollerId) (c : CanisterPrincipal) (r : PollerRef)
    (i : ClientId) (k : ClientKey) : Prop where
  failed : w.FailedPoller p c r
  stored : (w.gateway.clients r).lookup k = some ⟨i⟩

namespace World.Stranded

theorem next (hs : w.Stranded p c r i k) (hw : Sound w) (he : step cfg w e = some w') :
    w'.Stranded p c r i k :=
  ⟨hs.failed.next hw he, by rw [hs.failed.clients hw he]; exact hs.stored⟩

/-- The session is stored nowhere else. -/
theorem only (hs : w.Stranded p c r i k) (hw : Sound w) {r' : PollerRef} {k' : ClientKey}
    (hm : (w.gateway.clients r').lookup k' = some ⟨i⟩) : r' = r := by
  obtain ⟨life, -, hro⟩ := hw.lives
  exact (hro.once r' k' r k i (by simp [World.registry, hm]) (by simp [World.registry, hs.stored])).1

/-- The session is not registered. -/
theorem unregistered (hs : w.Stranded p c r i k) (hw : Sound w) {c' : CanisterPrincipal} {r' : PollerRef}
    (he : w.gateway.data.lookup c' = some r') (k' : ClientKey) :
    (w.gateway.clients r').lookup k' ≠ some ⟨i⟩ := by
  intro hm
  rw [hs.only hw hm] at he
  exact (hs.failed.not_entry hw).1 c' he

/-- No poller sends to the session. -/
theorem unserved (hs : w.Stranded p c r i k) (hw : Sound w) {p' : PollerId} {q : CanisterPoller}
    (hq : w.pollers p' = some q) (k' : ClientKey) (m : CanisterToClientMessage)
    (msgs : CanisterOutputCertifiedMessages) : q.phase ≠ .sending i k' m msgs := by
  intro hph
  obtain ⟨life, ho, hro⟩ := hw.lives
  obtain ⟨c', r', hwk, hm⟩ := hro.pinned p' k' i (by rw [registry_pin hq, hph]; rfl)
  obtain ⟨rfl, -⟩ := hro.once r' k' r k i hm (by simp [World.registry, hs.stored])
  have hl := (ho.worker p' c' r' .active).mp hwk
  rcases hs.failed.life ho with hf | hf <;> rw [hl] at hf <;> cases hf

theorem not_outside (hs : w.Stranded p c r i k) (hw : Sound w) : w.registry.seat i ≠ .outside := by
  obtain ⟨life, -, hro⟩ := hw.lives
  exact hro.not_outside (r := r) (k := k) (by simp [World.registry, hs.stored])

/-- While it is in service, the session has the key it is stored under, and has given
its sender away. -/
theorem keyed (hs : w.Stranded p c r i k) (hw : Sound w) (hph : (w.handlers i).phase = .awaiting) :
    (w.handlers i).clientChannelTx = none := by
  have hwf := hw.wf i
  rcases ht : (w.handlers i).clientChannelTx with _ | tx
  · rfl
  · refine absurd ?_ (hs.not_outside hw)
    simp [World.registry, Handler.seat, hph, ht]

theorem putOn_none (hs : w.Stranded p c r i k) (hw : Sound w) (e : Event) : putOn i (w, e) = none := by
  cases e with
  | put p' =>
    unfold putOn
    dsimp only
    split
    · rename_i j k' m msgs hph
      obtain ⟨q, hq, hph⟩ := Option.map_eq_some_iff.mp hph
      refine if_neg fun hj => ?_
      rw [hj.1] at hph
      exact hs.unserved hw hq k' m msgs hph
    · rfl
  | _ => rfl

/-- The session goes on to read what is buffered for it. -/
theorem reads (hph : (w.handlers i).phase = .awaiting) {m : CanisterToClientMessage}
    {rest : List CanisterToClientMessage} (hb : w.buffer i = m :: rest) :
    ∃ w', step cfg w (.recv i) = some w' ∧
      (w'.handlers i).phase = .updating (.canister (some m)) := by
  have hrx : (w.handlers i).session.clientChannelRx = m :: rest := hb
  simp only [step, World.recv, hph, hrx]
  exact ⟨_, rfl, by simp⟩

/-- When the poller's task is gone and nothing is buffered, it reads `None`. -/
theorem readsNone (hs : w.Stranded p c r i k) (hw : Sound w) (hph : (w.handlers i).phase = .awaiting)
    (hb : w.buffer i = []) {q : CanisterPoller} (hq : w.pollers p = some q) {res : TaskResult}
    (hend : q.phase = .ended res) :
    ∃ w', step cfg w (.recv i) = some w' ∧ (w'.handlers i).phase = .updating (.canister none) := by
  have hrx : (w.handlers i).session.clientChannelRx = [] := hb
  have hdrop : w.gateway.SenderDropped i := by
    intro r' _ hpos hst
    obtain ⟨k', hm⟩ := FiniteMap.stores_iff.mp hst
    obtain ⟨life, ho, -⟩ := hw.lives
    have hstrong : w.gateway.strong r' = (life r').holders := ho.strong r'
    rw [hs.only hw hm] at hstrong hpos
    obtain ⟨q', hq', rfl, rfl, x, hx⟩ := hs.failed
    rw [hq, Option.some.injEq] at hq'
    subst hq'
    rw [hend] at hx
    have hl := (ho.worker ..).mp (registry_worker hq)
    rcases hx with hx | hx
    · cases hx
    · rw [hend, hx] at hl
      rw [hstrong, hl] at hpos
      exact absurd hpos (Nat.lt_irrefl _)
  simp only [step, World.recv, hph, hrx, hs.keyed hw hph, hdrop, and_self, if_true]
  exact ⟨_, rfl, by simp⟩

end World.Stranded

/-- Along a run, and with what the session reads meanwhile. -/
theorem World.Stranded.run (hs : s.Stranded p c r i k) (hw : Sound s) (hr : LTS.Run (step cfg) s h w) :
    Sound w ∧ w.Stranded p c r i k ∧ h.filterMap (putOn i) = [] := by
  induction hr with
  | nil => exact ⟨hw, hs, rfl⟩
  | snoc hr he ih =>
    obtain ⟨hw', hs', hno⟩ := ih
    refine ⟨hw'.step he, hs'.next hw' he, ?_⟩
    rw [LTS.filterMap_snoc, hno, hs'.putOn_none hw']
    rfl

/-- The session reads what was buffered for it, and nothing else. -/
theorem World.Stranded.buffered (hs : s.Stranded p c r i k) (hw : Sound s)
    (hr : LTS.Run (step cfg) s h w) :
    s.buffer i = h.filterMap (receivedBy i) ++ w.buffer i := by
  rw [← channel_fifo hr i, (hs.run hw hr).2.2, List.append_nil]

/-! ### How a session ends -/

/-- In the event, session `i` handles the `None` it has read. -/
def cutsOff (i : ClientId) : World × Event → Prop
  | (w, .update j _) => j = i ∧ (w.handlers i).phase = .updating (.canister none)
  | _ => False

/-- In the event, session `i` handles something else: what its client sends, a message
for its client, or the relay of its `ws_open` message. -/
def byClient (i : ClientId) : World × Event → Prop
  | (w, .update j _) => j = i ∧ ∃ u, (w.handlers i).phase = .updating u ∧ u ≠ .canister none
  | (_, .relayOpen j _) => j = i
  | _ => False

/-- A session leaves the service in an event of its own. -/
theorem leaves_cases (he : step cfg w e = some w') (hs : (w.handlers i).phase.inService = true)
    (hl : (w'.handlers i).phase.inService = false) : byClient i (w, e) ∨ cutsOff i (w, e) := by
  have hh := step_handler he i
  generalize ha : w.handlers i = a at hh hs
  generalize w'.handlers i = b at hh hl
  cases hh with
  | other | push =>
    have hl' : a.phase.inService = false := hl
    rw [hs] at hl'
    cases hl'
  | readWs | recv | cutOff | insert | relayOpen | startPoller => cases hl
  | @update u io s out r phase updated =>
    by_cases hu : u = .canister none
    · subst hu
      exact Or.inr ⟨rfl, by rw [ha]; exact phase⟩
    · exact Or.inl ⟨rfl, u, by rw [ha]; exact phase, hu⟩
  | relayOpenFail | relayOpenPanic => exact Or.inl rfl
  | rollback phase | remove phase | removePanic phase | removeIfExists phase | removeVacant phase =>
    rw [phase] at hs
    cases hs
  | wsClosed phase =>
    rw [phase] at hs
    cases hs

/-- A session that has left the service did so in one event, of its client or after
the failure of its poller, and has not come back. -/
theorem left_service (hr : Runs cfg h w) (hl : (w.handlers i).phase.inService = false) :
    ∃ g₁ t e g₂, h = g₁ ++ (t, e) :: g₂ ∧ (t.handlers i).phase.inService = true ∧
      (byClient i (t, e) ∨ cutsOff i (t, e)) ∧ ∀ x ∈ g₂, (x.1.handlers i).phase.inService = false := by
  induction hr with
  | nil => cases hl
  | @snoc h t t' e hr he ih =>
    by_cases hs : (t.handlers i).phase.inService = true
    · exact ⟨h, t, e, [], rfl, hs, leaves_cases he hs hl, by simp⟩
    · rw [Bool.not_eq_true] at hs
      obtain ⟨g₁, u, e', g₂, rfl, hu, hc, hall⟩ := ih hs
      refine ⟨g₁, u, e', g₂ ++ [(t, e)], by simp, hu, hc, fun x hx => ?_⟩
      rcases List.mem_append.mp hx with hx | hx
      · exact hall x hx
      · rw [List.mem_singleton] at hx
        rw [hx]
        exact hs

/-- The result of a session that has read `None`: `Poller`, or `WebSocket` where the
socket could not be closed, which it reports after looking for its registration. -/
inductive Phase.CutOff : Phase → Prop
  | poller : CutOff (.ended (.returned (.error
      ("Poller error: " ++ "Client session terminated due to poller failure".quote))))
  | webSocket {x : String} {c : CanisterPrincipal} {k : ClientKey} : CutOff (.failed (.webSocket x) c k)
  | reported {x : String} : CutOff (.ended (.returned (.error
      ("Client error before session Setup: " ++ (IcWsError.webSocket x).debug))))

/-- The update of a session that has read `None`. -/
theorem cutOff_update {io : Io} (hw : Sound w) (hph : (w.handlers i).phase = .updating (.canister none))
    (he : step cfg w (.update i io) = some w') : (w'.handlers i).phase.CutOff := by
  obtain ⟨c, k, hk, -⟩ := ((hw.wf i).updating hph).resolve_left fun hf => hf.2 rfl
  simp only [step, World.update, hph] at he
  rcases io with ⟨x | ⟨⟩, cbor⟩
  · have hd : ((w.handlers i).dispatch (.err (.webSocket x))) =
        { w.handlers i with phase := .failed (.webSocket x) c k } :=
      dispatch_err hk.canisterId hk.clientKey rfl
    cases he
    simp only [World.spawn_handlers, World.setHandler_handlers, Function.update_self]
    show ((w.handlers i).dispatch (.err (.webSocket x))).phase.CutOff
    rw [hd]
    exact .webSocket
  · cases he
    simp only [World.spawn_handlers, World.setHandler_handlers, Function.update_self]
    exact .poller

/-! ### What a stranded session removes -/

/-- A key that the entry's poller state does not have is not struck. -/
theorem struck_vacant {g : GatewayState} (hn : ∀ r, g.data.lookup c = some r → (g.clients r).lookup k = none) :
    g.struck c k = g ∧ g.removeClientIfExists c k = (g, .vacant) := by
  unfold GatewayState.struck GatewayState.removeClientIfExists GatewayState.removeKey
  rcases hl : g.data.lookup c with _ | r
  · exact ⟨rfl, rfl⟩
  · simp only [hn r hl, Option.getD_none, and_self]

/-- With distinct keys, the entry of its canister does not have the key of a stranded
session. -/
theorem World.Stranded.vacant (hs : w.Stranded p c r i k) (hw : Sound w) (hd : DistinctKeys w)
    {c' : CanisterPrincipal} {k' : ClientKey} (hseat : w.registry.seat i = .member c' k')
    {r' : PollerRef} (he : w.gateway.data.lookup c' = some r') : (w.gateway.clients r').lookup k' = none := by
  rcases hm : (w.gateway.clients r').lookup k' with _ | ⟨⟨x⟩⟩
  · rfl
  · have hx := hw.stored_seat he hm
    obtain rfl : x = i := hd.distinct x i c' k' hx hseat
    exact absurd hm (hs.unregistered hw he k')

/-- The canister and key with which a session that leaves looks for its registration. -/
theorem leaving_seat (hw : Sound w) {c' : CanisterPrincipal} {k' : ClientKey}
    (hph : (∃ x t, (w.handlers i).phase = .rollback x c' k' t) ∨ (w.handlers i).phase = .closed c' k' ∨
      ∃ x, (w.handlers i).phase = .failed x c' k') : w.registry.seat i = .member c' k' := by
  have hwf := hw.wf i
  rcases hph with ⟨x, t, hph⟩ | hph | ⟨x, hph⟩
  · exact seat_of_keyed (hwf.rollback hph) (by rw [hph]; rfl)
  · exact seat_of_keyed (hwf.closed hph) (by rw [hph]; rfl)
  · exact seat_of_keyed (hwf.failed hph) (by rw [hph]; rfl)

/-- **A stranded session touches no registration** when it leaves. -/
theorem World.Stranded.removes_nothing (hs : w.Stranded p c r i k) (hw : Sound w) (hd : DistinctKeys w)
    (he : step cfg w (.commit i) = some w') :
    w'.gateway.data = w.gateway.data ∧ w'.gateway.clients = w.gateway.clients := by
  have hno : ∀ c' k', w.registry.seat i = .member c' k' → w.gateway.struck c' k' = w.gateway :=
    fun c' k' hseat => (struck_vacant fun r' hr' => hs.vacant hw hd hseat hr').1
  have hg := step_gateway he
  generalize w'.gateway = g at hg
  cases hg with
  | other => exact ⟨rfl, rfl⟩
  | insert phase =>
    refine absurd ?_ (hs.not_outside hw)
    simp [World.registry, Handler.seat, phase]
  | rollback phase =>
    rw [hno _ _ (leaving_seat hw (Or.inl ⟨_, _, phase⟩)), dropToken_data, dropToken_clients]
    exact ⟨rfl, rfl⟩
  | remove phase =>
    rw [hno _ _ (leaving_seat hw (Or.inr phase))]
    exact ⟨rfl, rfl⟩

/-- After an error the session finds no registration, and ends with the error. -/
theorem World.Stranded.failed_ends (hs : w.Stranded p c r i k) (hw : Sound w) (hd : DistinctKeys w)
    {x : IcWsError} {c' : CanisterPrincipal} {k' : ClientKey} (hph : (w.handlers i).phase = .failed x c' k')
    (he : step cfg w (.commit i) = some w') : (w'.handlers i).phase =
      .ended (.returned (.error ("Client error before session Setup: " ++ x.debug))) := by
  have hseat := leaving_seat hw (Or.inr (Or.inr ⟨x, hph⟩))
  have hv := (struck_vacant fun r' hr' => hs.vacant hw hd hseat hr').2
  cases step_cases he with
  | removeIfExists phase free removed =>
    rw [hph] at phase
    cases phase
    rw [hv] at removed
    cases removed
  | removeVacant phase =>
    rw [hph] at phase
    cases phase
    simp
  | insert phase | rollback phase | rollbackPanic phase | remove phase | removePanic phase =>
    rw [hph] at phase
    cases phase

/-- A stranded session that has read `None` ends with its error. -/
theorem World.Stranded.cutOff_next (hs : w.Stranded p c r i k) (hw : Sound w) (hd : DistinctKeys w)
    (he : step cfg w e = some w') (hc : (w.handlers i).phase.CutOff) : (w'.handlers i).phase.CutOff := by
  by_cases hcommit : e = .commit i ∧ ∃ x c' k', (w.handlers i).phase = .failed (.webSocket x) c' k'
  · obtain ⟨rfl, x, c', k', hph⟩ := hcommit
    rw [hs.failed_ends hw hd hph he]
    exact .reported
  · have hh := step_handler he i
    generalize w.handlers i = a at hh hc hcommit
    generalize w'.handlers i = b at hh ⊢
    cases hh with
    | other | push => exact hc
    | removeIfExists phase | removeVacant phase =>
      rw [phase] at hc
      cases hc
      exact absurd ⟨rfl, _, _, _, phase⟩ hcommit
    | readWs phase | recv phase | cutOff phase | update phase | insert phase | rollback phase =>
      rw [phase] at hc
      cases hc
    | remove phase | removePanic phase | relayOpen phase | relayOpenFail phase | relayOpenPanic phase =>
      rw [phase] at hc
      cases hc
    | startPoller phase | wsClosed phase =>
      rw [phase] at hc
      cases hc

theorem World.Stranded.ends (hs : s.Stranded p c r i k) (hw : Sound s)
    (hr : LTS.Run (step cfg) s h w) (hd : DistinctKeys w) (hc : ∃ x ∈ h, cutsOff i x) :
    (w.handlers i).phase.CutOff := by
  induction hr with
  | nil => simp at hc
  | @snoc h t t' e hr he ih =>
    obtain ⟨hw', hs', -⟩ := hs.run hw hr
    have hd' := hd.before hw' he
    obtain ⟨x, hx, hcx⟩ := hc
    rcases List.mem_append.mp hx with hx | hx
    · exact hs'.cutOff_next hw' hd' he (ih hd' ⟨x, hx, hcx⟩)
    · rw [List.mem_singleton] at hx
      subst hx
      cases e with
      | update j io =>
        obtain ⟨rfl, hph⟩ := hcx
        exact cutOff_update hw' hph he
      | _ => exact hcx.elim

/-! ### What the failure leaves alone -/

/-- The events of the poller `p` with which it fails and goes. -/
def Event.ofFailing (p : PollerId) : Event → Prop
  | .pollReply p' _ | .removeFailed p' | .endPoller p' => p' = p
  | _ => False

/-- They touch no session, no client of any poller state, and no entry but that of the
poller's canister. -/
theorem failing_events (he : step cfg w e = some w') (hp : e.ofFailing p) {q : CanisterPoller}
    (hq : w.pollers p = some q) : w'.handlers = w.handlers ∧ w'.gateway.clients = w.gateway.clients ∧
      ∀ c ≠ q.canisterId, w'.gateway.data.lookup c = w.gateway.data.lookup c := by
  have hh : w'.handlers = w.handlers := by
    funext j
    have hs := step_handler he j
    generalize w.handlers j = a at hs
    generalize w'.handlers j = b at hs
    cases hs <;> first | rfl | exact hp.elim
  refine ⟨hh, ?_⟩
  have hg := step_gateway he
  generalize w'.gateway = g at hg
  cases hg with
  | other | noncePanic | failPanic | stop => exact ⟨rfl, fun _ _ => rfl⟩
  | fail poller =>
    obtain rfl := hp
    rw [hq, Option.some.injEq] at poller
    subst poller
    exact ⟨rfl, fun c hc => by rw [removeEntry_lookup, if_neg hc]⟩
  | insert | rollback | remove | relayOpenPanic | terminate => exact hp.elim

/-- The poller that fails has its entry, and removes it. -/
theorem removeFailed_entry (hw : Sound w) {q : CanisterPoller} (hq : w.pollers p = some q)
    (he : step cfg w (.removeFailed p) = some w') :
    (∃ x, q.phase = .failed x ∧ w'.pollers p = some { q with phase := .returned (.error x) }) ∧
    w.gateway.data.lookup q.canisterId = some q.pollerState ∧
    w'.gateway.data.lookup q.canisterId = none := by
  cases step_cases he with
  | @fail _ _ x r poller phase free entry =>
    rw [hq, Option.some.injEq] at poller
    subst poller
    refine ⟨⟨x, phase, Function.update_self ..⟩, hw.entry_of_active hq (by rw [phase]; rfl), ?_⟩
    simp only [World.setPoller_gateway, World.setGateway_gateway, removeEntry_lookup, if_true]
  | failPanic poller phase free entry =>
    rw [hw.entry_of_active poller (by rw [phase]; rfl)] at entry
    cases entry

/-- Without an insert that makes one, a canister without an entry stays so. -/
theorem entry_stays_none (hr : LTS.Run (step cfg) s h w) (hn : s.gateway.data.lookup c = none)
    (hi : ∀ x ∈ h, ¬ insertsNew c x) : w.gateway.data.lookup c = none := by
  induction hr with
  | nil => exact hn
  | @snoc h t t' e hr he ih =>
    have ht := ih fun x hx => hi x (List.mem_append_left _ hx)
    have hno : ¬ insertsNew c (t, e) := hi (t, e) (by simp)
    have hrem : ¬ removesEntry c (t, e) := fun hrem => (removesEntry_entry he hrem).1 ht
    rw [entry_unchanged he hno hrem, ht]

/-- Only a session whose poller has failed reads `None`. -/
theorem none_read (hr : Runs cfg h w) (hd : DistinctKeys w) (hph : (w.handlers i).phase = .awaiting)
    (hb : w.buffer i = []) (he : step cfg w (.recv i) = some w') :
    ∃ p c r, (w.handlers i).session.canisterId = some c ∧ joined h i = some r ∧ w.FailedPoller p c r := by
  have hw := reachable hr
  have hrx : (w.handlers i).session.clientChannelRx = [] := hb
  have hcut : (w.handlers i).clientChannelTx = none ∧ w.gateway.SenderDropped i := by
    cases step_cases he with
    | recv phase rx =>
      rw [hrx] at rx
      cases rx
    | cutOff phase rx tx dropped => exact ⟨tx, dropped⟩
  obtain ⟨c, k, hk, -⟩ := (hw.wf i).keyed_of_tx hph hcut.1
  have hseat : w.registry.seat i = .member c k := seat_of_keyed hk (by rw [hph]; rfl)
  obtain ⟨life, ho, -, hse⟩ := seated hr hd
  obtain ⟨r, hm, hkeep⟩ := hse i c k hseat
  have hstored : (w.gateway.clients r).lookup k = some ⟨i⟩ := by
    simp only [World.registry, Option.map_eq_some_iff] at hm
    obtain ⟨⟨x⟩, hx, rfl⟩ := hm
    exact hx
  rcases hkeep with hentry | ⟨p, hp⟩
  · -- the entry still holds the sender
    have hdrop := dropped_of_senderDropped hw hcut.2 r k hm
    rw [ho.strong] at hdrop
    rw [Registry.Life.entry_none hdrop] at hentry
    cases hentry
  · obtain ⟨q, hq, hqr, hqc, hf⟩ := failed_of_done ho hp
    exact ⟨p, c, r, hk.canisterId, joined_of_stored hr hstored, q, hq, hqc, hqr, hf⟩

/-! ### What a failure reaches -/

/-- What session `i` meets in the run `h` from `s`, where its poller `p` has failed, to `w`. -/
structure AfterFailure (cfg : Config) (p : PollerId) (s : World) (h : List (World × Event)) (w : World)
    (i : ClientId) : Prop where
  /-- it reads what is buffered for it, and nothing else -/
  reads : s.buffer i = h.filterMap (receivedBy i) ++ w.buffer i
  unregistered : ∀ c r k, w.gateway.data.lookup c = some r → (w.gateway.clients r).lookup k ≠ some ⟨i⟩
  unserved : ∀ p q k m msgs, w.pollers p = some q → q.phase ≠ .sending i k m msgs
  readsOn : (w.handlers i).phase = .awaiting → ∀ m rest, w.buffer i = m :: rest →
    ∃ w', step cfg w (.recv i) = some w' ∧ (w'.handlers i).phase = .updating (.canister (some m))
  /-- then `None`, when the task of the poller has ended -/
  readsNone : (w.handlers i).phase = .awaiting → w.buffer i = [] →
    ∀ q r, w.pollers p = some q → q.phase = .ended r →
    ∃ w', step cfg w (.recv i) = some w' ∧ (w'.handlers i).phase = .updating (.canister none)
  /-- after that it ends with the error -/
  ends : (∃ x ∈ h, cutsOff i x) → (w.handlers i).phase.CutOff
  removesNothing : ∀ w', step cfg w (.commit i) = some w' →
    w'.gateway.data = w.gateway.data ∧ w'.gateway.clients = w.gateway.clients

theorem World.Stranded.after (hs : s.Stranded p c r i k) (hw : Sound s)
    (hr : LTS.Run (step cfg) s h w) (hd : DistinctKeys w) : AfterFailure cfg p s h w i := by
  obtain ⟨hw', hs', -⟩ := hs.run hw hr
  exact ⟨hs.buffered hw hr, fun c r k he => hs'.unregistered hw' he k,
    fun p q k m msgs hq => hs'.unserved hw' hq k m msgs, fun hph m rest hb => World.Stranded.reads hph hb,
    fun hph hb q r hq hend => hs'.readsNone hw' hph hb hq hend, hs.ends hw hr hd,
    fun w'' he => hs'.removes_nothing hw' hd he⟩

/-- The insert of a session at a canister without an entry. -/
theorem insert_without_entry {m : Message} {tx : Sender} (hw : Sound w)
    (hph : (w.handlers i).phase = .setup m c k tx) (hn : w.gateway.data.lookup c = none)
    (he : step cfg w (.commit i) = some w') :
    (w'.handlers i).phase = .relayingOpen m c k (some (w.gateway.target c)) := by
  rw [(commit_setup hw hph he).2.2.1]
  simp only [GatewayState.insertClientChannelAndGetNewPollerState, GatewayState.target, hn, Option.getD_none]

/-- What holds of the poller `p` when its iteration has ended in the error `x`. -/
structure Failing (cfg : Config) (h : List (World × Event)) (w : World) (p : PollerId) (q : CanisterPoller)
    (x : String) : Prop where
  /-- the iteration has put nothing -/
  quiet : ∀ g₁ t g₂, h = g₁ ++ (t, .put p) :: g₂ → ∃ y ∈ g₂, y.2 = .checkTerminate p
  entry : w.gateway.data.lookup q.canisterId = some q.pollerState
  /-- its only step is to remove the entry -/
  waits : ∀ e w', step cfg w e = some w' → e ≠ .removeFailed p → w'.pollers p = some q
  removes : w.gatewayLock (cfg.gatewayShard q.canisterId) = none → ∃ w', step cfg w (.removeFailed p) = some w'
  removed : ∀ w', step cfg w (.removeFailed p) = some w' →
    w'.gateway.data.lookup q.canisterId = none ∧ w'.pollers p = some { q with phase := .returned (.error x) }

/-- What holds of the poller `p` when it has returned `r`. -/
structure Returning (cfg : Config) (w : World) (p : PollerId) (q : CanisterPoller) (r : Except String Unit) :
    Prop where
  /-- its only step is to end, once it has counted the pollers -/
  waits : ∀ e w', step cfg w e = some w' → e ≠ .endPoller p → w'.pollers p = some q
  goesOn : w.gatewayLock (w.shardsRead (.poller p)) = none →
    (∃ w', step cfg w (.readShard (.poller p)) = some w') ∨ ∃ w', step cfg w (.endPoller p) = some w'
  ended : ∀ w', step cfg w (.endPoller p) = some w' → w'.pollers p = some { q with phase := .ended (.returned r) }

theorem failing (hr : Runs cfg h w) {q : CanisterPoller} (hq : w.pollers p = some q) {x : String}
    (hph : q.phase = .failed x) : Failing cfg h w p q x := by
  have hw := reachable hr
  refine ⟨?_, hw.entry_of_active hq (by rw [hph]; rfl), fun e w' he hne => failed_waits hw he hne hq hph,
    removeFailed_enabled hq hph, fun w' he => ?_⟩
  · rintro g₁ t g₂ rfl
    exact failing_iteration_quiet hr hq hph
  · obtain ⟨⟨x', hx', hq'⟩, -, hgone⟩ := removeFailed_entry hw hq he
    rw [hph] at hx'
    cases hx'
    exact ⟨hgone, hq'⟩

theorem returning (hr : Runs cfg h w) {q : CanisterPoller} (hq : w.pollers p = some q) {r : Except String Unit}
    (hph : q.phase = .returned r) : Returning cfg w p q r := by
  refine ⟨fun e w' he hne => returned_waits (reachable hr) he hne hq hph, returned_enabled hr hq hph,
    fun w' he => ?_⟩
  cases step_cases he with
  | stop poller phase =>
    rw [hq, Option.some.injEq] at poller
    subst poller
    rw [hph] at phase
    cases phase
    exact Function.update_self ..

/-- **The failure of a poller reaches exactly its own sessions.** Let the keys be
distinct. A poller whose iteration has failed has put nothing in it, and removes its
entry in its next step; then it ends in its next step. From the removal on, every session
stored in the poller state either leaves in an event of its client or reads what is
buffered for it, then `None`, and ends with its error, touches no registration and is
never registered or served again; the next session of the canister makes an entry and a
poller that starts at nonce 0. A session reads `None` only if its poller has failed, and
the poller's events touch no session and no other canister. -/
theorem failed_poller_reaches_its_sessions (hr : Runs cfg h w) (hd : DistinctKeys w) :
    (∀ p q x, w.pollers p = some q → q.phase = .failed x → Failing cfg h w p q x) ∧
    (∀ p q r, w.pollers p = some q → q.phase = .returned r → Returning cfg w p q r) ∧
    (∀ h₁ w₀ h₂ p q, h = h₁ ++ (w₀, .removeFailed p) :: h₂ → w₀.pollers p = some q →
      (∀ i k, (w₀.gateway.clients q.pollerState).lookup k = some ⟨i⟩ →
        AfterFailure cfg p w₀ h₂ w i ∧
        ((w.handlers i).phase.inService = false → ∃ g₁ t e g₂,
          h = g₁ ++ (t, e) :: g₂ ∧ (t.handlers i).phase.inService = true ∧
          (byClient i (t, e) ∨ cutsOff i (t, e)) ∧ ∀ x ∈ g₂, (x.1.handlers i).phase.inService = false)) ∧
      ∀ i m k tx w', (w.handlers i).phase = .setup m q.canisterId k tx → step cfg w (.commit i) = some w' →
        w.gateway.target q.canisterId ≠ q.pollerState ∧
        ((∀ x ∈ h₂, ¬ insertsNew q.canisterId x) → (w'.handlers i).phase =
          .relayingOpen m q.canisterId k (some (w.gateway.target q.canisterId)))) ∧
    (∀ i c r w', (w.handlers i).phase = .startingPoller c (some r) → step cfg w (.startPoller i) = some w' →
      w'.pollers w.nextPoller = some ⟨c, r, 0, .polling⟩) ∧
    (∀ i w', (w.handlers i).phase = .awaiting → w.buffer i = [] → step cfg w (.recv i) = some w' →
      ∃ p c r, (w.handlers i).session.canisterId = some c ∧ joined h i = some r ∧ w.FailedPoller p c r) ∧
    (∀ t e t' p q, step cfg t e = some t' → e.ofFailing p → t.pollers p = some q →
      t'.handlers = t.handlers ∧ t'.gateway.clients = t.gateway.clients ∧
      ∀ c ≠ q.canisterId, t'.gateway.data.lookup c = t.gateway.data.lookup c) := by
  have hw := reachable hr
  refine ⟨fun p q x hq hph => failing hr hq hph, fun p q r hq hph => returning hr hq hph, ?_,
    fun i c r w' hph he' => startPoller_pollers hph he', fun i w' hph hb he' => none_read hr hd hph hb he',
    fun t e t' p q he' hp hq' => failing_events he' hp hq'⟩
  rintro h₁ w₀ h₂ p q rfl hq
  obtain ⟨hr1, w₁, he, hr2⟩ := hr.at_event
  have hw0 := reachable hr1
  have hw1 := hw0.step he
  obtain ⟨⟨x, hx, hq1⟩, -, hgone⟩ := removeFailed_entry hw0 hq he
  obtain ⟨hhandlers, hclients, -⟩ := failing_events he rfl hq
  have hfailed : w₁.FailedPoller p q.canisterId q.pollerState := ⟨_, hq1, rfl, rfl, x, Or.inl rfl⟩
  refine ⟨fun i k hk => ?_, fun i m k tx w' hph he' => ⟨?_, fun hno => ?_⟩⟩
  · have hs : w₁.Stranded p q.canisterId q.pollerState i k := ⟨hfailed, by rw [hclients]; exact hk⟩
    have ha := hs.after hw1 hr2 hd
    have hbuf : w₁.buffer i = w₀.buffer i := by rw [World.buffer, hhandlers]; rfl
    exact ⟨{ ha with reads := by rw [← hbuf]; exact ha.reads }, left_service hr⟩
  · have hf : Sound w ∧ w.FailedPoller p q.canisterId q.pollerState := by
      refine hr2.state_invariant (I := fun w => Sound w ∧ w.FailedPoller p q.canisterId q.pollerState)
        ⟨hw1, hfailed⟩ fun t e t' hI ht => ⟨hI.1.step ht, hI.2.next hI.1 ht⟩
    exact hf.2.target_ne hw _
  · exact insert_without_entry hw hph (entry_stays_none hr2 hgone hno) he'

/-- A client opens a session and gets a message on its channel, and the next poll fails. -/
def opensAndFails (c : CanisterPrincipal) (k : ClientKey) : List Event :=
  opens 0 (wsOpen c k) ++ [polls 0 [messageFor k "gateway_5"], .relay 0, .put 0, .relay 0, .wake 0, .checkTerminate 0,
    .pollReply 0 (.replied (.error (.candid "trap")))]

/-- The poller goes, and the session reads the message and then `None`. -/
def goesAndTells : List Event := [.endPoller 0, .recv 0, .update 0 .ok, .recv 0, .update 0 .ok]

set_option maxRecDepth 20000 in
/-- A client whose poller has failed gets what was buffered for it, is told, and is
registered nowhere. -/
theorem failed_poller_reaches_its_client :
    AfterFailure .simple 0 (World.after .simple (opensAndFails [9] ⟨[1], 1⟩))
        (LTS.trace (step .simple) (World.after .simple (opensAndFails [9] ⟨[1], 1⟩ ++ [.removeFailed 0])) goesAndTells)
        (World.after .simple (opensAndFails [9] ⟨[1], 1⟩ ++ .removeFailed 0 :: goesAndTells)) 0 ∧
      (LTS.trace (step .simple) (World.after .simple (opensAndFails [9] ⟨[1], 1⟩ ++ [.removeFailed 0]))
        goesAndTells).filterMap (receivedBy 0) = [⟨"gateway_5", [], [], []⟩] := by
  have h₁ : (LTS.exec (step .simple) World.new (opensAndFails [9] ⟨[1], 1⟩)).isSome := by decide
  have hes : (LTS.exec (step .simple) World.new
      (opensAndFails [9] ⟨[1], 1⟩ ++ .removeFailed 0 :: goesAndTells)).isSome := by decide
  have he : step .simple (World.after .simple (opensAndFails [9] ⟨[1], 1⟩)) (.removeFailed 0) =
      some (World.after .simple (opensAndFails [9] ⟨[1], 1⟩ ++ [.removeFailed 0])) := step_after (by decide)
  have hq : (World.after .simple (opensAndFails [9] ⟨[1], 1⟩)).pollers 0 =
      some ⟨[9], 0, 6, .failed "Unrecoverable candid error: trap"⟩ := by decide
  have hk : ((World.after .simple (opensAndFails [9] ⟨[1], 1⟩)).gateway.clients 0).lookup ⟨[1], 1⟩ =
      some ⟨0⟩ := by decide
  exact ⟨((failed_poller_reaches_its_sessions (runs_after hes) (distinctKeys_after hes 1 (by decide)
    (by decide))).2.2.1 _ _ _ 0 _ (trace_after h₁ he) hq).1 0 ⟨[1], 1⟩ hk |>.1, by decide⟩

end IcWsGateway
