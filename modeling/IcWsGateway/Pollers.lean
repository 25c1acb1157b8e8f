/-
# What one event does to a poller and to the gateway state

`PollerStep` lists the ways in which one poller changes and `GatewayStep` those
in which the gateway state does, each with the event and the state it happens
in. A poller that has started serves the poller state at its canister's entry
until it removes that entry (`Sound.entry_of_active`).

Key definitions: `PollerStep`, `GatewayStep`.
Key theorems: `step_poller`, `step_gateway`.
-/
import IcWsGateway.Refinement

namespace IcWsGateway

/-- What an event does to the poller `p`. -/
inductive PollerStep (cfg : Config) (w : World) (p : PollerId) :
    Option CanisterPoller → Event → Option CanisterPoller → Prop
  | other {x e} : PollerStep cfg w p x e x
  | start {x i c r} (phase : (w.handlers i).phase = .startingPoller c (some r)) (fresh : p = w.nextPoller) :
      PollerStep cfg w p x (.startPoller i) (some (.new c r))
  | pollFailed {q r e} (phase : q.phase = .polling) (reply : pollCanister r = .error e) :
      PollerStep cfg w p (some q) (.pollReply p r) (some { q with phase := .failed e })
  | polled {q r out n} (phase : q.phase = .polling) (reply : pollCanister r = .ok (.messagesPolled out))
      (nonce : updateNonce cfg.overflowChecks q.nextMessageNonce out.messages = (n, .ok ())) :
      PollerStep cfg w p (some q) (.pollReply p r)
        (some { q with nextMessageNonce := n, phase := .relaying out })
  | nonceFailed {q r out n e} (phase : q.phase = .polling)
      (reply : pollCanister r = .ok (.messagesPolled out))
      (nonce : updateNonce cfg.overflowChecks q.nextMessageNonce out.messages = (n, .err e)) :
      PollerStep cfg w p (some q) (.pollReply p r)
        (some { q with nextMessageNonce := n, phase := .failed e })
  | noncePanic {q r out n m} (phase : q.phase = .polling)
      (reply : pollCanister r = .ok (.messagesPolled out))
      (nonce : updateNonce cfg.overflowChecks q.nextMessageNonce out.messages = (n, .panicked m)) :
      PollerStep cfg w p (some q) (.pollReply p r)
        (some { q with nextMessageNonce := n, phase := .ended (.panicked m) })
  | timedOut {q r} (phase : q.phase = .polling) (reply : pollCanister r = .ok .timedOut) :
      PollerStep cfg w p (some q) (.pollReply p r) (some { q with phase := .checking })
  | noMessages {q r} (phase : q.phase = .polling) (reply : pollCanister r = .ok .noMessagesPolled) :
      PollerStep cfg w p (some q) (.pollReply p r) (some { q with phase := .sleeping })
  | relayed {q msgs ph} (phase : q.phase = .relaying msgs) (done : msgs.messages = [])
      (next : ph = .sleeping ∨ ph = .checking) :
      PollerStep cfg w p (some q) (.relay p) (some { q with phase := ph })
  | send {q msgs m rest client} (phase : q.phase = .relaying msgs) (head : msgs.messages = m :: rest)
      (found : (w.gateway.clients q.pollerState).lookup m.clientKey = some client) :
      PollerStep cfg w p (some q) (.relay p)
        (some { q with
          phase := .sending client.sender m.clientKey (m.toClient msgs.cert msgs.tree)
            { msgs with messages := rest } })
  | skip {q msgs m rest} (phase : q.phase = .relaying msgs) (head : msgs.messages = m :: rest)
      (absent : (w.gateway.clients q.pollerState).lookup m.clientKey = none) :
      PollerStep cfg w p (some q) (.relay p)
        (some { q with phase := .relaying { msgs with messages := rest } })
  | put {q i k m msgs} (phase : q.phase = .sending i k m msgs)
      (room : (w.handlers i).rxDropped = true ∨
        (w.handlers i).session.clientChannelRx.length < CHANNEL_CAPACITY) :
      PollerStep cfg w p (some q) (.put p) (some { q with phase := .relaying msgs })
  | wake {q} (phase : q.phase = .sleeping) :
      PollerStep cfg w p (some q) (.wake p) (some { q with phase := .checking })
  | terminate {q} (phase : q.phase = .checking)
      (empty : (w.gateway.removeCanisterIfEmpty q.canisterId).2 = .empty) :
      PollerStep cfg w p (some q) (.checkTerminate p) (some { q with phase := .returned (.ok ()) })
  | goOn {q} (phase : q.phase = .checking)
      (notEmpty : (w.gateway.removeCanisterIfEmpty q.canisterId).2 = .notEmpty) :
      PollerStep cfg w p (some q) (.checkTerminate p) (some { q with phase := .polling })
  | fail {q e g} (phase : q.phase = .failed e)
      (removed : w.gateway.removeFailedCanister q.canisterId = .ok g) :
      PollerStep cfg w p (some q) (.removeFailed p) (some { q with phase := .returned (.error e) })
  | failPanic {q e m} (phase : q.phase = .failed e)
      (panic : w.gateway.removeFailedCanister q.canisterId = .error m) :
      PollerStep cfg w p (some q) (.removeFailed p) (some { q with phase := .ended (.panicked m) })
  | stop {q r} (phase : q.phase = .returned r) :
      PollerStep cfg w p (some q) (.endPoller p) (some { q with phase := .ended (.returned r) })

/-- What an event does to the gateway state. -/
inductive GatewayStep (cfg : Config) (w : World) : Event → GatewayState → Prop
  | other {e} : GatewayStep cfg w e w.gateway
  | insert {i m c k tx} (phase : (w.handlers i).phase = .setup m c k tx) (free : w.CanCommit cfg i c k) :
      GatewayStep cfg w (.commit i) (w.gateway.insertClientChannelAndGetNewPollerState c k tx).1
  | rollback {i e c k t} (phase : (w.handlers i).phase = .rollback e c k t) (free : w.CanCommit cfg i c k) :
      GatewayStep cfg w (.commit i) ((w.gateway.struck c k).dropToken t)
  | remove {i c k} (phase : (w.handlers i).phase = .closed c k ∨ ∃ e, (w.handlers i).phase = .failed e c k)
      (free : w.CanCommit cfg i c k) : GatewayStep cfg w (.commit i) (w.gateway.struck c k)
  | relayOpenPanic {i m c k t io out msg} (phase : (w.handlers i).phase = .relayingOpen m c k t)
      (relayed : (w.handlers i).session.relayClientMessage m io = (out, .panicked msg)) :
      GatewayStep cfg w (.relayOpen i io) (w.gateway.dropToken t)
  | noncePanic {p r q} (poller : w.pollers p = some q) (phase : q.phase = .polling) :
      GatewayStep cfg w (.pollReply p r) (w.gateway.dropArc q.pollerState)
  | terminate {p q r} (poller : w.pollers p = some q) (phase : q.phase = .checking)
      (entry : w.gateway.data.lookup q.canisterId = some r) (empty : w.gateway.clients r = ∅) :
      GatewayStep cfg w (.checkTerminate p) (w.gateway.removeEntry q.canisterId r)
  | fail {p q e r} (poller : w.pollers p = some q) (phase : q.phase = .failed e)
      (entry : w.gateway.data.lookup q.canisterId = some r) :
      GatewayStep cfg w (.removeFailed p) (w.gateway.removeEntry q.canisterId r)
  | failPanic {p q e} (poller : w.pollers p = some q) (phase : q.phase = .failed e)
      (entry : w.gateway.data.lookup q.canisterId = none) :
      GatewayStep cfg w (.removeFailed p) (w.gateway.dropArc q.pollerState)
  | stop {p q r} (poller : w.pollers p = some q) (phase : q.phase = .returned r) :
      GatewayStep cfg w (.endPoller p) (w.gateway.dropArc q.pollerState)

variable {cfg : Config} {w w' : World} {e : Event}

/-! ### The pollers -/

theorem PollerStep.of_eq {p : PollerId} (hw : w'.pollers = w.pollers) :
    PollerStep cfg w p (w.pollers p) e (w'.pollers p) := by
  rw [hw]
  exact .other

/-- A change of the poller `p` alone. -/
theorem PollerStep.update_of {p : PollerId} {q q' : CanisterPoller} (hq : w.pollers p = some q)
    (hw : w'.pollers = Function.update w.pollers p (some q'))
    (hs : PollerStep cfg w p (some q) e (some q')) (p' : PollerId) :
    PollerStep cfg w p' (w.pollers p') e (w'.pollers p') := by
  rw [hw]
  by_cases hp : p' = p
  · subst hp
    rw [Function.update_self, hq]
    exact hs
  · rw [Function.update_of_ne hp]
    exact .other

/-- What a poller does about its entry, if it is checking whether to go on. -/
theorem removeCanisterIfEmpty_terminate {g : GatewayState} {c : CanisterPrincipal} {r : PollerRef}
    (hr : g.data.lookup c = some r) (he : g.clients r = ∅) :
    g.removeCanisterIfEmpty c = (g.removeEntry c r, .empty) := by
  simp only [GatewayState.removeCanisterIfEmpty, hr, he, if_true]

theorem removeCanisterIfEmpty_goOn {g : GatewayState} {c : CanisterPrincipal}
    (h : ∀ r, g.data.lookup c = some r → g.clients r ≠ ∅) : g.removeCanisterIfEmpty c = (g, .notEmpty) := by
  unfold GatewayState.removeCanisterIfEmpty
  rcases hl : g.data.lookup c with _ | r
  · rfl
  · exact if_neg (h r hl)

theorem removeFailedCanister_entry {g : GatewayState} {c : CanisterPrincipal} {r : PollerRef}
    (hr : g.data.lookup c = some r) : g.removeFailedCanister c = .ok (g.removeEntry c r) := by
  simp only [GatewayState.removeFailedCanister, hr]

theorem commit_pollers {i : ClientId} (h : w.commit cfg i = some w') : w'.pollers = w.pollers := by
  cases commit_cases h <;> rfl

/-- **What an event does to a poller.** -/
theorem step_poller (h : step cfg w e = some w') (p : PollerId) :
    PollerStep cfg w p (w.pollers p) e (w'.pollers p) := by
  cases step_cases h with
  | @startPoller i c r phase =>
    by_cases hp : p = w.nextPoller
    · simp only [World.goto_pollers, World.setPoller_pollers, hp, Function.update_self]
      exact .start phase rfl
    · simp only [World.goto_pollers, World.setPoller_pollers, Function.update_of_ne hp]
      exact .other
  | pollFailed poller phase reply => exact .update_of poller rfl (.pollFailed phase reply) p
  | polled poller phase reply nonce => exact .update_of poller rfl (.polled phase reply nonce) p
  | nonceFailed poller phase reply nonce => exact .update_of poller rfl (.nonceFailed phase reply nonce) p
  | noncePanic poller phase reply nonce => exact .update_of poller rfl (.noncePanic phase reply nonce) p
  | timedOut poller phase reply => exact .update_of poller rfl (.timedOut phase reply) p
  | noMessages poller phase reply => exact .update_of poller rfl (.noMessages phase reply) p
  | relayed poller phase done => exact .update_of poller rfl (.relayed phase done (Or.inl rfl)) p
  | relayedMore poller phase done => exact .update_of poller rfl (.relayed phase done (Or.inr rfl)) p
  | send poller phase head found => exact .update_of poller rfl (.send phase head found) p
  | skip poller phase head absent => exact .update_of poller rfl (.skip phase head absent) p
  | putDropped poller phase dropped => exact .update_of poller rfl (.put phase (Or.inl dropped)) p
  | put poller phase open_ room => exact .update_of poller rfl (.put phase (Or.inr room)) p
  | wake poller phase => exact .update_of poller rfl (.wake phase) p
  | terminate poller phase free entry empty =>
    exact .update_of poller rfl (.terminate phase (by rw [removeCanisterIfEmpty_terminate entry empty])) p
  | goOn poller phase free inUse =>
    exact .update_of poller rfl (.goOn phase (by rw [removeCanisterIfEmpty_goOn inUse])) p
  | fail poller phase free entry =>
    exact .update_of poller rfl (.fail phase (removeFailedCanister_entry entry)) p
  | failPanic poller phase free entry panic => exact .update_of poller rfl (.failPanic phase panic) p
  | stop poller phase => exact .update_of poller rfl (.stop phase) p
  | update | relayOpen | relayOpenFail | relayOpenPanic => exact .of_eq (by simp)
  | _ => exact .of_eq rfl

/-- The poller that a handler starts. -/
theorem startPoller_pollers {i : ClientId} {c : CanisterPrincipal} {r : PollerRef}
    (hph : (w.handlers i).phase = .startingPoller c (some r)) (he : step cfg w (.startPoller i) = some w') :
    w'.pollers w.nextPoller = some (.new c r) := by
  cases step_cases he with
  | startPoller phase =>
    rw [hph] at phase
    cases phase
    exact Function.update_self ..
  | noPoller phase =>
    rw [hph] at phase
    cases phase

/-! ### The gateway state -/

theorem GatewayStep.of_eq (hw : w'.gateway = w.gateway) : GatewayStep cfg w e w'.gateway := by
  rw [hw]
  exact .other

/-- **What an event does to the gateway state.** -/
theorem step_gateway (h : step cfg w e = some w') : GatewayStep cfg w e w'.gateway := by
  cases step_cases h with
  | insert phase free => exact .insert phase free
  | rollback phase free removed =>
    obtain rfl := struck_of_removeClient removed
    exact .rollback phase free
  | @rollbackPanic i _ _ _ _ _ phase free panic =>
    have hg : GatewayStep cfg w (.commit i) _ := .rollback phase free
    rw [struck_of_panic panic] at hg
    exact hg
  | remove phase free removed =>
    obtain rfl := struck_of_removeClient removed
    exact .remove (Or.inl phase) free
  | removePanic phase free panic =>
    have hg := GatewayStep.remove (Or.inl phase) free
    rw [struck_of_panic panic] at hg
    exact hg
  | removeIfExists phase free removed =>
    obtain rfl := struck_of_removeClientIfExists removed
    exact .remove (Or.inr ⟨_, phase⟩) free
  | removeVacant phase free vacant =>
    obtain rfl := struck_of_removeClientIfExists vacant
    exact .remove (Or.inr ⟨_, phase⟩) free
  | relayOpenPanic phase relayed =>
    simp only [World.spawn_gateway, World.setGateway_gateway]
    exact .relayOpenPanic phase relayed
  | @noncePanic p r q out n m poller phase => exact GatewayStep.noncePanic (q := q) poller phase
  | terminate poller phase free entry empty => exact .terminate poller phase entry empty
  | fail poller phase free entry => exact .fail poller phase entry
  | failPanic poller phase free entry panic => exact .failPanic poller phase entry
  | stop poller phase => exact .stop poller phase
  | update | relayOpen | relayOpenFail => exact .of_eq (by simp)
  | _ => exact .of_eq rfl

/-! ### The entry of a running poller -/

/-- A poller that has not removed its canister's entry yet serves the poller state
at that entry. -/
theorem Sound.entry_of_active (hw : Sound w) {p : PollerId} {q : CanisterPoller}
    (hq : w.pollers p = some q) (hs : q.phase.stage = .active) :
    w.gateway.data.lookup q.canisterId = some q.pollerState := by
  obtain ⟨life, ho, -⟩ := hw.lives
  have hl := (ho.worker p q.canisterId q.pollerState .active).mp ((registry_worker hq).trans (by rw [hs]))
  exact (ho.entry q.canisterId q.pollerState).mpr (by rw [hl]; rfl)

/-- A poller that exists is not the next one. -/
theorem Sound.not_next (hw : Sound w) {p : PollerId} {q : CanisterPoller} (hq : w.pollers p = some q) :
    p ≠ w.nextPoller :=
  Nat.ne_of_lt (hw.worker_lt p _ (registry_worker hq))

end IcWsGateway
