/-
# What one event does to the world

`WorldStep` lists the branches of `step`, each with what it finds and the world
it leaves behind, and `step_cases` says that there are no others. What an event
does to a session handler, to a poller, to the gateway state or to the registry
is read off this list.

Key definitions: `WorldStep`.
Key theorems: `step_cases`.
-/
import IcWsGateway.System

namespace IcWsGateway

/-! ### Frames -/

namespace World

variable (w : World) (i : ClientId) (p : PollerId)

@[simp] theorem setHandler_handlers (h : Handler) :
    (w.setHandler i h).handlers = Function.update w.handlers i h := rfl
@[simp] theorem setHandler_gateway (h : Handler) : (w.setHandler i h).gateway = w.gateway := rfl
@[simp] theorem setHandler_pollers (h : Handler) : (w.setHandler i h).pollers = w.pollers := rfl
@[simp] theorem setHandler_nextPoller (h : Handler) : (w.setHandler i h).nextPoller = w.nextPoller := rfl
@[simp] theorem setHandler_logs (h : Handler) : (w.setHandler i h).logs = w.logs := rfl

@[simp] theorem goto_handlers (ph : Phase) : (w.goto i ph).handlers =
    Function.update w.handlers i { w.handlers i with phase := ph } := rfl
@[simp] theorem goto_gateway (ph : Phase) : (w.goto i ph).gateway = w.gateway := rfl
@[simp] theorem goto_pollers (ph : Phase) : (w.goto i ph).pollers = w.pollers := rfl
@[simp] theorem goto_nextPoller (ph : Phase) : (w.goto i ph).nextPoller = w.nextPoller := rfl
@[simp] theorem goto_logs (ph : Phase) : (w.goto i ph).logs = w.logs := rfl

@[simp] theorem setPoller_handlers (q : CanisterPoller) : (w.setPoller p q).handlers = w.handlers := rfl
@[simp] theorem setPoller_gateway (q : CanisterPoller) : (w.setPoller p q).gateway = w.gateway := rfl
@[simp] theorem setPoller_pollers (q : CanisterPoller) :
    (w.setPoller p q).pollers = Function.update w.pollers p (some q) := rfl
@[simp] theorem setPoller_nextPoller (q : CanisterPoller) :
    (w.setPoller p q).nextPoller = w.nextPoller := rfl
@[simp] theorem setPoller_logs (q : CanisterPoller) : (w.setPoller p q).logs = w.logs := rfl

@[simp] theorem setGateway_handlers (g : GatewayState) : (w.setGateway g).handlers = w.handlers := rfl
@[simp] theorem setGateway_gateway (g : GatewayState) : (w.setGateway g).gateway = g := rfl
@[simp] theorem setGateway_pollers (g : GatewayState) : (w.setGateway g).pollers = w.pollers := rfl
@[simp] theorem setGateway_nextPoller (g : GatewayState) :
    (w.setGateway g).nextPoller = w.nextPoller := rfl
@[simp] theorem setGateway_logs (g : GatewayState) : (w.setGateway g).logs = w.logs := rfl

@[simp] theorem unlock_handlers (s : ℕ) : (w.unlock s).handlers = w.handlers := rfl
@[simp] theorem unlock_gateway (s : ℕ) : (w.unlock s).gateway = w.gateway := rfl
@[simp] theorem unlock_pollers (s : ℕ) : (w.unlock s).pollers = w.pollers := rfl
@[simp] theorem unlock_nextPoller (s : ℕ) : (w.unlock s).nextPoller = w.nextPoller := rfl
@[simp] theorem unlock_logs (s : ℕ) : (w.unlock s).logs = w.logs := rfl

/-- Spawning touches the tasks only. -/
theorem spawn_frame (out : List Output) (w : World) :
    (w.spawn i out).handlers = w.handlers ∧ (w.spawn i out).gateway = w.gateway ∧
    (w.spawn i out).pollers = w.pollers ∧ (w.spawn i out).nextPoller = w.nextPoller ∧
    (w.spawn i out).gatewayLock = w.gatewayLock ∧ (w.spawn i out).submitted = w.submitted ∧
    (w.spawn i out).logs = w.logs ∧ (w.spawn i out).shardsRead = w.shardsRead := by
  induction out generalizing w with
  | nil => exact ⟨rfl, rfl, rfl, rfl, rfl, rfl, rfl, rfl⟩
  | cons o out ih => cases o <;> exact ih _

@[simp] theorem spawn_handlers (out : List Output) : (w.spawn i out).handlers = w.handlers :=
  (spawn_frame i out w).1
@[simp] theorem spawn_gateway (out : List Output) : (w.spawn i out).gateway = w.gateway :=
  (spawn_frame i out w).2.1
@[simp] theorem spawn_pollers (out : List Output) : (w.spawn i out).pollers = w.pollers :=
  (spawn_frame i out w).2.2.1
@[simp] theorem spawn_nextPoller (out : List Output) : (w.spawn i out).nextPoller = w.nextPoller :=
  (spawn_frame i out w).2.2.2.1
@[simp] theorem spawn_gatewayLock (out : List Output) : (w.spawn i out).gatewayLock = w.gatewayLock :=
  (spawn_frame i out w).2.2.2.2.1
@[simp] theorem spawn_submitted (out : List Output) : (w.spawn i out).submitted = w.submitted :=
  (spawn_frame i out w).2.2.2.2.2.1
@[simp] theorem spawn_logs (out : List Output) : (w.spawn i out).logs = w.logs :=
  (spawn_frame i out w).2.2.2.2.2.2.1
@[simp] theorem spawn_shardsRead (out : List Output) : (w.spawn i out).shardsRead = w.shardsRead :=
  (spawn_frame i out w).2.2.2.2.2.2.2

end World

/-! ### The tasks that count -/

theorem World.counts_session {w : World} {i : ClientId} (hc : w.counts (.session i) = true) :
    ∃ c r, (w.handlers i).phase = .startingPoller c (some r) := by
  unfold World.counts at hc
  dsimp only at hc
  split at hc
  · exact ⟨_, _, ‹_›⟩
  · cases hc

theorem World.counts_poller {w : World} {p : PollerId} (hc : w.counts (.poller p) = true) :
    ∃ q r, w.pollers p = some q ∧ q.phase = .returned r := by
  unfold World.counts at hc
  dsimp only at hc
  split at hc
  · rename_i r hq
    obtain ⟨q, hq, hph⟩ := Option.map_eq_some_iff.mp hq
    exact ⟨q, r, hq, hph⟩
  · cases hc

/-! ### The branches of a step -/

/-- What an event does to the world `w`. -/
inductive WorldStep (cfg : Config) (w : World) : Event → World → Prop
  | readWs {i u} (phase : (w.handlers i).phase = .awaiting) :
      WorldStep cfg w (.readWs i u) (w.goto i (.updating (.client u)))
  | recv {i m rest} (phase : (w.handlers i).phase = .awaiting)
      (rx : (w.handlers i).session.clientChannelRx = m :: rest) :
      WorldStep cfg w (.recv i) (w.setHandler i
        { w.handlers i with
          session := { (w.handlers i).session with clientChannelRx := rest }
          phase := .updating (.canister (some m)) })
  | cutOff {i} (phase : (w.handlers i).phase = .awaiting) (rx : (w.handlers i).session.clientChannelRx = [])
      (tx : (w.handlers i).clientChannelTx = none) (dropped : w.gateway.SenderDropped i) :
      WorldStep cfg w (.recv i) (w.goto i (.updating (.canister none)))
  | update {i io u s out r} (phase : (w.handlers i).phase = .updating u)
      (updated : (w.handlers i).session.tryUpdateState u io = (s, out, r)) :
      WorldStep cfg w (.update i io)
        ((w.setHandler i (({ w.handlers i with session := s } : Handler).dispatch r)).spawn i out)
  | lock {i c} (target : (w.handlers i).phase.target = some c)
      (free : w.gatewayLock (cfg.gatewayShard c) = none) :
      WorldStep cfg w (.lock i)
        { w with gatewayLock := Function.update w.gatewayLock (cfg.gatewayShard c) (some i) }
  | insert {i m c k tx} (phase : (w.handlers i).phase = .setup m c k tx) (free : w.CanCommit cfg i c k) :
      WorldStep cfg w (.commit i)
        (((w.setGateway (w.gateway.insertClientChannelAndGetNewPollerState c k tx).1).goto i
          (.relayingOpen m c k (w.gateway.insertClientChannelAndGetNewPollerState c k tx).2)).unlock
            (cfg.gatewayShard c))
  | rollback {i e c k t g} (phase : (w.handlers i).phase = .rollback e c k t) (free : w.CanCommit cfg i c k)
      (removed : w.gateway.removeClient c k = .ok g) :
      WorldStep cfg w (.commit i)
        ((((w.setGateway g).goto i
          (.ended (.returned (.error ("Could not relay WS open message to IC: " ++ e.debug))))).setGateway
            (g.dropToken t)).unlock (cfg.gatewayShard c))
  | rollbackPanic {i e c k t m} (phase : (w.handlers i).phase = .rollback e c k t)
      (free : w.CanCommit cfg i c k) (panic : w.gateway.removeClient c k = .error m) :
      WorldStep cfg w (.commit i)
        (((w.goto i (.ended (.panicked m))).setGateway (w.gateway.dropToken t)).unlock (cfg.gatewayShard c))
  | remove {i c k g} (phase : (w.handlers i).phase = .closed c k) (free : w.CanCommit cfg i c k)
      (removed : w.gateway.removeClient c k = .ok g) :
      WorldStep cfg w (.commit i)
        (((w.setGateway g).goto i (.closing c k (.ok ()))).unlock (cfg.gatewayShard c))
  | removePanic {i c k m} (phase : (w.handlers i).phase = .closed c k) (free : w.CanCommit cfg i c k)
      (panic : w.gateway.removeClient c k = .error m) :
      WorldStep cfg w (.commit i) ((w.goto i (.ended (.panicked m))).unlock (cfg.gatewayShard c))
  | removeIfExists {i e c k g} (phase : (w.handlers i).phase = .failed e c k) (free : w.CanCommit cfg i c k)
      (removed : w.gateway.removeClientIfExists c k = (g, .removed k)) :
      WorldStep cfg w (.commit i)
        (((w.setGateway g).goto i (.closing c k (.error ("Client session error: " ++ e.debug)))).unlock
          (cfg.gatewayShard c))
  | removeVacant {i e c k g} (phase : (w.handlers i).phase = .failed e c k) (free : w.CanCommit cfg i c k)
      (vacant : w.gateway.removeClientIfExists c k = (g, .vacant)) :
      WorldStep cfg w (.commit i)
        (((w.setGateway g).goto i
          (.ended (.returned (.error ("Client error before session Setup: " ++ e.debug))))).unlock
            (cfg.gatewayShard c))
  | relayOpen {i io m c k t out} (phase : (w.handlers i).phase = .relayingOpen m c k t)
      (relayed : (w.handlers i).session.relayClientMessage m io = (out, .ok ())) :
      WorldStep cfg w (.relayOpen i io) ((w.goto i (.startingPoller c t)).spawn i out)
  | relayOpenFail {i io m c k t out e} (phase : (w.handlers i).phase = .relayingOpen m c k t)
      (relayed : (w.handlers i).session.relayClientMessage m io = (out, .err e)) :
      WorldStep cfg w (.relayOpen i io) ((w.goto i (.rollback e c k t)).spawn i out)
  | relayOpenPanic {i io m c k t out e} (phase : (w.handlers i).phase = .relayingOpen m c k t)
      (relayed : (w.handlers i).session.relayClientMessage m io = (out, .panicked e)) :
      WorldStep cfg w (.relayOpen i io)
        (((w.goto i (.ended (.panicked e))).setGateway (w.gateway.dropToken t)).spawn i out)
  | readShard {t} (counts : w.counts t = true) (more : w.shardsRead t + 1 < cfg.gatewayShards)
      (free : w.gatewayLock (w.shardsRead t) = none) :
      WorldStep cfg w (.readShard t)
        { w with shardsRead := Function.update w.shardsRead t (w.shardsRead t + 1) }
  | startPoller {i c r} (phase : (w.handlers i).phase = .startingPoller c (some r))
      (last : w.LastShard cfg (.session i)) :
      WorldStep cfg w (.startPoller i)
        { (w.setPoller w.nextPoller (.new c r)).goto i .awaiting with nextPoller := w.nextPoller + 1 }
  | noPoller {i c} (phase : (w.handlers i).phase = .startingPoller c none) :
      WorldStep cfg w (.startPoller i) (w.goto i .awaiting)
  | wsClosed {i c k r} (phase : (w.handlers i).phase = .closing c k r) :
      WorldStep cfg w (.wsClosed i) (w.goto i (.ended (.returned r)))
  | submit {t} (spawned : t ∈ w.spawned) :
      WorldStep cfg w (.submit t)
        { w with spawned := w.spawned.erase t, submitted := w.submitted ++ [t] }
  | pollFailed {p r q e} (poller : w.pollers p = some q) (phase : q.phase = .polling)
      (reply : pollCanister r = .error e) :
      WorldStep cfg w (.pollReply p r) (w.setPoller p { q with phase := .failed e })
  | polled {p r q out n} (poller : w.pollers p = some q) (phase : q.phase = .polling)
      (reply : pollCanister r = .ok (.messagesPolled out))
      (nonce : updateNonce cfg.overflowChecks q.nextMessageNonce out.messages = (n, .ok ())) :
      WorldStep cfg w (.pollReply p r) (w.setPoller p { q with nextMessageNonce := n, phase := .relaying out })
  | nonceFailed {p r q out n e} (poller : w.pollers p = some q) (phase : q.phase = .polling)
      (reply : pollCanister r = .ok (.messagesPolled out))
      (nonce : updateNonce cfg.overflowChecks q.nextMessageNonce out.messages = (n, .err e)) :
      WorldStep cfg w (.pollReply p r) (w.setPoller p { q with nextMessageNonce := n, phase := .failed e })
  | noncePanic {p r q out n m} (poller : w.pollers p = some q) (phase : q.phase = .polling)
      (reply : pollCanister r = .ok (.messagesPolled out))
      (nonce : updateNonce cfg.overflowChecks q.nextMessageNonce out.messages = (n, .panicked m)) :
      WorldStep cfg w (.pollReply p r) (w.dropPoller p { q with nextMessageNonce := n } (.panicked m))
  | timedOut {p r q} (poller : w.pollers p = some q) (phase : q.phase = .polling)
      (reply : pollCanister r = .ok .timedOut) :
      WorldStep cfg w (.pollReply p r) (w.setPoller p { q with phase := .checking })
  | noMessages {p r q} (poller : w.pollers p = some q) (phase : q.phase = .polling)
      (reply : pollCanister r = .ok .noMessagesPolled) :
      WorldStep cfg w (.pollReply p r) (w.setPoller p { q with phase := .sleeping })
  | relayed {p q msgs} (poller : w.pollers p = some q) (phase : q.phase = .relaying msgs)
      (done : msgs.messages = []) (last : msgs.isEndOfQueue.getD true = true) :
      WorldStep cfg w (.relay p) (w.setPoller p { q with phase := .sleeping })
  | relayedMore {p q msgs} (poller : w.pollers p = some q) (phase : q.phase = .relaying msgs)
      (done : msgs.messages = []) (more : msgs.isEndOfQueue.getD true = false) :
      WorldStep cfg w (.relay p) (w.setPoller p { q with phase := .checking })
  | send {p q msgs m rest client} (poller : w.pollers p = some q) (phase : q.phase = .relaying msgs)
      (head : msgs.messages = m :: rest)
      (found : (w.gateway.clients q.pollerState).lookup m.clientKey = some client) :
      WorldStep cfg w (.relay p) (w.setPoller p
        { q with
          phase := .sending client.sender m.clientKey (m.toClient msgs.cert msgs.tree)
            { msgs with messages := rest } })
  | skip {p q msgs m rest} (poller : w.pollers p = some q) (phase : q.phase = .relaying msgs)
      (head : msgs.messages = m :: rest)
      (absent : (w.gateway.clients q.pollerState).lookup m.clientKey = none) :
      WorldStep cfg w (.relay p) (w.setPoller p { q with phase := .relaying { msgs with messages := rest } })
  | putDropped {p q i k m msgs} (poller : w.pollers p = some q) (phase : q.phase = .sending i k m msgs)
      (dropped : (w.handlers i).rxDropped = true) :
      WorldStep cfg w (.put p) (w.setPoller p { q with phase := .relaying msgs })
  | put {p q i k m msgs} (poller : w.pollers p = some q) (phase : q.phase = .sending i k m msgs)
      (open_ : (w.handlers i).rxDropped = false)
      (room : (w.handlers i).session.clientChannelRx.length < CHANNEL_CAPACITY) :
      WorldStep cfg w (.put p) ((w.push i m).setPoller p { q with phase := .relaying msgs })
  | wake {p q} (poller : w.pollers p = some q) (phase : q.phase = .sleeping) :
      WorldStep cfg w (.wake p) (w.setPoller p { q with phase := .checking })
  | terminate {p q r} (poller : w.pollers p = some q) (phase : q.phase = .checking)
      (free : w.gatewayLock (cfg.gatewayShard q.canisterId) = none)
      (entry : w.gateway.data.lookup q.canisterId = some r) (empty : w.gateway.clients r = ∅) :
      WorldStep cfg w (.checkTerminate p)
        ((w.setGateway (w.gateway.removeEntry q.canisterId r)).setPoller p
          { q with phase := .returned (.ok ()) })
  | goOn {p q} (poller : w.pollers p = some q) (phase : q.phase = .checking)
      (free : w.gatewayLock (cfg.gatewayShard q.canisterId) = none)
      (inUse : ∀ r, w.gateway.data.lookup q.canisterId = some r → w.gateway.clients r ≠ ∅) :
      WorldStep cfg w (.checkTerminate p) (w.setPoller p { q with phase := .polling })
  | fail {p q e r} (poller : w.pollers p = some q) (phase : q.phase = .failed e)
      (free : w.gatewayLock (cfg.gatewayShard q.canisterId) = none)
      (entry : w.gateway.data.lookup q.canisterId = some r) :
      WorldStep cfg w (.removeFailed p)
        ((w.setGateway (w.gateway.removeEntry q.canisterId r)).setPoller p
          { q with phase := .returned (.error e) })
  | failPanic {p q e m} (poller : w.pollers p = some q) (phase : q.phase = .failed e)
      (free : w.gatewayLock (cfg.gatewayShard q.canisterId) = none)
      (entry : w.gateway.data.lookup q.canisterId = none)
      (panic : w.gateway.removeFailedCanister q.canisterId = .error m) :
      WorldStep cfg w (.removeFailed p) (w.dropPoller p q (.panicked m))
  | stop {p q r} (poller : w.pollers p = some q) (phase : q.phase = .returned r)
      (last : w.LastShard cfg (.poller p)) :
      WorldStep cfg w (.endPoller p) (w.dropPoller p q (.returned r))
  | append {c m} : WorldStep cfg w (.append c m) (w.append c m)

variable {cfg : Config} {w w' : World} {e : Event}

/-! ### The events of a session -/

theorem recv_cases {i : ClientId} (h : w.recv i = some w') : WorldStep cfg w (.recv i) w' := by
  simp only [World.recv] at h
  split at h
  · rename_i m rest hph hrx
    cases h
    exact .recv hph hrx
  · rename_i hph hrx
    split_ifs at h with hd
    cases h
    exact .cutOff hph hrx hd.1 hd.2
  · cases h

/-- The key that was removed is the one that was asked for. -/
theorem removeClientIfExists_key {g g' : GatewayState} {c : CanisterPrincipal} {k k' : ClientKey}
    (h : g.removeClientIfExists c k = (g', .removed k')) : k' = k := by
  unfold GatewayState.removeClientIfExists at h
  split at h
  · split at h
    · cases h
      rfl
    · cases h
  · cases h

theorem commit_cases {i : ClientId} (h : w.commit cfg i = some w') : WorldStep cfg w (.commit i) w' := by
  unfold World.commit World.removeClient at h
  split at h
  · rename_i m c k tx hph
    split_ifs at h with hc
    cases h
    exact .insert hph hc
  · rename_i e c k t hph
    split_ifs at h with hc
    dsimp only at h
    split at h
    · rename_i g hg
      cases h
      exact .rollback hph hc hg
    · rename_i m hm
      cases h
      exact .rollbackPanic hph hc hm
  · rename_i c k hph
    split_ifs at h with hc
    split at h
    · rename_i g hg
      cases h
      exact .remove hph hc hg
    · rename_i m hm
      cases h
      exact .removePanic hph hc hm
  · rename_i e c k hph
    split_ifs at h with hc
    split at h
    · rename_i g k' hg
      cases h
      obtain rfl := removeClientIfExists_key hg
      exact .removeIfExists hph hc hg
    · rename_i g hg
      cases h
      exact .removeVacant hph hc hg
  · cases h

theorem relayOpen_cases {i : ClientId} {io : Io} (h : w.relayOpen i io = some w') :
    WorldStep cfg w (.relayOpen i io) w' := by
  unfold World.relayOpen at h
  split at h
  · rename_i m c k t hph
    split at h
    · rename_i out hr
      cases h
      exact .relayOpen hph hr
    · rename_i out e hr
      cases h
      exact .relayOpenFail hph hr
    · rename_i out msg hr
      cases h
      exact .relayOpenPanic hph hr
  · cases h

theorem startPoller_cases {i : ClientId} (h : w.startPoller cfg i = some w') :
    WorldStep cfg w (.startPoller i) w' := by
  unfold World.startPoller at h
  split at h
  · rename_i c r hph
    split_ifs at h with hlast
    cases h
    exact .startPoller hph hlast
  · rename_i c hph
    cases h
    exact .noPoller hph
  · cases h

/-! ### The events of a poller -/

theorem pollReply_cases {p : PollerId} {r : PollReply} (h : w.pollReply cfg p r = some w') :
    WorldStep cfg w (.pollReply p r) w' := by
  unfold World.pollReply at h
  split at h
  · rename_i q hq
    split_ifs at h with hph
    split at h
    · rename_i e hr
      cases h
      exact .pollFailed hq hph hr
    · rename_i out hr
      split at h
      · rename_i n hn
        cases h
        exact .polled hq hph hr hn
      · rename_i n e hn
        cases h
        exact .nonceFailed hq hph hr hn
      · rename_i n m hn
        cases h
        exact .noncePanic hq hph hr hn
    · rename_i hr
      cases h
      exact .timedOut hq hph hr
    · rename_i hr
      cases h
      exact .noMessages hq hph hr
  · cases h

theorem relay_cases {p : PollerId} (h : w.relay p = some w') : WorldStep cfg w (.relay p) w' := by
  unfold World.relay at h
  split at h
  · rename_i q hq
    split at h
    · rename_i msgs hph
      split at h
      · rename_i hms
        split_ifs at h with hlast
        · cases h
          exact .relayed hq hph hms hlast
        · cases h
          exact .relayedMore hq hph hms (Bool.eq_false_iff.mpr hlast)
      · rename_i m rest hms
        split at h
        · rename_i client hcl
          cases h
          exact .send hq hph hms hcl
        · rename_i hcl
          cases h
          exact .skip hq hph hms hcl
    · cases h
  · cases h

theorem put_cases {p : PollerId} (h : w.put p = some w') : WorldStep cfg w (.put p) w' := by
  unfold World.put at h
  split at h
  · rename_i q hq
    split at h
    · rename_i i k m msgs hph
      split_ifs at h with hd hroom
      · cases h
        exact .putDropped hq hph hd
      · cases h
        exact .put hq hph (Bool.eq_false_iff.mpr hd) hroom
    · cases h
  · cases h

theorem checkTerminate_cases {p : PollerId} (h : w.checkTerminate cfg p = some w') :
    WorldStep cfg w (.checkTerminate p) w' := by
  unfold World.checkTerminate GatewayState.removeCanisterIfEmpty at h
  split at h
  · rename_i q hq
    split_ifs at h with hc
    rcases hl : w.gateway.data.lookup q.canisterId with _ | r
    · rw [hl] at h
      cases h
      exact .goOn hq hc.1 hc.2 fun r hr => by rw [hl] at hr; cases hr
    · rw [hl] at h
      by_cases hempty : w.gateway.clients r = ∅
      · simp only [hempty, if_true] at h
        cases h
        exact .terminate hq hc.1 hc.2 hl hempty
      · simp only [hempty, if_false] at h
        cases h
        refine .goOn hq hc.1 hc.2 fun r' hr' => ?_
        rw [hl] at hr'
        cases hr'
        exact hempty
  · cases h

theorem removeFailed_cases {p : PollerId} (h : w.removeFailed cfg p = some w') :
    WorldStep cfg w (.removeFailed p) w' := by
  unfold World.removeFailed at h
  split at h
  · rename_i q hq
    split at h
    · rename_i e hph
      split_ifs at h with hfree
      rcases hl : w.gateway.data.lookup q.canisterId with _ | r
      · have hr : w.gateway.removeFailedCanister q.canisterId =
            .error (unreachable "failed canister not found in gateway state") := by
          simp only [GatewayState.removeFailedCanister, hl]
        rw [hr] at h
        cases h
        exact .failPanic hq hph hfree hl hr
      · have hr : w.gateway.removeFailedCanister q.canisterId =
            .ok (w.gateway.removeEntry q.canisterId r) := by
          simp only [GatewayState.removeFailedCanister, hl]
        rw [hr] at h
        cases h
        exact .fail hq hph hfree hl
    · cases h
  · cases h

/-- **The list is complete.** -/
theorem step_cases (h : step cfg w e = some w') : WorldStep cfg w e w' := by
  cases e with
  | readWs i u =>
    simp only [step, World.readWs] at h
    split at h
    · rename_i hph
      cases h
      exact .readWs hph
    · cases h
  | recv i => exact recv_cases h
  | update i io =>
    simp only [step, World.update] at h
    split at h
    · rename_i u hph
      cases h
      exact .update hph rfl
    · cases h
  | lock i =>
    simp only [step, World.lock] at h
    split at h
    · rename_i c hc
      split_ifs at h with hfree
      cases h
      exact .lock hc hfree
    · cases h
  | commit i => exact commit_cases h
  | relayOpen i io => exact relayOpen_cases h
  | readShard t =>
    simp only [step, World.readShard] at h
    split_ifs at h with hread
    cases h
    exact .readShard hread.1 hread.2.1 hread.2.2
  | startPoller i => exact startPoller_cases h
  | wsClosed i =>
    simp only [step, World.wsClosed] at h
    split at h
    · rename_i c k r hph
      cases h
      exact .wsClosed hph
    · cases h
  | submit t =>
    simp only [step, World.submit] at h
    split_ifs at h with ht
    cases h
    exact .submit ht
  | pollReply p r => exact pollReply_cases h
  | relay p => exact relay_cases h
  | put p => exact put_cases h
  | wake p =>
    simp only [step, World.wake] at h
    split at h
    · rename_i q hq
      split_ifs at h with hph
      cases h
      exact .wake hq hph
    · cases h
  | checkTerminate p => exact checkTerminate_cases h
  | removeFailed p => exact removeFailed_cases h
  | endPoller p =>
    simp only [step, World.endPoller] at h
    split at h
    · rename_i q hq
      split at h
      · rename_i r hph
        split_ifs at h with hlast
        cases h
        exact .stop hq hph hlast
      · cases h
    · cases h
  | append c m =>
    cases h
    exact .append

end IcWsGateway
