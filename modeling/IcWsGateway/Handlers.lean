/-
# What one event does to a session handler

`HandlerStep` lists the ways in which the handler of one session changes, each
with the event and the state it happens in; every event changes every handler
in one of these ways (`step_handler`). What the session and the local variables
of a handler are in each phase (`Handler.Wf`) follows, in particular that no
handler reaches a `panic!` of its own arms once the session has its client key
and canister id.

Key definitions: `HandlerStep`, `Handler.Wf`.
Key theorems: `step_handler`, `update_fresh`, `update_keyed`, `HandlerStep.wf`.
-/
import IcWsGateway.Steps

namespace IcWsGateway

/-! ### The changes of a handler -/

/-- What an event does to the handler `h` of session `i`. -/
inductive HandlerStep (w : World) (i : ClientId) (h : Handler) : Event → Handler → Prop
  | other {e} : HandlerStep w i h e h
  | readWs {u} (phase : h.phase = .awaiting) :
      HandlerStep w i h (.readWs i u) { h with phase := .updating (.client u) }
  | recv {m rest} (phase : h.phase = .awaiting) (rx : h.session.clientChannelRx = m :: rest) :
      HandlerStep w i h (.recv i)
        { h with
          session := { h.session with clientChannelRx := rest }
          phase := .updating (.canister (some m)) }
  | cutOff (phase : h.phase = .awaiting) (rx : h.session.clientChannelRx = [])
      (tx : h.clientChannelTx = none) (dropped : w.gateway.SenderDropped i) :
      HandlerStep w i h (.recv i) { h with phase := .updating (.canister none) }
  | update {u io s out r} (phase : h.phase = .updating u)
      (updated : h.session.tryUpdateState u io = (s, out, r)) :
      HandlerStep w i h (.update i io) (({ h with session := s } : Handler).dispatch r)
  | insert {m c k tx} (phase : h.phase = .setup m c k tx) :
      HandlerStep w i h (.commit i) { h with
        phase := .relayingOpen m c k (w.gateway.insertClientChannelAndGetNewPollerState c k tx).2 }
  | rollback {e c k t r} (phase : h.phase = .rollback e c k t) :
      HandlerStep w i h (.commit i) { h with phase := .ended r }
  | remove {c k} (phase : h.phase = .closed c k) :
      HandlerStep w i h (.commit i) { h with phase := .closing c k (.ok ()) }
  | removePanic {c k m} (phase : h.phase = .closed c k) (panic : w.gateway.removeClient c k = .error m) :
      HandlerStep w i h (.commit i) { h with phase := .ended (.panicked m) }
  | removeIfExists {e c k} (phase : h.phase = .failed e c k) :
      HandlerStep w i h (.commit i)
        { h with phase := .closing c k (.error ("Client session error: " ++ e.debug)) }
  | removeVacant {e c k} (phase : h.phase = .failed e c k) :
      HandlerStep w i h (.commit i) { h with
        phase := .ended (.returned (.error ("Client error before session Setup: " ++ e.debug))) }
  | relayOpen {m c k t io out} (phase : h.phase = .relayingOpen m c k t)
      (relayed : h.session.relayClientMessage m io = (out, .ok ())) :
      HandlerStep w i h (.relayOpen i io) { h with phase := .startingPoller c t }
  | relayOpenFail {m c k t io out e} (phase : h.phase = .relayingOpen m c k t)
      (relayed : h.session.relayClientMessage m io = (out, .err e)) :
      HandlerStep w i h (.relayOpen i io) { h with phase := .rollback e c k t }
  | relayOpenPanic {m c k t io out e} (phase : h.phase = .relayingOpen m c k t)
      (relayed : h.session.relayClientMessage m io = (out, .panicked e)) :
      HandlerStep w i h (.relayOpen i io) { h with phase := .ended (.panicked e) }
  | startPoller {c t} (phase : h.phase = .startingPoller c t) :
      HandlerStep w i h (.startPoller i) { h with phase := .awaiting }
  | wsClosed {c k r} (phase : h.phase = .closing c k r) :
      HandlerStep w i h (.wsClosed i) { h with phase := .ended (.returned r) }
  | push {p q k m msgs} (poller : w.pollers p = some q) (sending : q.phase = .sending i k m msgs)
      (open_ : h.rxDropped = false) (room : h.session.clientChannelRx.length < CHANNEL_CAPACITY) :
      HandlerStep w i h (.put p)
        { h with session := { h.session with clientChannelRx := h.session.clientChannelRx ++ [m] } }

/-- A change of the handler of session `i` alone. -/
theorem HandlerStep.update_of {w w' : World} {i : ClientId} {e : Event} {h : Handler}
    (hw : w'.handlers = Function.update w.handlers i h) (hs : HandlerStep w i (w.handlers i) e h)
    (j : ClientId) : HandlerStep w j (w.handlers j) e (w'.handlers j) := by
  rw [hw]
  by_cases hj : j = i
  · subst hj
    rw [Function.update_self]
    exact hs
  · rw [Function.update_of_ne hj]
    exact .other

theorem HandlerStep.of_eq {w w' : World} {e : Event} (hw : w'.handlers = w.handlers) (j : ClientId) :
    HandlerStep w j (w.handlers j) e (w'.handlers j) := by
  rw [hw]
  exact .other

variable {cfg : Config} {w w' : World} {e : Event}

/-- **What an event does to a handler.** -/
theorem step_handler (h : step cfg w e = some w') (j : ClientId) :
    HandlerStep w j (w.handlers j) e (w'.handlers j) := by
  cases step_cases h with
  | readWs phase => exact .update_of rfl (.readWs phase) j
  | recv phase rx => exact .update_of rfl (.recv phase rx) j
  | cutOff phase rx tx dropped => exact .update_of rfl (.cutOff phase rx tx dropped) j
  | update phase updated => exact .update_of (by simp) (.update phase updated) j
  | insert phase => exact .update_of rfl (.insert phase) j
  | rollback phase => exact .update_of rfl (.rollback phase) j
  | rollbackPanic phase => exact .update_of rfl (.rollback phase) j
  | remove phase => exact .update_of rfl (.remove phase) j
  | removePanic phase free panic => exact .update_of rfl (.removePanic phase panic) j
  | removeIfExists phase => exact .update_of rfl (.removeIfExists phase) j
  | removeVacant phase => exact .update_of rfl (.removeVacant phase) j
  | relayOpen phase relayed => exact .update_of (by simp) (.relayOpen phase relayed) j
  | relayOpenFail phase relayed => exact .update_of (by simp) (.relayOpenFail phase relayed) j
  | relayOpenPanic phase relayed => exact .update_of (by simp) (.relayOpenPanic phase relayed) j
  | startPoller phase => exact .update_of rfl (.startPoller phase) j
  | noPoller phase => exact .update_of rfl (.startPoller phase) j
  | wsClosed phase => exact .update_of rfl (.wsClosed phase) j
  | put poller phase open_ room => exact .update_of rfl (.push poller phase open_ room) j
  | _ => exact .of_eq rfl j

theorem relay_handlers {p : PollerId} (h : step cfg w (.relay p) = some w') : w'.handlers = w.handlers := by
  cases step_cases h <;> rfl

/-! ### Tasks and logs -/

/-- The other events touch neither the relay tasks nor the logs. -/
theorem step_rest (he : step cfg w e = some w') (hu : ∀ j io, e ≠ .update j io)
    (ho : ∀ j io, e ≠ .relayOpen j io) (hs : ∀ t, e ≠ .submit t)
    (ha : ∀ c m, e ≠ .append c m) :
    w'.spawned = w.spawned ∧ w'.submitted = w.submitted ∧ w'.nextTask = w.nextTask ∧
      w'.logs = w.logs := by
  cases step_cases he with
  | update => exact absurd rfl (hu _ _)
  | relayOpen | relayOpenFail | relayOpenPanic => exact absurd rfl (ho _ _)
  | submit => exact absurd rfl (hs _)
  | append => exact absurd rfl (ha _ _)
  | _ => exact ⟨rfl, rfl, rfl, rfl⟩

/-- Only a task that counts the pollers reads a shard to do so. -/
theorem step_shardsRead (he : step cfg w e = some w') : w'.shardsRead = w.shardsRead ∨
    ∃ t, e = .readShard t ∧ w.counts t = true ∧ w.shardsRead t + 1 < cfg.gatewayShards ∧
      w'.shardsRead = Function.update w.shardsRead t (w.shardsRead t + 1) := by
  cases step_cases he with
  | readShard counts more => exact Or.inr ⟨_, rfl, counts, more, rfl⟩
  | update | relayOpen | relayOpenFail | relayOpenPanic => exact Or.inl (World.spawn_shardsRead ..)
  | _ => exact Or.inl rfl

/-- Until a task has counted the pollers there is a shard that it has not read. -/
theorem shardsRead_lt {h : List (World × Event)} (hr : Runs cfg h w) (t : Counter) :
    w.shardsRead t < cfg.gatewayShards := by
  induction hr with
  | nil => exact Nat.zero_lt_of_lt (cfg.gatewayShard_lt [])
  | @snoc h s s' e hr he ih =>
    obtain hsame | ⟨u, rfl, -, hmore, hread⟩ := step_shardsRead he
    · rw [hsame]
      exact ih
    · rw [hread]
      by_cases hu : t = u
      · rw [hu, Function.update_self]
        exact hmore
      · rw [Function.update_of_ne hu]
        exact ih

/-- Only the canister touches its log. -/
theorem step_logs (he : step cfg w e = some w') :
    w'.logs = w.logs ∨ ∃ c m, e = .append c m ∧ w'.logs = Function.update w.logs c (w.logs c ++ [m]) := by
  cases step_cases he with
  | append => exact Or.inr ⟨_, _, rfl, rfl⟩
  | update | relayOpen | relayOpenFail | relayOpenPanic => exact Or.inl (by simp)
  | _ => exact Or.inl rfl

/-! ### Updates -/

/-- The session has no client key yet, and the handler still has its sender. -/
structure Handler.Fresh (i : ClientId) (h : Handler) : Prop where
  tx : h.clientChannelTx = some i
  canisterId : h.session.canisterId = none
  clientKey : h.session.clientKey = none
  sessionState : h.session.sessionState = .init

/-- The session has its client key and canister, and the sender has been taken. -/
structure Handler.Keyed (h : Handler) (c : CanisterPrincipal) (k : ClientKey) : Prop where
  tx : h.clientChannelTx = none
  canisterId : h.session.canisterId = some c
  clientKey : h.session.clientKey = some k
  setup : ∀ m, h.session.sessionState = .setup m → inspectIcWsOpenMessage m = .ok (k, c)

/-- The session is in `Setup` or `Opened`. -/
def ClientSession.Live (s : ClientSession) : Prop :=
  s.sessionState = .opened ∨ ∃ m, s.sessionState = .setup m

theorem ClientSession.handleSetupTransition_cases (s : ClientSession) (m : Message) (io : Io) :
    (∃ k c, inspectIcWsOpenMessage m = .ok (k, c) ∧ s.handleSetupTransition m io =
      ({ s with
         canisterId := some c
         clientKey := if s.canisterId.isSome then s.clientKey else some k }, [], .ok (.setup m))) ∨
    ∃ e, s.handleSetupTransition m io = (s, [.wsClose], .error e) := by
  unfold ClientSession.handleSetupTransition
  rcases inspectIcWsOpenMessage m with e | ⟨k, c⟩
  · apply Or.inr
    dsimp only
    split
    · exact ⟨_, rfl⟩
    · exact ⟨_, rfl⟩
  · exact Or.inl ⟨k, c, rfl, rfl⟩

/-- No update changes what is buffered. -/
theorem handleUpdate_rx (s : ClientSession) (u : Update) (io : Io) :
    (s.handleUpdate u io).1.clientChannelRx = s.clientChannelRx := by
  cases u with
  | client u =>
    simp only [ClientSession.handleUpdate, ClientSession.handleClientUpdate,
      ClientSession.checkClientUpdate]
    cases u with
    | error e => rfl
    | ok m =>
      dsimp only
      split_ifs
      · rfl
      · unfold ClientSession.handleClientMessage
        split
        · obtain ⟨k, c, -, h⟩ | ⟨e, h⟩ := s.handleSetupTransition_cases m io <;> rw [h]
        all_goals rfl
  | canister u =>
    simp only [ClientSession.handleUpdate, ClientSession.handleCanisterUpdate]
    split
    · split
      · rfl
      · split <;> rfl
      · split <;> rfl
      · rfl
    · split <;> rfl

theorem tryUpdateState_rx {s s' : ClientSession} {u : Update} {io : Io} {out : List Output}
    {r : Outcome IcWsError (Option IcWsSessionState)} (h : s.tryUpdateState u io = (s', out, r)) :
    s'.clientChannelRx = s.clientChannelRx := by
  rw [← handleUpdate_rx s u io]
  unfold ClientSession.tryUpdateState at h
  split at h <;> rename_i hu <;> rw [hu] <;> cases h <;> rfl

@[simp] theorem dispatch_session (h : Handler) (r : Outcome IcWsError (Option IcWsSessionState)) :
    (h.dispatch r).session = h.session := by
  unfold Handler.dispatch
  split <;> first | rfl | (split <;> rfl)

/-- Without a canister id the handler ends, unless nothing has changed. -/
theorem dispatch_fresh {h : Handler} (hc : h.session.canisterId = none)
    (r : Outcome IcWsError (Option IcWsSessionState)) :
    (∃ r', h.dispatch r = { h with phase := .ended r' }) ∨ r = .ok none ∨ r = .ok (some .opened) := by
  match r with
  | .panicked m => exact Or.inl ⟨_, rfl⟩
  | .ok none => exact Or.inr (Or.inl rfl)
  | .ok (some .init) => exact Or.inl ⟨_, rfl⟩
  | .ok (some (.setup m)) =>
    exact Or.inl ⟨.panicked "must be set during Setup", by simp only [Handler.dispatch, hc]⟩
  | .ok (some .opened) => exact Or.inr (Or.inr rfl)
  | .ok (some .closed) =>
    exact Or.inl ⟨.panicked "must be set during Setup", by simp only [Handler.dispatch, hc]⟩
  | .err (.poller e) => exact Or.inl ⟨_, rfl⟩
  | .err (.webSocket e) =>
    exact Or.inl ⟨.panicked "must be set during Setup", by simp only [Handler.dispatch, hc]⟩
  | .err (.icWsProtocol e) =>
    exact Or.inl ⟨.panicked "must be set during Setup", by simp only [Handler.dispatch, hc]⟩

/-- **The first update of a session.** It sets the session up, or the handler ends
without having used its sender. -/
theorem update_fresh {i : ClientId} {h : Handler} {u : Update} {io : Io} {s : ClientSession}
    {out : List Output} {r : Outcome IcWsError (Option IcWsSessionState)} (hf : h.Fresh i)
    (hu : h.session.tryUpdateState u io = (s, out, r)) :
    (∃ m k c, u = .client (.ok m) ∧ inspectIcWsOpenMessage m = .ok (k, c) ∧ out = [] ∧
      r = .ok (some (.setup m)) ∧ ({ h with session := s } : Handler).dispatch r =
        { session := { h.session with
            clientKey := some k, canisterId := some c, sessionState := .setup m }
          clientChannelTx := none, phase := .setup m c k i }) ∨
    (out = [] ∨ out = [.wsClose]) ∧
      ∃ r', ({ h with session := s } : Handler).dispatch r = { h with session := s, phase := .ended r' } := by
  obtain ⟨htx, hc, hk, hst⟩ := hf
  have hend : s.canisterId = none → r ≠ .ok none → r ≠ .ok (some .opened) →
      ∃ r', ({ h with session := s } : Handler).dispatch r = { h with session := s, phase := .ended r' } := by
    intro hs h1 h2
    obtain h' | h' | h' := dispatch_fresh (h := { h with session := s }) hs r
    · exact h'
    · exact absurd h' h1
    · exact absurd h' h2
  unfold ClientSession.tryUpdateState at hu
  cases u with
  | client u =>
    cases u with
    | error e =>
      cases hu
      exact Or.inr ⟨Or.inl rfl, hend hc nofun nofun⟩
    | ok m =>
      simp only [ClientSession.handleUpdate, ClientSession.handleClientUpdate,
        ClientSession.checkClientUpdate, hst, IcWsSessionState.isClosed, Bool.not_false,
        Bool.and_true] at hu
      by_cases hcl : m.isClose = true
      · simp only [hcl, if_true] at hu
        cases hu
        exact Or.inr ⟨Or.inl rfl, hend hc (by simp) (by simp)⟩
      · simp only [hcl, ClientSession.handleClientMessage, hst] at hu
        obtain ⟨k, c, hin, hs⟩ | ⟨e, hs⟩ := h.session.handleSetupTransition_cases m io
        · rw [hs] at hu
          cases hu
          exact Or.inl ⟨m, k, c, rfl, hin, rfl, by simp, by simp [Handler.dispatch, htx, hc]⟩
        · rw [hs] at hu
          cases hu
          exact Or.inr ⟨Or.inr rfl, hend hc nofun nofun⟩
  | canister u =>
    cases u with
    | some m =>
      simp only [ClientSession.handleUpdate, ClientSession.handleCanisterUpdate, hst] at hu
      cases hu
      exact Or.inr ⟨Or.inl rfl, hend hc nofun nofun⟩
    | none =>
      simp only [ClientSession.handleUpdate, ClientSession.handleCanisterUpdate] at hu
      split at hu
      · rename_i heq
        split at heq <;> cases heq
      · rename_i heq
        cases hu
        split at heq <;> cases heq <;> exact Or.inr ⟨Or.inr rfl, hend hc nofun nofun⟩
      · rename_i heq
        split at heq <;> cases heq

/-- What an update does to the handler of a session in `Setup` or `Opened`. -/
inductive KeyedUpdate (h : Handler) (c : CanisterPrincipal) (k : ClientKey) :
    Update → List Output → Handler → Prop
  | close {m} (frame : m.isClose = true) : KeyedUpdate h c k (.client (.ok m)) []
      { h with session := { h.session with sessionState := .closed }, phase := .closed c k }
  /-- a message of the client before the session is open is not relayed -/
  | ignored {m m'} (waiting : h.session.sessionState = .setup m') (message : m.isClose = false) :
      KeyedUpdate h c k (.client (.ok m)) [] { h with phase := .awaiting }
  | relayed {m req} (opened : h.session.sessionState = .opened)
      (request : getClientRequest m = .ok req) :
      KeyedUpdate h c k (.client (.ok m)) [.relayEnvelope c req.envelope] { h with phase := .awaiting }
  | delivered {m} : KeyedUpdate h c k (.canister (some m)) [.wsSend m]
      { h with session := { h.session with sessionState := .opened }, phase := .awaiting }
  | readFailed {x : String} {e : IcWsError} : KeyedUpdate h c k (.client (.error x)) []
      { h with session := { h.session with sessionState := .closed }, phase := .failed e c k }
  | failed {u : Update} {out : List Output} {e : IcWsError} (quiet : ∀ c env, .relayEnvelope c env ∉ out)
      (sent : ∀ m, u = .canister (some m) → out = [] ∨ out = [.wsSend m]) :
      KeyedUpdate h c k u out { h with phase := .failed e c k }
  | cutOff {e : String} : KeyedUpdate h c k (.canister none) [.wsClose]
      { h with phase := .ended (.returned (.error e)) }

/-- The error that reports a failed poller. -/
def IcWsError.isPoller : IcWsError → Bool
  | .poller _ => true
  | _ => false

theorem closeWsSession_error {io : Io} {e : IcWsError}
    (h : ClientSession.closeWsSession io = .error e) : e.isPoller = false := by
  unfold ClientSession.closeWsSession at h
  split at h <;> cases h
  rfl

/-- The error arm, for an error other than that of a failed poller. -/
theorem dispatch_err {h : Handler} {c : CanisterPrincipal} {k : ClientKey} {e : IcWsError}
    (hc : h.session.canisterId = some c) (hk : h.session.clientKey = some k)
    (he : e.isPoller = false) : h.dispatch (.err e) = { h with phase := .failed e c k } := by
  cases e with
  | poller x => cases he
  | webSocket x => simp only [Handler.dispatch, hc, hk]
  | icWsProtocol x => simp only [Handler.dispatch, hc, hk]

theorem dispatch_closed {h : Handler} {c : CanisterPrincipal} {k : ClientKey}
    (hc : h.session.canisterId = some c) (hk : h.session.clientKey = some k) :
    h.dispatch (.ok (some .closed)) = { h with phase := .closed c k } := by
  simp only [Handler.dispatch, hc, hk]

theorem dispatch_opened {h : Handler} {k : ClientKey} (hk : h.session.clientKey = some k) :
    h.dispatch (.ok (some .opened)) = { h with phase := .awaiting } := by
  simp only [Handler.dispatch, hk]

theorem relayCanisterMessage_cases (m : CanisterToClientMessage) (io : Io) :
    ClientSession.relayCanisterMessage m io = ([.wsSend m], .ok ()) ∨
    ∃ out e, (out = [] ∨ out = [.wsSend m]) ∧ e.isPoller = false ∧
      ClientSession.relayCanisterMessage m io = (out, .error e) := by
  rcases io with ⟨socket, cbor⟩
  rcases cbor with (e | e) | ⟨⟩
  · exact Or.inr ⟨_, _, Or.inl rfl, rfl, rfl⟩
  · exact Or.inr ⟨_, _, Or.inl rfl, rfl, rfl⟩
  · rcases socket with e | ⟨⟩
    · exact Or.inr ⟨_, _, Or.inr rfl, rfl, rfl⟩
    · exact Or.inl rfl

/-- With the canister set, the relay of an envelope does not panic; it relays the
envelope of the message, or nothing. -/
theorem relayClientMessage_cases {s : ClientSession} {c : CanisterPrincipal}
    (hc : s.canisterId = some c) (m : Message) (io : Io) :
    (∃ req, getClientRequest m = .ok req ∧
      s.relayClientMessage m io = ([.relayEnvelope c req.envelope], .ok ())) ∨
    ∃ e, e.isPoller = false ∧ s.relayClientMessage m io = ([], .err e) := by
  have hg : ∀ e, getClientRequest m = .error e → e.isPoller = false := by
    unfold getClientRequest
    split <;> rintro e ⟨⟩ <;> rfl
  have hser : ∀ e, ClientSession.serialize io = .error e → e.isPoller = false := by
    unfold ClientSession.serialize
    split <;> rintro e ⟨⟩ <;> rfl
  unfold ClientSession.relayClientMessage ClientSession.relayWsMessageToIc
  split
  · rename_i e he
    exact Or.inr ⟨e, hg e he, rfl⟩
  · rename_i req hreq
    split
    · split
      · rename_i e he
        exact Or.inr ⟨e, hser e he, rfl⟩
      · rw [hc]
        exact Or.inl ⟨req, hreq, rfl⟩
    · exact Or.inr ⟨_, rfl, rfl⟩

section Keyed

variable {h : Handler} {c : CanisterPrincipal} {k : ClientKey} {io : Io} {s : ClientSession}
  {out : List Output} {r : Outcome IcWsError (Option IcWsSessionState)}

theorem Handler.Keyed.dispatch_err (hk : h.Keyed c k) {e : IcWsError} (he : e.isPoller = false) :
    h.dispatch (.err e) = { h with phase := .failed e c k } :=
  IcWsGateway.dispatch_err hk.canisterId hk.clientKey he

/-- A message of the client closes the session, or is relayed once the session is open. -/
theorem clientMessage_keyed {m : Message} (hk : h.Keyed c k) (hl : h.session.Live)
    (hu : h.session.tryUpdateState (.client (.ok m)) io = (s, out, r)) :
    KeyedUpdate h c k (.client (.ok m)) out (({ h with session := s } : Handler).dispatch r) := by
  have hncl : h.session.sessionState.isClosed = false := by
    rcases hl with hl | ⟨m', hl⟩ <;> rw [hl] <;> rfl
  simp only [ClientSession.tryUpdateState, ClientSession.handleUpdate, ClientSession.handleClientUpdate,
    ClientSession.checkClientUpdate, hncl, Bool.not_false, Bool.and_true] at hu
  by_cases hcl : m.isClose = true
  · have hne : IcWsSessionState.closed ≠ h.session.sessionState := by
      rcases hl with hl | ⟨m', hl⟩ <;> rw [hl] <;> nofun
    simp only [hcl, if_true, if_pos hne] at hu
    cases hu
    rw [dispatch_closed (h := { h with session := { h.session with sessionState := .closed } })
      hk.canisterId hk.clientKey]
    exact .close hcl
  · simp only [hcl, ClientSession.handleClientMessage] at hu
    rcases hl with hl | ⟨m', hl⟩
    · simp only [hl] at hu
      obtain ⟨req, hreq, hs⟩ | ⟨e, he, hs⟩ := relayClientMessage_cases hk.canisterId m io
      · simp only [hs] at hu
        cases hu
        rw [if_neg (by simp [hl])]
        exact .relayed hl hreq
      · simp only [hs] at hu
        cases hu
        show KeyedUpdate h c k _ _ (h.dispatch (.err e))
        rw [hk.dispatch_err he]
        exact .failed (by simp) (fun _ h => nomatch h)
    · simp only [hl] at hu
      cases hu
      rw [if_neg (by simp [hl])]
      exact .ignored hl (by simpa using hcl)

/-- A message of the canister is sent to the client, and opens the session. -/
theorem canisterMessage_keyed {m : CanisterToClientMessage} (hk : h.Keyed c k) (hl : h.session.Live)
    (hu : h.session.tryUpdateState (.canister (some m)) io = (s, out, r)) :
    KeyedUpdate h c k (.canister (some m)) out (({ h with session := s } : Handler).dispatch r) := by
  simp only [ClientSession.tryUpdateState, ClientSession.handleUpdate, ClientSession.handleCanisterUpdate,
    ClientSession.handleOpenTransition] at hu
  obtain hs | ⟨out', e, ho, he, hs⟩ := relayCanisterMessage_cases m io
  · rcases hl with hl | ⟨m', hl⟩
    · simp only [hl, hs, ne_eq, not_true_eq_false, if_false] at hu
      cases hu
      have hd : KeyedUpdate h c k (.canister (some m)) [.wsSend m] _ := .delivered
      rw [← hl] at hd
      exact hd
    · simp only [hl, hs, ne_eq, reduceCtorEq, not_false_eq_true, if_true] at hu
      cases hu
      rw [dispatch_opened (h := { h with session := { h.session with sessionState := .opened } })
        hk.clientKey]
      exact .delivered
  · have hu' : s = h.session ∧ out = out' ∧ r = .err e := by
      rcases hl with hl | ⟨m', hl⟩ <;> simp only [hl, hs] at hu <;> cases hu <;> exact ⟨rfl, rfl, rfl⟩
    obtain ⟨rfl, rfl, rfl⟩ := hu'
    show KeyedUpdate h c k _ _ (h.dispatch (.err e))
    rw [hk.dispatch_err he]
    refine .failed (fun _ _ hm => ?_) (fun m' hm => ?_)
    · rcases ho with rfl | rfl <;> simp at hm
    · cases hm
      exact ho

/-- **An update of a session in `Setup` or `Opened`.** -/
theorem update_keyed {u : Update} (hk : h.Keyed c k) (hl : h.session.Live)
    (hu : h.session.tryUpdateState u io = (s, out, r)) :
    KeyedUpdate h c k u out (({ h with session := s } : Handler).dispatch r) := by
  rcases u with (x | m) | (_ | m)
  · cases hu
    rw [dispatch_err (h := { h with session := { h.session with sessionState := .closed } })
      hk.canisterId hk.clientKey rfl]
    exact .readFailed
  · exact clientMessage_keyed hk hl hu
  · simp only [ClientSession.tryUpdateState, ClientSession.handleUpdate,
      ClientSession.handleCanisterUpdate] at hu
    rcases hcw : ClientSession.closeWsSession io with e | ⟨⟩
    · simp only [hcw] at hu
      cases hu
      show KeyedUpdate h c k _ _ (h.dispatch (.err e))
      rw [hk.dispatch_err (closeWsSession_error hcw)]
      exact .failed (by simp) (fun _ h => nomatch h)
    · simp only [hcw] at hu
      cases hu
      exact .cutOff
  · exact canisterMessage_keyed hk hl hu

end Keyed

/-! ### What holds in each phase -/

/-- What the session and the local variables of the handler of session `i` are in
each phase. -/
def Handler.Wf (i : ClientId) (h : Handler) : Prop :=
  match h.phase with
  | .awaiting => h.Fresh i ∨ ∃ c k, h.Keyed c k ∧ h.session.Live
  | .updating u => h.Fresh i ∧ u ≠ .canister none ∨ ∃ c k, h.Keyed c k ∧ h.session.Live
  | .setup m c k tx => tx = i ∧ h.Keyed c k ∧ h.session.sessionState = .setup m
  | .relayingOpen m c k _ => h.Keyed c k ∧ h.session.sessionState = .setup m
  | .startingPoller c _ => ∃ k, h.Keyed c k ∧ h.session.Live
  | .rollback _ c k _ | .closed c k | .failed _ c k | .closing c k _ => h.Keyed c k
  | .ended _ => True

section Phases

variable {i : ClientId} {h : Handler} {m : Message} {c : CanisterPrincipal} {k : ClientKey}
  {t : Option PollerRef} {e : IcWsError} (hw : h.Wf i)

include hw

theorem Handler.Wf.awaiting (hph : h.phase = .awaiting) :
    h.Fresh i ∨ ∃ c k, h.Keyed c k ∧ h.session.Live := by
  simpa only [Handler.Wf, hph] using hw

theorem Handler.Wf.updating {u : Update} (hph : h.phase = .updating u) :
    h.Fresh i ∧ u ≠ .canister none ∨ ∃ c k, h.Keyed c k ∧ h.session.Live := by
  simpa only [Handler.Wf, hph] using hw

theorem Handler.Wf.setup {tx : Sender} (hph : h.phase = .setup m c k tx) :
    tx = i ∧ h.Keyed c k ∧ h.session.sessionState = .setup m := by
  simpa only [Handler.Wf, hph] using hw

theorem Handler.Wf.relayingOpen (hph : h.phase = .relayingOpen m c k t) :
    h.Keyed c k ∧ h.session.sessionState = .setup m := by
  simpa only [Handler.Wf, hph] using hw

theorem Handler.Wf.startingPoller (hph : h.phase = .startingPoller c t) :
    ∃ k, h.Keyed c k ∧ h.session.Live := by
  simpa only [Handler.Wf, hph] using hw

theorem Handler.Wf.rollback (hph : h.phase = .rollback e c k t) : h.Keyed c k := by
  simpa only [Handler.Wf, hph] using hw

theorem Handler.Wf.closed (hph : h.phase = .closed c k) : h.Keyed c k := by
  simpa only [Handler.Wf, hph] using hw

theorem Handler.Wf.failed (hph : h.phase = .failed e c k) : h.Keyed c k := by
  simpa only [Handler.Wf, hph] using hw

end Phases

theorem Handler.Fresh.has_tx {i : ClientId} {h : Handler} (hf : h.Fresh i) : h.clientChannelTx ≠ none := by
  rw [hf.tx]
  nofun

/-- A handler whose sender has been taken has its keys. -/
theorem Handler.Wf.keyed_of_tx {i : ClientId} {h : Handler} (hw : h.Wf i) (hph : h.phase = .awaiting)
    (htx : h.clientChannelTx = none) : ∃ c k, h.Keyed c k ∧ h.session.Live :=
  (hw.awaiting hph).resolve_left fun hf => hf.has_tx htx

theorem Handler.Wf.updating_of_tx {i : ClientId} {h : Handler} {u : Update} (hw : h.Wf i)
    (hph : h.phase = .updating u) (htx : h.clientChannelTx = none) : ∃ c k, h.Keyed c k ∧ h.session.Live :=
  (hw.updating hph).resolve_left fun hf => hf.1.has_tx htx

/-- A session has one client key and canister. -/
theorem Handler.Keyed.inj {h : Handler} {c c' : CanisterPrincipal} {k k' : ClientKey} (hk : h.Keyed c k)
    (hc : h.session.canisterId = some c') (hck : h.session.clientKey = some k') : c' = c ∧ k' = k := by
  rw [hk.canisterId, Option.some.injEq] at hc
  rw [hk.clientKey, Option.some.injEq] at hck
  exact ⟨hc.symm, hck.symm⟩

/-- The keys of a session do not depend on its phase or on what is buffered. -/
theorem Handler.Keyed.of_eq {h h' : Handler} {c : CanisterPrincipal} {k : ClientKey} (hk : h.Keyed c k)
    (htx : h'.clientChannelTx = h.clientChannelTx)
    (hc : h'.session.canisterId = h.session.canisterId)
    (hck : h'.session.clientKey = h.session.clientKey)
    (hs : ∀ m, h'.session.sessionState = .setup m → h.session.sessionState = .setup m) :
    h'.Keyed c k :=
  ⟨by rw [htx]; exact hk.tx, by rw [hc]; exact hk.canisterId, by rw [hck]; exact hk.clientKey,
    fun m hm => hk.setup m (hs m hm)⟩

theorem KeyedUpdate.keyed {h h' : Handler} {c : CanisterPrincipal} {k : ClientKey} {u : Update}
    {out : List Output} (hu : KeyedUpdate h c k u out h') (hk : h.Keyed c k) : h'.Keyed c k := by
  cases hu with
  | close | delivered | readFailed => exact hk.of_eq rfl rfl rfl nofun
  | ignored | relayed | failed | cutOff => exact hk.of_eq rfl rfl rfl fun _ => id

theorem KeyedUpdate.wf {i : ClientId} {h h' : Handler} {c : CanisterPrincipal} {k : ClientKey}
    {u : Update} {out : List Output} (hu : KeyedUpdate h c k u out h') (hk : h.Keyed c k)
    (hl : h.session.Live) : h'.Wf i := by
  have hk' := hu.keyed hk
  cases hu with
  | close | readFailed | failed => exact hk'
  | ignored | relayed => exact Or.inr ⟨c, k, hk', hl⟩
  | delivered => exact Or.inr ⟨c, k, hk', Or.inl rfl⟩
  | cutOff => trivial

theorem Handler.Wf.rx {i : ClientId} {h : Handler} (hw : h.Wf i) (rx : List CanisterToClientMessage) :
    ({ h with session := { h.session with clientChannelRx := rx } } : Handler).Wf i := by
  have hk : ∀ {c k}, h.Keyed c k →
      ({ h with session := { h.session with clientChannelRx := rx } } : Handler).Keyed c k :=
    fun hk => ⟨hk.tx, hk.canisterId, hk.clientKey, hk.setup⟩
  have hf : h.Fresh i →
      ({ h with session := { h.session with clientChannelRx := rx } } : Handler).Fresh i :=
    fun hf => ⟨hf.tx, hf.canisterId, hf.clientKey, hf.sessionState⟩
  unfold Handler.Wf at hw ⊢
  dsimp only
  split at hw
  · exact hw.imp hf fun ⟨c, k, hk', hl⟩ => ⟨c, k, hk hk', hl⟩
  · exact hw.imp (And.imp_left hf) fun ⟨c, k, hk', hl⟩ => ⟨c, k, hk hk', hl⟩
  · exact ⟨hw.1, hk hw.2.1, hw.2.2⟩
  · exact ⟨hk hw.1, hw.2⟩
  · obtain ⟨k, hk', hl⟩ := hw
    exact ⟨k, hk hk', hl⟩
  · exact hk hw
  · exact hk hw
  · exact hk hw
  · exact hk hw
  · trivial

/-- **Every event keeps a handler well formed.** -/
theorem HandlerStep.wf {i : ClientId} {h h' : Handler} (hs : HandlerStep w i h e h') (hw : h.Wf i) :
    h'.Wf i := by
  cases hs with
  | other => exact hw
  | readWs phase =>
    simp only [Handler.Wf, phase] at hw
    exact hw.imp (fun hf => ⟨⟨hf.tx, hf.canisterId, hf.clientKey, hf.sessionState⟩, nofun⟩)
      fun ⟨c, k, hk, hl⟩ => ⟨c, k, hk.of_eq rfl rfl rfl fun _ => id, hl⟩
  | recv phase rx =>
    simp only [Handler.Wf, phase] at hw
    exact hw.imp (fun hf => ⟨⟨hf.tx, hf.canisterId, hf.clientKey, hf.sessionState⟩, nofun⟩)
      fun ⟨c, k, hk, hl⟩ => ⟨c, k, hk.of_eq rfl rfl rfl fun _ => id, hl⟩
  | cutOff phase rx tx dropped =>
    obtain ⟨c, k, hk, hl⟩ := hw.keyed_of_tx phase tx
    exact Or.inr ⟨c, k, hk.of_eq rfl rfl rfl fun _ => id, hl⟩
  | update phase updated =>
    simp only [Handler.Wf, phase] at hw
    rcases hw with ⟨hf, -⟩ | ⟨c, k, hk, hl⟩
    · obtain ⟨m, k, c, -, hin, -, -, hd⟩ | ⟨-, r', hd⟩ := update_fresh hf updated
      · rw [hd]
        exact ⟨rfl, ⟨rfl, rfl, rfl, fun m' hm => by cases hm; exact hin⟩, rfl⟩
      · rw [hd]
        trivial
    · exact (update_keyed hk hl updated).wf hk hl
  | insert phase =>
    simp only [Handler.Wf, phase] at hw
    exact ⟨hw.2.1.of_eq rfl rfl rfl fun _ => id, hw.2.2⟩
  | remove phase | removeIfExists phase =>
    simp only [Handler.Wf, phase] at hw
    exact hw.of_eq rfl rfl rfl fun _ => id
  | rollback | removePanic | removeVacant | wsClosed | relayOpenPanic => trivial
  | relayOpen phase =>
    simp only [Handler.Wf, phase] at hw
    exact ⟨_, hw.1.of_eq rfl rfl rfl fun _ => id, Or.inr ⟨_, hw.2⟩⟩
  | relayOpenFail phase =>
    simp only [Handler.Wf, phase] at hw
    exact hw.1.of_eq rfl rfl rfl fun _ => id
  | startPoller phase =>
    simp only [Handler.Wf, phase] at hw
    obtain ⟨k, hk, hl⟩ := hw
    exact Or.inr ⟨_, k, hk.of_eq rfl rfl rfl fun _ => id, hl⟩
  | push => exact hw.rx _

/-- A session keeps its keys, and its sender stays taken. -/
theorem HandlerStep.keyed {i : ClientId} {h h' : Handler} {c : CanisterPrincipal} {k : ClientKey}
    (hs : HandlerStep w i h e h') (hw : h.Wf i) (hk : h.Keyed c k) : h'.Keyed c k := by
  cases hs with
  | update phase updated =>
    obtain ⟨c', k', hk', hl⟩ := hw.updating_of_tx phase hk.tx
    exact (update_keyed hk hl updated).keyed hk
  | _ => exact hk.of_eq rfl rfl rfl fun _ => id

end IcWsGateway
