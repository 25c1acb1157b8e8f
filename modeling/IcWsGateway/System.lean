/-
# The gateway as a system of tasks

One `World` holds the state of every task: the session handlers
(`client_session_handler.rs`), the pollers (`run_polling`, `poll_and_relay`,
`relay_messages`), the tasks spawned to relay envelopes to the IC, the state
they share, and the message logs of the canisters. `step` is one step of one
task, up to the next point where another task can run or where it may have to
wait; an event that has to wait is not enabled.

Locks are those of `DashMap`. A session takes the shard of the gateway map
(`lock`) and keeps it until its operation is done (`commit`), which also needs
the shard of the client key in the poller state. The guard that `get` returns
to `relay_messages` keeps that shard locked from `relay` to `put`, across the
`send` that waits while the channel is full. A task that counts the active pollers,
before it starts one and after one has returned, reads the shards of the gateway map one
after the other and waits for each that is locked (`readShard`); the step after that takes
the last shard with it. `cfg` gives the shards of the gateway map, the shard of a canister and
of a client key (the hash is not modelled) and tells how overflow behaves.

Sessions are numbered as their clients connect; one whose client has sent
nothing yet is in its initial state.
-/
import IcWsGateway.CanisterPoller
import IcWsGateway.ClientSession
import IcWsGateway.Lib.Run

namespace IcWsGateway

/-! ### The tasks -/

/-- What the hash functions and the build decide. -/
structure Config where
  gatewayShards : ℕ
  gatewayShard : CanisterPrincipal → ℕ
  gatewayShard_lt : ∀ c, gatewayShard c < gatewayShards
  pollerShard : ClientKey → ℕ
  overflowChecks : Bool

/-- How a task ended: the result it returned, or the message of its panic. -/
inductive TaskResult
  | returned (r : Except String Unit)
  | panicked (message : String)
deriving DecidableEq

/-- Where a session handler is, with its local variables: `newPollerState` is
what the insert returned, the one token to start a poller with. -/
inductive Phase
  /-- at the `select!` of `try_update_state` -/
  | awaiting
  /-- `select!` has picked an update -/
  | updating (u : Update)
  /-- in the `Setup` arm, before the insert -/
  | setup (wsOpenMessage : Message) (canisterId : CanisterPrincipal) (clientKey : ClientKey)
      (clientChannelTx : Sender)
  /-- in the `Setup` arm, before the envelope is relayed -/
  | relayingOpen (wsOpenMessage : Message) (canisterId : CanisterPrincipal)
      (clientKey : ClientKey) (newPollerState : Option PollerRef)
  /-- in the `Setup` arm, before a poller is started -/
  | startingPoller (canisterId : CanisterPrincipal) (newPollerState : Option PollerRef)
  /-- in the `Setup` arm, before the client is removed after a failed relay -/
  | rollback (e : IcWsError) (canisterId : CanisterPrincipal) (clientKey : ClientKey)
      (newPollerState : Option PollerRef)
  /-- in the `Closed` arm, before the client is removed -/
  | closed (canisterId : CanisterPrincipal) (clientKey : ClientKey)
  /-- in the `Err` arm, before the client is removed -/
  | failed (e : IcWsError) (canisterId : CanisterPrincipal) (clientKey : ClientKey)
  /-- awaiting `ws_close` -/
  | closing (canisterId : CanisterPrincipal) (clientKey : ClientKey) (r : Except String Unit)
  | ended (r : TaskResult)
deriving DecidableEq

/-- A session handler and its session. -/
structure Handler where
  session : ClientSession
  clientChannelTx : Option Sender
  phase : Phase

/-- Where a poller is in its loop. -/
inductive PollerPhase
  /-- awaiting the reply to `ws_get_messages` -/
  | polling
  /-- in the loop of `relay_messages`, before the next of these messages -/
  | relaying (msgs : CanisterOutputCertifiedMessages)
  /-- in that loop, awaiting `send` with the guard of `clientKey` held -/
  | sending (clientChannelTx : Sender) (clientKey : ClientKey) (m : CanisterToClientMessage)
      (msgs : CanisterOutputCertifiedMessages)
  /-- awaiting the end of the polling interval -/
  | sleeping
  /-- before `poller_should_terminate` -/
  | checking
  /-- a poll has failed, before `remove_failed_canister` -/
  | failed (e : String)
  /-- `run_polling` has returned, the task still owns the poller -/
  | returned (r : Except String Unit)
  | ended (r : TaskResult)
deriving DecidableEq

structure CanisterPoller where
  canisterId : CanisterPrincipal
  pollerState : PollerRef
  nextMessageNonce : UInt64
  phase : PollerPhase
deriving DecidableEq

def CanisterPoller.new (canisterId : CanisterPrincipal) (pollerState : PollerRef) : CanisterPoller :=
  { canisterId := canisterId, pollerState := pollerState, nextMessageNonce := 0, phase := .polling }

abbrev PollerId := ℕ

/-- A spawned task that relays an envelope of session `client` to the IC;
`task` counts the tasks in the order they are spawned. -/
structure RelayTask where
  task : ℕ
  client : ClientId
  canisterId : Principal
  envelope : Envelope
deriving DecidableEq

/-- A task that calls `get_active_pollers_count`: a session before it starts a poller, the
task of a poller after `run_polling`. -/
inductive Counter
  | session (i : ClientId)
  | poller (p : PollerId)
deriving DecidableEq

structure World where
  gateway : GatewayState
  handlers : ClientId → Handler
  pollers : PollerId → Option CanisterPoller
  nextPoller : PollerId
  /-- who holds a shard of the gateway map -/
  gatewayLock : ℕ → Option ClientId
  /-- how many shards of the gateway map a task has read to count the pollers -/
  shardsRead : Counter → ℕ
  /-- relay tasks spawned and not yet started -/
  spawned : List RelayTask
  /-- relay tasks whose `update_signed` has started, in that order -/
  submitted : List RelayTask
  nextTask : ℕ
  /-- the messages each canister has queued for this gateway so far -/
  logs : CanisterPrincipal → List CanisterOutputMessage

def Handler.new (i : ClientId) : Handler :=
  { session := .new, clientChannelTx := some i, phase := .awaiting }

def World.new : World :=
  { gateway := .new, handlers := Handler.new, pollers := fun _ => none, nextPoller := 0,
    gatewayLock := fun _ => none, shardsRead := fun _ => 0, spawned := [], submitted := [], nextTask := 0, logs := fun _ => [] }

/-- The capacity of the channel between a poller and a session. -/
def CHANNEL_CAPACITY : ℕ := 100

inductive Event
  /-- `ws_read.next()` yields a frame or an error -/
  | readWs (i : ClientId) (u : Except String Message)
  /-- `client_channel_rx.recv()` yields a message, or `none` -/
  | recv (i : ClientId)
  /-- `try_update_state` handles the update it got, the handler dispatches -/
  | update (i : ClientId) (io : Io)
  /-- `data.entry(canister_id)` -/
  | lock (i : ClientId)
  /-- the rest of the operation on the gateway state -/
  | commit (i : ClientId)
  /-- `relay_client_message` of the first envelope -/
  | relayOpen (i : ClientId) (io : Io)
  /-- `get_active_pollers_count` reads one more shard, not the last one -/
  | readShard (t : Counter)
  /-- the last shard is read, the poller spawned -/
  | startPoller (i : ClientId)
  /-- `ws_close` returns -/
  | wsClosed (i : ClientId)
  /-- a spawned relay task starts -/
  | submit (t : RelayTask)
  | pollReply (p : PollerId) (r : PollReply)
  /-- the next message of a batch, or the end of the batch -/
  | relay (p : PollerId)
  /-- `send` returns -/
  | put (p : PollerId)
  /-- the polling interval is over -/
  | wake (p : PollerId)
  | checkTerminate (p : PollerId)
  | removeFailed (p : PollerId)
  /-- the last shard is read, the poller's task ends and drops the poller -/
  | endPoller (p : PollerId)
  /-- the canister queues a message -/
  | append (c : CanisterPrincipal) (m : CanisterOutputMessage)
deriving DecidableEq

/-! ### Reading and writing a world -/

namespace World

def setHandler (w : World) (i : ClientId) (h : Handler) : World :=
  { w with handlers := Function.update w.handlers i h }

def setPoller (w : World) (p : PollerId) (q : CanisterPoller) : World :=
  { w with pollers := Function.update w.pollers p (some q) }

def setGateway (w : World) (g : GatewayState) : World := { w with gateway := g }

/-- The session moves on to another phase. -/
def goto (w : World) (i : ClientId) (ph : Phase) : World :=
  w.setHandler i { w.handlers i with phase := ph }

/-- The shard of the gateway map is unlocked. -/
def unlock (w : World) (s : ℕ) : World :=
  { w with gatewayLock := Function.update w.gatewayLock s none }

/-- Spawn one task for each envelope among the outputs. -/
def spawn (w : World) (i : ClientId) : List Output → World
  | [] => w
  | .relayEnvelope c env :: out =>
    spawn { w with spawned := w.spawned ++ [⟨w.nextTask, i, c, env⟩], nextTask := w.nextTask + 1 } i out
  | _ :: out => spawn w i out

end World

/-- The client key whose guard the poller holds. -/
def CanisterPoller.guardedKey (q : CanisterPoller) : Option ClientKey :=
  match q.phase with
  | .sending _ clientKey _ _ => some clientKey
  | _ => none

/-- A poller holds a guard on the shard of `clientKey` in the poller state `r`. -/
def World.Guarded (cfg : Config) (w : World) (r : PollerRef) (clientKey : ClientKey) : Prop :=
  ∃ p < w.nextPoller, ((w.pollers p).any fun q => q.pollerState = r ∧
    q.guardedKey.any fun k => cfg.pollerShard k = cfg.pollerShard clientKey) = true

instance (cfg : Config) (w : World) (r : PollerRef) (k : ClientKey) : Decidable (w.Guarded cfg r k) :=
  inferInstanceAs (Decidable (∃ p < w.nextPoller, ((w.pollers p).any fun q => q.pollerState = r ∧
    q.guardedKey.any fun k' => cfg.pollerShard k' = cfg.pollerShard k) = true))

/-! ### Steps of a session -/

/-- The token is dropped with the handler's local variables. -/
def GatewayState.dropToken (g : GatewayState) (newPollerState : Option PollerRef) : GatewayState :=
  match newPollerState with
  | some r => g.dropArc r
  | none => g

/-- The arms of `handle_client_session`, up to the next point where they wait. -/
def Handler.dispatch (h : Handler) (r : Outcome IcWsError (Option IcWsSessionState)) : Handler :=
  match r with
  | .panicked m => { h with phase := .ended (.panicked m) }
  | .ok none => { h with phase := .awaiting }
  | .ok (some .init) =>
    { h with phase := .ended (.panicked (unreachable "Updating the client session state cannot result in Init")) }
  | .ok (some (.setup wsOpenMessage)) =>
    match h.session.canisterId, h.session.clientKey, h.clientChannelTx with
    | some canisterId, some clientKey, some tx =>
      { h with clientChannelTx := none, phase := .setup wsOpenMessage canisterId clientKey tx }
    | some _, some _, none => { h with phase := .ended (.panicked "must be set only once") }
    | _, _, _ => { h with phase := .ended (.panicked "must be set during Setup") }
  | .ok (some .opened) =>
    match h.session.clientKey with
    | some _ => { h with phase := .awaiting }
    | none => { h with phase := .ended (.panicked "must be set during Setup") }
  | .ok (some .closed) =>
    match h.session.canisterId, h.session.clientKey with
    | some canisterId, some clientKey => { h with phase := .closed canisterId clientKey }
    | _, _ => { h with phase := .ended (.panicked "must be set during Setup") }
  | .err (.poller e) => { h with phase := .ended (.returned (.error ("Poller error: " ++ e.quote))) }
  | .err e =>
    match h.session.canisterId, h.session.clientKey with
    | some canisterId, some clientKey => { h with phase := .failed e canisterId clientKey }
    | _, _ => { h with phase := .ended (.panicked "must be set during Setup") }

/-- The canister whose shard of the gateway map the handler is about to lock. -/
def Phase.target : Phase → Option CanisterPrincipal
  | .setup _ c _ _ | .rollback _ c _ _ | .closed c _ | .failed _ c _ => some c
  | _ => none

/-- The receiver of the channel is dropped when the handler ends. -/
def Handler.rxDropped (h : Handler) : Bool :=
  match h.phase with
  | .ended _ => true
  | _ => false

namespace World

def readWs (w : World) (i : ClientId) (u : Except String Message) : Option World :=
  match (w.handlers i).phase with
  | .awaiting => some (w.goto i (.updating (.client u)))
  | _ => none

def recv (w : World) (i : ClientId) : Option World :=
  let h := w.handlers i
  match h.phase, h.session.clientChannelRx with
  | .awaiting, m :: rest =>
    let s := { h.session with clientChannelRx := rest }
    some (w.setHandler i { h with session := s, phase := .updating (.canister (some m)) })
  | .awaiting, [] =>
    if h.clientChannelTx = none ∧ w.gateway.SenderDropped i then
      some (w.goto i (.updating (.canister none)))
    else none
  | _, _ => none

def update (w : World) (i : ClientId) (io : Io) : Option World :=
  let h := w.handlers i
  match h.phase with
  | .updating u =>
    match h.session.tryUpdateState u io with
    | (s, out, r) => some ((w.setHandler i (({ h with session := s } : Handler).dispatch r)).spawn i out)
  | _ => none

def lock (cfg : Config) (w : World) (i : ClientId) : Option World :=
  match (w.handlers i).phase.target with
  | some c =>
    if w.gatewayLock (cfg.gatewayShard c) = none then
      some { w with gatewayLock := Function.update w.gatewayLock (cfg.gatewayShard c) (some i) }
    else none
  | none => none

/-- The operation on the canister `c` and key `k` can be done: the session holds
the shard of `c`, and no guard is held on the shard of `k`. -/
def CanCommit (cfg : Config) (w : World) (i : ClientId) (c : CanisterPrincipal) (k : ClientKey) : Prop :=
  w.gatewayLock (cfg.gatewayShard c) = some i ∧
    ∀ r ∈ w.gateway.data.lookup c, ¬ w.Guarded cfg r k

instance (cfg : Config) (w : World) (i : ClientId) (c : CanisterPrincipal) (k : ClientKey) :
    Decidable (w.CanCommit cfg i c k) :=
  inferInstanceAs (Decidable (_ ∧ ∀ r ∈ w.gateway.data.lookup c, ¬ w.Guarded cfg r k))

/-- `remove_client`, then the handler goes on to `ph`, or panics. -/
def removeClient (w : World) (i : ClientId) (c : CanisterPrincipal) (k : ClientKey) (ph : Phase) :
    World :=
  match w.gateway.removeClient c k with
  | .ok g => (w.setGateway g).goto i ph
  | .error m => w.goto i (.ended (.panicked m))

def commit (cfg : Config) (w : World) (i : ClientId) : Option World :=
  match (w.handlers i).phase with
  | .setup m c k tx =>
    if w.CanCommit cfg i c k then
      match w.gateway.insertClientChannelAndGetNewPollerState c k tx with
      | (g, newPollerState) =>
        some (((w.setGateway g).goto i (.relayingOpen m c k newPollerState)).unlock (cfg.gatewayShard c))
    else none
  | .rollback e c k newPollerState =>
    if w.CanCommit cfg i c k then
      let w' := w.removeClient i c k
        (.ended (.returned (.error ("Could not relay WS open message to IC: " ++ e.debug))))
      some ((w'.setGateway (w'.gateway.dropToken newPollerState)).unlock (cfg.gatewayShard c))
    else none
  | .closed c k =>
    if w.CanCommit cfg i c k then
      some ((w.removeClient i c k (.closing c k (.ok ()))).unlock (cfg.gatewayShard c))
    else none
  | .failed e c k =>
    if w.CanCommit cfg i c k then
      match w.gateway.removeClientIfExists c k with
      | (g, .removed k') =>
        some (((w.setGateway g).goto i
          (.closing c k' (.error ("Client session error: " ++ e.debug)))).unlock (cfg.gatewayShard c))
      | (g, .vacant) =>
        some (((w.setGateway g).goto i (.ended (.returned
          (.error ("Client error before session Setup: " ++ e.debug))))).unlock (cfg.gatewayShard c))
    else none
  | _ => none

def relayOpen (w : World) (i : ClientId) (io : Io) : Option World :=
  match (w.handlers i).phase with
  | .relayingOpen m c k newPollerState =>
    match (w.handlers i).session.relayClientMessage m io with
    | (out, .ok ()) => some ((w.goto i (.startingPoller c newPollerState)).spawn i out)
    | (out, .err e) => some ((w.goto i (.rollback e c k newPollerState)).spawn i out)
    | (out, .panicked msg) =>
      some (((w.goto i (.ended (.panicked msg))).setGateway (w.gateway.dropToken newPollerState)).spawn i out)
  | _ => none

/-- The task is at `get_active_pollers_count`. -/
def counts (w : World) : Counter → Bool
  | .session i =>
    match (w.handlers i).phase with
    | .startingPoller _ (some _) => true
    | _ => false
  | .poller p =>
    match (w.pollers p).map CanisterPoller.phase with
    | some (.returned _) => true
    | _ => false

def readShard (cfg : Config) (w : World) (t : Counter) : Option World :=
  if w.counts t = true ∧ w.shardsRead t + 1 < cfg.gatewayShards ∧ w.gatewayLock (w.shardsRead t) = none then
    some { w with shardsRead := Function.update w.shardsRead t (w.shardsRead t + 1) }
  else none

/-- The task has only the last shard to read, and it is not locked. -/
def LastShard (cfg : Config) (w : World) (t : Counter) : Prop :=
  w.shardsRead t + 1 = cfg.gatewayShards ∧ w.gatewayLock (w.shardsRead t) = none

instance (cfg : Config) (w : World) (t : Counter) : Decidable (w.LastShard cfg t) :=
  inferInstanceAs (Decidable (_ ∧ _))

def startPoller (cfg : Config) (w : World) (i : ClientId) : Option World :=
  match (w.handlers i).phase with
  | .startingPoller c (some r) =>
    if w.LastShard cfg (.session i) then
      some { (w.setPoller w.nextPoller (.new c r)).goto i .awaiting with
        nextPoller := w.nextPoller + 1 }
    else none
  | .startingPoller _ none => some (w.goto i .awaiting)
  | _ => none

def wsClosed (w : World) (i : ClientId) : Option World :=
  match (w.handlers i).phase with
  | .closing _ _ r => some (w.goto i (.ended (.returned r)))
  | _ => none

/-! ### Steps of the other tasks -/

def submit (w : World) (t : RelayTask) : Option World :=
  if t ∈ w.spawned then
    some { w with spawned := w.spawned.erase t, submitted := w.submitted ++ [t] }
  else none

/-- The task of a poller ends and drops its reference to the poller state. -/
def dropPoller (w : World) (p : PollerId) (q : CanisterPoller) (r : TaskResult) : World :=
  (w.setPoller p { q with phase := .ended r }).setGateway (w.gateway.dropArc q.pollerState)

def pollReply (cfg : Config) (w : World) (p : PollerId) (reply : PollReply) : Option World :=
  match w.pollers p with
  | some q =>
    if q.phase = .polling then
      match pollCanister reply with
      | .error e => some (w.setPoller p { q with phase := .failed e })
      | .ok (.messagesPolled out) =>
        match updateNonce cfg.overflowChecks q.nextMessageNonce out.messages with
        | (n, .ok ()) => some (w.setPoller p { q with nextMessageNonce := n, phase := .relaying out })
        | (n, .err e) => some (w.setPoller p { q with nextMessageNonce := n, phase := .failed e })
        | (n, .panicked m) => some (w.dropPoller p { q with nextMessageNonce := n } (.panicked m))
      | .ok .timedOut => some (w.setPoller p { q with phase := .checking })
      | .ok .noMessagesPolled => some (w.setPoller p { q with phase := .sleeping })
    else none
  | none => none

def relay (w : World) (p : PollerId) : Option World :=
  match w.pollers p with
  | some q =>
    match q.phase with
    | .relaying msgs =>
      match msgs.messages with
      | [] =>
        -- an absent `is_end_of_queue` counts as true
        if msgs.isEndOfQueue.getD true then some (w.setPoller p { q with phase := .sleeping })
        else some (w.setPoller p { q with phase := .checking })
      | m :: rest =>
        match (w.gateway.clients q.pollerState).lookup m.clientKey with
        | some client =>
          let msg := m.toClient msgs.cert msgs.tree
          let left := { msgs with messages := rest }
          some (w.setPoller p { q with phase := .sending client.sender m.clientKey msg left })
        | none => some (w.setPoller p { q with phase := .relaying { msgs with messages := rest } })
    | _ => none
  | none => none

/-- The channel of session `i` buffers one more message. -/
def push (w : World) (i : ClientId) (m : CanisterToClientMessage) : World :=
  let h := w.handlers i
  let s := { h.session with clientChannelRx := h.session.clientChannelRx ++ [m] }
  w.setHandler i { h with session := s }

def put (w : World) (p : PollerId) : Option World :=
  match w.pollers p with
  | some q =>
    match q.phase with
    | .sending i _ m msgs =>
      if (w.handlers i).rxDropped then some (w.setPoller p { q with phase := .relaying msgs })
      else if (w.handlers i).session.clientChannelRx.length < CHANNEL_CAPACITY then
        some ((w.push i m).setPoller p { q with phase := .relaying msgs })
      else none
    | _ => none
  | none => none

def wake (w : World) (p : PollerId) : Option World :=
  match w.pollers p with
  | some q => if q.phase = .sleeping then some (w.setPoller p { q with phase := .checking }) else none
  | none => none

def checkTerminate (cfg : Config) (w : World) (p : PollerId) : Option World :=
  match w.pollers p with
  | some q =>
    if q.phase = .checking ∧ w.gatewayLock (cfg.gatewayShard q.canisterId) = none then
      match w.gateway.removeCanisterIfEmpty q.canisterId with
      | (g, .empty) => some ((w.setGateway g).setPoller p { q with phase := .returned (.ok ()) })
      | (g, .notEmpty) => some ((w.setGateway g).setPoller p { q with phase := .polling })
    else none
  | none => none

def removeFailed (cfg : Config) (w : World) (p : PollerId) : Option World :=
  match w.pollers p with
  | some q =>
    match q.phase with
    | .failed e =>
      if w.gatewayLock (cfg.gatewayShard q.canisterId) = none then
        match w.gateway.removeFailedCanister q.canisterId with
        | .ok g => some ((w.setGateway g).setPoller p { q with phase := .returned (.error e) })
        | .error m => some (w.dropPoller p q (.panicked m))
      else none
    | _ => none
  | none => none

def endPoller (cfg : Config) (w : World) (p : PollerId) : Option World :=
  match w.pollers p with
  | some q =>
    match q.phase with
    | .returned r => if w.LastShard cfg (.poller p) then some (w.dropPoller p q (.returned r)) else none
    | _ => none
  | none => none

def append (w : World) (c : CanisterPrincipal) (m : CanisterOutputMessage) : World :=
  { w with logs := Function.update w.logs c (w.logs c ++ [m]) }

end World

/-- One step of the system; `none` where the event is not enabled. -/
def step (cfg : Config) (w : World) : Event → Option World
  | .readWs i u => w.readWs i u
  | .recv i => w.recv i
  | .update i io => w.update i io
  | .lock i => w.lock cfg i
  | .commit i => w.commit cfg i
  | .relayOpen i io => w.relayOpen i io
  | .readShard t => w.readShard cfg t
  | .startPoller i => w.startPoller cfg i
  | .wsClosed i => w.wsClosed i
  | .submit t => w.submit t
  | .pollReply p r => w.pollReply cfg p r
  | .relay p => w.relay p
  | .put p => w.put p
  | .wake p => w.wake p
  | .checkTerminate p => w.checkTerminate cfg p
  | .removeFailed p => w.removeFailed cfg p
  | .endPoller p => w.endPoller cfg p
  | .append c m => some (w.append c m)

/-- A run of the gateway from its start. -/
abbrev Runs (cfg : Config) (h : List (World × Event)) (w : World) : Prop :=
  LTS.Run (step cfg) World.new h w

/-! ### Courses of events -/

def Io.ok : Io := { socket := .ok (), cbor := .ok () }

/-- The message of a client that opens a session with the canister `c`. -/
def wsOpen (c : CanisterPrincipal) (k : ClientKey) : Message :=
  .binary (some ⟨⟨.call c k.clientPrincipal (.ok ⟨k.clientNonce, []⟩) [], []⟩⟩)

/-- The session `i` is set up and, if it is told to, starts a poller. -/
def opens (i : ClientId) (m : Message) : List Event :=
  [.readWs i (.ok m), .update i .ok, .lock i, .commit i, .relayOpen i .ok, .startPoller i]

/-- The client of session `i` closes it. -/
def closes (i : ClientId) : List Event :=
  [.readWs i (.ok .close), .update i .ok, .lock i, .commit i]

/-- The poller `p` gets these messages, with an empty certificate and tree. -/
def polls (p : PollerId) (msgs : List CanisterOutputMessage) : Event :=
  .pollReply p (.replied (.ok ⟨msgs, [], [], some true⟩))

/-- A message for the client key `k`, with this message key. -/
def messageFor (k : ClientKey) (key : String) : CanisterOutputMessage :=
  { clientKey := k, key := key, content := [] }

/-- The world after a list of events from the start, if each is enabled in turn. -/
def World.after (cfg : Config) (es : List Event) : World :=
  (LTS.exec (step cfg) World.new es).getD World.new

theorem exec_after {cfg : Config} {es : List Event} (h : (LTS.exec (step cfg) World.new es).isSome) :
    LTS.exec (step cfg) World.new es = some (World.after cfg es) := by
  obtain ⟨w, hw⟩ := Option.isSome_iff_exists.mp h
  rw [World.after, hw]
  rfl

theorem runs_after {cfg : Config} {es : List Event} (h : (LTS.exec (step cfg) World.new es).isSome) :
    Runs cfg (LTS.trace (step cfg) World.new es) (World.after cfg es) :=
  LTS.exec_run (exec_after h)

/-- The history of a list of events with the event `e` in its midst. -/
theorem trace_after {cfg : Config} {es es' : List Event} {e : Event} {w : World}
    (h : (LTS.exec (step cfg) World.new es).isSome) (he : step cfg (World.after cfg es) e = some w) :
    LTS.trace (step cfg) World.new (es ++ e :: es') =
      LTS.trace (step cfg) World.new es ++ (World.after cfg es, e) :: LTS.trace (step cfg) w es' := by
  rw [LTS.trace_append _ (exec_after h)]
  simp only [LTS.trace, he]

/-- The events of a list that is enabled to its end, from anywhere on the way. -/
theorem exec_more {cfg : Config} {es es' : List Event}
    (h : (LTS.exec (step cfg) World.new (es ++ es')).isSome) :
    LTS.exec (step cfg) (World.after cfg es) es' = some (World.after cfg (es ++ es')) := by
  have h' := exec_after h
  rw [LTS.exec_append] at h'
  obtain ⟨w, hw, hw'⟩ := Option.bind_eq_some_iff.mp h'
  have hafter : World.after cfg es = w := by rw [World.after, hw]; rfl
  rw [hafter]
  exact hw'

theorem step_after {cfg : Config} {es : List Event} {e : Event}
    (h : (LTS.exec (step cfg) World.new (es ++ [e])).isSome) :
    step cfg (World.after cfg es) e = some (World.after cfg (es ++ [e])) := by
  have h' := exec_more h
  simpa only [LTS.exec, Option.bind_fun_some] using h'

/-- One shard, and a build without overflow checks. -/
def Config.simple : Config :=
  { gatewayShards := 1, gatewayShard := fun _ => 0, gatewayShard_lt := fun _ => Nat.one_pos,
    pollerShard := fun _ => 0, overflowChecks := false }

/-- Two shards, the first one for the canister `[9]`. -/
def Config.twoShards : Config :=
  { Config.simple with
    gatewayShards := 2
    gatewayShard := fun c => if c = [9] then 0 else 1
    gatewayShard_lt := fun c => by split_ifs <;> omega }

end IcWsGateway
