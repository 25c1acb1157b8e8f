/-
# A client session (`client_session.rs`)

The states of a session and what an update does to it. `select!` picks an
update, of the client or of the canister; `tryUpdateState` is what follows,
with the results of the awaited socket operation and of the CBOR encoding
given in `Io` (an update needs at most one of each).

A frame is represented by what the gateway makes of it: a binary frame by the
result of `from_slice` on its bytes, the argument of an envelope by the result
of `decode_args`.
-/
import IcWsGateway.GatewayState

namespace IcWsGateway

/-- The content of an envelope. `body` stands for the fields the gateway does not
read, and `arg` for what `decode_args` makes of the argument. -/
inductive EnvelopeContent
  | call (canisterId : Principal) (sender : Principal)
      (arg : Except String CanisterWsOpenArguments) (body : Bytes)
  | readState (body : Bytes)
  | query (body : Bytes)
deriving DecidableEq

structure Envelope where
  content : EnvelopeContent
  signature : Bytes
deriving DecidableEq

/-- Message sent by the client using the custom agent. -/
structure ClientRequest where
  envelope : Envelope
deriving DecidableEq

/-- A WebSocket message. A binary one is what `from_slice` makes of its bytes. -/
inductive Message
  | text (s : String)
  | binary (request : Option ClientRequest)
  | ping (payload : Bytes)
  | pong (payload : Bytes)
  | close
  | frame
deriving DecidableEq

def Message.isClose : Message → Bool
  | .close => true
  | _ => false

/-- The states of an IC WebSocket session. -/
inductive IcWsSessionState
  | init
  | setup (wsOpenMessage : Message)
  | opened
  | closed
deriving DecidableEq

def IcWsSessionState.isClosed : IcWsSessionState → Bool
  | .closed => true
  | _ => false

inductive IcWsError
  | icWsProtocol (e : String)
  | webSocket (e : String)
  | poller (e : String)
deriving DecidableEq, Repr

/-- What `{:?}` prints of an `IcWsError`. `String.quote` stands for the escapes of `{:?}`; the two
differ where a text has control or zero-width characters. -/
def IcWsError.debug : IcWsError → String
  | .icWsProtocol e => "IcWsProtocol(" ++ e.quote ++ ")"
  | .webSocket e => "WebSocket(" ++ e.quote ++ ")"
  | .poller e => "Poller(" ++ e.quote ++ ")"

/-- What a session does on its sockets and tasks during an update. -/
inductive Output
  | relayEnvelope (canisterId : Principal) (envelope : Envelope)
  | wsSend (m : CanisterToClientMessage)
  | wsClose
deriving DecidableEq

/-- A failed CBOR encoding: of the self-describe tag or of the value itself. -/
inductive CborError
  | selfDescribe (e : String)
  | value (e : String)
deriving DecidableEq

/-- How the socket operation and the CBOR encoding of an update end. -/
structure Io where
  socket : Except String Unit
  cbor : Except CborError Unit
deriving DecidableEq

/-- The update that `select!` picks. -/
inductive Update
  | client (u : Except String Message)
  | canister (u : Option CanisterToClientMessage)
deriving DecidableEq

/-- The session, with the messages buffered in its channel. -/
structure ClientSession where
  clientKey : Option ClientKey
  canisterId : Option CanisterPrincipal
  clientChannelRx : List CanisterToClientMessage
  sessionState : IcWsSessionState

/-- A session after `ClientSession::init` has sent the handshake. -/
def ClientSession.new : ClientSession :=
  { clientKey := none, canisterId := none, clientChannelRx := [], sessionState := .init }

def getClientRequest : Message → Except IcWsError ClientRequest
  | .binary (some request) => .ok request
  | .binary none => .error (.webSocket "ws message from client is not of type ClientRequest")
  | _ => .error (.webSocket "ws message from client is not binary encoded")

def inspectIcWsOpenMessage (wsMessage : Message) : Except IcWsError (ClientKey × Principal) :=
  match getClientRequest wsMessage with
  | .error e => .error e
  | .ok clientRequest =>
    match clientRequest.envelope.content with
    | .call canisterId sender (.ok wsOpenArguments) _ =>
      .ok (⟨sender, wsOpenArguments.clientNonce⟩, canisterId)
    | .call _ _ (.error e) _ =>
      .error (.icWsProtocol ("arg field of envelope's content has the wrong type: " ++ e.quote))
    | _ => .error (.icWsProtocol "first message from client should contain canister_id and arg in envelope's content and should be of Call variant")

namespace ClientSession

def sendWsMessageToClient (io : Io) : Except IcWsError Unit :=
  match io.socket with
  | .ok () => .ok ()
  | .error e => .error (.webSocket e)

def closeWsSession (io : Io) : Except IcWsError Unit :=
  match io.socket with
  | .ok () => .ok ()
  | .error e => .error (.webSocket e)

/-- `serialize` of an envelope. -/
def serialize (io : Io) : Except IcWsError Unit :=
  match io.cbor with
  | .ok () => .ok ()
  | .error (.selfDescribe e) =>
    .error (.webSocket ("could not write self-describe tag to stream. Error: " ++ e.quote))
  | .error (.value e) => .error (.webSocket ("could not serialize message. Error: " ++ e.quote))

def relayCanisterMessage (canisterMessage : CanisterToClientMessage) (io : Io) :
    List Output × Except IcWsError Unit :=
  match io.cbor with
  | .ok () => ([.wsSend canisterMessage], sendWsMessageToClient io)
  | .error (.selfDescribe e) | .error (.value e) =>
    ([], .error (.icWsProtocol ("Could not serialize canister message. Error: " ++ e)))

def handleOpenTransition (canisterMessage : CanisterToClientMessage) (io : Io) :
    List Output × Except IcWsError IcWsSessionState :=
  match relayCanisterMessage canisterMessage io with
  | (out, .ok ()) => (out, .ok .opened)
  | (out, .error e) => (out, .error e)

/-- Relays the client's request to the IC only if the content of the envelope is
of the `Call` variant. -/
def relayWsMessageToIc (s : ClientSession) (message : Message) (io : Io) :
    List Output × Outcome IcWsError Unit :=
  match getClientRequest message with
  | .error e => ([], .err e)
  | .ok clientRequest =>
    match clientRequest.envelope.content with
    | .call .. =>
      match serialize io with
      | .error e => ([], .err e)
      | .ok () =>
        match s.canisterId with
        | none => ([], .panicked "must be set")
        | some canisterId => ([.relayEnvelope canisterId clientRequest.envelope], .ok ())
    | _ => ([], .err (.icWsProtocol "Gateway can only relay envelopes with content of Call variant"))

def relayClientMessage (s : ClientSession) (message : Message) (io : Io) :
    List Output × Outcome IcWsError Unit :=
  s.relayWsMessageToIc message io

def handleSetupTransition (s : ClientSession) (wsOpenMessage : Message) (io : Io) :
    ClientSession × List Output × Except IcWsError IcWsSessionState :=
  match inspectIcWsOpenMessage wsOpenMessage with
  | .ok (clientKey, canisterId) =>
    -- `||` does not get to the client key where a canister id was set before
    ({ s with
       canisterId := some canisterId
       clientKey := if s.canisterId.isSome then s.clientKey else some clientKey }, [],
      .ok (.setup wsOpenMessage))
  | .error e =>
    match closeWsSession io with
    | .error e' => (s, [.wsClose], .error e')
    | .ok () => (s, [.wsClose], .error (.icWsProtocol ("IC WS setup failed. Error: " ++ e.debug)))

def checkClientUpdate (s : ClientSession) (clientUpdate : Except String Message) :
    ClientSession × Except IcWsError Message :=
  match clientUpdate with
  | .ok wsMessage => (s, .ok wsMessage)
  | .error e => ({ s with sessionState := .closed },
      .error (.webSocket ("Error receiving message from client: " ++ e)))

/-- `handle_client_update` on a message that is no error and closes nothing. -/
def handleClientMessage (s : ClientSession) (wsMessage : Message) (io : Io) :
    ClientSession × List Output × Outcome IcWsError Unit :=
  match s.sessionState with
  | .init =>
    match s.handleSetupTransition wsMessage io with
    | (s', out, .ok setupState) => ({ s' with sessionState := setupState }, out, .ok ())
    | (s', out, .error e) => (s', out, .err e)
  | .setup _ => (s, [], .ok ())
  | .opened => (s, s.relayClientMessage wsMessage io)
  | .closed => (s, [], .err (.icWsProtocol "Client shall not send messages while in Closed state"))

def handleClientUpdate (s : ClientSession) (clientUpdate : Except String Message) (io : Io) :
    ClientSession × List Output × Outcome IcWsError Unit :=
  match s.checkClientUpdate clientUpdate with
  | (s', .error e) => (s', [], .err e)
  | (s', .ok wsMessage) =>
    if wsMessage.isClose && !s'.sessionState.isClosed then
      ({ s' with sessionState := .closed }, [], .ok ())
    else s'.handleClientMessage wsMessage io

def handleCanisterUpdate (s : ClientSession) (canisterUpdate : Option CanisterToClientMessage)
    (io : Io) : ClientSession × List Output × Outcome IcWsError Unit :=
  match canisterUpdate with
  | some canisterMessage =>
    match s.sessionState with
    | .init => (s, [], .panicked (unreachable "Canister shall not send messages while in Init state"))
    | .setup _ =>
      match handleOpenTransition canisterMessage io with
      | (out, .ok openState) => ({ s with sessionState := openState }, out, .ok ())
      | (out, .error e) => (s, out, .err e)
    | .opened =>
      match relayCanisterMessage canisterMessage io with
      | (out, .ok ()) => (s, out, .ok ())
      | (out, .error e) => (s, out, .err e)
    | .closed => (s, [], .err (.icWsProtocol
        "Poller shall not be able to send messages while the session is in Closed state"))
  | none =>
    match closeWsSession io with
    | .error e => (s, [.wsClose], .err e)
    | .ok () => (s, [.wsClose], .err (.poller "Client session terminated due to poller failure"))

def handleUpdate (s : ClientSession) (u : Update) (io : Io) :
    ClientSession × List Output × Outcome IcWsError Unit :=
  match u with
  | .client u => s.handleClientUpdate u io
  | .canister u => s.handleCanisterUpdate u io

/-- `try_update_state`, from the update that `select!` has picked: the new state
of the session, if the update changed it. -/
def tryUpdateState (s : ClientSession) (u : Update) (io : Io) :
    ClientSession × List Output × Outcome IcWsError (Option IcWsSessionState) :=
  match s.handleUpdate u io with
  | (s', out, .ok ()) =>
    (s', out, .ok (if s'.sessionState ≠ s.sessionState then some s'.sessionState else none))
  | (s', out, .err e) => (s', out, .err e)
  | (s', out, .panicked m) => (s', out, .panicked m)

end ClientSession
end IcWsGateway
