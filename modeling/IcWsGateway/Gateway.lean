/-
# The gateway, from its start to its sessions

`WsListener` accepts connections and hands them to session handlers; each of
these upgrades its connection to a WebSocket, sends the client the principal of
the gateway (`ClientSession::init`), and only then enters
`handle_client_session`, which is where a session of `World` begins. `Gateway`
puts the two together. Its listener and its sessions run as they do by
themselves (`Gateway.listener_run`, `Gateway.world_run`), so what holds of every
run of one of them holds in the gateway.

Key definitions: `DeploymentInfo.tlsConfig`, `Gateway.start`, `Gateway.step`.
Key theorems: `Gateway.listener_run`, `Gateway.world_run`, `Gateway.start_cases`.
-/
import IcWsGateway.WsListener
import IcWsGateway.Deadlock

namespace IcWsGateway

/-! ### How the gateway starts -/

/-- Paths to certificate and certificate key. -/
structure TlsConfig where
  certificatePemPath : String
  certificateKeyPemPath : String

/-- The options of the command line that decide about TLS. -/
structure DeploymentInfo where
  tlsCertificatePemPath : Option String
  tlsCertificateKeyPemPath : Option String

/-- TLS needs both paths. -/
def DeploymentInfo.tlsConfig (d : DeploymentInfo) : Option TlsConfig :=
  match d.tlsCertificatePemPath, d.tlsCertificateKeyPemPath with
  | some certificatePemPath, some certificateKeyPemPath => some ⟨certificatePemPath, certificateKeyPemPath⟩
  | _, _ => none

/-- What the operating system and `native_tls` return while the listener is made. -/
structure ListenerIo where
  bind : Except String Unit
  read : String → Except String Bytes
  fromPkcs8 : Bytes → Bytes → Except String Unit
  buildAcceptor : Except String Unit

/-- `expect` of a `Result`: the message of its panic. -/
def expect {α : Type} (r : Except String α) (message : String) : Except String α :=
  match r with
  | .ok a => .ok a
  | .error e => .error (message ++ ": " ++ e)

/-- The TLS acceptor, if TLS is enabled. -/
def WsListener.newTlsAcceptor (io : ListenerIo) : Option TlsConfig → Except String Bool
  | some tlsConfig => do
    let chain ← expect (io.read tlsConfig.certificatePemPath) "Can't read certificate"
    let privkey ← expect (io.read tlsConfig.certificateKeyPemPath) "Can't read private key"
    expect (io.fromPkcs8 chain privkey) "Can't create a TLS identity"
    expect io.buildAcceptor "Can't create a TLS acceptor from the TLS identity"
    return true
  | none => return false

/-- `WsListener::new`, or the message of its panic. -/
def WsListener.new (io : ListenerIo) (tlsConfig : Option TlsConfig) : Except String WsListener := do
  expect io.bind "Can't listen on this address"
  let tlsEnabled ← newTlsAcceptor io tlsConfig
  return init tlsEnabled

/-- The message sent by the gateway upon opening the WebSocket connection. -/
structure GatewayHandshakeMessage where
  gatewayPrincipal : Principal
deriving DecidableEq, Repr

/-- Where `start_session` is. -/
inductive StartPhase
  /-- awaiting `accept_async` -/
  | upgrading
  /-- in `ClientSession::init`, awaiting the `send` of the handshake message -/
  | greeting
  /-- in `handle_client_session` -/
  | serving
  /-- it has returned an error before that -/
  | refused (e : String)
deriving DecidableEq, Repr

/-- The listener, the session handlers it has started, and the sessions. -/
structure Gateway where
  gatewayPrincipal : Principal
  listener : WsListener
  starts : ClientId → Option StartPhase
  world : World

/-- A computation that may fail, taken apart. -/
theorem Except.of_bind_ok {ε α β : Type} {x : Except ε α} {f : α → Except ε β} {b : β} (h : x >>= f = .ok b) :
    ∃ a, x = .ok a ∧ f a = .ok b := by
  rcases x with e | a
  · cases h
  · exact ⟨a, rfl, h⟩

namespace Gateway

/-- A gateway that accepts no connection yet. -/
def init (gatewayPrincipal : Principal) (listener : WsListener) : Gateway :=
  { gatewayPrincipal := gatewayPrincipal, listener := listener, starts := fun _ => none, world := .new }

/-- `main`, from the principal of its agent on. -/
def start (io : ListenerIo) (d : DeploymentInfo) (gatewayPrincipal : Principal) : Except String Gateway := do
  let listener ← WsListener.new io d.tlsConfig
  return init gatewayPrincipal listener

inductive Event
  | listener (e : WsListener.Event)
  /-- `accept_async` returns -/
  | upgraded (i : ClientId) (r : Except String Unit)
  /-- the `send` of the handshake message returns -/
  | greeted (i : ClientId) (r : Except String Unit)
  /-- a step of a session or of another task -/
  | task (e : IcWsGateway.Event)

/-- The tasks of the session handlers that the listener has started are spawned. -/
def spawnHandlers (starts : ClientId → Option StartPhase) (new : List StartedHandler) :
    ClientId → Option StartPhase :=
  new.foldl (fun starts s => Function.update starts s.clientId (some .upgrading)) starts

def setStart (g : Gateway) (i : ClientId) (ph : StartPhase) : Gateway :=
  { g with starts := Function.update g.starts i (some ph) }

/-- What `start_session` returns when `ClientSession::init` fails to send the handshake
message. -/
def initError (e : String) : String :=
  "Client session error: " ++ (IcWsError.webSocket
    ("Error sending handshake message to client: " ++ (IcWsError.webSocket e).debug)).debug

def step (cfg : Config) (g : Gateway) : Event → Option Gateway
  | .listener e =>
    match g.listener.step e with
    | some l => some { g with
        listener := l, starts := spawnHandlers g.starts (l.handlers.drop g.listener.handlers.length) }
    | none => none
  | .upgraded i r =>
    if g.starts i = some .upgrading then
      match r with
      | .ok () => some (g.setStart i .greeting)
      | .error e => some (g.setStart i (.refused ("Refused WebSocket connection " ++ e)))
    else none
  | .greeted i r =>
    if g.starts i = some .greeting then
      match r with
      | .ok () => some (g.setStart i .serving)
      | .error e => some (g.setStart i (.refused (initError e)))
    else none
  | .task e =>
    if ∀ i ∈ e.session, g.starts i = some .serving then
      match IcWsGateway.step cfg g.world e with
      | some w => some { g with world := w }
      | none => none
    else none

variable {cfg : Config} {g g' : Gateway} {e : Event} {h : List (Gateway × Event)} {i : ClientId} {p : Principal}
  {tls : Bool}

/-! ### The listener and the sessions by themselves -/

def Event.ofListener : Event → Option WsListener.Event
  | .listener e => some e
  | _ => none

def Event.ofTask : Event → Option IcWsGateway.Event
  | .task e => some e
  | _ => none

/-- What the listener has gone through. -/
def listenerHistory (h : List (Gateway × Event)) : List (WsListener × WsListener.Event) :=
  LTS.partHistory listener Event.ofListener h

/-- What the sessions and the other tasks have gone through. -/
def worldHistory (h : List (Gateway × Event)) : List (World × IcWsGateway.Event) :=
  LTS.partHistory world Event.ofTask h

theorem listener_inv {e : WsListener.Event} (he : step cfg g (.listener e) = some g') :
    g.listener.step e = some g'.listener ∧ g'.world = g.world ∧ g'.gatewayPrincipal = g.gatewayPrincipal ∧
      g'.starts = spawnHandlers g.starts (g'.listener.handlers.drop g.listener.handlers.length) := by
  simp only [step] at he
  split at he
  · rename_i l hl
    cases he
    exact ⟨hl, rfl, rfl, rfl⟩
  · cases he

theorem task_inv {e : IcWsGateway.Event} (he : step cfg g (.task e) = some g') :
    (∀ i, e.session = some i → g.starts i = some .serving) ∧
      ∃ w, IcWsGateway.step cfg g.world e = some w ∧ g' = { g with world := w } := by
  simp only [step] at he
  split_ifs at he with hserving
  split at he
  · rename_i w hw
    exact ⟨fun i hi => hserving i hi, w, hw, (Option.some.inj he).symm⟩
  · cases he

/-- What the end of an operation of `start_session` does. -/
theorem upgraded_inv {r : Except String Unit} (he : step cfg g (.upgraded i r) = some g') :
    g.starts i = some .upgrading ∧
      ((r = .ok () ∧ g' = g.setStart i .greeting) ∨
        ∃ x, r = .error x ∧ g' = g.setStart i (.refused ("Refused WebSocket connection " ++ x))) := by
  simp only [step] at he
  split_ifs at he with hph
  refine ⟨hph, ?_⟩
  rcases r with x | ⟨⟩
  · exact Or.inr ⟨x, rfl, (Option.some.inj he).symm⟩
  · exact Or.inl ⟨rfl, (Option.some.inj he).symm⟩

theorem greeted_inv {r : Except String Unit} (he : step cfg g (.greeted i r) = some g') :
    g.starts i = some .greeting ∧
      ((r = .ok () ∧ g' = g.setStart i .serving) ∨ ∃ x, r = .error x ∧ g' = g.setStart i (.refused (initError x))) := by
  simp only [step] at he
  split_ifs at he with hph
  refine ⟨hph, ?_⟩
  rcases r with x | ⟨⟩
  · exact Or.inr ⟨x, rfl, (Option.some.inj he).symm⟩
  · exact Or.inl ⟨rfl, (Option.some.inj he).symm⟩

/-- **The listener of a gateway runs as a listener does.** -/
theorem listener_run (hr : LTS.Run (step cfg) (init p (.init tls)) h g) :
    LTS.Run WsListener.step (.init tls) (listenerHistory h) g.listener := by
  refine LTS.Run.part listener Event.ofListener ?_ hr
  intro g e g' he
  cases e with
  | listener e => exact Or.inl ⟨e, rfl, (listener_inv he).1⟩
  | upgraded i r =>
    refine Or.inr ⟨rfl, ?_⟩
    obtain ⟨-, ⟨-, rfl⟩ | ⟨x, -, rfl⟩⟩ := upgraded_inv he <;> rfl
  | greeted i r =>
    refine Or.inr ⟨rfl, ?_⟩
    obtain ⟨-, ⟨-, rfl⟩ | ⟨x, -, rfl⟩⟩ := greeted_inv he <;> rfl
  | task e =>
    obtain ⟨-, w, -, rfl⟩ := task_inv he
    exact Or.inr ⟨rfl, rfl⟩

/-- **The sessions of a gateway run as sessions do**, so what holds of every run of them
holds in a gateway. -/
theorem world_run (hr : LTS.Run (step cfg) (init p (.init tls)) h g) : Runs cfg (worldHistory h) g.world := by
  refine LTS.Run.part world Event.ofTask ?_ hr
  intro g e g' he
  cases e with
  | listener e => exact Or.inr ⟨rfl, (listener_inv he).2.1⟩
  | upgraded i r =>
    refine Or.inr ⟨rfl, ?_⟩
    obtain ⟨-, ⟨-, rfl⟩ | ⟨x, -, rfl⟩⟩ := upgraded_inv he <;> rfl
  | greeted i r =>
    refine Or.inr ⟨rfl, ?_⟩
    obtain ⟨-, ⟨-, rfl⟩ | ⟨x, -, rfl⟩⟩ := greeted_inv he <;> rfl
  | task e =>
    obtain ⟨-, w, hw, rfl⟩ := task_inv he
    exact Or.inl ⟨e, rfl, hw⟩

/-- A gateway that starts listens with TLS if it was given both paths, and without
otherwise. -/
theorem start_cases {io : ListenerIo} {d : DeploymentInfo} (hs : start io d p = .ok g) :
    g = init p (.init d.tlsConfig.isSome) := by
  obtain ⟨l, hl, hg⟩ := Except.of_bind_ok hs
  cases hg
  obtain ⟨-, -, hl⟩ := Except.of_bind_ok hl
  obtain ⟨tls, htls, hl⟩ := Except.of_bind_ok hl
  cases hl
  rcases hd : d.tlsConfig with _ | tlsConfig
  · rw [hd] at htls
    cases htls
    rfl
  · rw [hd] at htls
    obtain ⟨chain, -, htls⟩ := Except.of_bind_ok htls
    obtain ⟨privkey, -, htls⟩ := Except.of_bind_ok htls
    obtain ⟨-, -, htls⟩ := Except.of_bind_ok htls
    obtain ⟨-, -, htls⟩ := Except.of_bind_ok htls
    cases htls
    rfl

end Gateway

end IcWsGateway
