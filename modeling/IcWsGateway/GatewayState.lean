/-
# The state shared by all tasks (`gateway-state`)

`GatewayState.data` maps each canister that is polled to its poller state, an
`Arc` of a map from client keys to senders. The `Arc` is a reference into a
heap of counted cells: a poller and the gateway map hold the same reference,
so what one inserts the other sees, and a cell whose count has dropped to 0 is
gone, with every sender in it. A cell's contents are kept after that, since
nothing can reach them.

Each function below runs inside one critical section (its `SAFETY` comment),
so it is one function from state to state. `clients_connected` and the other
gauges are left out.
-/
import IcWsGateway.CanisterUtils
import IcWsGateway.Lib.FiniteMap

namespace IcWsGateway

/-- Identifier of a client connection; it also names the connection's channel. The source
counts in a `u64`, from 0 up; that it does not get to the end of it is taken for granted. -/
abbrev ClientId := ℕ

/-- The sending side of the channel of a session. Only the session of that
identifier reads the other side. -/
abbrev Sender := ClientId

/-- State of each client: the sending side of its channel (its span is left out). -/
structure ClientSender where
  sender : Sender
deriving DecidableEq, Repr

/-- A reference to a poller state, as an `Arc` is. -/
abbrev PollerRef := ℕ

/-- `DashMap<ClientKey, ClientSender>`. -/
abbrev Clients := Finmap fun _ : ClientKey => ClientSender

/-- State of the WS Gateway, and the heap its `PollerState`s live in. -/
structure GatewayState where
  data : Finmap fun _ : CanisterPrincipal => PollerRef
  clients : PollerRef → Clients
  strong : PollerRef → ℕ
  nextRef : PollerRef

/-- Determines whether the client was removed from the poller state or if there was no such client. -/
inductive ClientRemovalResult
  | removed (clientKey : ClientKey)
  | vacant
deriving DecidableEq, Repr

/-- Determines whether the canister was removed from the gateway state or not. -/
inductive CanisterRemovalResult
  | empty
  | notEmpty
deriving DecidableEq, Repr

/-- The message of the panic that `unreachable!` makes of this text. -/
def unreachable (message : String) : String := "internal error: entered unreachable code: " ++ message

namespace GatewayState

def new : GatewayState :=
  { data := ∅, clients := fun _ => ∅, strong := fun _ => 0, nextRef := 0 }

def setClients (g : GatewayState) (r : PollerRef) (m : Clients) : GatewayState :=
  { g with clients := Function.update g.clients r m }

/-- A holder of `r` lets go of it. -/
def dropArc (g : GatewayState) (r : PollerRef) : GatewayState :=
  { g with strong := Function.update g.strong r (g.strong r - 1) }

/-- Every sender of the channel of session `i` that was put into a poller state
is gone: no cell that is still held stores it. -/
def SenderDropped (g : GatewayState) (i : Sender) : Prop :=
  ∀ r < g.nextRef, 0 < g.strong r → ¬ FiniteMap.Stores (g.clients r) ⟨i⟩

instance (g : GatewayState) (i : Sender) : Decidable (g.SenderDropped i) :=
  inferInstanceAs (Decidable (∀ r < g.nextRef, 0 < g.strong r → ¬ FiniteMap.Stores (g.clients r) ⟨i⟩))

def insertClientChannelAndGetNewPollerState (g : GatewayState) (canisterId : CanisterPrincipal)
    (clientKey : ClientKey) (clientChannelTx : Sender) : GatewayState × Option PollerRef :=
  match g.data.lookup canisterId with
  | some pollerState =>
    -- the poller has already been started
    (g.setClients pollerState ((g.clients pollerState).insert clientKey ⟨clientChannelTx⟩), none)
  | none =>
    -- two holders: the entry, and the caller, who shall start the poller
    let pollerState : Clients := (∅ : Clients).insert clientKey ⟨clientChannelTx⟩
    ({ data := g.data.insert canisterId g.nextRef
       clients := Function.update g.clients g.nextRef pollerState
       strong := Function.update g.strong g.nextRef 2
       nextRef := g.nextRef + 1 }, some g.nextRef)

/-- `none` where `poller_state.remove(&client_key)` finds no such client. -/
def removeKey (g : GatewayState) (pollerState : PollerRef) (clientKey : ClientKey) :
    Option GatewayState :=
  match (g.clients pollerState).lookup clientKey with
  | some _ => some (g.setClients pollerState ((g.clients pollerState).erase clientKey))
  | none => none

/-- An error is the message of the panic. -/
def removeClient (g : GatewayState) (canisterId : CanisterPrincipal) (clientKey : ClientKey) :
    Except String GatewayState :=
  match g.data.lookup canisterId with
  | some pollerState =>
    match g.removeKey pollerState clientKey with
    | some g' => .ok g'
    | none => .error (unreachable "Client key not found in poller state")
  -- the poller has failed and the poller state has already been removed
  | none => .ok g

/-- `data.len()`. It reads shard after shard, so what it returns may mix the counts of different moments. -/
def getActivePollersCount (g : GatewayState) : ℕ := g.data.keys.card

def removeClientIfExists (g : GatewayState) (canisterId : CanisterPrincipal) (clientKey : ClientKey) :
    GatewayState × ClientRemovalResult :=
  match g.data.lookup canisterId with
  | some pollerState =>
    match g.removeKey pollerState clientKey with
    | some g' => (g', .removed clientKey)
    | none => (g, .vacant)
  | none => (g, .vacant)

/-- `data.remove(&canister_id)`: the entry's reference is dropped. -/
def removeEntry (g : GatewayState) (canisterId : CanisterPrincipal) (pollerState : PollerRef) :
    GatewayState :=
  { g with data := g.data.erase canisterId }.dropArc pollerState

def removeCanisterIfEmpty (g : GatewayState) (canisterId : CanisterPrincipal) :
    GatewayState × CanisterRemovalResult :=
  match g.data.lookup canisterId with
  | some pollerState =>
    if g.clients pollerState = ∅ then (g.removeEntry canisterId pollerState, .empty)
    else (g, .notEmpty)
  | none => (g, .notEmpty)

/-- An error is the message of the panic. -/
def removeFailedCanister (g : GatewayState) (canisterId : CanisterPrincipal) :
    Except String GatewayState :=
  match g.data.lookup canisterId with
  | some pollerState => .ok (g.removeEntry canisterId pollerState)
  | none => .error (unreachable "failed canister not found in gateway state")

end GatewayState
end IcWsGateway
