/-
# The types shared by the crates (`canister-utils`)

Principals, client keys, what the canister answers to `ws_get_messages`, what
the gateway sends on to a client, and the errors of a canister call. A
`Vec<u8>` is a list of bytes. The tracing span that travels with a message
(`IcWsCanisterMessage`) is read by no function and is left out.
-/
import Mathlib

namespace IcWsGateway

abbrev Bytes := List UInt8

abbrev Principal := Bytes

abbrev CanisterPrincipal := Principal

abbrev ClientPrincipal := Principal

structure ClientKey where
  clientPrincipal : ClientPrincipal
  clientNonce : UInt64
deriving DecidableEq, Repr

/-- How a Rust function ends: it returns `Ok` or `Err`, or it panics. -/
inductive Outcome (ε α : Type)
  | ok (a : α)
  | err (e : ε)
  | panicked (message : String)
deriving DecidableEq, Repr

/-- The reject codes of the IC. -/
inductive RejectCode
  | sysFatal
  | sysTransient
  | destinationInvalid
  | canisterReject
  | canisterError
deriving DecidableEq, Repr

/-- The variants of `AgentError` that `is_recoverable_error` tells apart; `other`
stands for every variant it does not name. -/
inductive AgentErrorKind
  | invalidReplicaUrl
  | timeoutWaitingForResponse
  | invalidCborData
  | httpError
  | invalidReplicaStatus
  | requestStatusDoneNoReply
  | lookupPathAbsent
  | lookupPathUnknown
  | lookupPathError
  | certificateVerificationFailed
  | certificateNotAuthorized
  | responseSizeExceededLimit
  | transportError
  | callDataMismatch
  | invalidRejectCode
  | uncertifiedReject (rejectCode : RejectCode)
  | other
deriving DecidableEq, Repr

/-- An error of the agent, with the text its `Debug` prints. -/
structure AgentError where
  kind : AgentErrorKind
  debug : String
deriving DecidableEq, Repr

/-- `IcError`; a candid error is the text its `Debug` prints. -/
inductive IcError
  | agent (e : AgentError)
  | candid (debug : String)
  | cdk (e : String)
deriving DecidableEq, Repr

/-- The arguments for the canister method `ws_open`. -/
structure CanisterWsOpenArguments where
  clientNonce : UInt64
  gatewayPrincipal : Principal
deriving DecidableEq, Repr

/-- The arguments for `ws_close`. -/
structure CanisterWsCloseArguments where
  clientKey : ClientKey
deriving DecidableEq, Repr

/-- Message polled from the canister, as it goes to the client. -/
structure CanisterToClientMessage where
  key : String
  content : Bytes
  cert : Bytes
  tree : Bytes
deriving DecidableEq, Repr

/-- Element of the list of messages returned to the gateway after polling. -/
structure CanisterOutputMessage where
  clientKey : ClientKey
  key : String
  content : Bytes
deriving DecidableEq, Repr

/-- List of messages returned to the gateway after polling. `isEndOfQueue` is
`none` for a CDK older than 0.3.1. -/
structure CanisterOutputCertifiedMessages where
  messages : List CanisterOutputMessage
  cert : Bytes
  tree : Bytes
  isEndOfQueue : Option Bool
deriving DecidableEq, Repr

/-- The message that goes to the client, with the certificate of its batch. -/
def CanisterOutputMessage.toClient (m : CanisterOutputMessage) (cert tree : Bytes) :
    CanisterToClientMessage :=
  { key := m.key, content := m.content, cert := cert, tree := tree }

end IcWsGateway
