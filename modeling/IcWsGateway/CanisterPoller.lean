/-
# The canister poller (`canister_poller.rs`), its sequential part

What one poll iteration computes from the reply of `ws_get_messages`: the
classification of the reply (`pollCanister`), the nonce carried by a message
key (`getNonceFromMessage`), the nonce check (`updateNonce`). How the poller's
task moves through an iteration, and how it interleaves with the sessions, is
in `System`.

`overflowChecks` tells a build with overflow checks, where `message_nonce + 1`
panics at `u64::MAX`, from one without, where it wraps.
-/
import IcWsGateway.CanisterUtils

namespace IcWsGateway

def POLLING_TIMEOUT_MS : UInt64 := 5000

/-- Result of the polling iteration. -/
inductive PollingStatus
  | noMessagesPolled
  | messagesPolled (certifiedCanisterOutput : CanisterOutputCertifiedMessages)
  | timedOut
deriving DecidableEq, Repr

/-- What awaiting `timeout(.., ws_get_messages(..))` gives. -/
inductive PollReply
  | replied (r : Except IcError CanisterOutputCertifiedMessages)
  | elapsed
deriving DecidableEq, Repr

/-! ### The nonce in a message key -/

/-- `IntErrorKind`, as far as parsing a `u64` yields it. -/
inductive IntErrorKind
  | empty
  | invalidDigit
  | posOverflow
deriving DecidableEq, Repr

/-- What `{:?}` prints of a `ParseIntError`. -/
def IntErrorKind.debug : IntErrorKind → String
  | .empty => "ParseIntError { kind: Empty }"
  | .invalidDigit => "ParseIntError { kind: InvalidDigit }"
  | .posOverflow => "ParseIntError { kind: PosOverflow }"

/-- `char::to_digit(10)`. -/
def toDigit (c : Char) : Option ℕ :=
  if '0' ≤ c ∧ c ≤ '9' then some (c.toNat - '0'.toNat) else none

/-- The digits of a `u64` after its sign, with the value read so far. -/
def parseDigits : List Char → ℕ → Except IntErrorKind ℕ
  | [], n => .ok n
  | c :: cs, n =>
    match toDigit c with
    | none => .error .invalidDigit
    | some d => if n * 10 + d < 2 ^ 64 then parseDigits cs (n * 10 + d) else .error .posOverflow

/-- `str::parse::<u64>`: a leading `+` is accepted, a lone sign is not a number. -/
def parseU64 (s : List Char) : Except IntErrorKind ℕ :=
  match s with
  | [] => .error .empty
  | ['+'] => .error .invalidDigit
  | ['-'] => .error .invalidDigit
  | '+' :: cs => parseDigits cs 0
  | cs => parseDigits cs 0

def getNonceFromMessage (key : String) : Except String UInt64 :=
  match (key.toList.splitOn '_').getLast? with
  | some messageNonceStr =>
    match parseU64 messageNonceStr with
    | .ok n => .ok (UInt64.ofNat n)
    | .error e => .error ("Could not parse nonce. Error: " ++ e.debug)
  | none => .error "Key in canister message is not formatted correctly"

/-! ### One poll -/

def isRecoverableError (err : AgentError) : Bool :=
  match err.kind with
  | .invalidReplicaUrl | .timeoutWaitingForResponse | .invalidCborData | .httpError
  | .invalidReplicaStatus | .requestStatusDoneNoReply | .lookupPathAbsent | .lookupPathUnknown
  | .lookupPathError | .certificateVerificationFailed | .certificateNotAuthorized
  | .responseSizeExceededLimit | .transportError | .callDataMismatch | .invalidRejectCode => true
  | .uncertifiedReject rejectCode => rejectCode = .sysTransient
  | .other => false

/-- For the `{:?}` of a CDK error stands `String.quote`, which differs from it in control and zero-width
characters. -/
def pollCanister (reply : PollReply) : Except String PollingStatus :=
  match reply with
  | .replied (.ok certifiedCanisterOutput) =>
    if certifiedCanisterOutput.messages.length = 0 then .ok .noMessagesPolled
    else .ok (.messagesPolled certifiedCanisterOutput)
  | .replied (.error (.agent e)) =>
    if isRecoverableError e then .ok .noMessagesPolled
    else .error ("Unrecoverable agent error: " ++ e.debug)
  | .replied (.error (.candid e)) => .error ("Unrecoverable candid error: " ++ e)
  | .replied (.error (.cdk e)) => .error ("Unrecoverable CDK error: " ++ e.quote)
  | .elapsed => .ok .timedOut

/-- The value of `self.next_message_nonce` after the loop over the messages, and
how the loop ended. -/
def updateNonce (overflowChecks : Bool) :
    UInt64 → List CanisterOutputMessage → UInt64 × Outcome String Unit
  | nextMessageNonce, [] => (nextMessageNonce, .ok ())
  | nextMessageNonce, m :: ms =>
    match getNonceFromMessage m.key with
    | .error e => (nextMessageNonce, .err e)
    | .ok messageNonce =>
      if nextMessageNonce ≠ 0 ∧ messageNonce ≠ nextMessageNonce then
        (nextMessageNonce, .err ("Non consecutive nonce: expected " ++
          toString nextMessageNonce.toNat ++ ", got " ++ toString messageNonce.toNat))
      else if overflowChecks ∧ messageNonce.toNat + 1 = 2 ^ 64 then
        (nextMessageNonce, .panicked "attempt to add with overflow")
      else updateNonce overflowChecks (messageNonce + 1) ms

end IcWsGateway
