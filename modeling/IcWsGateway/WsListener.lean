/-
# The listener (`ws_listener.rs`)

`listen_for_incoming_requests` waits in a `select!` for the next connection of
the socket or for a connection whose TLS handshake is complete. An accept
error does not match the pattern `Ok(..)` of the first branch, so that branch
is off for the rest of the `select!`, which then waits for the channel of the
handshakes only. If a completed handshake is there already, it is taken in the
same poll and the loop goes on; if not, no connection is accepted until one
completes, and none may be pending (`accepts_throughout_iff`,
`accept_error_blocks`).

Key definitions: `WsListener`, `WsListener.step`, `WsListener.Moved`, `WsListener.Accepting`.
Key theorems: `WsListener.sound_run`, `WsListener.accepts_throughout_iff`.
-/
import IcWsGateway.Lib.Run
import IcWsGateway.GatewayState

namespace IcWsGateway

/-- A connection of the operating system. -/
abbrev TcpStream := ℕ

/-- Possible TCP streams. -/
inductive CustomStream
  | tcp (stream : TcpStream)
  | tcpWithTls (stream : TcpStream)
deriving DecidableEq, Repr

/-- Milliseconds since the gateway started. -/
abbrev Instant := ℕ

/-- What is needed to start a client session handler. -/
structure AcceptedConnection where
  clientId : ClientId
  stream : CustomStream
deriving DecidableEq, Repr

/-- A session handler that was started. -/
structure StartedHandler where
  clientId : ClientId
  stream : CustomStream
  start : Instant
deriving DecidableEq, Repr

/-- The task that `accept_connection` spawns for a connection: it does the TLS handshake,
then sends the connection to the listener. -/
inductive AcceptTask
  | handshaking (stream : TcpStream)
  | sending (stream : CustomStream)
deriving DecidableEq, Repr

/-- How `timeout(.., acceptor.accept(stream))` ends. -/
inductive HandshakeResult
  | completed
  | failed
  | timedOut
deriving DecidableEq, Repr

/-- The listener, the tasks it spawned and the channel between them. -/
structure WsListener where
  /-- `tls_acceptor.is_some()`. -/
  tlsEnabled : Bool
  nextClientId : ClientId
  clientsConnectionTime : Finmap fun _ : ClientId => Instant
  /-- The accept branch of the current `select!` is disabled. -/
  acceptDisabled : Bool
  /-- `tls_acceptor_channel_rx`. -/
  channel : List AcceptedConnection
  tasks : Finmap fun _ : ClientId => AcceptTask
  handlers : List StartedHandler
  panicked : Option String
deriving DecidableEq

namespace WsListener

/-- The capacity of the channel. -/
def channelCapacity : ℕ := 100

inductive Event
  /-- `accept()` yields a connection. -/
  | accepted (stream : TcpStream) (now : Instant)
  /-- `accept()` yields an error. -/
  | acceptFailed
  /-- `recv()` yields a connection. -/
  | received
  /-- The handshake of the task ends. -/
  | handshake (clientId : ClientId) (result : HandshakeResult)
  /-- The task sends its connection. -/
  | send (clientId : ClientId)
deriving DecidableEq, Repr

/-- `WsListener::new`. -/
def init (tlsEnabled : Bool) : WsListener :=
  { tlsEnabled := tlsEnabled, nextClientId := 0, clientsConnectionTime := ∅, acceptDisabled := false,
    channel := [], tasks := ∅, handlers := [], panicked := none }

/-- Without TLS the task has nothing to wait for before it sends. -/
def acceptConnection (w : WsListener) (stream : TcpStream) (now : Instant) : WsListener :=
  { w with
    clientsConnectionTime := w.clientsConnectionTime.insert w.nextClientId now
    tasks := w.tasks.insert w.nextClientId
      (if w.tlsEnabled then .handshaking stream else .sending (.tcp stream)) }

def startSessionHandler (w : WsListener) (clientId : ClientId) (stream : CustomStream) : WsListener :=
  match w.clientsConnectionTime.lookup clientId with
  | some start => { w with handlers := w.handlers ++ [⟨clientId, stream, start⟩] }
  | none => { w with panicked := some "called `Option::unwrap()` on a `None` value" }

/-- The branch of the channel: it ends the `select!`, and the loop enters the next one
with both branches. `recv()` never yields `None`: the listener itself holds a sender. -/
def receive (w : WsListener) : Option WsListener :=
  match w.channel with
  | [] => none
  | c :: rest => some (startSessionHandler { w with channel := rest, acceptDisabled := false } c.clientId c.stream)

def step (w : WsListener) : Event → Option WsListener
  | .accepted stream now =>
    if w.panicked = none ∧ w.acceptDisabled = false then
      some { acceptConnection w stream now with nextClientId := w.nextClientId + 1 }
    else none
  | .acceptFailed =>
    if w.panicked = none ∧ w.acceptDisabled = false then
      -- the same poll of the `select!` goes on with the other branch
      match w.channel with
      | [] => some { w with acceptDisabled := true }
      | _ :: _ => receive w
    else none
  | .received => if w.panicked = none then receive w else none
  | .handshake clientId result =>
    match w.tasks.lookup clientId, result with
    | some (.handshaking stream), .completed =>
      some { w with tasks := w.tasks.insert clientId (.sending (.tcpWithTls stream)) }
    | some (.handshaking _), .failed => some { w with tasks := w.tasks.erase clientId }
    | some (.handshaking _), .timedOut => some { w with tasks := w.tasks.erase clientId }
    | _, _ => none
  | .send clientId =>
    match w.tasks.lookup clientId with
    | some (.sending stream) =>
      if w.channel.length < channelCapacity then
        some { w with tasks := w.tasks.erase clientId, channel := w.channel ++ [⟨clientId, stream⟩] }
      else none
    | _ => none

/-! ### What the listener holds -/

/-- The connection `id` is on its way to the listener. -/
def Pending (w : WsListener) (id : ClientId) : Prop :=
  (w.tasks.lookup id).isSome ∨ ∃ c ∈ w.channel, c.clientId = id

/-- The listener has not panicked, and knows the time of every connection on its way. -/
structure Sound (w : WsListener) : Prop where
  running : w.panicked = none
  timed : ∀ id, w.Pending id → ∃ start, w.clientsConnectionTime.lookup id = some start

variable {w w' : WsListener} {e : Event} {h : List (WsListener × Event)} {tls : Bool}

theorem receive_cases (hs : receive w = some w') : ∃ c rest, w.channel = c :: rest ∧
    w' = startSessionHandler { w with channel := rest, acceptDisabled := false } c.clientId c.stream := by
  unfold receive at hs
  split at hs
  · cases hs
  · rename_i c rest hc
    exact ⟨c, rest, hc, (Option.some.inj hs).symm⟩

/-- The time of a pending connection is there, so the `unwrap` succeeds. -/
theorem Sound.receive (hw : Sound w) (hs : receive w = some w') :
    ∃ c rest start, w.channel = c :: rest ∧ w.clientsConnectionTime.lookup c.clientId = some start ∧
      w' = { w with channel := rest, acceptDisabled := false,
                    handlers := w.handlers ++ [⟨c.clientId, c.stream, start⟩] } := by
  obtain ⟨c, rest, hc, rfl⟩ := receive_cases hs
  obtain ⟨start, hstart⟩ := hw.timed c.clientId (Or.inr ⟨c, by rw [hc]; exact List.mem_cons_self .., rfl⟩)
  refine ⟨c, rest, start, hc, hstart, ?_⟩
  unfold startSessionHandler
  simp only [hstart]

/-- What an event of a task does. -/
inductive TaskStep (w : WsListener) : Event → WsListener → Prop
  | completed (id : ClientId) (stream : TcpStream) (found : w.tasks.lookup id = some (.handshaking stream)) :
      TaskStep w (.handshake id .completed)
        { w with tasks := w.tasks.insert id (.sending (.tcpWithTls stream)) }
  | ended (id : ClientId) (stream : TcpStream) (result : HandshakeResult) (lost : result ≠ .completed)
      (found : w.tasks.lookup id = some (.handshaking stream)) :
      TaskStep w (.handshake id result) { w with tasks := w.tasks.erase id }
  | sent (id : ClientId) (stream : CustomStream) (found : w.tasks.lookup id = some (.sending stream))
      (room : w.channel.length < channelCapacity) :
      TaskStep w (.send id) { w with tasks := w.tasks.erase id, channel := w.channel ++ [⟨id, stream⟩] }

theorem handshake_task {id : ClientId} {result : HandshakeResult} (hs : step w (.handshake id result) = some w') :
    TaskStep w (.handshake id result) w' := by
  simp only [step] at hs
  split at hs
  · rename_i stream hid
    cases hs
    exact .completed id stream hid
  · rename_i stream hid
    cases hs
    exact .ended id stream .failed (by decide) hid
  · rename_i stream hid
    cases hs
    exact .ended id stream .timedOut (by decide) hid
  · cases hs

theorem send_task {id : ClientId} (hs : step w (.send id) = some w') : TaskStep w (.send id) w' := by
  simp only [step] at hs
  split at hs
  · rename_i stream hid
    split_ifs at hs with hroom
    cases hs
    exact .sent id stream hid hroom
  · cases hs

theorem accepted_step (stream : TcpStream) (now : Instant) (hp : w.panicked = none) (ha : w.acceptDisabled = false) :
    step w (.accepted stream now) =
      some { acceptConnection w stream now with nextClientId := w.nextClientId + 1 } :=
  if_pos ⟨hp, ha⟩

theorem accepted_inv {stream : TcpStream} {now : Instant} (hs : step w (.accepted stream now) = some w') :
    w.panicked = none ∧ w.acceptDisabled = false ∧
      w' = { acceptConnection w stream now with nextClientId := w.nextClientId + 1 } := by
  simp only [step] at hs
  split_ifs at hs with hb
  exact ⟨hb.1, hb.2, (Option.some.inj hs).symm⟩

/-- An accept error with no completed handshake at hand disables the branch. -/
theorem acceptFailed_inv (hs : step w .acceptFailed = some w') : w.panicked = none ∧ w.acceptDisabled = false ∧
    ((w.channel = [] ∧ w' = { w with acceptDisabled := true }) ∨
      (w.channel ≠ [] ∧ WsListener.receive w = some w')) := by
  simp only [step] at hs
  split_ifs at hs with hb
  refine ⟨hb.1, hb.2, ?_⟩
  split at hs
  · rename_i hc
    exact Or.inl ⟨hc, (Option.some.inj hs).symm⟩
  · rename_i c rest hc
    exact Or.inr ⟨by rw [hc]; exact List.cons_ne_nil _ _, hs⟩

/-! ### What one event does -/

/-- What an event does to the listener. -/
inductive Moved (w : WsListener) : Event → WsListener → Prop
  | accepted (stream : TcpStream) (now : Instant) : Moved w (.accepted stream now)
      { acceptConnection w stream now with nextClientId := w.nextClientId + 1 }
  | disabled (empty : w.channel = []) : Moved w .acceptFailed { w with acceptDisabled := true }
  | handedOver {e : Event} (c : AcceptedConnection) (rest : List AcceptedConnection) (start : Instant)
      (event : e = .received ∨ e = .acceptFailed) (head : w.channel = c :: rest)
      (found : w.clientsConnectionTime.lookup c.clientId = some start) : Moved w e
      { w with channel := rest, acceptDisabled := false,
               handlers := w.handlers ++ [⟨c.clientId, c.stream, start⟩] }
  | task {e : Event} {w' : WsListener} (step : TaskStep w e w') : Moved w e w'

theorem Sound.moved (hw : Sound w) (hs : WsListener.step w e = some w') : Moved w e w' := by
  cases e with
  | accepted stream now =>
    obtain ⟨-, -, rfl⟩ := accepted_inv hs
    exact .accepted stream now
  | acceptFailed =>
    obtain ⟨-, -, ⟨hc, rfl⟩ | ⟨-, hr⟩⟩ := acceptFailed_inv hs
    · exact .disabled hc
    · obtain ⟨c, rest, start, hc, hstart, rfl⟩ := hw.receive hr
      exact .handedOver c rest start (Or.inr rfl) hc hstart
  | received =>
    simp only [WsListener.step, if_pos hw.running] at hs
    obtain ⟨c, rest, start, hc, hstart, rfl⟩ := hw.receive hs
    exact .handedOver c rest start (Or.inl rfl) hc hstart
  | handshake id result => exact .task (handshake_task hs)
  | send id => exact .task (send_task hs)

/-! ### The pending connections -/

section Pending

variable {stream : TcpStream} {sent : CustomStream} {now : Instant} {id id₀ : ClientId}

theorem pending_accepted :
    Pending { acceptConnection w stream now with nextClientId := w.nextClientId + 1 } id ↔
      id = w.nextClientId ∨ w.Pending id := by
  show ((w.tasks.insert w.nextClientId _).lookup id).isSome ∨ (∃ c ∈ w.channel, c.clientId = id) ↔ _
  rw [FiniteMap.lookup_insert_eq]
  by_cases hid : id = w.nextClientId
  · rw [if_pos hid]
    exact ⟨fun _ => Or.inl hid, fun _ => Or.inl rfl⟩
  · rw [if_neg hid]
    exact ⟨Or.inr, fun h => h.resolve_left hid⟩

theorem pending_completed (found : w.tasks.lookup id₀ = some (.handshaking stream)) :
    Pending { w with tasks := w.tasks.insert id₀ (.sending sent) } id ↔ w.Pending id := by
  show ((w.tasks.insert id₀ _).lookup id).isSome ∨ _ ↔ (w.tasks.lookup id).isSome ∨ _
  rw [FiniteMap.lookup_insert_eq]
  by_cases hid : id = id₀
  · rw [if_pos hid, hid, found]
    rfl
  · rw [if_neg hid]

/-- The task is gone, and the connection is in the channel. -/
theorem pending_sent (found : w.tasks.lookup id₀ = some (.sending sent)) :
    Pending { w with tasks := w.tasks.erase id₀, channel := w.channel ++ [⟨id₀, sent⟩] } id ↔ w.Pending id := by
  show ((w.tasks.erase id₀).lookup id).isSome ∨ (∃ c ∈ w.channel ++ [⟨id₀, sent⟩], c.clientId = id) ↔
    (w.tasks.lookup id).isSome ∨ ∃ c ∈ w.channel, c.clientId = id
  rw [FiniteMap.lookup_erase_eq]
  by_cases hid : id = id₀
  · subst hid
    rw [if_pos rfl, found]
    exact ⟨fun _ => Or.inl rfl, fun _ => Or.inr ⟨⟨id, sent⟩, by simp, rfl⟩⟩
  · rw [if_neg hid]
    simp [Ne.symm hid]

theorem pending_ended (h : Pending { w with tasks := w.tasks.erase id₀ } id) : w.Pending id := by
  obtain h | h := h
  · have h' : ((w.tasks.erase id₀).lookup id).isSome := h
    rw [FiniteMap.lookup_erase_eq] at h'
    by_cases hid : id = id₀
    · rw [if_pos hid] at h'
      cases h'
    · rw [if_neg hid] at h'
      exact Or.inl h'
  · exact Or.inr h

end Pending

theorem Sound.step (hw : Sound w) (hs : step w e = some w') : Sound w' := by
  cases hw.moved hs with
  | accepted stream now =>
    refine ⟨hw.running, fun id hid => ?_⟩
    show ∃ start, (w.clientsConnectionTime.insert w.nextClientId now).lookup id = some start
    rw [FiniteMap.lookup_insert_eq]
    by_cases hnew : id = w.nextClientId
    · exact ⟨now, if_pos hnew⟩
    · rw [if_neg hnew]
      exact hw.timed id ((pending_accepted.mp hid).resolve_left hnew)
  | disabled empty => exact ⟨hw.running, hw.timed⟩
  | handedOver c rest start event head found =>
    refine ⟨hw.running, fun id hid => hw.timed id ?_⟩
    obtain hid | ⟨c', hc', hid⟩ := hid
    · exact Or.inl hid
    · exact Or.inr ⟨c', by rw [head]; exact List.mem_cons_of_mem c hc', hid⟩
  | task step =>
    cases step with
    | completed id stream found =>
      exact ⟨hw.running, fun id' hid => hw.timed id' ((pending_completed found).mp hid)⟩
    | ended id stream result lost found => exact ⟨hw.running, fun id' hid => hw.timed id' (pending_ended hid)⟩
    | sent id stream found room => exact ⟨hw.running, fun id' hid => hw.timed id' ((pending_sent found).mp hid)⟩

theorem sound_init (tls : Bool) : Sound (init tls) := by
  refine ⟨rfl, fun id hid => ?_⟩
  obtain hid | ⟨c, hc, -⟩ := hid
  · have hid' : ((∅ : Finmap fun _ : ClientId => AcceptTask).lookup id).isSome := hid
    rw [FiniteMap.lookup_empty] at hid'
    cases hid'
  · exact absurd hc List.not_mem_nil

/-- In every run: the listener never panics. -/
theorem sound_run (hr : LTS.Run step (init tls) h w) : Sound w :=
  hr.state_invariant (sound_init tls) fun _ _ _ hw hs => hw.step hs

/-! ### Accepting the next connection -/

/-- A connection that arrives now can be accepted at once: the next event may be its
accept, and starts its task. -/
def Accepting (w : WsListener) : Prop :=
  ∀ stream now, ∃ w', step w (.accepted stream now) = some w' ∧ (w'.tasks.lookup w.nextClientId).isSome

/-- If the event is an accept error, a completed handshake is at hand. -/
def HandshakeReady (w : WsListener) (e : Event) : Prop := e = .acceptFailed → w.channel ≠ []

theorem accepting_iff : Accepting w ↔ w.panicked = none ∧ w.acceptDisabled = false := by
  constructor
  · intro h
    obtain ⟨w', hs, -⟩ := h 0 0
    obtain ⟨hp, ha, -⟩ := accepted_inv hs
    exact ⟨hp, ha⟩
  · rintro ⟨hp, ha⟩ stream now
    refine ⟨_, accepted_step stream now hp ha, ?_⟩
    show ((w.tasks.insert w.nextClientId _).lookup w.nextClientId).isSome
    rw [FiniteMap.lookup_insert_eq, if_pos rfl]
    rfl

theorem TaskStep.acceptDisabled (hs : TaskStep w e w') : w'.acceptDisabled = w.acceptDisabled := by
  cases hs <;> rfl

/-- Only an accept error without a completed handshake disables the branch. -/
theorem enabled_step (hw : Sound w) (ha : w.acceptDisabled = false) (hready : HandshakeReady w e)
    (hs : step w e = some w') : w'.acceptDisabled = false := by
  cases hw.moved hs with
  | accepted => exact ha
  | disabled empty => exact absurd empty (hready rfl)
  | handedOver => rfl
  | task step => exact step.acceptDisabled.trans ha

/-- Such an error leaves a listener that cannot accept. -/
theorem disabled_of_unready (hs : step w e = some w') (hready : ¬ HandshakeReady w e) : ¬ Accepting w' := by
  obtain ⟨rfl, hc⟩ := Classical.not_imp.mp hready
  obtain ⟨-, -, ⟨-, rfl⟩ | ⟨hne, -⟩⟩ := acceptFailed_inv hs
  · intro hacc
    exact absurd (accepting_iff.mp hacc).2 (by simp)
  · exact absurd hne hc

/-- The listener can accept the next connection in every state of a run exactly when
every accept error of the run comes while a completed handshake is at hand. -/
theorem accepts_throughout_iff (hr : LTS.Run step (init tls) h w) :
    ((∀ x ∈ h, Accepting x.1) ∧ Accepting w) ↔ ∀ x ∈ h, HandshakeReady x.1 x.2 := by
  induction hr with
  | nil => exact ⟨fun _ x hx => absurd hx List.not_mem_nil,
      fun _ => ⟨fun x hx => absurd hx List.not_mem_nil, accepting_iff.mpr ⟨rfl, rfl⟩⟩⟩
  | @snoc h t w e hr hs ih =>
    rw [List.forall_mem_append, List.forall_mem_append, List.forall_mem_singleton, List.forall_mem_singleton, ← ih]
    have hw := sound_run hr
    constructor
    · rintro ⟨⟨hall, ht⟩, hacc⟩
      refine ⟨⟨hall, ht⟩, ?_⟩
      by_contra hready
      exact disabled_of_unready hs hready hacc
    · rintro ⟨⟨hall, ht⟩, hready⟩
      have ha := enabled_step hw (accepting_iff.mp ht).2 hready hs
      exact ⟨⟨hall, ht⟩, accepting_iff.mpr ⟨(hw.step hs).running, ha⟩⟩

/-- An accept error while the only handshake is complete, then another connection. -/
def errorAtHandshake : List Event :=
  [.accepted 1 10, .handshake 0 .completed, .send 0, .acceptFailed, .accepted 2 20]

theorem errorAtHandshake_accepts : ∃ w, LTS.exec step (init true) errorAtHandshake = some w ∧ Accepting w := by
  have hsome : (LTS.exec step (init true) errorAtHandshake).isSome := by decide
  obtain ⟨w, hw⟩ := Option.isSome_iff_exists.mp hsome
  have hr := LTS.exec_run hw
  have hready : ∀ x ∈ LTS.trace step (init true) errorAtHandshake, HandshakeReady x.1 x.2 := by
    unfold HandshakeReady
    decide
  exact ⟨w, hw, ((accepts_throughout_iff hr).mpr hready).2⟩

/-- After an accept error with no handshake pending nothing can happen any more. -/
theorem accept_error_blocks : ∃ w, LTS.exec step (init false) [.acceptFailed] = some w ∧ ¬ Accepting w ∧
    ∀ e, step w e = none := by
  refine ⟨{ init false with acceptDisabled := true }, rfl, fun hacc => ?_, fun e => ?_⟩
  · exact absurd (accepting_iff.mp hacc).2 (by simp)
  · cases e with
    | accepted stream now => rfl
    | acceptFailed => rfl
    | received => rfl
    | handshake id result => simp only [step, init, FiniteMap.lookup_empty]
    | send id => simp only [step, init, FiniteMap.lookup_empty]

end WsListener

end IcWsGateway
