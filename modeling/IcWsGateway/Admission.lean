/-
# From an accepted connection to its session

A session takes no step before its connection has gone through everything that
comes before it: the accept, the TLS handshake if TLS is enabled, the channel to
the listener, the start of its handler, the upgrade and the handshake message,
each once and in this order (`session_after_admission`). So TLS is never
bypassed, a handler gets the stream that was accepted under its number, the
first thing a client gets is the principal of the gateway (`handshake_first`),
and a connection that is refused on the way leaves nothing behind
(`refused_leaves_nothing`), which is why it needs no cleanup.

Key definitions: `Gateway.milestone`, `Gateway.course`, `Gateway.Reached`, `Gateway.sentOn`.
Key theorems: `Gateway.advance`, `Gateway.reached`, `Gateway.session_after_admission`,
`Gateway.handshake_first`, `Gateway.refused_leaves_nothing`.
-/
import IcWsGateway.Gateway
import IcWsGateway.ConnectionTimes
import IcWsGateway.ClientMessages
import IcWsGateway.CriticalSections

namespace IcWsGateway
namespace Gateway

variable {cfg : Config} {g g' : Gateway} {e : Event} {h : List (Gateway × Event)} {i : ClientId} {p : Principal}
  {tls : Bool}

/-! ### The way of a connection -/

/-- What a connection goes through before its session begins. -/
inductive Milestone
  | accepted (stream : TcpStream) (now : Instant)
  /-- its TLS handshake is complete -/
  | secured
  /-- its task has sent it to the listener -/
  | sent (stream : CustomStream)
  /-- its session handler has been started -/
  | started (s : StartedHandler)
  | upgraded
  | greeted (m : GatewayHandshakeMessage)
deriving DecidableEq, Repr

/-- What the event takes the connection `i` through. -/
def milestone (i : ClientId) : Gateway × Event → Option Milestone
  | (g, .listener (.accepted stream now)) =>
    if g.listener.nextClientId = i then some (.accepted stream now) else none
  | (_, .listener (.handshake j .completed)) => if j = i then some .secured else none
  | (g, .listener (.send j)) =>
    match g.listener.tasks.lookup j with
    | some (.sending stream) => if j = i then some (.sent stream) else none
    | _ => none
  | (g, .listener .received) | (g, .listener .acceptFailed) =>
    match g.listener.channel with
    | c :: _ =>
      if c.clientId = i then
        (g.listener.clientsConnectionTime.lookup i).map fun start => .started ⟨i, c.stream, start⟩
      else none
    | [] => none
  | (_, .upgraded j (.ok ())) => if j = i then some .upgraded else none
  | (g, .greeted j (.ok ())) => if j = i then some (.greeted ⟨g.gatewayPrincipal⟩) else none
  | _ => none

/-- The stream that a session handler gets of an accepted one. -/
def customStream (tls : Bool) (stream : TcpStream) : CustomStream :=
  if tls then .tcpWithTls stream else .tcp stream

/-- A connection is accepted and secured, and goes on from there. -/
def wayOf (tls : Bool) (stream : TcpStream) (now : Instant) (further : List Milestone) : List Milestone :=
  .accepted stream now :: ((if tls then [.secured] else []) ++ further)

/-- The whole way of a connection to its session. -/
def course (tls : Bool) (p : Principal) (i : ClientId) (stream : TcpStream) (now : Instant) : List Milestone :=
  wayOf tls stream now
    [.sent (customStream tls stream), .started ⟨i, customStream tls stream, now⟩, .upgraded, .greeted ⟨p⟩]

/-- Where the connection `i` is: when it was accepted, its task, its places in the channel, and its
session handler. -/
structure Place where
  time : Option Instant
  task : Option AcceptTask
  queue : List AcceptedConnection
  start : Option StartPhase

def place (g : Gateway) (i : ClientId) : Place :=
  { time := g.listener.clientsConnectionTime.lookup i
    task := g.listener.tasks.lookup i
    queue := g.listener.channel.filter fun c => c.clientId = i
    start := g.starts i }

/-- What an event does to a connection, and the milestone it is. -/
inductive Advance (tls : Bool) (p : Principal) (i : ClientId) : Place → Option Milestone → Place → Prop
  | stays (v : Place) : Advance tls p i v none v
  | accepted (v : Place) (stream : TcpStream) (now : Instant) (new : v.time = none) :
      Advance tls p i v (some (.accepted stream now))
        { v with
          time := some now
          task := some (if tls then .handshaking stream else .sending (.tcp stream)) }
  | secured (v : Place) (stream : TcpStream) (task : v.task = some (.handshaking stream)) :
      Advance tls p i v (some .secured) { v with task := some (.sending (.tcpWithTls stream)) }
  | unsecured (v : Place) (stream : TcpStream) (task : v.task = some (.handshaking stream)) :
      Advance tls p i v none { v with task := none }
  | sent (v : Place) (stream : CustomStream) (task : v.task = some (.sending stream)) :
      Advance tls p i v (some (.sent stream)) { v with task := none, queue := v.queue ++ [⟨i, stream⟩] }
  | started (v : Place) (stream : CustomStream) (rest : List AcceptedConnection) (now : Instant)
      (queue : v.queue = ⟨i, stream⟩ :: rest) (time : v.time = some now) :
      Advance tls p i v (some (.started ⟨i, stream, now⟩)) { v with queue := rest, start := some .upgrading }
  | upgraded (v : Place) (start : v.start = some .upgrading) :
      Advance tls p i v (some .upgraded) { v with start := some .greeting }
  | greeted (v : Place) (start : v.start = some .greeting) :
      Advance tls p i v (some (.greeted ⟨p⟩)) { v with start := some .serving }
  | refused (v : Place) (x : String) (start : v.start = some .upgrading ∨ v.start = some .greeting) :
      Advance tls p i v none { v with start := some (.refused x) }

/-! ### One event -/

theorem place_of_listener {l : WsListener} (hw : g'.starts i = g.starts i) (hl : g'.listener = l) :
    g'.place i = { time := l.clientsConnectionTime.lookup i, task := l.tasks.lookup i,
                   queue := l.channel.filter fun c => c.clientId = i, start := g.starts i } := by
  subst hl
  rw [place, hw]

/-- Where nothing is handed over, no session handler is started. -/
theorem starts_same (l : WsListener) : spawnHandlers g.starts (l.handlers.drop l.handlers.length) = g.starts := by
  rw [List.drop_length]
  rfl

theorem starts_handedOver (l : WsListener) (s : StartedHandler) :
    spawnHandlers g.starts ((l.handlers ++ [s]).drop l.handlers.length) =
      Function.update g.starts s.clientId (some .upgrading) := by
  rw [List.drop_left]
  rfl

theorem accepted_advance {stream : TcpStream} {now : Instant}
    (hnew : g.listener.clientsConnectionTime.lookup g.listener.nextClientId = none)
    (he : step cfg g (.listener (.accepted stream now)) = some g') :
    Advance g.listener.tlsEnabled g.gatewayPrincipal i (g.place i)
      (milestone i (g, .listener (.accepted stream now))) (g'.place i) := by
  obtain ⟨hl, -, -, hst⟩ := listener_inv he
  obtain ⟨-, -, hl'⟩ := WsListener.accepted_inv hl
  have hstart : g'.starts i = g.starts i := by
    rw [hst, hl']
    exact congrFun (starts_same g.listener) i
  rw [place_of_listener hstart hl']
  show Advance _ _ i _ (if g.listener.nextClientId = i then some (.accepted stream now) else none)
    { time := (g.listener.clientsConnectionTime.insert g.listener.nextClientId now).lookup i
      task := (g.listener.tasks.insert g.listener.nextClientId _).lookup i
      queue := g.listener.channel.filter fun c => c.clientId = i
      start := g.starts i }
  rw [FiniteMap.lookup_insert_eq, FiniteMap.lookup_insert_eq]
  by_cases hi : g.listener.nextClientId = i
  · subst hi
    rw [if_pos rfl, if_pos rfl, if_pos rfl]
    exact .accepted (g.place g.listener.nextClientId) stream now hnew
  · rw [if_neg hi, if_neg (Ne.symm hi), if_neg (Ne.symm hi)]
    exact .stays _

theorem handedOver_milestone {e : WsListener.Event} {c : AcceptedConnection} {rest : List AcceptedConnection}
    {now : Instant} (event : e = .received ∨ e = .acceptFailed) (head : g.listener.channel = c :: rest)
    (found : g.listener.clientsConnectionTime.lookup c.clientId = some now) :
    milestone i (g, .listener e) =
      if c.clientId = i then some (.started ⟨c.clientId, c.stream, now⟩) else none := by
  have hm : milestone i (g, .listener e) =
      if c.clientId = i then
        (g.listener.clientsConnectionTime.lookup i).map fun start => .started ⟨i, c.stream, start⟩
      else none := by
    obtain rfl | rfl := event
    · simp only [milestone, head]
    · simp only [milestone, head]
  rw [hm]
  by_cases hi : c.clientId = i
  · subst hi
    rw [if_pos rfl, if_pos rfl, found]
    rfl
  · rw [if_neg hi, if_neg hi]

theorem handedOver_advance {e : WsListener.Event} {c : AcceptedConnection} {rest : List AcceptedConnection}
    {now : Instant} (event : e = .received ∨ e = .acceptFailed) (head : g.listener.channel = c :: rest)
    (found : g.listener.clientsConnectionTime.lookup c.clientId = some now)
    (hl : g'.listener = { g.listener with
      channel := rest, acceptDisabled := false,
      handlers := g.listener.handlers ++ [⟨c.clientId, c.stream, now⟩] })
    (hst : g'.starts = spawnHandlers g.starts (g'.listener.handlers.drop g.listener.handlers.length)) :
    Advance tls p i (g.place i) (milestone i (g, .listener e)) (g'.place i) := by
  have hstarts : g'.starts = Function.update g.starts c.clientId (some .upgrading) := by
    rw [hst, hl]
    exact starts_handedOver g.listener _
  have hqueue : (g.place i).queue =
      (if c.clientId = i then [c] else []) ++ rest.filter fun c => c.clientId = i := by
    show (g.listener.channel.filter fun c => c.clientId = i) = _
    rw [head, List.filter_cons]
    by_cases hi : c.clientId = i
    · simp [hi]
    · simp [hi]
  have hplace : g'.place i = { g.place i with
      queue := rest.filter fun c => c.clientId = i
      start := if c.clientId = i then some .upgrading else g.starts i } := by
    rw [place, hl, hstarts, Function.update_apply, place]
    simp only [eq_comm]
  rw [handedOver_milestone event head found, hplace]
  by_cases hi : c.clientId = i
  · subst hi
    rw [if_pos rfl, if_pos rfl]
    rw [if_pos rfl] at hqueue
    exact .started (g.place c.clientId) c.stream _ now hqueue found
  · rw [if_neg hi, if_neg hi]
    rw [if_neg hi, List.nil_append] at hqueue
    rw [← hqueue]
    exact .stays _

theorem taskStep_handlers {l l' : WsListener} {e : WsListener.Event} (hs : WsListener.TaskStep l e l') :
    l'.handlers = l.handlers := by
  cases hs <;> rfl

theorem task_advance {e : WsListener.Event} (hl : WsListener.TaskStep g.listener e g'.listener)
    (hst : g'.starts = spawnHandlers g.starts (g'.listener.handlers.drop g.listener.handlers.length)) :
    Advance tls p i (g.place i) (milestone i (g, .listener e)) (g'.place i) := by
  have hstart : g'.starts i = g.starts i := by
    rw [hst, taskStep_handlers hl]
    exact congrFun (starts_same g.listener) i
  rw [place_of_listener hstart rfl]
  generalize g'.listener = l at hl
  cases hl with
  | completed j stream found =>
    show Advance _ _ i _ (if j = i then some .secured else none)
      { time := _, task := (g.listener.tasks.insert j _).lookup i, queue := _, start := _ }
    rw [FiniteMap.lookup_insert_eq]
    by_cases hi : j = i
    · subst hi
      rw [if_pos rfl, if_pos rfl]
      exact .secured (g.place j) stream found
    · rw [if_neg hi, if_neg (Ne.symm hi)]
      exact .stays _
  | ended j stream result lost found =>
    have hm : milestone i (g, .listener (.handshake j result)) = none := by
      cases result
      · exact absurd rfl lost
      · rfl
      · rfl
    rw [hm]
    show Advance _ _ i _ _ { time := _, task := (g.listener.tasks.erase j).lookup i, queue := _, start := _ }
    rw [FiniteMap.lookup_erase_eq]
    by_cases hi : i = j
    · subst hi
      rw [if_pos rfl]
      exact .unsecured (g.place i) stream found
    · rw [if_neg hi]
      exact .stays _
  | sent j stream found room =>
    have hm : milestone i (g, .listener (.send j)) = if j = i then some (.sent stream) else none := by
      simp only [milestone, found]
    rw [hm]
    show Advance _ _ i _ _
      { time := _, task := (g.listener.tasks.erase j).lookup i,
        queue := (g.listener.channel ++ ([⟨j, stream⟩] : List AcceptedConnection)).filter fun c => c.clientId = i,
        start := _ }
    rw [FiniteMap.lookup_erase_eq, List.filter_append]
    by_cases hi : j = i
    · subst hi
      rw [if_pos rfl, if_pos rfl]
      have hone : ([⟨j, stream⟩] : List AcceptedConnection).filter (fun c => c.clientId = j) = [⟨j, stream⟩] := by
        simp
      rw [hone]
      exact .sent (g.place j) stream found
    · rw [if_neg hi, if_neg (Ne.symm hi)]
      have hnone : ([⟨j, stream⟩] : List AcceptedConnection).filter (fun c => c.clientId = i) = [] := by
        simp [hi]
      rw [hnone, List.append_nil]
      exact .stays _

theorem setStart_place (g : Gateway) (i j : ClientId) (ph : StartPhase) :
    (g.setStart j ph).place i = { g.place i with start := if i = j then some ph else g.starts i } := by
  have hstart : (g.setStart j ph).starts i = if i = j then some ph else g.starts i := Function.update_apply ..
  rw [← hstart]
  rfl

/-- **Every event takes a connection one milestone further**, or stops it, or leaves it where it is. -/
theorem advance (hs : g.listener.Sound)
    (hnew : g.listener.clientsConnectionTime.lookup g.listener.nextClientId = none)
    (he : step cfg g e = some g') :
    Advance g.listener.tlsEnabled g.gatewayPrincipal i (g.place i) (milestone i (g, e)) (g'.place i) := by
  cases e with
  | listener e =>
    obtain ⟨hl, -, -, hst⟩ := listener_inv he
    have hm := hs.moved hl
    generalize hg' : g'.listener = l at hm
    cases hm with
    | accepted stream now => exact accepted_advance hnew he
    | disabled empty =>
      have hmile : milestone i (g, .listener .acceptFailed) = none := by
        simp only [milestone, empty]
      have hstart : g'.starts i = g.starts i := by
        rw [hst, hg']
        exact congrFun (starts_same g.listener) i
      rw [hmile, place_of_listener hstart hg']
      exact .stays _
    | handedOver c rest now event head found => exact handedOver_advance event head found hg' hst
    | task task =>
      rw [← hg'] at task
      exact task_advance task hst
  | upgraded j r =>
    obtain ⟨hph, ⟨rfl, rfl⟩ | ⟨x, rfl, rfl⟩⟩ := upgraded_inv he
    · rw [setStart_place]
      show Advance _ _ i _ (if j = i then some .upgraded else none) _
      by_cases hi : j = i
      · subst hi
        rw [if_pos rfl, if_pos rfl]
        exact .upgraded (g.place j) hph
      · rw [if_neg hi, if_neg (Ne.symm hi)]
        exact .stays _
    · rw [setStart_place]
      show Advance _ _ i _ none _
      by_cases hi : i = j
      · subst hi
        rw [if_pos rfl]
        exact .refused (g.place i) _ (Or.inl hph)
      · rw [if_neg hi]
        exact .stays _
  | greeted j r =>
    obtain ⟨hph, ⟨rfl, rfl⟩ | ⟨x, rfl, rfl⟩⟩ := greeted_inv he
    · rw [setStart_place]
      show Advance _ _ i _ (if j = i then some (.greeted ⟨g.gatewayPrincipal⟩) else none) _
      by_cases hi : j = i
      · subst hi
        rw [if_pos rfl, if_pos rfl]
        exact .greeted (g.place j) hph
      · rw [if_neg hi, if_neg (Ne.symm hi)]
        exact .stays _
    · rw [setStart_place]
      show Advance _ _ i _ none _
      by_cases hi : i = j
      · subst hi
        rw [if_pos rfl]
        exact .refused (g.place i) _ (Or.inr hph)
      · rw [if_neg hi]
        exact .stays _
  | task e =>
    obtain ⟨-, w, -, rfl⟩ := task_inv he
    exact .stays _

theorem tlsEnabled_step {l l' : WsListener} {e : WsListener.Event} (hs : l.Sound) (he : l.step e = some l') :
    l'.tlsEnabled = l.tlsEnabled := by
  cases hs.moved he with
  | accepted | disabled | handedOver => rfl
  | task task => cases task <;> rfl

theorem advance_constants (hs : g.listener.Sound) (he : step cfg g e = some g') :
    g'.listener.tlsEnabled = g.listener.tlsEnabled ∧ g'.gatewayPrincipal = g.gatewayPrincipal := by
  cases e with
  | listener e =>
    obtain ⟨hl, -, hp, -⟩ := listener_inv he
    exact ⟨tlsEnabled_step hs hl, hp⟩
  | upgraded j r => obtain ⟨-, ⟨-, rfl⟩ | ⟨x, -, rfl⟩⟩ := upgraded_inv he <;> exact ⟨rfl, rfl⟩
  | greeted j r => obtain ⟨-, ⟨-, rfl⟩ | ⟨x, -, rfl⟩⟩ := greeted_inv he <;> exact ⟨rfl, rfl⟩
  | task e =>
    obtain ⟨-, w, -, rfl⟩ := task_inv he
    exact ⟨rfl, rfl⟩

/-! ### Every run -/

theorem wayOf_snoc (stream : TcpStream) (now : Instant) (further : List Milestone) (m : Milestone) :
    wayOf tls stream now further ++ [m] = wayOf tls stream now (further ++ [m]) := by
  simp only [wayOf, List.cons_append, List.append_assoc]

theorem wayOf_mono {stream : TcpStream} {now : Instant} {a b : List Milestone} (h : a <+: b) :
    wayOf tls stream now a <+: wayOf tls stream now b := by
  obtain ⟨t, rfl⟩ := h
  exact ⟨t, by simp only [wayOf, List.cons_append, List.append_assoc]⟩

/-- Where a connection is, and what it has been through. -/
inductive Reached (tls : Bool) (p : Principal) (i : ClientId) : Place → List Milestone → Prop
  | unknown : Reached tls p i ⟨none, none, [], none⟩ []
  | handshaking (stream : TcpStream) (now : Instant) (enabled : tls = true) :
      Reached tls p i ⟨some now, some (.handshaking stream), [], none⟩ [.accepted stream now]
  | sending (stream : TcpStream) (now : Instant) :
      Reached tls p i ⟨some now, some (.sending (customStream tls stream)), [], none⟩ (wayOf tls stream now [])
  | queued (stream : TcpStream) (now : Instant) :
      Reached tls p i ⟨some now, none, [⟨i, customStream tls stream⟩], none⟩
        (wayOf tls stream now [.sent (customStream tls stream)])
  | upgrading (stream : TcpStream) (now : Instant) :
      Reached tls p i ⟨some now, none, [], some .upgrading⟩
        (wayOf tls stream now [.sent (customStream tls stream), .started ⟨i, customStream tls stream, now⟩])
  | greeting (stream : TcpStream) (now : Instant) :
      Reached tls p i ⟨some now, none, [], some .greeting⟩
        (wayOf tls stream now
          [.sent (customStream tls stream), .started ⟨i, customStream tls stream, now⟩, .upgraded])
  | serving (stream : TcpStream) (now : Instant) :
      Reached tls p i ⟨some now, none, [], some .serving⟩ (course tls p i stream now)
  | stopped (stream : TcpStream) (now : Instant) (start : Option StartPhase) (ms : List Milestone)
      (out : start = none ∨ ∃ x, start = some (.refused x)) (part : ms <+: course tls p i stream now) :
      Reached tls p i ⟨some now, none, [], start⟩ ms

theorem Reached.step {v v' : Place} {m : Option Milestone} {ms : List Milestone} (hv : Reached tls p i v ms)
    (ha : Advance tls p i v m v') : Reached tls p i v' (ms ++ m.toList) := by
  cases ha with
  | stays =>
    rw [Option.toList_none, List.append_nil]
    exact hv
  | accepted stream now new =>
    cases hv with
    | unknown =>
      rcases tls with _ | _
      · exact .sending stream now
      · exact .handshaking stream now rfl
    | _ => cases new
  | secured stream task =>
    cases hv with
    | handshaking stream now enabled =>
      cases task
      subst enabled
      exact .sending stream now
    | _ => cases task
  | unsecured stream task =>
    cases hv with
    | handshaking stream now enabled =>
      refine .stopped stream now none _ (Or.inl rfl) ⟨(if tls then [.secured] else []) ++ [.sent (customStream tls stream),
        .started ⟨i, customStream tls stream, now⟩, .upgraded, .greeted ⟨p⟩], rfl⟩
    | _ => cases task
  | sent stream task =>
    cases hv with
    | sending stream now =>
      cases task
      rw [Option.toList_some, wayOf_snoc]
      exact .queued stream now
    | _ => cases task
  | started stream rest now queue time =>
    cases hv with
    | queued stream now =>
      cases queue
      cases time
      rw [Option.toList_some, wayOf_snoc]
      exact .upgrading stream now
    | _ => cases queue
  | upgraded start =>
    cases hv with
    | upgrading stream now =>
      rw [Option.toList_some, wayOf_snoc]
      exact .greeting stream now
    | stopped stream now start' ms out =>
      obtain rfl | ⟨x, rfl⟩ := out <;> cases start
    | _ => cases start
  | greeted start =>
    cases hv with
    | greeting stream now =>
      rw [Option.toList_some, wayOf_snoc]
      exact .serving stream now
    | stopped stream now start' ms out =>
      obtain rfl | ⟨x, rfl⟩ := out <;> cases start
    | _ => cases start
  | refused x start =>
    rw [Option.toList_none, List.append_nil]
    cases hv with
    | upgrading stream now =>
      refine .stopped stream now _ _ (Or.inr ⟨x, rfl⟩) (wayOf_mono ⟨[.upgraded, .greeted ⟨p⟩], rfl⟩)
    | greeting stream now =>
      refine .stopped stream now _ _ (Or.inr ⟨x, rfl⟩) (wayOf_mono ⟨[.greeted ⟨p⟩], rfl⟩)
    | stopped stream now start' ms out =>
      obtain rfl | ⟨y, rfl⟩ := out <;> obtain start | start := start <;> cases start
    | _ => obtain start | start := start <;> cases start

theorem constants (hr : LTS.Run (step cfg) (init p (.init tls)) h g) :
    g.listener.tlsEnabled = tls ∧ g.gatewayPrincipal = p := by
  induction hr with
  | nil => exact ⟨rfl, rfl⟩
  | snoc hr he ih =>
    obtain ⟨htls, hp⟩ := advance_constants (WsListener.sound_run (listener_run hr)) he
    exact ⟨htls.trans ih.1, hp.trans ih.2⟩

theorem advance_run (hr : LTS.Run (step cfg) (init p (.init tls)) h g) (he : step cfg g e = some g') (i : ClientId) :
    Advance tls p i (g.place i) (milestone i (g, e)) (g'.place i) := by
  have hl := listener_run hr
  have hnew : g.listener.clientsConnectionTime.lookup g.listener.nextClientId = none := by
    have hk := (WsListener.timed_run hl).known g.listener.nextClientId
    exact Option.not_isSome_iff_eq_none.mp (hk.not.mpr (Nat.lt_irrefl _))
  obtain ⟨rfl, rfl⟩ := constants hr
  exact advance (WsListener.sound_run hl) hnew he

/-- In every run every connection is somewhere on its way. -/
theorem reached (hr : LTS.Run (step cfg) (init p (.init tls)) h g) (i : ClientId) :
    Reached tls p i (g.place i) (h.filterMap (milestone i)) := by
  induction hr with
  | nil =>
    have hplace : (init p (.init tls)).place i = ⟨none, none, [], none⟩ := rfl
    rw [hplace]
    exact .unknown
  | @snoc h t t' e hr he ih =>
    rw [LTS.filterMap_snoc]
    exact ih.step (advance_run hr he i)

theorem Reached.begins {v : Place} {ms : List Milestone} (hv : Reached tls p i v ms) :
    ∃ stream now, ms <+: course tls p i stream now := by
  cases hv with
  | unknown => exact ⟨0, 0, List.nil_prefix⟩
  | handshaking stream now => exact ⟨stream, now, _, rfl⟩
  | sending stream now => exact ⟨stream, now, wayOf_mono List.nil_prefix⟩
  | queued stream now => exact ⟨stream, now, wayOf_mono ⟨_, rfl⟩⟩
  | upgrading stream now => exact ⟨stream, now, wayOf_mono ⟨[.upgraded, .greeted ⟨p⟩], rfl⟩⟩
  | greeting stream now => exact ⟨stream, now, wayOf_mono ⟨[.greeted ⟨p⟩], rfl⟩⟩
  | serving stream now => exact ⟨stream, now, List.prefix_refl _⟩
  | stopped stream now _ _ _ part => exact ⟨stream, now, part⟩

theorem Reached.complete {v : Place} {ms : List Milestone} (hv : Reached tls p i v ms)
    (hs : v.start = some .serving) : ∃ stream now, ms = course tls p i stream now := by
  cases hv with
  | serving stream now => exact ⟨stream, now, rfl⟩
  | stopped stream now start ms out =>
    obtain rfl | ⟨x, rfl⟩ := out <;> cases hs
  | _ => cases hs

theorem Reached.started_stays {v v' : Place} {m : Option Milestone} {ms : List Milestone} {ph : StartPhase}
    (hv : Reached tls p i v ms) (ha : Advance tls p i v m v') (hs : v.start = some ph)
    (hph : ph = .serving ∨ ∃ x, ph = .refused x) : v'.start = some ph := by
  have hne : ph ≠ .upgrading ∧ ph ≠ .greeting := by
    obtain rfl | ⟨x, rfl⟩ := hph
    · exact ⟨nofun, nofun⟩
    · exact ⟨nofun, nofun⟩
  cases ha with
  | stays | accepted | secured | unsecured | sent => exact hs
  | started stream rest now queue time =>
    cases hv with
    | queued => cases hs
    | _ => cases queue
  | upgraded start | greeted start =>
    rw [start, Option.some.injEq] at hs
    exact absurd hs.symm (by first | exact hne.1 | exact hne.2)
  | refused x start =>
    rw [hs, Option.some.injEq, Option.some.injEq] at start
    exact absurd start (not_or.mpr hne)

/-- A part of a whole way that is a whole way is all of it. -/
theorem course_eq_of_prefix {stream stream' : TcpStream} {now now' : Instant} {ms : List Milestone}
    (hpart : course tls p i stream' now' <+: ms) (hms : ms <+: course tls p i stream now) :
    course tls p i stream' now' = course tls p i stream now := by
  refine (hpart.trans hms).eq_of_length ?_
  simp only [course, wayOf, List.length_cons, List.length_append, List.length_nil]

/-- **A session begins where the way of its connection ends.** In every run of a gateway, what a
connection goes through is a beginning of its whole way, and before any step of its session it has
gone through all of it: accepted, secured if TLS is enabled, handed to a session handler that got this
stream and time, upgraded, and greeted with the principal of the gateway; each once and in this order. -/
theorem session_after_admission {io : ListenerIo} {d : DeploymentInfo} {g₀ : Gateway} (hs : start io d p = .ok g₀)
    (hr : LTS.Run (step cfg) g₀ h g) (i : ClientId) :
    ∃ stream now, h.filterMap (milestone i) <+: course d.tlsConfig.isSome p i stream now ∧
      ∀ h₁ t e h₂, h = h₁ ++ (t, .task e) :: h₂ → e.session = some i →
        h₁.filterMap (milestone i) = course d.tlsConfig.isSome p i stream now := by
  obtain rfl := start_cases hs
  obtain ⟨stream, now, hpart⟩ := (reached hr i).begins
  refine ⟨stream, now, hpart, ?_⟩
  rintro h₁ t e h₂ rfl hown
  obtain ⟨hr₁, t', he, -⟩ := hr.at_event
  have hserving := (task_inv he).1 i hown
  obtain ⟨stream', now', hall⟩ := (reached hr₁ i).complete hserving
  have hbegin : h₁.filterMap (milestone i) <+: (h₁ ++ (t, .task e) :: h₂).filterMap (milestone i) :=
    (List.prefix_append ..).filterMap _
  rw [hall] at hbegin ⊢
  exact course_eq_of_prefix hbegin hpart

/-- A host with a certificate and its key. -/
def secureIo : ListenerIo :=
  { bind := .ok ()
    read := fun path =>
      if path = "cert.pem" then .ok [1] else if path = "key.pem" then .ok [2] else .error "No such file or directory"
    fromPkcs8 := fun chain privkey => if chain = [1] ∧ privkey = [2] then .ok () else .error "Format"
    buildAcceptor := .ok () }

def secureInfo : DeploymentInfo :=
  { tlsCertificatePemPath := some "cert.pem", tlsCertificateKeyPemPath := some "key.pem" }

theorem secure_starts : start secureIo secureInfo [5] = .ok (init [5] (.init true)) := rfl

/-- A connection is accepted, secured and handed to its session handler. -/
def handsOver : List Event :=
  [.listener (.accepted 7 10), .listener (.handshake 0 .completed), .listener (.send 0), .listener .received]

/-- A connection goes all the way to its session. -/
def admits : List Event := handsOver ++ [.upgraded 0 (.ok ()), .greeted 0 (.ok ())]

set_option maxRecDepth 20000 in
/-- The session of the first connection reads a frame. -/
theorem session_after_admission_reads :
    ∃ stream now, (LTS.trace (step .simple) (init [5] (.init true)) admits).filterMap (milestone 0) =
      course true [5] 0 stream now := by
  obtain ⟨g, hg⟩ : ∃ g, LTS.exec (step .simple) (init [5] (.init true)) admits = some g :=
    Option.isSome_iff_exists.mp (by decide)
  obtain ⟨g', hg'⟩ : ∃ g', LTS.exec (step .simple) (init [5] (.init true))
      (admits ++ [.task (.readWs 0 (.ok (.text "hello")))]) = some g' :=
    Option.isSome_iff_exists.mp (by decide)
  have hr := LTS.exec_run hg'
  rw [LTS.exec_append, hg, Option.bind_some] at hg'
  obtain ⟨g'', he, -⟩ := Option.bind_eq_some_iff.mp hg'
  rw [LTS.trace_append _ hg] at hr
  obtain ⟨stream, now, -, hall⟩ := session_after_admission secure_starts hr 0
  refine ⟨stream, now, hall _ g (.readWs 0 (.ok (.text "hello"))) [] ?_ rfl⟩
  simp only [LTS.trace, he]

/-! ### What goes out on the socket -/

/-- A message that the gateway sends on the WebSocket of a connection. The library also sends
`Close` and `Pong` frames, in answer to the client's. -/
inductive SocketMessage
  | handshake (m : GatewayHandshakeMessage)
  | canister (m : CanisterToClientMessage)
deriving DecidableEq

/-- What the event hands to the WebSocket of the connection `i`. -/
def sentOn (i : ClientId) : Gateway × Event → List SocketMessage
  | (g, .greeted j _) => if j = i then [.handshake ⟨g.gatewayPrincipal⟩] else []
  | (g, .task e) => (sentBy i (g.world, e)).map .canister
  | _ => []

/-- What has gone out: nothing before the handshake message, and then that and what the
session has sent. -/
inductive SentUpTo (p : Principal) : Option StartPhase → List CanisterToClientMessage → List SocketMessage → Prop
  | nothing {start} (waiting : start ≠ some .serving) : SentUpTo p start [] []
  | greeted {start ms} (past : start = some .serving ∨ ∃ x, start = some (.refused x)) :
      SentUpTo p start ms (.handshake ⟨p⟩ :: ms.map .canister)

theorem sentBy_other {w : World} {e : IcWsGateway.Event} (hown : e.session ≠ some i) : sentBy i (w, e) = [] := by
  refine sentBy_nil fun io he => hown ?_
  rw [he]
  rfl

theorem spawnHandlers_cases : ∀ (new : List StartedHandler) (starts : ClientId → Option StartPhase),
    spawnHandlers starts new i = starts i ∨ spawnHandlers starts new i = some .upgrading
  | [], _ => Or.inl rfl
  | s :: new, starts => by
    obtain h | h := spawnHandlers_cases new (Function.update starts s.clientId (some .upgrading))
    · by_cases hi : i = s.clientId
      · subst hi
        exact Or.inr (h.trans (Function.update_self ..))
      · exact Or.inl (h.trans (Function.update_of_ne hi ..))
    · exact Or.inr h

/-- Only the `send` of the handshake message lets a session begin. -/
theorem not_serving (he : step cfg g e = some g') (hg : g.starts i ≠ some .serving) (hno : ∀ r, e ≠ .greeted i r) :
    g'.starts i ≠ some .serving := by
  cases e with
  | listener e =>
    obtain ⟨-, -, -, hst⟩ := listener_inv he
    rw [hst]
    obtain h | h := @spawnHandlers_cases i (g'.listener.handlers.drop g.listener.handlers.length) g.starts
    · rw [h]
      exact hg
    · rw [h]
      nofun
  | upgraded j r =>
    have hset : ∀ ph, ph ≠ .serving → (g.setStart j ph).starts i ≠ some .serving := by
      intro ph hph
      show Function.update g.starts j (some ph) i ≠ some .serving
      rw [Function.update_apply]
      by_cases hi : i = j
      · rw [if_pos hi]
        exact fun h => hph (Option.some.inj h)
      · rw [if_neg hi]
        exact hg
    obtain ⟨-, ⟨-, rfl⟩ | ⟨x, -, rfl⟩⟩ := upgraded_inv he
    · exact hset _ nofun
    · exact hset _ nofun
  | greeted j r =>
    have hi : i ≠ j := fun hi => hno r (by rw [hi])
    obtain ⟨-, ⟨-, rfl⟩ | ⟨x, -, rfl⟩⟩ := greeted_inv he
    · show Function.update g.starts j _ i ≠ some .serving
      rw [Function.update_of_ne hi]
      exact hg
    · show Function.update g.starts j _ i ≠ some .serving
      rw [Function.update_of_ne hi]
      exact hg
  | task e =>
    obtain ⟨-, w, -, rfl⟩ := task_inv he
    exact hg

/-- What one event hands to the WebSocket. -/
theorem SentUpTo.step {ms : List CanisterToClientMessage} {out : List SocketMessage}
    (hs : SentUpTo p (g.starts i) ms out) (hp : g.gatewayPrincipal = p)
    (hstays : ∀ ph, g.starts i = some ph → (ph = .serving ∨ ∃ x, ph = .refused x) → g'.starts i = some ph)
    (he : step cfg g e = some g') :
    SentUpTo p (g'.starts i) (ms ++ (e.ofTask.map fun d => sentBy i (g.world, d)).getD []) (out ++ sentOn i (g, e)) := by
  have hpast : (g.starts i = some .serving ∨ ∃ x, g.starts i = some (.refused x)) →
      g'.starts i = some .serving ∨ ∃ x, g'.starts i = some (.refused x) := by
    intro h
    obtain h | ⟨x, h⟩ := h
    · exact Or.inl (hstays _ h (Or.inl rfl))
    · exact Or.inr ⟨x, hstays _ h (Or.inr ⟨x, rfl⟩)⟩
  by_cases hgreet : ∃ r, e = .greeted i r
  · obtain ⟨r, rfl⟩ := hgreet
    obtain ⟨hph, hg'⟩ := greeted_inv he
    have hout : sentOn i (g, .greeted i r) = [.handshake ⟨p⟩] := by
      rw [← hp]
      exact if_pos rfl
    rw [hout]
    cases hs with
    | nothing waiting =>
      refine @SentUpTo.greeted p _ [] ?_
      obtain ⟨-, rfl⟩ | ⟨x, -, rfl⟩ := hg'
      · exact Or.inl (Function.update_self ..)
      · exact Or.inr ⟨_, Function.update_self ..⟩
    | greeted past =>
      obtain h | ⟨x, h⟩ := past
      · rw [hph] at h
        cases h
      · rw [hph] at h
        cases h
  · push Not at hgreet
    have hout : sentOn i (g, e) =
        ((e.ofTask.map fun d => sentBy i (g.world, d)).getD []).map .canister := by
      cases e with
      | listener e | upgraded j r => rfl
      | greeted j r => exact if_neg fun hi => hgreet r (by rw [hi])
      | task e => rfl
    rw [hout]
    generalize hnew : (e.ofTask.map fun d => sentBy i (g.world, d)).getD [] = new
    cases hs with
    | nothing waiting =>
      have hnone : new = [] := by
        rw [← hnew]
        cases e with
        | task e => exact sentBy_other fun hown => waiting ((task_inv he).1 i hown)
        | _ => rfl
      rw [hnone]
      exact .nothing (not_serving he waiting hgreet)
    | greeted past =>
      rw [List.cons_append, ← List.map_append]
      exact .greeted (hpast past)

theorem sent_up_to (hr : LTS.Run (step cfg) (init p (.init tls)) h g) (i : ClientId) :
    SentUpTo p (g.starts i) ((worldHistory h).flatMap (sentBy i)) (h.flatMap (sentOn i)) := by
  induction hr with
  | nil => exact .nothing nofun
  | @snoc h t t' e hr he ih =>
    have hworld : (worldHistory (h ++ [(t, e)])).flatMap (sentBy i) =
        (worldHistory h).flatMap (sentBy i) ++ (e.ofTask.map fun d => sentBy i (t.world, d)).getD [] := by
      unfold worldHistory LTS.partHistory
      rw [LTS.filterMap_snoc, List.flatMap_append]
      rcases e.ofTask with _ | d
      · rfl
      · simp
    rw [hworld, List.flatMap_append, List.flatMap_singleton]
    refine ih.step (constants hr).2 (fun ph hph hpast => ?_) he
    exact (reached hr i).started_stays (advance_run hr he i) hph hpast

/-- **The first message is the principal of the gateway.** Either the gateway has sent no message on
the socket of a connection, or one handshake message with the principal of its agent, and after it the
messages that were put on the channel of the session, in their order, up to those still to be sent. -/
theorem handshake_first {io : ListenerIo} {d : DeploymentInfo} {g₀ : Gateway} (hs : start io d p = .ok g₀)
    (hr : LTS.Run (step cfg) g₀ h g) (i : ClientId) :
    h.flatMap (sentOn i) = [] ∨
      ∃ ms, h.flatMap (sentOn i) = .handshake ⟨p⟩ :: ms.map .canister ∧
        ms <+: (worldHistory h).filterMap (putOn i) := by
  obtain rfl := start_cases hs
  have hw := world_run hr
  have hsent := sent_up_to hr i
  have hpart : (worldHistory h).flatMap (sentBy i) <+: (worldHistory h).filterMap (putOn i) := by
    obtain ⟨lost, hread, -⟩ := socket_in_order hw i
    have hfifo := channel_fifo hw i
    have hempty : World.new.buffer i = [] := rfl
    rw [hempty, List.nil_append, hread, List.append_assoc] at hfifo
    exact ⟨_, hfifo.symm⟩
  generalize h.flatMap (sentOn i) = out at hsent ⊢
  generalize (worldHistory h).flatMap (sentBy i) = ms at hsent hpart
  cases hsent with
  | nothing waiting => exact Or.inl rfl
  | greeted past => exact Or.inr ⟨ms, rfl, hpart⟩

/-- A connection is admitted, and its session gets a message. -/
def admitsAndServes : List Event :=
  admits ++ (opens 0 (wsOpen [9] ⟨[1], 1⟩) ++ [polls 0 [messageFor ⟨[1], 1⟩ "gateway_0"], .relay 0, .put 0, .recv 0,
    .update 0 .ok]).map .task

set_option maxRecDepth 20000 in
/-- The handshake message of the first connection, and the message of the canister. -/
theorem handshake_first_sent :
    let h := LTS.trace (step .simple) (init [5] (.init true)) admitsAndServes
    h.flatMap (sentOn 0) = [.handshake ⟨[5]⟩, .canister ⟨"gateway_0", [], [], []⟩] ∧
      (h.flatMap (sentOn 0) = [] ∨
        ∃ ms, h.flatMap (sentOn 0) = .handshake ⟨[5]⟩ :: ms.map .canister ∧
          ms <+: (worldHistory h).filterMap (putOn 0)) := by
  obtain ⟨g, hg⟩ : ∃ g, LTS.exec (step .simple) (init [5] (.init true)) admitsAndServes = some g :=
    Option.isSome_iff_exists.mp (by decide)
  exact ⟨by decide, handshake_first secure_starts (LTS.exec_run hg) 0⟩

/-! ### Connections that are refused -/

/-- A session without a step has left nothing: no sender is stored for it, it holds no lock, and no
task was spawned for it. -/
theorem unseen {w : World} {h : List (World × IcWsGateway.Event)} (hr : Runs cfg h w)
    (hno : ∀ x ∈ h, x.2.session ≠ some i) :
    w.handlers i = Handler.new i ∧ (∀ r k, (w.gateway.clients r).lookup k ≠ some ⟨i⟩) ∧
      (∀ s, w.gatewayLock s ≠ some i) ∧ w.started i ++ w.pending i = [] := by
  have hnew := handler_unseen hr hno
  refine ⟨hnew, fun r k hk => ?_, fun s hs => ?_, List.eq_nil_iff_forall_not_mem.mpr fun t ht => ?_⟩
  · have hj := joined_of_stored hr hk
    obtain ⟨x, hx, hin⟩ := List.exists_of_findSome?_eq_some hj
    refine hno x hx ?_
    obtain ⟨v, e⟩ := x
    cases e with
    | commit j =>
      by_cases hji : j = i
      · rw [hji]
        rfl
      · simp only [insertedIn, hji, if_false, reduceCtorEq] at hin
    | _ => cases hin
  · obtain ⟨c, hc, -⟩ := lock_held hr s i hs
    rw [hnew] at hc
    cases hc
  · have hc := (tasks_canister hr t ht).1
    rw [hnew] at hc
    cases hc

/-- A session that has begun, and a refusal, are for good. -/
theorem start_stays {g₁ : Gateway} {h₁ : List (Gateway × Event)} {ph : StartPhase}
    (hr : LTS.Run (step cfg) (init p (.init tls)) h g) (hr₁ : LTS.Run (step cfg) g h₁ g₁)
    (hph : g.starts i = some ph) (hpast : ph = .serving ∨ ∃ x, ph = .refused x) : g₁.starts i = some ph := by
  induction hr₁ with
  | nil => exact hph
  | snoc hr₁ he ih =>
    have hr' := hr.append hr₁
    exact (reached hr' i).started_stays (advance_run hr' he i) ih hpast

theorem mem_worldHistory {x : World × IcWsGateway.Event} (hx : x ∈ worldHistory h) :
    ∃ t e, (t, Event.task e) ∈ h ∧ x = (t.world, e) := by
  obtain ⟨⟨t, e⟩, hy, hyx⟩ := List.mem_filterMap.mp hx
  cases e with
  | task e => exact ⟨t, e, hy, (Option.some.inj hyx).symm⟩
  | _ => cases hyx

/-- A session that is not serving has taken no step. -/
theorem no_steps (hr : LTS.Run (step cfg) (init p (.init tls)) h g) (hs : g.starts i ≠ some .serving) :
    ∀ x ∈ worldHistory h, x.2.session ≠ some i := by
  intro x hx hown
  obtain ⟨t, e, hmem, rfl⟩ := mem_worldHistory hx
  obtain ⟨h₁, h₂, rfl⟩ := List.append_of_mem hmem
  obtain ⟨hr₁, t', he, hr₂⟩ := hr.at_event
  have hserving := (task_inv he).1 i hown
  have hr' : LTS.Run (step cfg) t ((t, .task e) :: h₂) g := LTS.run_cons he hr₂
  exact hs (start_stays hr₁ hr' hserving (Or.inl rfl))

/-- **A refused connection leaves nothing in the gateway**, however the run goes on: its session has
taken no step, the gateway state has no sender of it, it holds no lock, and no envelope of it was handed
to a task; what `start_session` returned stays the error of the refusal. -/
theorem refused_leaves_nothing {io : ListenerIo} {d : DeploymentInfo} {g₀ g₁ : Gateway} {h₁ : List (Gateway × Event)}
    {x : String} (hs : start io d p = .ok g₀) (hr : LTS.Run (step cfg) g₀ h g) (hx : g.starts i = some (.refused x))
    (hr₁ : LTS.Run (step cfg) g h₁ g₁) :
    g₁.starts i = some (.refused x) ∧ (∀ y ∈ worldHistory (h ++ h₁), y.2.session ≠ some i) ∧
      g₁.world.handlers i = Handler.new i ∧ (∀ r k, (g₁.world.gateway.clients r).lookup k ≠ some ⟨i⟩) ∧
      (∀ s, g₁.world.gatewayLock s ≠ some i) ∧ g₁.world.started i ++ g₁.world.pending i = [] := by
  obtain rfl := start_cases hs
  have hx₁ : g₁.starts i = some (.refused x) := start_stays hr hr₁ hx (Or.inr ⟨x, rfl⟩)
  have hrun := hr.append hr₁
  have hno := no_steps hrun (i := i) (by rw [hx₁]; nofun)
  exact ⟨hx₁, hno, unseen (world_run hrun) hno⟩

/-- The client does not speak WebSocket. -/
def refuses : List Event := handsOver ++ [.upgraded 0 (.error "HttpFormat")]

/-- Another connection is admitted, and its client opens a session. -/
def admitsNext : List Event :=
  [.listener (.accepted 8 11), .listener (.handshake 1 .completed), .listener (.send 1), .listener .received,
    .upgraded 1 (.ok ()), .greeted 1 (.ok ())] ++ (opens 1 (wsOpen [9] ⟨[2], 2⟩)).map .task

set_option maxRecDepth 20000 in
/-- A connection is refused, and its session never begins, whereas that of the next one does. -/
theorem refused_leaves_nothing_http :
    ∃ g g₁, LTS.exec (step .simple) (init [5] (.init true)) refuses = some g ∧
      LTS.exec (step .simple) g admitsNext = some g₁ ∧
      g₁.starts 0 = some (.refused "Refused WebSocket connection HttpFormat") ∧
      g₁.world.handlers 0 = Handler.new 0 := by
  obtain ⟨g, hg⟩ : ∃ g, LTS.exec (step .simple) (init [5] (.init true)) refuses = some g :=
    Option.isSome_iff_exists.mp (by decide)
  have hnext : (LTS.exec (step .simple) (init [5] (.init true)) (refuses ++ admitsNext)).isSome := by decide
  rw [LTS.exec_append, hg, Option.bind_some] at hnext
  obtain ⟨g₁, hg₁⟩ := Option.isSome_iff_exists.mp hnext
  have hx : (LTS.exec (step .simple) (init [5] (.init true)) refuses).bind (fun g => g.starts 0) =
      some (.refused "Refused WebSocket connection HttpFormat") := by decide
  rw [hg, Option.bind_some] at hx
  have hleft := refused_leaves_nothing secure_starts (LTS.exec_run hg) hx (LTS.exec_run hg₁)
  exact ⟨g, g₁, hg, hg₁, hleft.1, hleft.2.2.1⟩

end Gateway

end IcWsGateway
