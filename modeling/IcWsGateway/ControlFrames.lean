/-
# WebSocket control frames

Ping and Pong frames come out of the client's stream as messages, like any
other. A session in `Setup` ignores every message, so there such a frame goes
unnoticed; in `Init` and `Open` it is decoded as a request, and the session
fails. So frames that are inserted in a course of events change nothing of
what the clients and the IC see exactly when each of them is handled in
`Setup` (`control_frames_unnoticed_iff`).

Key definitions: `ControlFrame`, `Item`, `SameCourse`, `Unnoticed`.
Key theorems: `frame_in_setup`, `frame_elsewhere`, `control_frames_unnoticed_iff`.
-/
import IcWsGateway.SessionProtocol
import IcWsGateway.ClientMessages

namespace IcWsGateway

inductive ControlFrame
  | ping (payload : Bytes)
  | pong (payload : Bytes)
deriving DecidableEq

def ControlFrame.message : ControlFrame → Message
  | .ping payload => .ping payload
  | .pong payload => .pong payload

variable {cfg : Config} {w w' : World} {e : Event} {i : ClientId} {f : ControlFrame} {io : Io}

/-! ### One control frame -/

theorem getClientRequest_control (f : ControlFrame) :
    getClientRequest f.message = .error (.webSocket "ws message from client is not binary encoded") := by
  cases f <;> rfl

theorem isClose_control (f : ControlFrame) : f.message.isClose = false := by
  cases f <;> rfl

theorem handleClientUpdate_control (s : ClientSession) (f : ControlFrame) (io : Io) :
    s.handleClientUpdate (.ok f.message) io = s.handleClientMessage f.message io := by
  unfold ClientSession.handleClientUpdate ClientSession.checkClientUpdate
  simp only [isClose_control, Bool.false_and, Bool.false_eq_true, if_false]

/-- A session in `Setup` ignores the frame. -/
theorem tryUpdateState_control_setup {s : ClientSession} {m : Message} (f : ControlFrame) (io : Io)
    (hs : s.sessionState = .setup m) :
    s.tryUpdateState (.client (.ok f.message)) io = (s, [], .ok none) := by
  have hu : s.handleUpdate (.client (.ok f.message)) io = (s, [], .ok ()) := by
    show s.handleClientUpdate (.ok f.message) io = _
    rw [handleClientUpdate_control]
    unfold ClientSession.handleClientMessage
    rw [hs]
  unfold ClientSession.tryUpdateState
  simp only [hu, ne_eq, not_true, if_false]

/-- In every other state it is an error. -/
theorem handleClientMessage_control {s : ClientSession} (f : ControlFrame) (io : Io)
    (hs : ∀ m, s.sessionState ≠ .setup m) :
    ∃ s' out x, s.handleClientMessage f.message io = (s', out, .err x) := by
  unfold ClientSession.handleClientMessage
  cases hst : s.sessionState with
  | init =>
    unfold ClientSession.handleSetupTransition inspectIcWsOpenMessage
    simp only [getClientRequest_control]
    cases ClientSession.closeWsSession io with
    | ok u => exact ⟨_, _, _, rfl⟩
    | error x => exact ⟨_, _, _, rfl⟩
  | setup m => exact absurd hst (hs m)
  | opened =>
    refine ⟨s, [], .webSocket "ws message from client is not binary encoded", ?_⟩
    unfold ClientSession.relayClientMessage ClientSession.relayWsMessageToIc
    simp only [getClientRequest_control]
  | closed => exact ⟨_, _, _, rfl⟩

theorem tryUpdateState_control_err {s : ClientSession} (f : ControlFrame) (io : Io)
    (hs : ∀ m, s.sessionState ≠ .setup m) :
    ∃ s' out x, s.tryUpdateState (.client (.ok f.message)) io = (s', out, .err x) := by
  obtain ⟨s', out, x, h⟩ := handleClientMessage_control f io hs
  have hu : s.handleUpdate (.client (.ok f.message)) io = (s', out, .err x) := by
    show s.handleClientUpdate (.ok f.message) io = _
    rw [handleClientUpdate_control, h]
  refine ⟨s', out, x, ?_⟩
  unfold ClientSession.tryUpdateState
  simp only [hu]

/-! ### In a course of events -/

/-- A course of events with control frames inserted: the session handles a frame before it
awaits anything else. -/
inductive Item
  | event (e : Event)
  | frame (i : ClientId) (f : ControlFrame) (io : Io)
deriving DecidableEq

/-- The events of the item. -/
def Item.events : Item → List Event
  | .event e => [e]
  | .frame i f io => [.readWs i (.ok f.message), .update i io]

/-- Its events but for the frame. -/
def Item.original : Item → List Event
  | .event e => [e]
  | .frame .. => []

def withFrames (items : List Item) : List Event := items.flatMap Item.events

def withoutFrames (items : List Item) : List Event := items.flatMap Item.original

/-- The new state of session `i` that the event reports. -/
def stateOf (i : ClientId) (x : World × Event) : Option IcWsSessionState :=
  match resultOf i x with
  | some (.ok st) => st
  | _ => none

/-- The two courses look the same to the client of session `i` and to the IC: the states
of the session, the envelopes relayed for it, the messages sent to the client, and how it
stands at the end. -/
structure SameCourse (cfg : Config) (es es' : List Event) (i : ClientId) : Prop where
  states : (LTS.trace (step cfg) World.new es').filterMap (stateOf i) =
    (LTS.trace (step cfg) World.new es).filterMap (stateOf i)
  envelopes : (LTS.trace (step cfg) World.new es').filterMap (taskOf i) =
    (LTS.trace (step cfg) World.new es).filterMap (taskOf i)
  messages : (LTS.trace (step cfg) World.new es').flatMap (sentBy i) =
    (LTS.trace (step cfg) World.new es).flatMap (sentBy i)
  ending : ((World.after cfg es').handlers i).phase = ((World.after cfg es).handlers i).phase

/-- At every point of the course no session shows anything of the frames inserted up to
there. -/
def Unnoticed (cfg : Config) (items : List Item) : Prop :=
  ∀ pre, pre <+: items → (LTS.exec (step cfg) World.new (withoutFrames pre)).isSome ∧
    ∀ i, SameCourse cfg (withoutFrames pre) (withFrames pre) i

theorem withFrames_snoc (items : List Item) (x : Item) :
    withFrames (items ++ [x]) = withFrames items ++ x.events := by
  unfold withFrames
  rw [List.flatMap_append, List.flatMap_singleton]

theorem withoutFrames_snoc (items : List Item) (x : Item) :
    withoutFrames (items ++ [x]) = withoutFrames items ++ x.original := by
  unfold withoutFrames
  rw [List.flatMap_append, List.flatMap_singleton]

theorem readWs_frame (hph : (w.handlers i).phase = .awaiting) :
    step cfg w (.readWs i (.ok f.message)) = some (w.goto i (.updating (.client (.ok f.message)))) := by
  simp only [step, World.readWs, hph]

/-- A frame can only be read by a handler that awaits it. -/
theorem awaiting_of_frame (h : LTS.exec (step cfg) w (Item.frame i f io).events = some w') :
    (w.handlers i).phase = .awaiting := by
  simp only [Item.events, LTS.exec, Option.bind_eq_some_iff] at h
  obtain ⟨w₁, h₁, -⟩ := h
  simp only [step, World.readWs] at h₁
  split at h₁
  · assumption
  · cases h₁

/-- The session handles the frame that it has read. -/
theorem update_frame (cfg : Config) {s : ClientSession} {out : List Output}
    {r : Outcome IcWsError (Option IcWsSessionState)}
    (hu : (w.handlers i).session.tryUpdateState (.client (.ok f.message)) io = (s, out, r)) :
    step cfg (w.goto i (.updating (.client (.ok f.message)))) (.update i io) =
      some ((w.setHandler i (({ w.handlers i with session := s, phase := .updating (.client (.ok f.message)) } :
        Handler).dispatch r)).spawn i out) := by
  have hh : (w.goto i (.updating (.client (.ok f.message)))).handlers i =
      { w.handlers i with phase := .updating (.client (.ok f.message)) } := by simp [World.goto]
  simp only [step, World.update, hh, hu]
  simp [World.goto, World.setHandler]

/-- **In `Setup`** a control frame changes nothing. -/
theorem frame_in_setup (cfg : Config) {m : Message} (hph : (w.handlers i).phase = .awaiting)
    (hs : (w.handlers i).session.sessionState = .setup m) (f : ControlFrame) (io : Io) :
    LTS.exec (step cfg) w (Item.frame i f io).events = some w := by
  have hu := update_frame cfg (tryUpdateState_control_setup f io hs)
  have hback : ({ w.handlers i with phase := .awaiting } : Handler) = w.handlers i := by rw [← hph]
  simp only [Item.events, LTS.exec, readWs_frame hph, Option.bind_some, hu]
  show some (w.setHandler i { w.handlers i with phase := .awaiting }) = some w
  rw [hback]
  simp only [World.setHandler, Function.update_eq_self]

/-- **Elsewhere** it ends the service of the session. -/
theorem frame_elsewhere (hs : ∀ m, (w.handlers i).session.sessionState ≠ .setup m)
    (h : LTS.exec (step cfg) w (Item.frame i f io).events = some w') : (w'.handlers i).phase ≠ .awaiting := by
  have hph := awaiting_of_frame h
  obtain ⟨s, out, x, hu⟩ := tryUpdateState_control_err f io hs
  simp only [Item.events, LTS.exec, readWs_frame hph, Option.bind_some, update_frame cfg hu, Option.some.injEq] at h
  subst h
  intro haw
  rw [World.spawn_handlers, World.setHandler_handlers, Function.update_self] at haw
  have hgo := dispatch_goesOn (by rw [haw]; rfl)
  exact absurd hgo (by simp [Outcome.goesOn])

/-! ### What is seen of the frames -/

/-- Each inserted frame is handled by a session in `Setup`. -/
def HandledInSetup (cfg : Config) (items : List Item) : Prop :=
  ∀ pre i f io post, items = pre ++ .frame i f io :: post →
    ∃ m, ((World.after cfg (withFrames pre)).handlers i).session.sessionState = .setup m

variable {items : List Item} {x : Item}

theorem after_of_exec {es : List Event} (h : LTS.exec (step cfg) World.new es = some w) : World.after cfg es = w := by
  unfold World.after
  rw [h]
  rfl

theorem HandledInSetup.first {pre post : List Item} (h : HandledInSetup cfg (pre ++ post)) : HandledInSetup cfg pre := by
  intro pre' i f io post' hpre
  exact h pre' i f io (post' ++ post) (by rw [hpre, List.append_assoc]; rfl)

/-- The course with frames, an item longer. -/
theorem exec_snoc_item (h : (LTS.exec (step cfg) World.new (withFrames (items ++ [x]))).isSome) :
    ∃ w w', LTS.exec (step cfg) World.new (withFrames items) = some w ∧
      LTS.exec (step cfg) w x.events = some w' ∧
      LTS.exec (step cfg) World.new (withFrames (items ++ [x])) = some w' := by
  obtain ⟨w', h'⟩ := Option.isSome_iff_exists.mp h
  have hsplit := h'
  rw [withFrames_snoc, LTS.exec_append, Option.bind_eq_some_iff] at hsplit
  obtain ⟨w, hw, hx⟩ := hsplit
  exact ⟨w, w', hw, hx, h'⟩

theorem isSome_first {pre post : List Item} (h : (LTS.exec (step cfg) World.new (withFrames (pre ++ post))).isSome) :
    (LTS.exec (step cfg) World.new (withFrames pre)).isSome := by
  unfold withFrames at h
  rw [List.flatMap_append, LTS.exec_append] at h
  exact Option.isSome_of_isSome_bind h

/-- An observation that shows nothing of a frame handled in `Setup`. -/
def Blind {β : Type} (cfg : Config) (g : World × Event → List β) : Prop :=
  ∀ w i f io m, (w.handlers i).phase = .awaiting → (w.handlers i).session.sessionState = .setup m →
    (LTS.trace (step cfg) w (Item.frame i f io).events).flatMap g = []

/-- The frames handled in `Setup` change neither the world that is reached nor what an
observation shows that is blind to them. -/
theorem course_unchanged {β : Type} {g : World × Event → List β} (hg : Blind cfg g) :
    (LTS.exec (step cfg) World.new (withFrames items)).isSome → HandledInSetup cfg items →
    LTS.exec (step cfg) World.new (withoutFrames items) = LTS.exec (step cfg) World.new (withFrames items) ∧
      (LTS.trace (step cfg) World.new (withFrames items)).flatMap g =
        (LTS.trace (step cfg) World.new (withoutFrames items)).flatMap g := by
  induction items using List.reverseRecOn with
  | nil => exact fun _ _ => ⟨rfl, rfl⟩
  | append_singleton items x ih =>
    intro hrun hset
    obtain ⟨w, w', hw, hx, hw'⟩ := exec_snoc_item hrun
    obtain ⟨hexec, hobs⟩ := ih (by rw [hw]; rfl) hset.first
    have hown : LTS.exec (step cfg) World.new (withoutFrames items) = some w := hexec.trans hw
    cases x with
    | event e =>
      have hall : withoutFrames (items ++ [.event e]) = withoutFrames items ++ [e] := withoutFrames_snoc items _
      rw [hall, withFrames_snoc, LTS.exec_append, LTS.exec_append, hexec,
        LTS.trace_append _ hw, LTS.trace_append _ hown, List.flatMap_append, List.flatMap_append, hobs]
      exact ⟨rfl, rfl⟩
    | frame i f io =>
      have hall : withoutFrames (items ++ [.frame i f io]) = withoutFrames items := by
        rw [withoutFrames_snoc]
        exact List.append_nil _
      obtain ⟨m, hm⟩ := hset items i f io [] rfl
      rw [after_of_exec hw] at hm
      have hph := awaiting_of_frame hx
      have hsame : w' = w := Option.some.inj (hx.symm.trans (frame_in_setup cfg hph hm f io))
      rw [hall, hown, hw', hsame]
      refine ⟨rfl, ?_⟩
      rw [withFrames_snoc, LTS.trace_append _ hw, List.flatMap_append, hg w i f io m hph hm, hobs, List.append_nil]

/-- The events of a frame handled in `Setup`, with the worlds they happen in. -/
theorem trace_frame {m : Message} (hph : (w.handlers i).phase = .awaiting)
    (hs : (w.handlers i).session.sessionState = .setup m) (f : ControlFrame) (io : Io) :
    LTS.trace (step cfg) w (Item.frame i f io).events =
      [(w, .readWs i (.ok f.message)), (w.goto i (.updating (.client (.ok f.message))), .update i io)] := by
  have hu := update_frame cfg (tryUpdateState_control_setup f io hs)
  simp only [Item.events, LTS.trace, readWs_frame hph, hu]

theorem handlers_updating (f : ControlFrame) : (w.goto i (.updating (.client (.ok f.message)))).handlers i =
    { w.handlers i with phase := .updating (.client (.ok f.message)) } := by
  rw [World.goto_handlers, Function.update_self]

theorem blind_states (cfg : Config) (j : ClientId) : Blind cfg fun x => (stateOf j x).toList := by
  intro w i f io m hph hs
  have hout := tryUpdateState_control_setup f io hs
  have hres : stateOf j (w.goto i (.updating (.client (.ok f.message))), .update i io) = none := by
    by_cases hj : i = j
    · subst hj
      simp only [stateOf, resultOf, handlers_updating, if_true, hout]
    · have hnone : resultOf j (w.goto i (.updating (.client (.ok f.message))), .update i io) = none :=
        resultOf_none fun io' h => by
          cases h
          exact hj rfl
      simp only [stateOf, hnone]
  rw [trace_frame hph hs]
  simp only [List.flatMap_cons, List.flatMap_nil, hres]
  rfl

theorem blind_envelopes (cfg : Config) (j : ClientId) : Blind cfg fun x => (taskOf j x).toList := by
  intro w i f io m hph hs
  have hres : taskOf j (w.goto i (.updating (.client (.ok f.message))), .update i io) = none := by
    have hrel : (w.handlers i).session.relays (.client (.ok f.message)) = none := by
      rw [relays_client, hs]
      exact if_neg (by simp)
    show messageOf j (w.goto i (.updating (.client (.ok f.message))), .update i io) = none
    by_cases hj : i = j
    · subst hj
      cases hc : (w.handlers i).session.canisterId with
      | none => simp only [messageOf, handlers_updating, hc]
      | some c => simp only [messageOf, handlers_updating, hc, if_true, hrel, Option.map_none]
    · simp only [messageOf, if_neg hj]
      split <;> rfl
  rw [trace_frame hph hs]
  simp only [List.flatMap_cons, List.flatMap_nil, hres]
  rfl

theorem blind_messages (cfg : Config) (j : ClientId) : Blind cfg (sentBy j) := by
  intro w i f io m hph hs
  have hout := tryUpdateState_control_setup f io hs
  have hres : sentBy j (w.goto i (.updating (.client (.ok f.message))), .update i io) = [] := by
    by_cases hj : i = j
    · subst hj
      simp only [sentBy, handlers_updating, if_true, hout, List.filterMap_nil]
    · simp only [sentBy, if_neg hj]
      split <;> rfl
  rw [trace_frame hph hs]
  simp only [List.flatMap_cons, List.flatMap_nil, hres]
  rfl

theorem unnoticed_of_setup (hrun : (LTS.exec (step cfg) World.new (withFrames items)).isSome)
    (hset : HandledInSetup cfg items) : Unnoticed cfg items := by
  rintro pre ⟨post, rfl⟩
  have hrun' := isSome_first hrun
  have hset' := hset.first
  refine ⟨?_, fun j => ⟨?_, ?_, ?_, ?_⟩⟩
  · rw [(course_unchanged (blind_states cfg 0) hrun' hset').1]
    exact hrun'
  · rw [List.filterMap_eq_flatMap_toList, List.filterMap_eq_flatMap_toList]
    exact (course_unchanged (blind_states cfg j) hrun' hset').2
  · rw [List.filterMap_eq_flatMap_toList, List.filterMap_eq_flatMap_toList]
    exact (course_unchanged (blind_envelopes cfg j) hrun' hset').2
  · exact (course_unchanged (blind_messages cfg j) hrun' hset').2
  · unfold World.after
    rw [(course_unchanged (blind_states cfg j) hrun' hset').1]

/-- A session that handles the frame elsewhere stands differently from then on. -/
theorem setup_of_unnoticed (hrun : (LTS.exec (step cfg) World.new (withFrames items)).isSome)
    (hun : Unnoticed cfg items) : HandledInSetup cfg items := by
  intro pre i f io post hitems
  have hpre : pre <+: items := ⟨_, hitems.symm⟩
  have hframe : pre ++ [.frame i f io] <+: items := ⟨post, by rw [hitems, List.append_assoc]; rfl⟩
  obtain ⟨rest, hrest⟩ := hframe
  have hrun' : (LTS.exec (step cfg) World.new (withFrames (pre ++ [.frame i f io]))).isSome :=
    isSome_first (by rw [hrest]; exact hrun)
  obtain ⟨w, w', hw, hx, hw'⟩ := exec_snoc_item hrun'
  have hbefore := ((hun pre hpre).2 i).ending
  have hafter := ((hun (pre ++ [.frame i f io]) ⟨rest, hrest⟩).2 i).ending
  have hown : withoutFrames (pre ++ [.frame i f io]) = withoutFrames pre := by
    rw [withoutFrames_snoc]
    exact List.append_nil _
  rw [hown, ← hbefore, after_of_exec hw, after_of_exec hw', awaiting_of_frame hx] at hafter
  rw [after_of_exec hw]
  by_contra hs
  exact frame_elsewhere (fun m hm => hs ⟨m, hm⟩) hx hafter

/-- **Control frames** go unnoticed exactly when each of them is handled in `Setup`. -/
theorem control_frames_unnoticed_iff (hrun : (LTS.exec (step cfg) World.new (withFrames items)).isSome) :
    Unnoticed cfg items ↔ HandledInSetup cfg items :=
  ⟨setup_of_unnoticed hrun, unnoticed_of_setup hrun⟩

theorem handledInSetup_events (cfg : Config) (es : List Event) : HandledInSetup cfg (es.map .event) := by
  intro pre i f io post h
  have hmem : Item.frame i f io ∈ es.map Item.event := by
    rw [h]
    exact List.mem_append_right pre (List.mem_cons_self ..)
  simp at hmem

theorem HandledInSetup.frame {m : Message} (h : HandledInSetup cfg items)
    (hm : ((World.after cfg (withFrames items)).handlers i).session.sessionState = .setup m) :
    HandledInSetup cfg (items ++ [.frame i f io]) := by
  intro pre i' f' io' post heq
  rcases List.eq_nil_or_concat' post with rfl | ⟨post', x, rfl⟩
  · obtain ⟨rfl, hlast⟩ := List.append_inj' heq rfl
    obtain ⟨rfl, -, -⟩ : i = i' ∧ f = f' ∧ io = io' := by simpa using hlast
    exact ⟨m, hm⟩
  · have heq' : items ++ [.frame i f io] = (pre ++ .frame i' f' io' :: post') ++ [x] := by
      rw [heq, List.append_assoc]
      rfl
    obtain ⟨hitems, -⟩ := List.append_inj' heq' rfl
    exact h pre i' f' io' post' hitems

/-- The events of a session that is set up. -/
def setsUp (c : CanisterPrincipal) (k : ClientKey) : List Item := (opens 0 (wsOpen c k)).map .event

set_option maxRecDepth 20000 in
/-- A session that is set up does not notice a Ping. -/
theorem control_frames_unnoticed_setup :
    Unnoticed .simple (setsUp [9] ⟨[1], 1⟩ ++ [.frame 0 (.ping [1]) .ok]) := by
  have hsetup : ((World.after .simple (withFrames (setsUp [9] ⟨[1], 1⟩))).handlers 0).session.sessionState =
      .setup (wsOpen [9] ⟨[1], 1⟩) := by decide
  exact (control_frames_unnoticed_iff (by decide)).mpr (HandledInSetup.frame (handledInSetup_events _ _) hsetup)

/-- The events of a session that is open. -/
def isOpened (c : CanisterPrincipal) (k : ClientKey) : List Item := (sends c k []).map .event

set_option maxRecDepth 20000 in
/-- A Ping ends a session that has just begun, and one that is open. -/
theorem ping_ends_session :
    ¬ Unnoticed .simple [.frame 0 (.ping []) .ok] ∧
    ¬ Unnoticed .simple (isOpened [9] ⟨[1], 1⟩ ++ [.frame 0 (.ping []) .ok]) := by
  constructor
  · intro hun
    obtain ⟨m, hm⟩ := setup_of_unnoticed (by decide) hun [] 0 _ _ [] rfl
    cases hm
  · intro hun
    obtain ⟨m, hm⟩ := setup_of_unnoticed (by decide) hun (isOpened [9] ⟨[1], 1⟩) 0 _ _ [] rfl
    have hopen : ((World.after .simple (withFrames (isOpened [9] ⟨[1], 1⟩))).handlers 0).session.sessionState =
        .opened := by decide
    cases hopen.symm.trans hm

end IcWsGateway
