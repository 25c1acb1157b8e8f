/-
# The channel and the socket of a session

What is put on the channel of a session and what the session reads from it are
functions of the history. The channel is a queue (`channel_fifo`): what was
buffered and what is put are what is read and what is left. The session sends on
its WebSocket what it reads, one message at a time and in that order
(`socket_in_order`), up to a last one that it may fail to send.

Key definitions: `putOn`, `receivedBy`, `sentBy`.
Key theorems: `channel_fifo`, `socket_in_order`.
-/
import IcWsGateway.Refinement

namespace IcWsGateway

variable {cfg : Config} {s w w' : World} {h : List (World × Event)} {i : ClientId} {e : Event}

/-! ### The channel -/

/-- The messages buffered in the channel of session `i`. -/
def World.buffer (w : World) (i : ClientId) : List CanisterToClientMessage :=
  (w.handlers i).session.clientChannelRx

/-- The message that the event puts on the channel of session `i`. -/
def putOn (i : ClientId) : World × Event → Option CanisterToClientMessage
  | (w, .put p) =>
    match (w.pollers p).map CanisterPoller.phase with
    | some (.sending j _ m _) => if j = i ∧ (w.handlers i).rxDropped = false then some m else none
    | _ => none
  | _ => none

/-- The message that session `i` reads from its channel in the event. -/
def receivedBy (i : ClientId) : World × Event → Option CanisterToClientMessage
  | (w, .recv j) => if j = i then (w.buffer i).head? else none
  | _ => none

theorem buffer_put {p : PollerId} (he : WorldStep cfg w (.put p) w') (i : ClientId) :
    w'.buffer i = w.buffer i ++ (putOn i (w, .put p)).toList := by
  have hput : ∀ {q j k m msgs}, w.pollers p = some q → q.phase = .sending j k m msgs →
      putOn i (w, .put p) = if j = i ∧ (w.handlers i).rxDropped = false then some m else none := by
    intro q j k m msgs hq hph
    simp only [putOn, hq, Option.map_some, hph]
  cases he with
  | putDropped poller phase dropped =>
    rw [hput poller phase, if_neg fun hji => by rw [hji.1, hji.2] at dropped; cases dropped]
    simp [World.buffer]
  | @put _ q j k m msgs poller phase open_ room =>
    rw [hput poller phase]
    by_cases hji : j = i
    · subst hji
      rw [if_pos ⟨rfl, open_⟩]
      simp [World.buffer, World.push]
    · rw [if_neg fun h => hji h.1]
      simp [World.buffer, World.push, Function.update_of_ne (Ne.symm hji)]

theorem buffer_recv {j : ClientId} (he : WorldStep cfg w (.recv j) w') (i : ClientId) :
    w.buffer i = (receivedBy i (w, .recv j)).toList ++ w'.buffer i := by
  by_cases hji : j = i
  · subst hji
    cases he with
    | recv phase rx => simp [receivedBy, World.buffer, rx]
    | cutOff phase rx => simp [receivedBy, World.buffer, rx]
  · have hh : w'.handlers i = w.handlers i := by
      cases he <;> simp [Function.update_of_ne (Ne.symm hji)]
    simp [receivedBy, hji, World.buffer, hh]

/-- No other event touches a channel. -/
theorem buffer_other (he : step cfg w e = some w') (hp : ∀ p, e ≠ .put p) (hr : ∀ j, e ≠ .recv j)
    (i : ClientId) : w'.buffer i = w.buffer i := by
  have hs := step_handler he i
  unfold World.buffer
  generalize w.handlers i = a at hs ⊢
  generalize w'.handlers i = b at hs ⊢
  cases hs with
  | recv | cutOff => exact absurd rfl (hr i)
  | push => exact absurd rfl (hp _)
  | update phase updated =>
    rw [dispatch_session]
    exact tryUpdateState_rx updated
  | _ => rfl

/-- One event, as the channel sees it. -/
theorem buffer_step (he : step cfg w e = some w') (i : ClientId) :
    w.buffer i ++ (putOn i (w, e)).toList = (receivedBy i (w, e)).toList ++ w'.buffer i := by
  by_cases hp : ∃ p, e = .put p
  · obtain ⟨p, rfl⟩ := hp
    exact (buffer_put (step_cases he) i).symm
  by_cases hr : ∃ j, e = .recv j
  · obtain ⟨j, rfl⟩ := hr
    rw [← buffer_recv (step_cases he) i]
    exact List.append_nil _
  push Not at hp hr
  rw [buffer_other he hp hr]
  cases e with
  | put p => exact absurd rfl (hp p)
  | recv j => exact absurd rfl (hr j)
  | _ => exact List.append_nil _

/-- **The channel is a queue**: from any state on, what was buffered followed by
what is put is what is read followed by what is left. -/
theorem channel_fifo (hr : LTS.Run (step cfg) s h w) (i : ClientId) :
    s.buffer i ++ h.filterMap (putOn i) = h.filterMap (receivedBy i) ++ w.buffer i := by
  induction hr with
  | nil => simp
  | @snoc h t t' e hr he ih =>
    calc s.buffer i ++ (h ++ [(t, e)]).filterMap (putOn i)
        = (s.buffer i ++ h.filterMap (putOn i)) ++ (putOn i (t, e)).toList := by
          rw [LTS.filterMap_snoc, List.append_assoc]
      _ = h.filterMap (receivedBy i) ++ (t.buffer i ++ (putOn i (t, e)).toList) := by
          rw [ih, List.append_assoc]
      _ = h.filterMap (receivedBy i) ++ ((receivedBy i (t, e)).toList ++ t'.buffer i) := by
          rw [buffer_step he]
      _ = (h ++ [(t, e)]).filterMap (receivedBy i) ++ t'.buffer i := by
          rw [LTS.filterMap_snoc, List.append_assoc]

/-! ### Sessions in service -/

/-- The handler has not begun to leave. -/
def Phase.inService : Phase → Bool
  | .awaiting | .updating _ | .setup .. | .relayingOpen .. | .startingPoller .. => true
  | _ => false

/-- A handler that has begun to leave does not come back. -/
theorem HandlerStep.inService {a b : Handler} (hs : HandlerStep w i a e b)
    (hb : b.phase.inService = true) : a.phase.inService = true := by
  cases hs with
  | other | push => exact hb
  | readWs phase | recv phase | cutOff phase | update phase | insert phase =>
    rw [phase]
    rfl
  | relayOpen phase | relayOpenFail phase | relayOpenPanic phase | startPoller phase =>
    rw [phase]
    rfl
  | rollback | remove | removePanic | removeIfExists | removeVacant | wsClosed => cases hb

/-! ### The socket -/

/-- The message among the outputs that goes to the client. -/
def Output.toClient : Output → Option CanisterToClientMessage
  | .wsSend m => some m
  | _ => none

/-- The messages that session `i` sends on its WebSocket in the event. -/
def sentBy (i : ClientId) : World × Event → List CanisterToClientMessage
  | (w, .update j io) =>
    match (w.handlers i).phase with
    | .updating u =>
      if j = i then ((w.handlers i).session.tryUpdateState u io).2.1.filterMap Output.toClient else []
    | _ => []
  | _ => []

/-- The message that the session has read and not handled yet. -/
def Phase.inHand : Phase → List CanisterToClientMessage
  | .updating (.canister (some m)) => [m]
  | _ => []

/-- A client update sends nothing to the client. -/
theorem handleClientUpdate_sends (s : ClientSession) (u : Except String Message) (io : Io) :
    (s.handleClientUpdate u io).2.1.filterMap Output.toClient = [] := by
  unfold ClientSession.handleClientUpdate ClientSession.checkClientUpdate
  cases u with
  | error x => rfl
  | ok m =>
    dsimp only
    split_ifs
    · rfl
    · unfold ClientSession.handleClientMessage
      split
      · obtain ⟨k, c, -, h⟩ | ⟨x, h⟩ := s.handleSetupTransition_cases m io <;> rw [h] <;> rfl
      · rfl
      · dsimp only
        unfold ClientSession.relayClientMessage ClientSession.relayWsMessageToIc
        split
        · rfl
        · split
          · split
            · rfl
            · split <;> rfl
          · rfl
      · rfl

theorem handleCanisterUpdate_sends (s : ClientSession) (m : CanisterToClientMessage) (io : Io) :
    (s.handleCanisterUpdate (some m) io).2.1.filterMap Output.toClient = [] ∨
      (s.handleCanisterUpdate (some m) io).2.1.filterMap Output.toClient = [m] := by
  have hm : (ClientSession.relayCanisterMessage m io).1.filterMap Output.toClient = [] ∨
      (ClientSession.relayCanisterMessage m io).1.filterMap Output.toClient = [m] := by
    obtain h | ⟨out, x, ho, -, h⟩ := relayCanisterMessage_cases m io
    · rw [h]
      exact Or.inr rfl
    · rw [h]
      rcases ho with rfl | rfl
      · exact Or.inl rfl
      · exact Or.inr rfl
  have ho : (ClientSession.handleOpenTransition m io).1 = (ClientSession.relayCanisterMessage m io).1 := by
    unfold ClientSession.handleOpenTransition
    split <;> rename_i h <;> rw [h]
  unfold ClientSession.handleCanisterUpdate
  dsimp only
  split
  · exact Or.inl rfl
  · rw [← ho] at hm
    split <;> rename_i h <;> rw [h] at hm <;> exact hm
  · split <;> rename_i h <;> rw [h] at hm <;> exact hm
  · exact Or.inl rfl

/-- What an update sends to the client: the message in hand, or nothing. -/
theorem update_sends {s s' : ClientSession} {u : Update} {io : Io} {out : List Output}
    {r : Outcome IcWsError (Option IcWsSessionState)} (hu : s.tryUpdateState u io = (s', out, r)) :
    out.filterMap Output.toClient = [] ∨
      out.filterMap Output.toClient = (Phase.updating u).inHand := by
  have hout : out = (s.handleUpdate u io).2.1 := by
    unfold ClientSession.tryUpdateState at hu
    split at hu <;> rename_i h <;> rw [h] <;> cases hu <;> rfl
  rw [hout]
  cases u with
  | client u => exact Or.inl (handleClientUpdate_sends s u io)
  | canister u =>
    cases u with
    | some m => exact handleCanisterUpdate_sends s m io
    | none =>
      apply Or.inl
      simp only [ClientSession.handleUpdate, ClientSession.handleCanisterUpdate]
      split <;> rfl

/-- An update of session `i` and of nothing else: what it had in hand it has sent, or
it leaves. -/
theorem update_inHand {io : Io} (hw : Sound w) (he : step cfg w (.update i io) = some w') :
    sentBy i (w, .update i io) = (w.handlers i).phase.inHand ∧ (w'.handlers i).phase.inHand = [] ∨
    (w'.handlers i).phase.inService = false ∧ (w'.handlers i).phase.inHand = [] ∧
      (sentBy i (w, .update i io) = [] ∨ sentBy i (w, .update i io) = (w.handlers i).phase.inHand) := by
  cases step_cases he with
  | @update _ _ u s out r phase updated =>
    have hsent : sentBy i (w, .update i io) = out.filterMap Output.toClient := by
      simp only [sentBy, phase, if_true, updated]
    have hhand : (w.handlers i).phase.inHand = (Phase.updating u).inHand := by rw [phase]
    have hsends := update_sends updated
    rw [hsent, hhand]
    simp only [World.spawn_handlers, World.setHandler_handlers, Function.update_self]
    rcases (hw.wf i).updating phase with ⟨hf, -⟩ | ⟨c, k, hk, hl⟩
    · obtain ⟨m, k, c, rfl, -, rfl, -, hd⟩ | ⟨-, r', hd⟩ := update_fresh hf updated
      · rw [hd]
        exact Or.inl ⟨rfl, rfl⟩
      · rw [hd]
        exact Or.inr ⟨rfl, rfl, hsends⟩
    · have hd := update_keyed hk hl updated
      generalize ({ w.handlers i with session := s } : Handler).dispatch r = b at hd ⊢
      cases hd with
      | close | readFailed | failed | cutOff => exact Or.inr ⟨rfl, rfl, hsends⟩
      | ignored | relayed | delivered => exact Or.inl ⟨rfl, rfl⟩

theorem receivedBy_none (hr : e ≠ .recv i) : receivedBy i (w, e) = none := by
  cases e with
  | recv j => exact if_neg fun hj => hr (by rw [hj])
  | _ => rfl

theorem sentBy_nil (hu : ∀ io, e ≠ .update i io) : sentBy i (w, e) = [] := by
  cases e with
  | update j io =>
    have hj : j ≠ i := fun hj => hu io (by rw [hj])
    simp only [sentBy, if_neg hj]
    split <;> rfl
  | _ => rfl

theorem recv_inHand (he : step cfg w (.recv i) = some w') :
    (w.handlers i).phase = .awaiting ∧ (w'.handlers i).phase.inService = true ∧
      (receivedBy i (w, .recv i)).toList = (w'.handlers i).phase.inHand := by
  cases step_cases he with
  | recv phase rx =>
    refine ⟨phase, ?_, ?_⟩ <;> simp [Phase.inService, Phase.inHand, receivedBy, World.buffer, rx]
  | cutOff phase rx =>
    refine ⟨phase, ?_, ?_⟩ <;> simp [Phase.inService, Phase.inHand, receivedBy, World.buffer, rx]

/-- What the other events do to the message in hand of a session that stays in
service. -/
theorem inHand_other (he : step cfg w e = some w') (hr : e ≠ .recv i) (hu : ∀ io, e ≠ .update i io)
    (hs : (w'.handlers i).phase.inService = true) :
    (w'.handlers i).phase.inHand = (w.handlers i).phase.inHand := by
  have hh := step_handler he i
  generalize w.handlers i = a at hh ⊢
  generalize w'.handlers i = b at hh hs ⊢
  cases hh with
  | recv | cutOff => exact absurd rfl hr
  | update => exact absurd rfl (hu _)
  | other | push => rfl
  | readWs phase | insert phase | relayOpen phase | startPoller phase =>
    rw [phase]
    rfl
  | rollback | remove | removePanic | removeIfExists | removeVacant | relayOpenFail | relayOpenPanic |
    wsClosed => cases hs

/-- **The session sends what it reads**: each message once and in that order, up to a
last one that it has not handled yet, or could not send before it left. -/
theorem socket_in_order (hr : Runs cfg h w) (i : ClientId) :
    ∃ lost, h.filterMap (receivedBy i) = h.flatMap (sentBy i) ++ lost ∧ lost.length ≤ 1 ∧
      ((w.handlers i).phase.inService = true → lost = (w.handlers i).phase.inHand) := by
  induction hr with
  | nil => exact ⟨[], rfl, Nat.zero_le _, fun _ => rfl⟩
  | @snoc h t t' e hr he ih =>
    obtain ⟨lost, heq, hlen, hhand⟩ := ih
    have hin : (t'.handlers i).phase.inService = true → (t.handlers i).phase.inService = true :=
      (step_handler he i).inService
    rw [LTS.filterMap_snoc, List.flatMap_append, List.flatMap_singleton, heq]
    by_cases hrv : e = .recv i
    · subst hrv
      obtain ⟨hph, hs, hx⟩ := recv_inHand he
      have hlost : lost = [] := by
        rw [hhand (hin hs), hph]
        rfl
      refine ⟨(t'.handlers i).phase.inHand, ?_, ?_, fun _ => rfl⟩
      · rw [hx, hlost, sentBy_nil (by simp), List.append_nil]
      · rw [← hx]
        rcases receivedBy i (t, .recv i) with _ | m <;> simp
    · rw [receivedBy_none hrv, Option.toList_none, List.append_nil]
      by_cases hu : ∃ io, e = .update i io
      · obtain ⟨io, rfl⟩ := hu
        have hlost : lost = (t.handlers i).phase.inHand := by
          apply hhand
          cases step_cases he with
          | update phase updated =>
            rw [phase]
            rfl
        obtain ⟨hsent, hno⟩ | ⟨hleft, -, hsent | hsent⟩ := update_inHand (reachable hr) he
        · exact ⟨[], by rw [hsent, hlost, List.append_nil], Nat.zero_le _, fun _ => hno.symm⟩
        · refine ⟨lost, by rw [hsent, List.append_nil], hlen, fun hs => ?_⟩
          rw [hleft] at hs
          cases hs
        · refine ⟨[], by rw [hsent, hlost, List.append_nil], Nat.zero_le _, fun hs => ?_⟩
          rw [hleft] at hs
          cases hs
      · push Not at hu
        rw [sentBy_nil hu, List.append_nil]
        refine ⟨lost, rfl, hlen, fun hs => ?_⟩
        rw [hhand (hin hs), inHand_other he hrv hu hs]

end IcWsGateway
