/-
# Sessions that end before they are set up

The `Closed` and the `Err` arm of the handler first read the canister id and the client
key, which are set only during `Setup`. So a session that ends while it is still in
`Init` does not return: whatever ends it, its handler panics, and neither `Ok` nor the
error that the `Err` arm keeps for this case is ever returned. What is shared is left
alone: the session has not touched the gateway state, nor called `ws_close`.

Key definitions: `EndsCleanly`.
Key theorems: `first_update`, `before_setup`, `ends_before_setup`.
-/
import IcWsGateway.Deadlock
import IcWsGateway.SessionProtocol

namespace IcWsGateway

variable {cfg : Config} {w w' : World} {h : List (World × Event)} {i : ClientId} {e : Event} {u : Update}
  {io : Io} {s s' : ClientSession} {out : List Output} {r : Outcome IcWsError (Option IcWsSessionState)}

/-! ### The first update -/

theorem handleSetupTransition_error {m : Message} {err : IcWsError}
    (hs : s.handleSetupTransition m io = (s', out, .error err)) : err.isPoller = false := by
  unfold ClientSession.handleSetupTransition at hs
  split at hs
  · cases hs
  · split at hs
    · rename_i hcl
      cases hs
      exact closeWsSession_error hcl
    · cases hs
      rfl

/-- The first update of the client sets the session up, closes it or fails; in the last
two cases the keys are not touched. -/
theorem first_update {x : Except String Message} (hst : s.sessionState = .init)
    (hu : s.tryUpdateState (.client x) io = (s', out, r)) :
    (∃ m, r = .ok (some (.setup m))) ∨ s'.canisterId = s.canisterId ∧
      (r = .ok (some .closed) ∨ ∃ err, r = .err err ∧ err.isPoller = false) := by
  unfold ClientSession.tryUpdateState at hu
  simp only [ClientSession.handleUpdate, ClientSession.handleClientUpdate] at hu
  rcases x with err | m
  · cases hu
    exact Or.inr ⟨rfl, Or.inr ⟨_, rfl, rfl⟩⟩
  · simp only [ClientSession.checkClientUpdate, hst, IcWsSessionState.isClosed, Bool.not_false, Bool.and_true,
      ClientSession.handleClientMessage] at hu
    by_cases hcl : m.isClose = true
    · simp only [hcl, if_true] at hu
      cases hu
      exact Or.inr ⟨rfl, Or.inl rfl⟩
    · rw [if_neg hcl] at hu
      obtain ⟨k, c, -, hs⟩ | ⟨err, hs⟩ := s.handleSetupTransition_cases m io
      · rw [hs] at hu
        cases hu
        exact Or.inl ⟨m, rfl⟩
      · rw [hs] at hu
        cases hu
        exact Or.inr ⟨rfl, Or.inr ⟨err, rfl, handleSetupTransition_error hs⟩⟩

/-- Without a canister id the arms for the end of a session panic. -/
theorem dispatch_keyless {a : Handler} (hc : a.session.canisterId = none)
    (hr : r = .ok (some .closed) ∨ ∃ err, r = .err err ∧ err.isPoller = false) :
    (a.dispatch r).phase = .ended (.panicked "must be set during Setup") := by
  obtain rfl | ⟨err, rfl, herr⟩ := hr
  · simp only [Handler.dispatch, hc]
  · cases err with
    | poller x => cases herr
    | icWsProtocol x => simp only [Handler.dispatch, hc]
    | webSocket x => simp only [Handler.dispatch, hc]

/-! ### Until the session is set up -/

/-- Until its first update a session keeps its sender and waits for that. -/
theorem HandlerStep.fresh {a b : Handler} (hs : HandlerStep w i a e b) (hu : ∀ io, e ≠ .update i io)
    (hf : a.Fresh i) (hph : a.phase = .awaiting ∨ ∃ u, a.phase = .updating u) :
    b.Fresh i ∧ (b.phase = .awaiting ∨ ∃ u, b.phase = .updating u) := by
  cases hs with
  | other => exact ⟨hf, hph⟩
  | readWs => exact ⟨⟨hf.tx, hf.canisterId, hf.clientKey, hf.sessionState⟩, Or.inr ⟨_, rfl⟩⟩
  | recv => exact ⟨⟨hf.tx, hf.canisterId, hf.clientKey, hf.sessionState⟩, Or.inr ⟨_, rfl⟩⟩
  | cutOff phase rx tx => exact absurd tx hf.has_tx
  | push => exact ⟨⟨hf.tx, hf.canisterId, hf.clientKey, hf.sessionState⟩, hph⟩
  | update => exact absurd rfl (hu _)
  | insert phase | rollback phase | remove phase | removePanic phase | removeIfExists phase =>
    rw [phase] at hph
    simp at hph
  | removeVacant phase | relayOpen phase | relayOpenFail phase | relayOpenPanic phase =>
    rw [phase] at hph
    simp at hph
  | startPoller phase | wsClosed phase =>
    rw [phase] at hph
    simp at hph

/-- A handler that has ended stays so. -/
theorem HandlerStep.ended {a b : Handler} {r : TaskResult} (hs : HandlerStep w i a e b)
    (hph : a.phase = .ended r) : b.phase = .ended r := by
  cases hs with
  | other | push => exact hph
  | readWs phase | recv phase | cutOff phase | update phase | insert phase | rollback phase =>
    rw [phase] at hph
    cases hph
  | remove phase | removePanic phase | removeIfExists phase | removeVacant phase | relayOpen phase =>
    rw [phase] at hph
    cases hph
  | relayOpenFail phase | relayOpenPanic phase | startPoller phase | wsClosed phase =>
    rw [phase] at hph
    cases hph

/-- A session that has not been set up has its sender and waits for its first update, or
its handler has panicked. -/
theorem before_setup (hr : Runs cfg h w) (hno : ∀ x ∈ h, ¬ reportsSetup i x) :
    (w.handlers i).Fresh i ∧ ((w.handlers i).phase = .awaiting ∨ ∃ u, (w.handlers i).phase = .updating u) ∨
      (w.handlers i).phase = .ended (.panicked "must be set during Setup") := by
  induction hr with
  | nil => exact Or.inl ⟨⟨rfl, rfl, rfl, rfl⟩, Or.inl rfl⟩
  | @snoc h t t' e hr he ih =>
    have hh := step_handler he i
    obtain ⟨hf, hph⟩ | hend := ih fun x hx => hno x (List.mem_append_left _ hx)
    · by_cases hu : ∃ io, e = .update i io
      · obtain ⟨io, rfl⟩ := hu
        obtain ⟨u, s, out, r, hph', htu, -, -, heq⟩ := update_parts he
        have hfirst := (conforms hr hph' htu).first hf.sessionState
        apply Or.inr
        rcases u with x | m
        · obtain ⟨m, hm⟩ | ⟨hc, hres⟩ := first_update hf.sessionState htu
          · subst hm
            exact absurd ⟨rfl, _, s, out, m, hph', htu⟩ (hno (t, .update i io) (by simp))
          · rw [heq]
            refine dispatch_keyless ?_ hres
            rw [hc]
            exact hf.canisterId
        · exact absurd rfl (hfirst.2 m)
      · push Not at hu
        exact Or.inl (hh.fresh hu hf hph)
    · exact Or.inr (hh.ended hend)

/-- Once a session has reported `Setup`, its sender has been taken. -/
theorem sender_taken (hr : Runs cfg h w) (hrep : ∃ x ∈ h, reportsSetup i x) :
    (w.handlers i).clientChannelTx = none := by
  induction hr with
  | nil => simp at hrep
  | @snoc h t t' e hr he ih =>
    have hw := reachable hr
    obtain ⟨x, hx, hrep⟩ := hrep
    rcases List.mem_append.mp hx with hx | hx
    · have htx := ih ⟨x, hx, hrep⟩
      have hh := step_handler he i
      have hwf := hw.wf i
      generalize t.handlers i = a at hh hwf htx
      generalize t'.handlers i = b at hh ⊢
      cases hh with
      | update phase updated =>
        obtain ⟨c, k, hk, hl⟩ := hwf.updating_of_tx phase htx
        exact ((update_keyed hk hl updated).keyed hk).tx
      | _ => exact htx
    · rw [List.mem_singleton] at hx
      subst hx
      have hf := reportsSetup_fresh hw hrep
      cases e with
      | update j io =>
        obtain ⟨rfl, u, s, out, m, hph, htu⟩ := hrep
        obtain ⟨u', s', out', r', hph', htu', -, -, heq⟩ := update_parts he
        rw [hph] at hph'
        cases hph'
        rw [htu] at htu'
        cases htu'
        have hnew := new_of_init ((reachable hr).wf j) hph
        obtain ⟨-, -, k, c, -, hc, hk⟩ := setup_transition hnew htu
        rw [heq]
        simp only [Handler.dispatch, hc, hk, hf.tx]
      | _ => exact hrep.elim

/-- Before it is set up, a session does nothing to the gateway state. -/
theorem gateway_before_setup (hr : Runs cfg h w) (hno : ∀ x ∈ h, ¬ reportsSetup i x) (hown : e.session = some i)
    (he : step cfg w e = some w') : w'.gateway = w.gateway := by
  have hph : ∀ ph, (w.handlers i).phase = ph → ph = .awaiting ∨ (∃ u, ph = .updating u) ∨
      ph = .ended (.panicked "must be set during Setup") := by
    rintro ph rfl
    obtain ⟨-, hph | hph⟩ | hph := before_setup hr hno
    · exact Or.inl hph
    · exact Or.inr (Or.inl hph)
    · exact Or.inr (Or.inr hph)
  have hg := step_gateway he
  generalize w'.gateway = g at hg ⊢
  cases hg with
  | other => rfl
  | insert phase | rollback phase | relayOpenPanic phase =>
    cases hown
    have hph' := hph _ phase
    simp at hph'
  | remove phase =>
    cases hown
    obtain phase | ⟨err, phase⟩ := phase
    · have hph' := hph _ phase
      simp at hph'
    · have hph' := hph _ phase
      simp at hph'
  | noncePanic | terminate | fail | failPanic | stop => cases hown

/-- Before it is set up, a session does not call `ws_close`. -/
theorem untold_before_setup (hr : Runs cfg h w) (hno : ∀ x ∈ h, ¬ reportsSetup i x) :
    h.filterMap (wsCloseOf i) = [] := by
  rw [List.filterMap_eq_nil_iff]
  rintro ⟨t, e⟩ hx
  by_contra hne
  obtain ⟨y, hy⟩ := Option.ne_none_iff_exists'.mp hne
  obtain ⟨h₁, h₂, rfl⟩ := List.append_of_mem hx
  obtain ⟨hr₁, t', he, -⟩ := hr.at_event
  obtain ⟨c, k, -, -, hph, -⟩ := wsCloseOf_cases (reachable hr₁) he hy
  obtain ⟨-, hph' | ⟨u, hph'⟩⟩ | hph' := before_setup hr₁ fun x hx => hno x (List.mem_append_left _ hx)
  · rw [hph'] at hph
    simp at hph
  · rw [hph'] at hph
    simp at hph
  · rw [hph'] at hph
    simp at hph

/-! ### Early ends -/

/-- The update is the close frame of the client. -/
def Update.closes : Update → Bool
  | .client (.ok m) => m.isClose
  | _ => false

/-- Session `i` ended cleanly with the result `res`: `Ok` when the client closed it,
otherwise the error for this case; no event of it touched the gateway state, and
`ws_close` was not called. -/
structure EndsCleanly (cfg : Config) (h : List (World × Event)) (i : ClientId) (res : TaskResult) : Prop where
  returns : ∃ g t io g' u, h = g ++ (t, .update i io) :: g' ∧ (t.handlers i).phase = .updating u ∧
    if u.closes then res = .returned (.ok ())
    else ∃ err : IcWsError, res = .returned (.error ("Client error before session Setup: " ++ err.debug))
  gateway : ∀ x ∈ h, x.2.session = some i → ∀ t', step cfg x.1 x.2 = some t' → t'.gateway = x.1.gateway
  untold : h.filterMap (wsCloseOf i) = []

/-- **A session that ends before it is set up does not end cleanly**, whatever ended it:
its handler has panicked. The gateway state is untouched and `ws_close` not called. -/
theorem ends_before_setup (hr : Runs cfg h w) (hno : ∀ x ∈ h, ¬ reportsSetup i x) {res : TaskResult}
    (hres : (w.handlers i).phase = .ended res) :
    ¬ EndsCleanly cfg h i res ∧ res = .panicked "must be set during Setup" ∧
      (∀ x ∈ h, x.2.session = some i → ∀ t', step cfg x.1 x.2 = some t' → t'.gateway = x.1.gateway) ∧
      h.filterMap (wsCloseOf i) = [] := by
  have hpanic : res = .panicked "must be set during Setup" := by
    obtain ⟨-, hph | ⟨u, hph⟩⟩ | hph := before_setup hr hno
    · rw [hph] at hres
      cases hres
    · rw [hph] at hres
      cases hres
    · rw [hph] at hres
      cases hres
      rfl
  refine ⟨fun hc => ?_, hpanic, fun x hx hown t' he => ?_, untold_before_setup hr hno⟩
  · obtain ⟨g, t, io, g', u, -, -, hret⟩ := hc.returns
    subst hpanic
    split_ifs at hret
    obtain ⟨err, herr⟩ := hret
    cases herr
  · obtain ⟨h₁, h₂, rfl⟩ := List.append_of_mem hx
    exact gateway_before_setup hr.at_event.1 (fun y hy => hno y (List.mem_append_left _ hy)) hown he

/-- The client of a session closes it before it has sent anything. -/
def closesAtOnce : List Event := [.readWs 0 (.ok .close), .update 0 .ok]

set_option maxRecDepth 20000 in
/-- The handler of a session whose client closes it at once panics. -/
theorem close_before_setup_panics : ∃ cfg h w res, Runs cfg h w ∧ (∀ x ∈ h, ¬ reportsSetup 0 x) ∧
    (w.handlers 0).phase = .ended res ∧ ¬ EndsCleanly cfg h 0 res := by
  have hr : Runs .simple _ (World.after .simple closesAtOnce) := runs_after (by decide)
  have hph : ((World.after .simple closesAtOnce).handlers 0).phase =
      .ended (.panicked "must be set during Setup") := by decide
  have htx : ((World.after .simple closesAtOnce).handlers 0).clientChannelTx = some 0 := by decide
  refine ⟨.simple, _, _, _, hr, fun x hx hrep => ?_, hph, fun hc => ?_⟩
  · rw [sender_taken hr ⟨x, hx, hrep⟩] at htx
    cases htx
  · obtain ⟨g, t, io, g', u, -, -, hret⟩ := hc.returns
    split_ifs at hret
    obtain ⟨err, herr⟩ := hret
    cases herr

/-- A client whose first message is no binary frame. -/
def sendsText : List Event := [.readWs 0 (.ok (.text "hello")), .update 0 .ok]

set_option maxRecDepth 20000 in
/-- Its session does not end cleanly either. -/
theorem ends_before_setup_text : ∃ h, Runs .simple h (World.after .simple sendsText) ∧
    ¬ EndsCleanly .simple h 0 (.panicked "must be set during Setup") := by
  have hr : Runs .simple _ (World.after .simple sendsText) := runs_after (by decide)
  have hph : ((World.after .simple sendsText).handlers 0).phase =
      .ended (.panicked "must be set during Setup") := by decide
  have htx : ((World.after .simple sendsText).handlers 0).clientChannelTx = some 0 := by decide
  refine ⟨_, hr, (ends_before_setup hr (fun x hx hrep => ?_) hph).1⟩
  rw [sender_taken hr ⟨x, hx, hrep⟩] at htx
  cases htx

end IcWsGateway
