/-
# The protocol of a session

The state of a session is split between `ClientSession` (the state, the keys) and its
handler (the sender, to be taken once), and both are driven by what the client sends and
by what the poller puts on the channel. Whatever the order of these, a session goes from
`Init` to `Setup` to `Open` to `Closed` (`tryUpdateState_transition` says what each
update can do), each state entered by one kind of update, and the arms that the source
marks as unreachable are not reached.

Key definitions: `ClientSession.Transition`, `resultOf`, `Conforms`, `KeysSetOnce`.
Key theorems: `tryUpdateState_transition`, `alive`, `untouched`, `session_protocol`.
-/
import IcWsGateway.Closing

namespace IcWsGateway

variable {cfg : Config} {w w' : World} {h : List (World × Event)} {i : ClientId}
  {c : CanisterPrincipal} {k : ClientKey} {e : Event} {u : Update} {io : Io} {s s' : ClientSession}
  {out : List Output} {r : Outcome IcWsError (Option IcWsSessionState)}

/-! ### What an update can do -/

/-- The frame holds the envelope of a call of the canister `c`, whose sender, with the nonce in its decoded
argument, is the client key `k`. -/
def Message.Opens (m : Message) (c : CanisterPrincipal) (k : ClientKey) : Prop :=
  ∃ (arg : CanisterWsOpenArguments) (body signature : Bytes), arg.clientNonce = k.clientNonce ∧
    m = .binary (some ⟨⟨.call c k.clientPrincipal (.ok arg) body, signature⟩⟩)

theorem opens_of_inspect {m : Message} (hin : inspectIcWsOpenMessage m = .ok (k, c)) : m.Opens c k := by
  unfold inspectIcWsOpenMessage at hin
  rcases hreq : getClientRequest m with x | req
  · rw [hreq] at hin
    cases hin
  · have hm : m = .binary (some req) := by
      unfold getClientRequest at hreq
      split at hreq
      · cases hreq
        rfl
      · cases hreq
      · cases hreq
    rw [hreq] at hin
    dsimp only at hin
    split at hin
    · rename_i canisterId sender arg body hcontent
      cases hin
      refine ⟨arg, body, req.envelope.signature, rfl, ?_⟩
      rw [hm, ← hcontent]
    · cases hin
    · cases hin

/-- The transitions of a session. -/
inductive ClientSession.Transition (s : ClientSession) (u : Update) (io : Io) (out : List Output) :
    ClientSession → Prop
  | same : Transition s u io out s
  | setup {m k c} (state : s.sessionState = .init) (update : u = .client (.ok m))
      (envelope : m.Opens c k) (quiet : out = []) :
      Transition s u io out
        { s with canisterId := some c, clientKey := some k, sessionState := .setup m }
  | opened {m₀ m} (state : s.sessionState = .setup m₀) (update : u = .canister (some m))
      (written : out = [.wsSend m] ∧ io.socket = .ok ()) :
      Transition s u io out { s with sessionState := .opened }
  | closed {x} (update : u = .client x) : Transition s u io out { s with sessionState := .closed }

theorem handleSetupTransition_transition {m : Message} (hst : s.sessionState = .init) (hc : s.canisterId = none)
    {x : Except IcWsError IcWsSessionState} (hs : s.handleSetupTransition m io = (s', out, x)) :
    (∃ st, x = .ok st ∧ s.Transition (.client (.ok m)) io out { s' with sessionState := st }) ∨
      ∃ err, x = .error err ∧ s' = s := by
  unfold ClientSession.handleSetupTransition at hs
  rcases hin : inspectIcWsOpenMessage m with err | ⟨k, c⟩
  · rw [hin] at hs
    dsimp only at hs
    split at hs <;> cases hs <;> exact Or.inr ⟨_, rfl, rfl⟩
  · rw [hin] at hs
    simp only [hc, Option.isSome_none, Bool.false_eq_true, if_false] at hs
    cases hs
    exact Or.inl ⟨_, rfl, .setup hst rfl (opens_of_inspect hin) rfl⟩

theorem handleClientUpdate_transition {x : Except String Message} {y : Outcome IcWsError Unit}
    (hnew : s.sessionState = .init → s.canisterId = none)
    (hs : s.handleClientUpdate x io = (s', out, y)) : s.Transition (.client x) io out s' := by
  unfold ClientSession.handleClientUpdate ClientSession.checkClientUpdate at hs
  rcases x with err | m
  · cases hs
    exact .closed rfl
  · dsimp only at hs
    split_ifs at hs
    · cases hs
      exact .closed rfl
    · unfold ClientSession.handleClientMessage at hs
      split at hs
      · rename_i hst
        rcases hh : s.handleSetupTransition m io with ⟨s₁, out₁, z⟩
        rw [hh] at hs
        obtain ⟨st, rfl, ht⟩ | ⟨err, rfl, rfl⟩ := handleSetupTransition_transition hst (hnew hst) hh
        · cases hs
          exact ht
        · cases hs
          exact .same
      · cases hs
        exact .same
      · rcases hh : s.relayClientMessage m io with ⟨out₁, z⟩
        rw [hh] at hs
        cases hs
        exact .same
      · cases hs
        exact .same

theorem relayCanisterMessage_written {m : CanisterToClientMessage}
    (hs : ClientSession.relayCanisterMessage m io = (out, .ok ())) :
    out = [.wsSend m] ∧ io.socket = .ok () := by
  unfold ClientSession.relayCanisterMessage ClientSession.sendWsMessageToClient at hs
  split at hs
  · split at hs
    · rename_i hsock
      cases hs
      exact ⟨rfl, hsock⟩
    · cases hs
  · cases hs
  · cases hs

theorem handleCanisterUpdate_transition {x : Option CanisterToClientMessage} {y : Outcome IcWsError Unit}
    (hs : s.handleCanisterUpdate x io = (s', out, y)) : s.Transition (.canister x) io out s' := by
  unfold ClientSession.handleCanisterUpdate at hs
  rcases x with _ | m
  · dsimp only at hs
    split at hs <;> cases hs <;> exact .same
  · dsimp only at hs
    split at hs
    · cases hs
      exact .same
    · rename_i m₀ hst
      unfold ClientSession.handleOpenTransition at hs
      rcases hh : ClientSession.relayCanisterMessage m io with ⟨out₁, err | ⟨⟩⟩
      · rw [hh] at hs
        cases hs
        exact .same
      · rw [hh] at hs
        cases hs
        exact .opened hst rfl (relayCanisterMessage_written hh)
    · rcases hh : ClientSession.relayCanisterMessage m io with ⟨out₁, err | ⟨⟩⟩
      · rw [hh] at hs
        cases hs
        exact .same
      · rw [hh] at hs
        cases hs
        exact .same
    · cases hs
      exact .same

/-- **Each update is a transition**, and `try_update_state` returns the new state exactly
if it has changed. -/
theorem tryUpdateState_transition (hnew : s.sessionState = .init → s.canisterId = none)
    (hu : s.tryUpdateState u io = (s', out, r)) :
    s.Transition u io out s' ∧ ∀ st, r = .ok st →
      st = if s'.sessionState ≠ s.sessionState then some s'.sessionState else none := by
  have hupd : ∀ s₁ out₁ y, s.handleUpdate u io = (s₁, out₁, y) → s.Transition u io out₁ s₁ := by
    intro s₁ out₁ y hy
    cases u with
    | client x => exact handleClientUpdate_transition hnew hy
    | canister x => exact handleCanisterUpdate_transition hy
  unfold ClientSession.tryUpdateState at hu
  rcases hy : s.handleUpdate u io with ⟨s₁, out₁, ⟨⟩ | err | m⟩
  · rw [hy] at hu
    cases hu
    refine ⟨hupd _ _ _ hy, fun st hst => ?_⟩
    cases hst
    rfl
  · rw [hy] at hu
    cases hu
    exact ⟨hupd _ _ _ hy, nofun⟩
  · rw [hy] at hu
    cases hu
    exact ⟨hupd _ _ _ hy, nofun⟩

/-- No update returns `Init`. -/
theorem tryUpdateState_ne_init (hnew : s.sessionState = .init → s.canisterId = none)
    (hu : s.tryUpdateState u io = (s', out, r)) : r ≠ .ok (some .init) := by
  intro hr
  obtain ⟨ht, hres⟩ := tryUpdateState_transition hnew hu
  have hst := hres _ hr
  split_ifs at hst with hne
  rw [Option.some.injEq] at hst
  cases ht with
  | same => exact hne rfl
  | setup | opened | closed => cases hst

/-- A message of the client in `Setup` is not relayed and changes nothing. -/
theorem tryUpdateState_setup {m m₀ : Message} (hst : s.sessionState = .setup m₀) (hcl : m.isClose = false)
    (hu : s.tryUpdateState (.client (.ok m)) io = (s', out, r)) : s' = s ∧ out = [] ∧ r = .ok none := by
  have hh : s.handleUpdate (.client (.ok m)) io = (s, [], .ok ()) := by
    simp only [ClientSession.handleUpdate, ClientSession.handleClientUpdate, ClientSession.checkClientUpdate,
      hcl, Bool.false_and, Bool.false_eq_true, if_false, ClientSession.handleClientMessage, hst]
  unfold ClientSession.tryUpdateState at hu
  rw [hh] at hu
  simp only [ne_eq, not_true_eq_false, if_false] at hu
  cases hu
  exact ⟨rfl, rfl, rfl⟩

/-- An update panics only where a canister message is handled in `Init`, or the session
is open without a canister. -/
theorem tryUpdateState_panicked {msg : String} (hu : s.tryUpdateState u io = (s', out, .panicked msg)) :
    (s.sessionState = .init ∧ ∃ m, u = .canister (some m)) ∨
      s.sessionState = .opened ∧ s.canisterId = none := by
  have hh : ∃ s₁ out₁, s.handleUpdate u io = (s₁, out₁, .panicked msg) := by
    unfold ClientSession.tryUpdateState at hu
    split at hu <;> rename_i hh <;> cases hu
    exact ⟨_, _, hh⟩
  obtain ⟨s₁, out₁, hh⟩ := hh
  rcases u with (err | m) | (_ | m)
  · cases hh
  · simp only [ClientSession.handleUpdate, ClientSession.handleClientUpdate, ClientSession.checkClientUpdate] at hh
    split_ifs at hh
    · cases hh
    · unfold ClientSession.handleClientMessage at hh
      split at hh
      · obtain ⟨k, c, -, hs⟩ | ⟨err, hs⟩ := s.handleSetupTransition_cases m io <;> rw [hs] at hh <;> cases hh
      · cases hh
      · rename_i hst
        rcases hc : s.canisterId with _ | c
        · exact Or.inr ⟨hst, rfl⟩
        · obtain ⟨req, -, hs⟩ | ⟨err, -, hs⟩ := relayClientMessage_cases hc m io <;> rw [hs] at hh <;> cases hh
      · cases hh
  · simp only [ClientSession.handleUpdate, ClientSession.handleCanisterUpdate] at hh
    split at hh <;> cases hh
  · simp only [ClientSession.handleUpdate, ClientSession.handleCanisterUpdate] at hh
    split at hh
    · rename_i hst
      exact Or.inl ⟨hst, m, rfl⟩
    · split at hh <;> cases hh
    · split at hh <;> cases hh
    · cases hh

/-! ### The results of a session -/

/-- The results after which the loop of the handler goes on. -/
def Outcome.goesOn : Outcome IcWsError (Option IcWsSessionState) → Bool
  | .ok none | .ok (some (.setup _)) | .ok (some .opened) => true
  | _ => false

/-- What `try_update_state` of session `i` returns in the event. -/
def resultOf (i : ClientId) : World × Event → Option (Outcome IcWsError (Option IcWsSessionState))
  | (w, .update j io) =>
    match (w.handlers i).phase with
    | .updating u => if j = i then some ((w.handlers i).session.tryUpdateState u io).2.2 else none
    | _ => none
  | _ => none

theorem resultOf_none (hu : ∀ io, e ≠ .update i io) : resultOf i (w, e) = none := by
  cases e with
  | update j io =>
    have hj : j ≠ i := fun hj => hu io (by rw [hj])
    simp only [resultOf, if_neg hj]
    split <;> rfl
  | _ => rfl

/-- The handler goes on only after these results. -/
theorem dispatch_goesOn {a : Handler} (hs : (a.dispatch r).phase.inService = true) : r.goesOn = true := by
  rcases r with (_ | ⟨_ | m | _ | _⟩) | (err | err | err) | msg
  · rfl
  · cases hs
  · rfl
  · rfl
  · simp only [Handler.dispatch] at hs
    split at hs <;> cases hs
  · simp only [Handler.dispatch] at hs
    split at hs <;> cases hs
  · simp only [Handler.dispatch] at hs
    split at hs <;> cases hs
  · cases hs
  · cases hs

/-- An update, taken apart. -/
theorem update_parts (he : step cfg w (.update i io) = some w') :
    ∃ u s out r, (w.handlers i).phase = .updating u ∧
      (w.handlers i).session.tryUpdateState u io = (s, out, r) ∧ resultOf i (w, .update i io) = some r ∧
      sentBy i (w, .update i io) = out.filterMap Output.toClient ∧
      w'.handlers i = ({ w.handlers i with session := s } : Handler).dispatch r := by
  cases step_cases he with
  | @update _ _ u s out r phase updated =>
    refine ⟨u, s, out, r, phase, updated, ?_, ?_, by simp⟩
    · simp only [resultOf, phase, if_true, updated]
    · simp only [sentBy, phase, if_true, updated]

/-- **A session in service** has had no result that ends it. -/
theorem alive (hr : Runs cfg h w) (hs : (w.handlers i).phase.inService = true) :
    ∀ x ∈ h, ∀ r, resultOf i x = some r → r.goesOn = true := by
  induction hr with
  | nil => simp
  | @snoc h t t' e hr he ih =>
    intro x hx r hres
    rcases List.mem_append.mp hx with hx | hx
    · exact ih ((step_handler he i).inService hs) x hx r hres
    · rw [List.mem_singleton] at hx
      subst hx
      by_cases hu : ∃ io, e = .update i io
      · obtain ⟨io, rfl⟩ := hu
        obtain ⟨u, s, out, r', -, -, hr', -, hh⟩ := update_parts he
        rw [hres, Option.some.injEq] at hr'
        subst hr'
        rw [hh] at hs
        exact dispatch_goesOn hs
      · push Not at hu
        rw [resultOf_none hu] at hres
        cases hres

/-- **A session with its sender** that is in service has had no update. -/
theorem untouched (hr : Runs cfg h w) (htx : (w.handlers i).clientChannelTx ≠ none)
    (hs : (w.handlers i).phase.inService = true) : ∀ x ∈ h, resultOf i x = none := by
  induction hr with
  | nil => simp
  | @snoc h t t' e hr he ih =>
    have hw := reachable hr
    have hh := step_handler he i
    intro x hx
    by_cases hu : ∃ io, e = .update i io
    · obtain ⟨io, rfl⟩ := hu
      obtain ⟨u, s, out, r, hph, htu, -, -, heq⟩ := update_parts he
      rw [heq] at htx hs
      obtain ⟨hf, -⟩ | ⟨c, k, hk, hl⟩ := (hw.wf i).updating hph
      · obtain ⟨m, k, c, -, -, -, -, hd⟩ | ⟨-, r', hd⟩ := update_fresh hf htu
        · rw [hd] at htx
          exact absurd rfl htx
        · rw [hd] at hs
          cases hs
      · exact absurd ((update_keyed hk hl htu).keyed hk).tx htx
    · push Not at hu
      have htx' : (t.handlers i).clientChannelTx ≠ none := by
        generalize t.handlers i = a at hh
        generalize t'.handlers i = b at hh htx
        cases hh with
        | update => exact absurd rfl (hu _)
        | _ => exact htx
      rcases List.mem_append.mp hx with hx | hx
      · exact ih htx' (hh.inService hs) x hx
      · rw [List.mem_singleton] at hx
        rw [hx]
        exact resultOf_none hu

/-- A session without keys has no message, neither on its channel nor in hand. -/
theorem no_message (hr : Runs cfg h w) (hc : (w.handlers i).session.canisterId = none)
    (hs : (w.handlers i).phase.inService = true) : (w.handlers i).phase.inHand = [] := by
  obtain ⟨lost, hputs, -, hhand⟩ := sends_in_order hr i
  rw [puts_keyed hr hc, eq_comm, List.append_eq_nil_iff, List.append_eq_nil_iff] at hputs
  rw [← hhand hs]
  exact hputs.1.2

/-- **A session that is not open yet** has sent no message to its client. -/
theorem nothing_sent (hr : Runs cfg h w) (hs : (w.handlers i).phase.inService = true)
    (hst : ¬ (w.handlers i).session.HasOpened) : h.flatMap (sentBy i) = [] := by
  induction hr with
  | nil => rfl
  | @snoc h t t' e hr he ih =>
    have hw := reachable hr
    have hh := step_handler he i
    have hold := ih (hh.inService hs) fun ho => hst (hh.hasOpened (hw.wf i) ho)
    rw [List.flatMap_append, List.flatMap_singleton, hold, List.nil_append]
    by_cases hu : ∃ io, e = .update i io
    · obtain ⟨io, rfl⟩ := hu
      obtain ⟨u, s, out, r, hph, htu, -, hsent, heq⟩ := update_parts he
      rw [hsent]
      rw [heq] at hst hs
      obtain ⟨hf, -⟩ | ⟨c, k, hk, hl⟩ := (hw.wf i).updating hph
      · obtain ⟨m, k, c, -, -, rfl, -⟩ | ⟨rfl | rfl, -⟩ := update_fresh hf htu <;> rfl
      · have hd := update_keyed hk hl htu
        generalize ({ t.handlers i with session := s } : Handler).dispatch r = b at hd hst hs
        cases hd with
        | delivered => exact absurd (Or.inl rfl) hst
        | failed => cases hs
        | close | ignored | relayed | readFailed | cutOff => rfl
    · push Not at hu
      exact sentBy_nil hu

/-! ### The keys -/

/-- Only a session without keys, with its sender, is set up. -/
theorem fresh_of_init {a : Handler} (hwf : a.Wf i) (hph : a.phase = .updating u)
    (hst : a.session.sessionState = .init) : a.Fresh i := by
  obtain ⟨hf, -⟩ | ⟨c, k, -, hl⟩ := hwf.updating hph
  · exact hf
  · rcases hl with hl | ⟨m, hl⟩ <;> rw [hst] at hl <;> cases hl

theorem new_of_init {a : Handler} (hwf : a.Wf i) (hph : a.phase = .updating u) :
    a.session.sessionState = .init → a.session.canisterId = none :=
  fun hst => (fresh_of_init hwf hph hst).canisterId

theorem setup_transition {m : Message} (hnew : s.sessionState = .init → s.canisterId = none)
    (hu : s.tryUpdateState u io = (s', out, .ok (some (.setup m)))) :
    s.sessionState = .init ∧ u = .client (.ok m) ∧
      ∃ k c, m.Opens c k ∧ s'.canisterId = some c ∧ s'.clientKey = some k := by
  obtain ⟨ht, hres⟩ := tryUpdateState_transition hnew hu
  have hst := hres _ rfl
  split_ifs at hst with hne
  rw [Option.some.injEq] at hst
  cases ht with
  | same => exact absurd rfl hne
  | @setup m' k c state update envelope =>
    cases hst
    exact ⟨state, update, k, c, envelope, rfl, rfl⟩
  | opened | closed => cases hst

theorem reportsSetup_fresh (hw : Sound w) (hrep : reportsSetup i (w, e)) : (w.handlers i).Fresh i := by
  cases e with
  | update j io =>
    obtain ⟨rfl, u, s, out, m, hph, hu⟩ := hrep
    exact fresh_of_init (hw.wf j) hph (setup_transition (new_of_init (hw.wf j) hph) hu).1
  | _ => exact hrep.elim

/-- The keys of session `i` are set once, by the first update, from its envelope. -/
inductive KeysSetOnce (h : List (World × Event)) (w : World) (i : ClientId) : Prop
  | unset (never : ∀ x ∈ h, ¬ reportsSetup i x) (canisterId : (w.handlers i).session.canisterId = none)
      (clientKey : (w.handlers i).session.clientKey = none)
  | set {h₁ h₂ t io m k c} (history : h = h₁ ++ (t, .update i io) :: h₂)
      (first : ∀ x ∈ h₁, resultOf i x = none) (message : (t.handlers i).phase = .updating (.client (.ok m)))
      (envelope : m.Opens c k)
      (canisterId : (w.handlers i).session.canisterId = some c)
      (clientKey : (w.handlers i).session.clientKey = some k)
      (once : ∀ x ∈ h₁ ++ h₂, ¬ reportsSetup i x)

theorem reportsSetup_update {x : World × Event} (hx : resultOf i x = none) : ¬ reportsSetup i x := by
  intro hrep
  obtain ⟨t, e⟩ := x
  cases e with
  | update j io =>
    obtain ⟨rfl, u, s, out, m, hph, -⟩ := hrep
    simp [resultOf, hph] at hx
  | _ => exact hrep

theorem reportsSetup_result (hph : (w.handlers i).phase = .updating u)
    (hu : (w.handlers i).session.tryUpdateState u io = (s, out, r)) (hrep : reportsSetup i (w, .update i io)) :
    ∃ m, r = .ok (some (.setup m)) := by
  obtain ⟨-, u', s', out', m, hph', hu'⟩ := hrep
  rw [hph] at hph'
  cases hph'
  rw [hu] at hu'
  cases hu'
  exact ⟨m, rfl⟩

/-- The update that sets the keys, or another one before it. -/
theorem KeysSetOnce.update (hr : Runs cfg h w) (he : step cfg w (.update i io) = some w')
    (never : ∀ x ∈ h, ¬ reportsSetup i x) (hc : (w.handlers i).session.canisterId = none)
    (hk : (w.handlers i).session.clientKey = none) : KeysSetOnce (h ++ [(w, .update i io)]) w' i := by
  obtain ⟨u, s, out, r, hph, htu, hres, -, heq⟩ := update_parts he
  have hnew := new_of_init ((reachable hr).wf i) hph
  have hsess : (w'.handlers i).session = s := by rw [heq, dispatch_session]
  have hkeep : s.canisterId = none → s.clientKey = none → KeysSetOnce (h ++ [(w, .update i io)]) w' i := by
    intro hc' hk'
    have hlast : ¬ reportsSetup i (w, .update i io) := by
      intro hrep
      obtain ⟨m, rfl⟩ := reportsSetup_result hph htu hrep
      obtain ⟨-, -, k, c, -, hset, -⟩ := setup_transition hnew htu
      rw [hc'] at hset
      cases hset
    refine .unset (List.forall_mem_append.mpr ⟨never, List.forall_mem_singleton.mpr hlast⟩) ?_ ?_
    · rw [hsess]
      exact hc'
    · rw [hsess]
      exact hk'
  cases (tryUpdateState_transition hnew htu).1 with
  | same | opened | closed => exact hkeep hc hk
  | setup state update envelope =>
    have hf := fresh_of_init ((reachable hr).wf i) hph state
    have hfirst := untouched hr (i := i) hf.has_tx (by rw [hph]; rfl)
    refine .set rfl hfirst (by rw [hph, update]) envelope (by rw [hsess]) (by rw [hsess]) ?_
    intro x hx
    rw [List.append_nil] at hx
    exact never x hx

/-- No other event sets the keys. -/
theorem KeysSetOnce.other (he : step cfg w e = some w') (hu : ∀ io, e ≠ .update i io)
    (never : ∀ x ∈ h, ¬ reportsSetup i x) (hc : (w.handlers i).session.canisterId = none)
    (hk : (w.handlers i).session.clientKey = none) : KeysSetOnce (h ++ [(w, e)]) w' i := by
  have hkeys : (w'.handlers i).session.canisterId = none ∧ (w'.handlers i).session.clientKey = none := by
    have hh := step_handler he i
    generalize w.handlers i = a at hh hc hk
    generalize w'.handlers i = b at hh
    cases hh with
    | update => exact absurd rfl (hu _)
    | _ => exact ⟨hc, hk⟩
  have hlast : ¬ reportsSetup i (w, e) := reportsSetup_update (resultOf_none hu)
  exact .unset (List.forall_mem_append.mpr ⟨never, List.forall_mem_singleton.mpr hlast⟩) hkeys.1 hkeys.2

theorem keys_set_once (hr : Runs cfg h w) (i : ClientId) : KeysSetOnce h w i := by
  induction hr with
  | nil => exact .unset (by simp) rfl rfl
  | @snoc h t t' e hr he ih =>
    have hw := reachable hr
    cases ih with
    | set history first message envelope canisterId clientKey once =>
      have hlast : ¬ reportsSetup i (t, e) := by
        intro hrep
        rw [(reportsSetup_fresh hw hrep).canisterId] at canisterId
        cases canisterId
      obtain ⟨hc, hk⟩ := (step_handler he i).keys (hw.wf i) canisterId clientKey
      refine .set (by rw [history, List.append_assoc, List.cons_append]) first message envelope hc hk ?_
      rw [← List.append_assoc]
      exact List.forall_mem_append.mpr ⟨once, List.forall_mem_singleton.mpr hlast⟩
    | unset never canisterId clientKey =>
      by_cases hu : ∃ io, e = .update i io
      · obtain ⟨io, rfl⟩ := hu
        exact .update hr he never canisterId clientKey
      · push Not at hu
        exact .other he hu never canisterId clientKey

/-- The canister and client key with which the handler works in this phase. -/
def Phase.keys : Phase → Option (CanisterPrincipal × ClientKey)
  | .setup _ c k _ | .relayingOpen _ c k _ | .rollback _ c k _ | .closed c k | .failed _ c k |
    .closing c k _ => some (c, k)
  | _ => none

/-- All relays, the insert, the removals and `ws_close` use these keys. -/
structure UsesKeys (h : List (World × Event)) (w : World) (i : ClientId) (c : CanisterPrincipal)
    (k : ClientKey) : Prop where
  relays : ∀ t ∈ w.started i ++ w.pending i, t.canisterId = c
  arms : ∀ x, (w.handlers i).phase.keys = some x → x = (c, k)
  closes : ∀ x ∈ h.filterMap (wsCloseOf i), x = (c, ⟨k⟩)

theorem uses_keys (hr : Runs cfg h w) (hc : (w.handlers i).session.canisterId = some c)
    (hk : (w.handlers i).session.clientKey = some k) : UsesKeys h w i c k := by
  have hwf := (reachable hr).wf i
  constructor
  · intro t ht
    have htc := (tasks_canister hr t ht).1
    rw [hc, Option.some.injEq] at htc
    exact htc.symm
  · have hkeyed : ∀ c' k', (w.handlers i).Keyed c' k' → (c', k') = (c, k) := by
      intro c' k' hkd
      have hc' := hkd.canisterId
      have hk' := hkd.clientKey
      rw [hc] at hc'
      rw [hk] at hk'
      cases hc'
      cases hk'
      rfl
    intro x hx
    unfold Handler.Wf at hwf
    unfold Phase.keys at hx
    split at hx <;> rename_i hph <;> cases hx <;> rw [hph] at hwf
    · exact hkeyed _ _ hwf.2.1
    · exact hkeyed _ _ hwf.1
    · exact hkeyed _ _ hwf
    · exact hkeyed _ _ hwf
    · exact hkeyed _ _ hwf
    · exact hkeyed _ _ hwf
  · intro x hx
    obtain ⟨-, -, c', k', hcalls, hc', hk'⟩ := wsCloseOf_left hr (List.ne_nil_of_mem hx)
    rw [hcalls, List.mem_singleton] at hx
    rw [hc, Option.some.injEq] at hc'
    rw [hk, Option.some.injEq] at hk'
    rw [hx, hc', hk']

/-! ### The protocol -/

/-- What holds of an update of session `i` with handler `a`, after the history `h`. -/
structure Conforms (h : List (World × Event)) (i : ClientId) (a : Handler) (u : Update) (io : Io)
    (out : List Output) (s : ClientSession) (r : Outcome IcWsError (Option IcWsSessionState)) : Prop where
  /-- nothing is handled after `Closed` or after an error -/
  goesOn : a.session.sessionState ≠ .closed ∧ ∀ x ∈ h, ∀ r', resultOf i x = some r' → r'.goesOn = true
  transition : a.session.Transition u io out s
  /-- `Init` is left by the first update, which is of the client -/
  first : a.session.sessionState = .init → (∀ x ∈ h, resultOf i x = none) ∧ ∀ m, u ≠ .canister m
  /-- before it opens, nothing was written to the client -/
  opens : s.sessionState = .opened → a.session.sessionState = .opened ∨ h.flatMap (sentBy i) = []
  ignored : ∀ m m₀, a.session.sessionState = .setup m₀ → u = .client (.ok m) → m.isClose = false →
    s = a.session ∧ out = [] ∧ r = .ok none
  notInit : r ≠ .ok (some .init)
  noPanic : ∀ msg, r ≠ .panicked msg
  /-- the `Setup` arm finds the sender -/
  takes : ∀ m, r = .ok (some (.setup m)) → a.clientChannelTx = some i

theorem conforms (hr : Runs cfg h w) (hph : (w.handlers i).phase = .updating u)
    (hu : (w.handlers i).session.tryUpdateState u io = (s, out, r)) :
    Conforms h i (w.handlers i) u io out s r := by
  have hw := reachable hr
  have hin : (w.handlers i).phase.inService = true := by rw [hph]; rfl
  have hinit : (w.handlers i).session.sessionState = .init →
      (w.handlers i).Fresh i ∧ (∀ x ∈ h, resultOf i x = none) ∧ ∀ m, u ≠ .canister m := by
    intro hst
    have hf := fresh_of_init (hw.wf i) hph hst
    refine ⟨hf, untouched hr (by rw [hf.tx]; nofun) hin, fun m hm => ?_⟩
    subst hm
    rcases m with _ | m
    · obtain ⟨-, hne⟩ | ⟨c, k, hk, -⟩ := (hw.wf i).updating hph
      · exact hne rfl
      · exact absurd hk.tx hf.has_tx
    · have hno := no_message hr hf.canisterId hin
      rw [hph] at hno
      cases hno
  have hnew := new_of_init (hw.wf i) hph
  have ht := (tryUpdateState_transition hnew hu).1
  refine ⟨⟨?_, alive hr hin⟩, ht, fun hst => (hinit hst).2, ?_, ?_, tryUpdateState_ne_init hnew hu, ?_, ?_⟩
  · obtain ⟨hf, -⟩ | ⟨c, k, -, hl | ⟨m, hl⟩⟩ := (hw.wf i).updating hph
    · rw [hf.sessionState]
      nofun
    · rw [hl]
      nofun
    · rw [hl]
      nofun
  · intro hopen
    by_cases hst : (w.handlers i).session.sessionState = .opened
    · exact Or.inl hst
    · refine Or.inr (nothing_sent hr hin ?_)
      cases ht with
      | same => exact absurd hopen hst
      | setup | closed => cases hopen
      | opened state =>
        rintro (ho | ho) <;> rw [state] at ho <;> cases ho
  · rintro m m₀ hst rfl hcl
    exact tryUpdateState_setup hst hcl hu
  · rintro msg rfl
    obtain ⟨hst, m, rfl⟩ | ⟨hst, hc⟩ := tryUpdateState_panicked hu
    · exact (hinit hst).2.2 _ rfl
    · obtain ⟨hf, -⟩ | ⟨c, k, hk, -⟩ := (hw.wf i).updating hph
      · rw [hf.sessionState] at hst
        cases hst
      · rw [hk.canisterId] at hc
        cases hc
  · rintro m rfl
    exact (hinit (setup_transition hnew hu).1).1.tx

/-- **The session protocol.** In every reachable state: an update of a session conforms
to it, no other event changes the state of the session, its keys are set once, and all
that follows uses these keys. -/
theorem session_protocol (hr : Runs cfg h w) (i : ClientId) :
    (∀ u io s out r, (w.handlers i).phase = .updating u →
      (w.handlers i).session.tryUpdateState u io = (s, out, r) → Conforms h i (w.handlers i) u io out s r) ∧
    (∀ e w', step cfg w e = some w' → (∀ io, e ≠ .update i io) →
      (w'.handlers i).session.sessionState = (w.handlers i).session.sessionState) ∧
    KeysSetOnce h w i ∧
    ∀ c k, (w.handlers i).session.canisterId = some c → (w.handlers i).session.clientKey = some k →
      UsesKeys h w i c k := by
  refine ⟨fun u io s out r hph hu => conforms hr hph hu, fun e w' he hu => ?_, keys_set_once hr i,
    fun c k hc hk => uses_keys hr hc hk⟩
  have hh := step_handler he i
  generalize w.handlers i = a at hh ⊢
  generalize w'.handlers i = b at hh ⊢
  cases hh with
  | update => exact absurd rfl (hu _)
  | _ => rfl

/-- A client opens a session, and a message for it is put on its channel and read. -/
def readsFirst (c : CanisterPrincipal) (k : ClientKey) : List Event :=
  opens 0 (wsOpen c k) ++ [polls 0 [messageFor k "gateway_0"], .relay 0, .put 0, .recv 0]

set_option maxRecDepth 20000 in
/-- The first message for a client opens its session. -/
theorem session_protocol_opens : ∃ out s r,
    Conforms (LTS.trace (step .simple) World.new (readsFirst [9] ⟨[1], 1⟩)) 0 ((World.after .simple (readsFirst [9] ⟨[1], 1⟩)).handlers 0)
      (.canister (some ((messageFor ⟨[1], 1⟩ "gateway_0").toClient [] []))) .ok out s r ∧
    s.sessionState = .opened := by
  have hr : Runs .simple _ (World.after .simple (readsFirst [9] ⟨[1], 1⟩)) := runs_after (by decide)
  have hph : ((World.after .simple (readsFirst [9] ⟨[1], 1⟩)).handlers 0).phase =
      .updating (.canister (some ((messageFor ⟨[1], 1⟩ "gateway_0").toClient [] []))) := by decide
  refine ⟨_, _, _, (session_protocol hr 0).1 _ .ok _ _ _ hph rfl, ?_⟩
  decide

end IcWsGateway
