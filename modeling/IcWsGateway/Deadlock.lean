/-
# Pollers and sessions that wait for each other

A poller that sends to a session holds the guard of its client key, so the session
cannot remove itself meanwhile; while the channel is full, the poller waits until the
session has read from it. A session that has begun to leave reads no more: it waits
for the guard, and the poller for the session (`leaving_stuck`). Until then the
session goes on by itself until it has read a message (`suspended_goes_on`). So there
is no circular wait in the runs in which no session begins to leave while a poller is
suspended on its full channel, and none is leaving with a full channel when a poller
takes up a message for it.

Key definitions: `World.SuspendedOn`, `World.GoesOn`, `NoCircularWait`,
`LeavesWithRoom`.
Key theorems: `suspended_goes_on`, `leaving_stuck`, `no_circular_wait`,
`closing_session_deadlocks`.
-/
import IcWsGateway.Delivery

namespace IcWsGateway

variable {cfg : Config} {s w w' : World} {h : List (World × Event)} {i : ClientId} {p : PollerId}
  {c : CanisterPrincipal} {k : ClientKey} {e : Event}

/-! ### Who waits for whom -/

/-- The poller `p` is suspended in `send`: the channel of session `i` is full. -/
def World.SuspendedOn (w : World) (p : PollerId) (i : ClientId) : Prop :=
  (∃ q k m msgs, w.pollers p = some q ∧ q.phase = .sending i k m msgs) ∧
    (w.handlers i).rxDropped = false ∧ CHANNEL_CAPACITY ≤ (w.buffer i).length

/-- The session whose handler takes the step. -/
def Event.session : Event → Option ClientId
  | .readWs i _ | .recv i | .update i _ | .lock i | .commit i | .relayOpen i _ | .readShard (.session i)
  | .startPoller i | .wsClosed i => some i
  | _ => none

theorem session_readShard {t : Counter} (hs : (Event.readShard t).session = some i) : t = .session i := by
  cases t with
  | session j =>
    cases hs
    rfl
  | poller p => cases hs

/-- Session `i` gets by itself to where it has read from its channel, or has finished
and dropped the receiver. -/
def World.GoesOn (cfg : Config) (w : World) (i : ClientId) : Prop :=
  ∃ es w', (∀ e ∈ es, e.session = some i) ∧ LTS.exec (step cfg) w es = some w' ∧
    ((w'.buffer i).length < (w.buffer i).length ∨ (w'.handlers i).rxDropped = true)

/-- No poller waits for a session that waits for it. -/
def NoCircularWait (cfg : Config) (w : World) : Prop :=
  ∀ p i, w.SuspendedOn p i → w.GoesOn cfg i

/-! ### Sessions that are leaving -/

/-- The handler after an update. -/
def Handler.afterUpdate (h : Handler) (u : Update) (io : Io) : Handler :=
  match h.session.tryUpdateState u io with
  | (s, _, r) => ({ h with session := s } : Handler).dispatch r

/-- After the update the handler does not wait for the next one, nor insert its session. -/
def Handler.endsOn (h : Handler) (u : Update) (io : Io) : Bool :=
  match (h.afterUpdate u io).phase with
  | .awaiting | .setup .. => false
  | _ => true

/-- The handler is about to remove its session, or has got an update that ends it
however its socket does. -/
def Handler.leaving (h : Handler) : Bool :=
  match h.phase with
  | .rollback .. | .closed .. | .failed .. => true
  | .updating u => h.endsOn u .ok
  | _ => false

/-- In this event session `i` begins to leave: it gets an update that ends it, an update
ends it, or the relay of its `ws_open` envelope fails. -/
def Event.ends (w : World) (i : ClientId) : Event → Bool
  | .readWs j u => j = i && (w.handlers i).endsOn (.client u) .ok
  | .update j io =>
    match (w.handlers i).phase with
    | .updating u => j = i && (w.handlers i).endsOn u io
    | _ => false
  | .relayOpen j io =>
    match (w.handlers i).phase with
    | .relayingOpen m _ _ _ => j = i && ((w.handlers i).session.relayClientMessage m io).2 ≠ .ok ()
    | _ => false
  | _ => false

/-- No session begins to leave while a poller is suspended on its full channel, and
none is leaving with a full channel when a poller takes up a message for it. -/
def LeavesWithRoom (_ : List (World × Event)) (w : World) (e : Event) : Prop :=
  (∀ p i, w.SuspendedOn p i → e.ends w i = false) ∧
    ∀ p q y i, e = .relay p → w.pollers p = some q → q.phase.next = some y →
      (w.gateway.clients q.pollerState).lookup y.message.clientKey = some ⟨i⟩ →
      CHANNEL_CAPACITY ≤ (w.buffer i).length → (w.handlers i).leaving = false

/-! ### What an update that ends a session does -/

theorem afterUpdate_eq {a : Handler} {u : Update} {io : Io} {s : ClientSession} {out : List Output}
    {r : Outcome IcWsError (Option IcWsSessionState)} (hu : a.session.tryUpdateState u io = (s, out, r)) :
    a.afterUpdate u io = ({ a with session := s } : Handler).dispatch r := by
  rw [Handler.afterUpdate, hu]

/-- Where the handler is does not matter for what an update does. -/
theorem dispatch_phase (a : Handler) (ph : Phase) (r : Outcome IcWsError (Option IcWsSessionState)) :
    ({ a with phase := ph } : Handler).dispatch r = a.dispatch r := by
  rcases r with (_ | ⟨_ | m | _ | _⟩) | (e | e | e) | m
  · rfl
  · rfl
  · simp only [Handler.dispatch]
  · simp only [Handler.dispatch]
  · simp only [Handler.dispatch]
  · simp only [Handler.dispatch]
  · simp only [Handler.dispatch]
  · rfl
  · rfl

/-- What a session does with some outcome of its socket it does with the best one. -/
theorem relayClientMessage_best {a : ClientSession} {m : Message} {io : Io} {out : List Output}
    (hm : a.relayClientMessage m io = (out, .ok ())) : a.relayClientMessage m .ok = (out, .ok ()) := by
  unfold ClientSession.relayClientMessage ClientSession.relayWsMessageToIc at hm ⊢
  have hok : ClientSession.serialize .ok = .ok () := rfl
  rw [hok]
  rcases hg : getClientRequest m with x | req
  · rw [hg] at hm
    cases hm
  · rw [hg] at hm
    dsimp only at hm ⊢
    split at hm
    · split at hm
      · cases hm
      · exact hm
    · cases hm

theorem relayCanisterMessage_best {m : CanisterToClientMessage} {io : Io} {out : List Output}
    (hm : ClientSession.relayCanisterMessage m io = (out, .ok ())) :
    ClientSession.relayCanisterMessage m .ok = (out, .ok ()) := by
  obtain hs | ⟨out', e, -, -, hs⟩ := relayCanisterMessage_cases m io
  · rw [hs] at hm
    cases hm
    rfl
  · rw [hs] at hm
    cases hm

theorem handleSetupTransition_best {a b : ClientSession} {m : Message} {io : Io} {out : List Output}
    {st : IcWsSessionState} (hm : a.handleSetupTransition m io = (b, out, .ok st)) :
    a.handleSetupTransition m .ok = (b, out, .ok st) := by
  unfold ClientSession.handleSetupTransition at hm ⊢
  rcases hi : inspectIcWsOpenMessage m with x | ⟨k, c⟩
  · rw [hi] at hm
    dsimp only at hm
    split at hm <;> cases hm
  · rw [hi] at hm
    exact hm

theorem handleUpdate_best {a b : ClientSession} {u : Update} {io : Io} {out : List Output}
    (hu : a.handleUpdate u io = (b, out, .ok ())) : a.handleUpdate u .ok = (b, out, .ok ()) := by
  cases u with
  | client u =>
    unfold ClientSession.handleUpdate ClientSession.handleClientUpdate at hu ⊢
    dsimp only at hu ⊢
    rcases hc : a.checkClientUpdate u with ⟨a', x | m⟩
    · rw [hc] at hu
      cases hu
    · rw [hc] at hu
      dsimp only at hu ⊢
      split_ifs at hu ⊢
      · exact hu
      · unfold ClientSession.handleClientMessage at hu ⊢
        split at hu
        · split at hu
          · rename_i h
            rw [handleSetupTransition_best h]
            exact hu
          · cases hu
        · exact hu
        · rcases hr : a'.relayClientMessage m io with ⟨out', r⟩
          rw [hr] at hu
          cases hu
          rw [relayClientMessage_best hr]
        · cases hu
  | canister u =>
    unfold ClientSession.handleUpdate ClientSession.handleCanisterUpdate at hu ⊢
    dsimp only at hu ⊢
    cases u with
    | none =>
      dsimp only at hu
      split at hu <;> cases hu
    | some m =>
      dsimp only at hu ⊢
      split at hu
      · cases hu
      · unfold ClientSession.handleOpenTransition at hu ⊢
        rcases hr : ClientSession.relayCanisterMessage m io with ⟨out', x | ⟨⟩⟩
        · rw [hr] at hu
          cases hu
        · rw [hr] at hu
          rw [relayCanisterMessage_best hr]
          exact hu
      · rcases hr : ClientSession.relayCanisterMessage m io with ⟨out', x | ⟨⟩⟩
        · rw [hr] at hu
          cases hu
        · rw [hr] at hu
          rw [relayCanisterMessage_best hr]
          exact hu
      · cases hu

theorem tryUpdateState_best {a b : ClientSession} {u : Update} {io : Io} {out : List Output}
    {x : Option IcWsSessionState} (hu : a.tryUpdateState u io = (b, out, .ok x)) :
    a.tryUpdateState u .ok = (b, out, .ok x) := by
  unfold ClientSession.tryUpdateState at hu ⊢
  rcases hr : a.handleUpdate u io with ⟨b', out', ⟨⟩ | e | m⟩
  · rw [hr] at hu
    rw [handleUpdate_best hr]
    exact hu
  · rw [hr] at hu
    cases hu
  · rw [hr] at hu
    cases hu

/-- An update that ends the session however its socket does. -/
theorem endsOn_best {a : Handler} {u : Update} (hu : a.endsOn u .ok = true) (io : Io) :
    a.endsOn u io = true := by
  rcases hr : a.session.tryUpdateState u io with ⟨b, out, r⟩
  rw [Handler.endsOn, afterUpdate_eq hr]
  cases r with
  | ok x =>
    rw [Handler.endsOn, afterUpdate_eq (tryUpdateState_best hr)] at hu
    exact hu
  | err e =>
    cases e with
    | poller e => rfl
    | icWsProtocol e | webSocket e =>
      simp only [Handler.dispatch]
      rcases b.canisterId with _ | c
      · rfl
      · rcases b.clientKey with _ | k <;> rfl
  | panicked m => rfl

/-! ### What a suspended poller waits for -/

/-- A member that is between two updates is in `Setup` or `Opened`. -/
theorem Handler.Wf.live_of_seat {a : Handler} (ha : a.Wf i) (hs : a.seat = .member c k)
    (hph : a.phase = .awaiting ∨ ∃ u, a.phase = .updating u) : a.Keyed c k ∧ a.session.Live := by
  obtain ⟨hc, hk, htx⟩ := seat_keys hs
  have hkeyed : (∃ c k, a.Keyed c k ∧ a.session.Live) → a.Keyed c k ∧ a.session.Live := by
    rintro ⟨c', k', hk', hl⟩
    obtain ⟨rfl, rfl⟩ := hk'.inj hc hk
    exact ⟨hk', hl⟩
  rcases hph with hph | ⟨u, hph⟩
  · exact hkeyed (ha.keyed_of_tx hph htx)
  · exact hkeyed (ha.updating_of_tx hph htx)

/-- A session that a poller sends to is a member, and the poller holds the guard of its
key in the poller state at the entry of its canister. -/
theorem World.SuspendedOn.member (cfg : Config) (hs : w.SuspendedOn p i) (hw : Sound w) :
    ∃ c k r, w.registry.seat i = .member c k ∧ w.gateway.data.lookup c = some r ∧
      (w.gateway.clients r).lookup k = some ⟨i⟩ ∧ w.Guarded cfg r k ∧ 0 < w.gateway.strong r := by
  obtain ⟨⟨q, k, m, msgs, hq, hph⟩, -⟩ := hs
  have hactive : q.Serving := by
    unfold CanisterPoller.Serving
    rw [hph]
    rfl
  have hentry := hw.entry_of_active hq hactive
  have hk := (hw.sending_open hq hph).1
  refine ⟨q.canisterId, k, q.pollerState, hw.stored_seat hentry hk, hentry, hk, ⟨p, ?_, ?_⟩, ?_⟩
  · exact hw.worker_lt p _ (registry_worker hq)
  · simp [hq, CanisterPoller.guardedKey, hph]
  · obtain ⟨life, ho, -⟩ := hw.lives
    have hl := (ho.worker p q.canisterId q.pollerState .active).mp
      ((registry_worker hq).trans (by rw [hph]; rfl))
    have hst : w.gateway.strong q.pollerState = (life q.pollerState).holders := ho.strong q.pollerState
    rw [hst, hl]
    exact Nat.two_pos

/-- A session that a poller is suspended on has no poller to start: the one that its canister's
entry is for runs. -/
theorem World.SuspendedOn.no_token (hs : w.SuspendedOn p i) (hw : Sound w) : (w.handlers i).phase.token = none := by
  obtain ⟨⟨q, k, m, msgs, hq, hph⟩, -⟩ := hs
  obtain ⟨life, ho, -⟩ := hw.lives
  have hentry := hw.entry_of_active hq (by rw [hph]; rfl)
  have hseat := hw.stored_seat hentry (hw.sending_open hq hph).1
  have hworked := (ho.worker p q.canisterId q.pollerState .active).mp ((registry_worker hq).trans (by rw [hph]; rfl))
  rw [Option.eq_none_iff_forall_ne_some]
  intro r ht
  obtain ⟨c, hoffered⟩ := (ho.token i r).mp ht
  obtain ⟨k', hseat'⟩ := ho.offered r c i hoffered
  have hc : c = q.canisterId := by
    rw [hseat] at hseat'
    cases hseat'
    rfl
  have hr : r = q.pollerState := by
    have hentry' : w.gateway.data.lookup c = some r := (ho.entry c r).mpr (by rw [hoffered]; rfl)
    rw [hc, hentry] at hentry'
    exact (Option.some.inj hentry').symm
  rw [hr, hworked] at hoffered
  cases hoffered

/-- A session that a poller is suspended on has not read that its senders are gone. -/
theorem World.SuspendedOn.not_cutOff (hs : w.SuspendedOn p i) (hw : Sound w) :
    (w.handlers i).phase ≠ .updating (.canister none) := by
  intro hph
  obtain ⟨c, k, r, -, -, hk, -, hst⟩ := hs.member .simple hw
  have h0 := hw.cutOff i hph r k (by simp only [World.registry, hk, Option.map_some])
  exact absurd h0 (Nat.ne_of_gt hst)

/-- A canister message does not end a session whose socket takes it. -/
theorem endsOn_canister {a : Handler} (hk : a.Keyed c k) (hl : a.session.Live)
    (m : CanisterToClientMessage) : a.endsOn (.canister (some m)) .ok = false := by
  have hm : ClientSession.relayCanisterMessage m .ok = ([.wsSend m], .ok ()) := rfl
  unfold Handler.endsOn Handler.afterUpdate ClientSession.tryUpdateState
  rcases hl with hl | ⟨m', hl⟩
  · simp [ClientSession.handleUpdate, ClientSession.handleCanisterUpdate, hl, hm, Handler.dispatch]
  · simp [ClientSession.handleUpdate, ClientSession.handleCanisterUpdate,
      ClientSession.handleOpenTransition, hl, hm, Handler.dispatch, hk.clientKey]

/-- After an update that does not end a session in `Setup` or `Opened`, the handler waits
for the next one, with the same channel. -/
theorem afterUpdate_awaiting {a : Handler} {u : Update} {io : Io} (hk : a.Keyed c k) (hl : a.session.Live)
    (hu : a.endsOn u io = false) : (a.afterUpdate u io).phase = .awaiting := by
  rcases hr : a.session.tryUpdateState u io with ⟨s, out, r⟩
  have hd := update_keyed hk hl hr
  rw [Handler.endsOn, afterUpdate_eq hr] at hu
  rw [afterUpdate_eq hr]
  generalize ({ a with session := s } : Handler).dispatch r = b at hd hu ⊢
  cases hd with
  | close | readFailed | failed | cutOff => cases hu
  | ignored | relayed | delivered => rfl

/-- After an update that ends a session in `Setup` or `Opened`, which is not the news that
its senders are gone, the handler is about to remove it. -/
theorem afterUpdate_leaving {a : Handler} {u : Update} {io : Io} (hk : a.Keyed c k) (hl : a.session.Live)
    (hne : u ≠ .canister none) (hu : a.endsOn u io = true) : (a.afterUpdate u io).leaving = true := by
  rcases hr : a.session.tryUpdateState u io with ⟨s, out, r⟩
  have hd := update_keyed hk hl hr
  rw [Handler.endsOn, afterUpdate_eq hr] at hu
  rw [afterUpdate_eq hr]
  generalize ({ a with session := s } : Handler).dispatch r = b at hd hu ⊢
  cases hd with
  | close | readFailed | failed => rfl
  | cutOff => exact absurd rfl hne
  | ignored | relayed | delivered => cases hu

theorem update_enabled (cfg : Config) (io : Io) {u : Update} (hph : (w.handlers i).phase = .updating u) :
    ∃ w', step cfg w (.update i io) = some w' ∧ w'.handlers i = (w.handlers i).afterUpdate u io := by
  rcases hr : (w.handlers i).session.tryUpdateState u io with ⟨s, out, r⟩
  have he : step cfg w (.update i io) = some ((w.setHandler i
      (({ w.handlers i with session := s } : Handler).dispatch r)).spawn i out) := by
    simp only [step, World.update]
    split
    · rename_i u' hph'
      rw [hph, Phase.updating.injEq] at hph'
      subst hph'
      rw [hr]
    · rename_i hno
      exact absurd hph (hno u)
  exact ⟨_, he, by rw [afterUpdate_eq hr]; simp⟩

/-- A session that has no poller to start goes on. -/
theorem noPoller_enabled (cfg : Config) (hph : (w.handlers i).phase = .startingPoller c none) :
    ∃ w', step cfg w (.startPoller i) = some w' ∧ (w'.handlers i).phase = .awaiting := by
  unfold step World.startPoller
  dsimp only
  rw [hph]
  exact ⟨_, rfl, by simp⟩

/-- A message that opens a session can be relayed. -/
theorem relayClientMessage_wsOpen {a : ClientSession} {m : Message} {c' : CanisterPrincipal}
    (hin : inspectIcWsOpenMessage m = .ok (k, c)) (hc : a.canisterId = some c') :
    ∃ out, a.relayClientMessage m .ok = (out, .ok ()) := by
  have hok : ClientSession.serialize .ok = .ok () := rfl
  unfold inspectIcWsOpenMessage at hin
  unfold ClientSession.relayClientMessage ClientSession.relayWsMessageToIc
  rcases hreq : getClientRequest m with x | req
  · rw [hreq] at hin
    cases hin
  · rw [hreq] at hin
    dsimp only at hin ⊢
    rw [hok, hc]
    split
    · exact ⟨_, rfl⟩
    · rename_i hno
      split at hin
      · rename_i heq
        exact absurd heq (hno _ _ _ _)
      · cases hin
      · cases hin

theorem relayOpen_enabled (cfg : Config) {m : Message} {t : Option PollerRef}
    (hk : (w.handlers i).Keyed c k) (hst : (w.handlers i).session.sessionState = .setup m)
    (hph : (w.handlers i).phase = .relayingOpen m c k t) :
    ∃ w', step cfg w (.relayOpen i .ok) = some w' ∧ (w'.handlers i).phase = .startingPoller c t := by
  obtain ⟨out, hout⟩ := relayClientMessage_wsOpen (hk.setup m hst) hk.canisterId
  unfold step World.relayOpen
  dsimp only
  rw [hph]
  dsimp only
  rw [hout]
  exact ⟨_, rfl, by simp⟩

/-! ### Sessions that go on -/

theorem World.GoesOn.cons (he : step cfg w e = some w') (hs : e.session = some i)
    (hb : (w'.buffer i).length ≤ (w.buffer i).length) (hg : w'.GoesOn cfg i) : w.GoesOn cfg i := by
  obtain ⟨es, w'', hes, hx, hend⟩ := hg
  refine ⟨e :: es, w'', ?_, ?_, ?_⟩
  · intro e' he'
    rcases List.mem_cons.mp he' with rfl | he'
    · exact hs
    · exact hes e' he'
  · simp only [LTS.exec, he, Option.bind_some]
    exact hx
  · rcases hend with hlt | hd
    · left
      omega
    · exact Or.inr hd

/-- A session at its `select!` reads from its channel. -/
theorem awaiting_goes_on (hph : (w.handlers i).phase = .awaiting) (hb : w.buffer i ≠ []) :
    w.GoesOn cfg i := by
  obtain ⟨m, rest, hrx⟩ := List.exists_cons_of_ne_nil hb
  have hrx' : (w.handlers i).session.clientChannelRx = m :: rest := hrx
  have he : step cfg w (.recv i) = some (w.setHandler i { w.handlers i with
      session := { (w.handlers i).session with clientChannelRx := rest }
      phase := .updating (.canister (some m)) }) := by
    simp only [step, World.recv, hph, hrx']
  refine ⟨[.recv i], _, ?_, LTS.exec_singleton he, Or.inl ?_⟩
  · intro e he
    rw [List.mem_singleton.mp he]
    rfl
  · simp [World.buffer, hrx']

/-- **A session that is not leaving goes on** while a poller is suspended on it. -/
theorem suspended_goes_on (hw : Sound w) (hs : w.SuspendedOn p i) (hl : (w.handlers i).leaving = false) :
    w.GoesOn cfg i := by
  obtain ⟨c, k, r, hseat, -⟩ := hs.member cfg hw
  have hne : ∀ {v : World}, v.buffer i = w.buffer i → v.buffer i ≠ [] := by
    intro v hv hnil
    have hfull := hs.2.2
    rw [← hv, hnil] at hfull
    cases hfull
  have htoken := hs.no_token hw
  have hstart : ∀ {v : World}, v.buffer i = w.buffer i → (∃ c, (v.handlers i).phase = .startingPoller c none) →
      v.GoesOn cfg i := by
    rintro v hv ⟨c, hph⟩
    obtain ⟨v', he, hph'⟩ := noPoller_enabled cfg hph
    have hb : v'.buffer i = v.buffer i := buffer_other he (by simp) (by simp) i
    exact .cons he rfl (Nat.le_of_eq (by rw [hb])) (awaiting_goes_on hph' (hne (by rw [hb, hv])))
  have hwf := hw.wf i
  have hseat' : (w.handlers i).seat = .member c k := hseat
  rcases hph : (w.handlers i).phase with _ | u | _ | ⟨m, c', k', t⟩ | ⟨c', t⟩ | _ | _ | _ | _ | _
  · exact awaiting_goes_on hph (hne rfl)
  · obtain ⟨hk, hlive⟩ := hwf.live_of_seat hseat' (Or.inr ⟨u, hph⟩)
    have hu : (w.handlers i).endsOn u .ok = false := by
      rw [Handler.leaving, hph] at hl
      exact hl
    obtain ⟨w', he, hh⟩ := update_enabled cfg .ok hph
    have hb : w'.buffer i = w.buffer i := buffer_other he (by simp) (by simp) i
    have hph' : (w'.handlers i).phase = .awaiting := by
      rw [hh]
      exact afterUpdate_awaiting hk hlive hu
    exact .cons he rfl (Nat.le_of_eq (by rw [hb])) (awaiting_goes_on hph' (hne hb))
  · simp [Handler.seat, hph] at hseat'
  · obtain ⟨hk, hsetup⟩ := hwf.relayingOpen hph
    obtain ⟨w', he, hph'⟩ := relayOpen_enabled cfg hk hsetup hph
    have hb : w'.buffer i = w.buffer i := buffer_other he (by simp) (by simp) i
    have ht : t = none := by rwa [hph] at htoken
    rw [ht] at hph'
    exact .cons he rfl (Nat.le_of_eq (by rw [hb])) (hstart hb ⟨c', hph'⟩)
  · have ht : t = none := by rwa [hph] at htoken
    rw [ht] at hph
    exact hstart rfl ⟨c', hph⟩
  · simp [Handler.leaving, hph] at hl
  · simp [Handler.leaving, hph] at hl
  · simp [Handler.leaving, hph] at hl
  · simp [Handler.seat, hph] at hseat'
  · simp [Handler.seat, hph] at hseat'

/-! ### Sessions that are stuck -/

/-- A session that a poller sends to cannot be removed: its key is guarded. -/
theorem commit_guarded (hw : Sound w) (hs : w.SuspendedOn p i) {c' : CanisterPrincipal} {k' : ClientKey}
    (hk : (w.handlers i).Keyed c' k') : ¬ w.CanCommit cfg i c' k' := by
  rintro ⟨-, hfree⟩
  obtain ⟨c, k, r, hseat, hentry, -, hguard, -⟩ := hs.member cfg hw
  obtain ⟨hc, hck, -⟩ := seat_keys hseat
  obtain ⟨rfl, rfl⟩ := hk.inj hc hck
  exact hfree r hentry hguard

/-- The events of a session leave a poller that is sending as it is. -/
theorem sending_kept (hw : Sound w) (he : step cfg w e = some w') (hs : e.session = some i)
    {q : CanisterPoller} (hq : w.pollers p = some q) : w'.pollers p = some q := by
  have hstep := step_poller he p
  rw [hq] at hstep
  generalize w'.pollers p = y at hstep ⊢
  cases hstep with
  | other => rfl
  | start phase fresh => exact absurd fresh (hw.not_next hq)
  | pollFailed | polled | nonceFailed | noncePanic | timedOut | noMessages => cases hs
  | relayed | send | skip | put | wake | terminate | goOn | fail | failPanic | stop => cases hs

theorem rxDropped_of_leaving {a : Handler} (hl : a.leaving = true) : a.rxDropped = false := by
  unfold Handler.rxDropped
  split
  · rename_i r hph
    simp [Handler.leaving, hph] at hl
  · rfl

/-- A session that is leaving while a poller is suspended on it stays so, whatever it
does itself, and reads nothing. -/
theorem stuck_step (hw : Sound w) (hs : w.SuspendedOn p i) (hl : (w.handlers i).leaving = true)
    (he : step cfg w e = some w') (hown : e.session = some i) :
    w'.SuspendedOn p i ∧ (w'.handlers i).leaving = true ∧ w'.buffer i = w.buffer i := by
  have hphase : ∀ ph, (w.handlers i).phase = ph → ({ w.handlers i with phase := ph } : Handler).leaving = true := by
    rintro ph rfl
    exact hl
  have hkeep : (w'.handlers i).leaving = true ∧ w'.buffer i = w.buffer i →
      w'.SuspendedOn p i ∧ (w'.handlers i).leaving = true ∧ w'.buffer i = w.buffer i := by
    rintro ⟨hl', hb⟩
    obtain ⟨⟨q, k, m, msgs, hq, hph⟩, -, hfull⟩ := hs
    refine ⟨⟨⟨q, k, m, msgs, sending_kept hw he hown hq, hph⟩, rxDropped_of_leaving hl', ?_⟩, hl', hb⟩
    rw [hb]
    exact hfull
  apply hkeep
  cases step_cases he with
  | readWs phase | recv phase | cutOff phase | insert phase =>
    cases hown
    cases hphase _ phase
  | relayOpen phase | relayOpenFail phase | relayOpenPanic phase =>
    cases hown
    cases hphase _ phase
  | startPoller phase | noPoller phase | wsClosed phase =>
    cases hown
    cases hphase _ phase
  | @update _ io u s out r phase updated =>
    cases hown
    refine ⟨?_, buffer_other he (by simp) (by simp) i⟩
    obtain ⟨c, k, r', hseat, -⟩ := hs.member cfg hw
    obtain ⟨hk, hlive⟩ := (hw.wf i).live_of_seat hseat (Or.inr ⟨u, phase⟩)
    have hends : (w.handlers i).endsOn u .ok = true := by
      rw [Handler.leaving, phase] at hl
      exact hl
    have hne : u ≠ .canister none := by
      rintro rfl
      exact hs.not_cutOff hw phase
    have hleave := afterUpdate_leaving hk hlive hne (endsOn_best hends io)
    rw [afterUpdate_eq updated] at hleave
    simpa using hleave
  | lock | readShard => exact ⟨hl, rfl⟩
  -- the key of the session is guarded
  | rollback phase free | rollbackPanic phase free =>
    cases hown
    exact absurd free (commit_guarded hw hs ((hw.wf i).rollback phase))
  | remove phase free | removePanic phase free =>
    cases hown
    exact absurd free (commit_guarded hw hs ((hw.wf i).closed phase))
  | removeIfExists phase free | removeVacant phase free =>
    cases hown
    exact absurd free (commit_guarded hw hs ((hw.wf i).failed phase))
  | _ => cases hown

/-- **A session that is leaving does not go on** while a poller is suspended on it. -/
theorem leaving_stuck (hw : Sound w) (hs : w.SuspendedOn p i) (hl : (w.handlers i).leaving = true) :
    ¬ w.GoesOn cfg i := by
  rintro ⟨es, w', hes, hx, hend⟩
  have hall : (w'.handlers i).leaving = true ∧ w'.buffer i = w.buffer i := by
    clear hend
    induction es generalizing w with
    | nil =>
      cases hx
      exact ⟨hl, rfl⟩
    | cons e es ih =>
      obtain ⟨v, he, hx⟩ := Option.bind_eq_some_iff.mp hx
      obtain ⟨hs', hl', hb⟩ := stuck_step hw hs hl he (hes e List.mem_cons_self)
      obtain ⟨h1, h2⟩ := ih (hw.step he) hs' hl' (fun e' he' => hes e' (List.mem_cons_of_mem _ he')) hx
      exact ⟨h1, by rw [h2, hb]⟩
  rcases hend with hlt | hd
  · rw [hall.2] at hlt
    omega
  · rw [rxDropped_of_leaving hall.1] at hd
    cases hd

/-- There is no circular wait exactly if no session is leaving while a poller is
suspended on it. -/
theorem noCircularWait_iff (hw : Sound w) :
    NoCircularWait cfg w ↔ ∀ p i, w.SuspendedOn p i → (w.handlers i).leaving = false := by
  constructor
  · intro hno p i hs
    by_contra hl
    rw [Bool.not_eq_false] at hl
    exact leaving_stuck hw hs hl (hno p i hs)
  · exact fun hall p i hs => suspended_goes_on hw hs (hall p i hs)

/-! ### How a circular wait comes about -/

theorem endsOn_phase (a : Handler) (ph : Phase) (u : Update) (io : Io) :
    ({ a with phase := ph } : Handler).endsOn u io = a.endsOn u io := by
  have hd : ({ a with phase := ph } : Handler).afterUpdate u io = a.afterUpdate u io := by
    unfold Handler.afterUpdate
    rcases a.session.tryUpdateState u io with ⟨s, out, r⟩
    exact dispatch_phase { a with session := s } ph r
  rw [Handler.endsOn, hd]
  rfl

/-- Two pollers do not send to the same session. -/
theorem sending_unique (hw : Sound w) {p' : PollerId} {q q' : CanisterPoller} {k' : ClientKey}
    {m m' : CanisterToClientMessage} {msgs msgs' : CanisterOutputCertifiedMessages}
    (hq : w.pollers p = some q) (hph : q.phase = .sending i k m msgs) (hq' : w.pollers p' = some q')
    (hph' : q'.phase = .sending i k' m' msgs') : p = p' := by
  have hentry := hw.entry_of_active hq (by rw [hph]; rfl)
  have hentry' := hw.entry_of_active hq' (by rw [hph']; rfl)
  have hseat := hw.stored_seat hentry (hw.sending_open hq hph).1
  have hseat' := hw.stored_seat hentry' (hw.sending_open hq' hph').1
  rw [hseat, Registry.Seat.member.injEq] at hseat'
  rw [← hseat'.1, hentry, Option.some.injEq] at hentry'
  exact poller_unique hw hq hq' hentry'

/-- After its `put` a poller is not sending. -/
theorem put_not_sending (he : step cfg w (.put p) = some w') {q : CanisterPoller}
    (hq : w'.pollers p = some q) {m : CanisterToClientMessage} {msgs : CanisterOutputCertifiedMessages} :
    q.phase ≠ .sending i k m msgs := by
  intro hph
  cases step_cases he with
  | putDropped | put =>
    rw [World.setPoller_pollers, Function.update_self, Option.some.injEq] at hq
    rw [← hq] at hph
    cases hph

/-- How a poller comes to send to session `i`: it did before, or takes up a message. -/
theorem sending_before (he : step cfg w e = some w') {q : CanisterPoller} {m : CanisterToClientMessage}
    {msgs : CanisterOutputCertifiedMessages} (hq : w'.pollers p = some q)
    (hph : q.phase = .sending i k m msgs) :
    w.pollers p = some q ∨ e = .relay p ∧ ∃ q₀ y, w.pollers p = some q₀ ∧ q₀.phase.next = some y ∧
      (w.gateway.clients q₀.pollerState).lookup y.message.clientKey = some ⟨i⟩ := by
  have hs := step_poller he p
  rw [hq] at hs
  generalize hx : w.pollers p = x at hs
  cases hs with
  | other => exact Or.inl rfl
  | @send q₀ msgs₀ m₀ rest client phase head found =>
    refine Or.inr ⟨rfl, q₀, ⟨m₀, msgs₀.cert, msgs₀.tree⟩, rfl, ?_, ?_⟩
    · simp [PollerPhase.next, phase, head]
    · cases hph
      exact found
  | relayed phase done next => rcases next with rfl | rfl <;> cases hph
  | start | pollFailed | polled | nonceFailed | noncePanic | timedOut | noMessages | skip | put | wake => cases hph
  | terminate | goOn | fail | failPanic | stop => cases hph

theorem buffer_kept (he : step cfg w e = some w') (hp : ∀ p, e ≠ .put p) (hr : e ≠ .recv i) :
    w'.buffer i = w.buffer i := by
  have hb := buffer_step he i
  have hput : putOn i (w, e) = none := by
    cases e with
    | put p => exact absurd rfl (hp p)
    | _ => rfl
  rw [hput, receivedBy_none hr, Option.toList_none, List.append_nil, List.nil_append] at hb
  exact hb.symm

/-- A session that was not leaving while a poller was suspended on it is not leaving
after an event that leaves it room. -/
theorem not_leaving_step (hw : Sound w) (he : step cfg w e = some w')
    (hok : ∀ p i, w.SuspendedOn p i → e.ends w i = false)
    (hall : ∀ p i, w.SuspendedOn p i → (w.handlers i).leaving = false) {q : CanisterPoller}
    {m : CanisterToClientMessage} {msgs : CanisterOutputCertifiedMessages} (hq : w.pollers p = some q)
    (hph : q.phase = .sending i k m msgs) (hs' : w'.SuspendedOn p i) : (w'.handlers i).leaving = false := by
  have hw' := hw.step he
  have hopen := (hw.sending_open hq hph).2
  have hsusp : w'.buffer i = w.buffer i → w.SuspendedOn p i := fun hb =>
    ⟨⟨q, k, m, msgs, hq, hph⟩, hopen, by rw [← hb]; exact hs'.2.2⟩
  have hstep := step_handler he i
  by_cases hr : e = .recv i
  · -- what it has got is a message of the canister
    subst hr
    obtain ⟨c, k', r, hseat, -⟩ := hs'.member cfg hw'
    have hseat' : (w'.handlers i).seat = .member c k' := hseat
    have hcut := hs'.not_cutOff hw'
    have hwf := hw'.wf i
    cases step_cases he with
    | recv =>
      simp only [World.setHandler_handlers, Function.update_self] at hseat' hwf ⊢
      obtain ⟨hk, hl⟩ := hwf.live_of_seat hseat' (Or.inr ⟨_, rfl⟩)
      exact endsOn_canister hk hl _
    | cutOff => simp at hcut
  by_cases hp : ∃ p', e = .put p'
  · obtain ⟨p', rfl⟩ := hp
    obtain hsame | ⟨q', k', m', msgs', hq', hph'⟩ : w'.handlers i = w.handlers i ∨
        ∃ q' k' m' msgs', w.pollers p' = some q' ∧ q'.phase = .sending i k' m' msgs' := by
      generalize w.handlers i = a at hstep ⊢
      generalize w'.handlers i = b at hstep ⊢
      cases hstep with
      | other => exact Or.inl rfl
      | push poller sending => exact Or.inr ⟨_, _, _, _, poller, sending⟩
    · rw [hsame]
      exact hall p i (hsusp (by rw [World.buffer, hsame]; rfl))
    · obtain rfl := sending_unique hw hq hph hq' hph'
      obtain ⟨⟨q₁, k₁, m₁, msgs₁, hq₁, hph₁⟩, -⟩ := hs'
      exact absurd hph₁ (put_not_sending he hq₁)
  push Not at hp
  have hs := hsusp (buffer_kept he hp hr)
  have hends := hok p i hs
  have hlw := hall p i hs
  unfold Event.ends at hends
  generalize w.handlers i = a at hstep hends hlw
  generalize w'.handlers i = b at hstep ⊢
  cases hstep with
  | other => exact hlw
  | push => exact absurd rfl (hp _)
  | recv | cutOff => exact absurd rfl hr
  | readWs phase =>
    show Handler.endsOn _ _ _ = false
    rw [endsOn_phase]
    simpa using hends
  | @update u io s out r phase updated =>
    have hu : a.endsOn u io = false := by simpa [phase] using hends
    rw [Handler.endsOn, afterUpdate_eq updated] at hu
    unfold Handler.leaving
    generalize ({ a with session := s } : Handler).dispatch r = b at hu ⊢
    split at hu
    · rename_i hph'
      rw [hph']
    · rename_i hph'
      rw [hph']
    · cases hu
  | relayOpenFail phase relayed => simp [phase, relayed] at hends
  | insert | rollback | remove | removePanic | removeIfExists | removeVacant => rfl
  | relayOpen | relayOpenPanic | startPoller | wsClosed => rfl

/-- A relay step that finds a session goes on to send to it. -/
theorem relay_sends (he : step cfg w (.relay p) = some w') {q : CanisterPoller} {y : RelayStep}
    (hq : w.pollers p = some q) (hy : q.phase.next = some y)
    (hk : (w.gateway.clients q.pollerState).lookup y.message.clientKey = some ⟨i⟩) :
    ∃ q' k m msgs, w'.pollers p = some q' ∧ q'.phase = .sending i k m msgs := by
  obtain ⟨-, q₁, msgs, rest, hq₁, hph, hms, -⟩ := relayStep_some ((relayStep_self hq).trans hy)
  rw [hq, Option.some.injEq] at hq₁
  subst hq₁
  simp only [step, World.relay, hq, hph, hms, hk] at he
  cases he
  exact ⟨_, _, _, _, Function.update_self .., rfl⟩

/-- **What a step keeps.** -/
theorem noCircularWait_step (hw : Sound w) (he : step cfg w e = some w') (hno : NoCircularWait cfg w)
    (hok : LeavesWithRoom h w e) : NoCircularWait cfg w' := by
  have hall := (noCircularWait_iff hw).mp hno
  refine (noCircularWait_iff (hw.step he)).mpr fun p i hs' => ?_
  obtain ⟨⟨q, k, m, msgs, hq, hph⟩, -, hfull⟩ := id hs'
  obtain hold | ⟨rfl, q₀, y, hq₀, hy, hk⟩ := sending_before he hq hph
  · exact not_leaving_step hw he hok.1 hall hold hph hs'
  · have hsame : w'.handlers i = w.handlers i := by rw [relay_handlers he]
    rw [World.buffer, hsame] at hfull
    rw [hsame]
    exact hok.2 p q₀ y i rfl hq₀ hy hk hfull

theorem ends_session (hends : e.ends w i = true) : e.session = some i := by
  unfold Event.ends at hends
  split at hends
  · have hj := (Bool.and_eq_true_iff.mp hends).1
    rw [decide_eq_true_eq] at hj
    rw [hj]
    rfl
  · split at hends
    · have hj := (Bool.and_eq_true_iff.mp hends).1
      rw [decide_eq_true_eq] at hj
      rw [hj]
      rfl
    · cases hends
  · split at hends
    · have hj := (Bool.and_eq_true_iff.mp hends).1
      rw [decide_eq_true_eq] at hj
      rw [hj]
      rfl
    · cases hends
  · cases hends

/-- After an event that ends a session on which a poller is suspended, it is leaving. -/
theorem leaving_of_ends (hw : Sound w) (hs : w.SuspendedOn p i) (he : step cfg w e = some w')
    (hends : e.ends w i = true) : (w'.handlers i).leaving = true := by
  obtain ⟨c, k, r, hseat, -⟩ := hs.member cfg hw
  have hseat' : (w.handlers i).seat = .member c k := hseat
  have hown := ends_session hends
  unfold Event.ends at hends
  split at hends
  · rename_i j u
    cases hown
    have hu := (Bool.and_eq_true_iff.mp hends).2
    cases step_cases he with
    | readWs =>
      simp only [World.goto_handlers, Function.update_self]
      show Handler.endsOn _ _ _ = true
      rw [endsOn_phase]
      exact hu
  · rename_i j io
    cases hown
    split at hends
    · rename_i u hph
      have hu := (Bool.and_eq_true_iff.mp hends).2
      obtain ⟨w'', he', hh⟩ := update_enabled cfg io hph
      rw [he, Option.some.injEq] at he'
      subst he'
      obtain ⟨hk, hlive⟩ := (hw.wf i).live_of_seat hseat' (Or.inr ⟨u, hph⟩)
      have hne : u ≠ .canister none := by
        rintro rfl
        exact hs.not_cutOff hw hph
      rw [hh]
      exact afterUpdate_leaving hk hlive hne hu
    · cases hends
  · rename_i j io
    cases hown
    split at hends
    · rename_i m c' k' t hph
      have hr := of_decide_eq_true (Bool.and_eq_true_iff.mp hends).2
      have hk := ((hw.wf i).relayingOpen hph).1
      simp only [step, World.relayOpen, hph] at he
      obtain ⟨req, -, hrel⟩ | ⟨x, -, hrel⟩ := relayClientMessage_cases hk.canisterId m io
      · rw [hrel] at hr
        exact absurd rfl hr
      · rw [hrel] at he
        cases he
        simp [Handler.leaving]
    · cases hends
  · cases hends

/-- **What a step breaks.** -/
theorem circularWait_step (hw : Sound w) (he : step cfg w e = some w') (hbad : ¬ LeavesWithRoom h w e) :
    ¬ NoCircularWait cfg w' := by
  rw [noCircularWait_iff (hw.step he)]
  intro hall
  apply hbad
  constructor
  · intro p i hs
    by_contra hends
    rw [Bool.not_eq_false] at hends
    have hown := ends_session hends
    have hl := leaving_of_ends hw hs he hends
    have hb : w'.buffer i = w.buffer i := by
      refine buffer_kept he (fun p' hp => ?_) fun hr => ?_
      · rw [hp] at hown
        cases hown
      · rw [hr] at hends
        cases hends
    obtain ⟨⟨q, k, m, msgs, hq, hph⟩, -, hfull⟩ := hs
    have hs' : w'.SuspendedOn p i := by
      refine ⟨⟨q, k, m, msgs, sending_kept hw he hown hq, hph⟩, rxDropped_of_leaving hl, ?_⟩
      rw [hb]
      exact hfull
    rw [hall p i hs'] at hl
    cases hl
  · intro p q y i he' hq hy hk hfull
    subst he'
    by_contra hl
    rw [Bool.not_eq_false] at hl
    have hsame : w'.handlers i = w.handlers i := by rw [relay_handlers he]
    have hs' : w'.SuspendedOn p i := by
      refine ⟨?_, ?_, ?_⟩
      · exact relay_sends he hq hy hk
      · rw [hsame]
        exact rxDropped_of_leaving hl
      · rw [World.buffer, hsame]
        exact hfull
    have hl' := hall p i hs'
    rw [hsame, hl] at hl'
    cases hl'

/-- **Deadlock freedom.** In a run in which no session begins to leave while a poller is
suspended on its full channel, and none is leaving with a full channel when a poller
takes up a message for it, there is no circular wait in any state; and a step that does
not meet this ends in one. -/
theorem no_circular_wait (hr : Runs cfg h w) :
    (LTS.Along LeavesWithRoom h → NoCircularWait cfg w) ∧
    ∀ e w', NoCircularWait cfg w → step cfg w e = some w' →
      (NoCircularWait cfg w' ↔ LeavesWithRoom h w e) := by
  constructor
  · intro ha
    refine hr.invariant (I := fun _ w => NoCircularWait cfg w) ?_ ?_ ha
    · rintro p i ⟨⟨q, k, m, msgs, hq, -⟩, -⟩
      cases hq
    · intro h t e t' hr _ hno hok he
      exact noCircularWait_step (reachable hr) he hno hok
  · intro e w' hno he
    constructor
    · intro hno'
      by_contra hbad
      exact circularWait_step (reachable hr) he hbad hno'
    · exact noCircularWait_step (reachable hr) he hno

/-- An event puts one message at most on a channel. -/
theorem buffer_le_length (hr : Runs cfg h w) (i : ClientId) : (w.buffer i).length ≤ h.length := by
  have hfifo := congrArg List.length (channel_fifo hr i)
  have hle := List.length_filterMap_le (putOn i) h
  have hnew : World.new.buffer i = [] := rfl
  rw [hnew, List.nil_append, List.length_append] at hfifo
  omega

theorem session_of_updates (he : e.updates = some i) : e.session = some i := by
  cases e with
  | update j io => exact he
  | _ => cases he

/-- A session without a step is in its initial state: nothing was put on its channel. -/
theorem handler_unseen (hr : Runs cfg h w)
    (hno : ∀ x ∈ h, x.2.session ≠ some i) : w.handlers i = Handler.new i := by
  have hputs : h.filterMap (putOn i) = [] :=
    puts_keyed hr (keyless hr fun x hx hup => hno x hx (session_of_updates hup))
  induction hr with
  | nil => rfl
  | @snoc h t t' e hr he ih =>
    rw [LTS.filterMap_snoc, List.append_eq_nil_iff] at hputs
    have ht := ih (fun x hx => hno x (List.mem_append_left _ hx)) hputs.1
    have hown : e.session ≠ some i := hno (t, e) (by simp)
    have hs := step_handler he i
    generalize hb : t'.handlers i = b at hs
    cases hs with
    | other => exact ht
    | @push p q k m msgs poller sending open_ room =>
      have hput : putOn i (t, .put p) = some m := by
        simp only [putOn, poller, Option.map_some, sending, open_, and_self, if_true]
      rw [hput] at hputs
      cases hputs.2
    | _ => exact absurd rfl hown

/-- A run in which only one session takes steps, and does not begin to leave. -/
theorem leavesWithRoom_one (hr : Runs cfg h w) (hone : ∀ x ∈ h, x.2.session = none ∨ x.2.session = some i)
    (hstays : ∀ x ∈ h, x.2.ends x.1 i = false ∧ (x.1.handlers i).leaving = false) :
    LTS.Along LeavesWithRoom h := by
  rintro h₁ t e h₂ rfl
  have hx : (t, e) ∈ h₁ ++ (t, e) :: h₂ := by simp
  have hown : ∀ x ∈ h₁ ++ (t, e) :: h₂, ∀ j, x.2.session = some j → j = i := by
    intro x hx j hj
    obtain hn | hi := hone x hx
    · rw [hn] at hj
      cases hj
    · rw [hi, Option.some.injEq] at hj
      exact hj.symm
  constructor
  · intro p j _
    by_cases hj : j = i
    · rw [hj]
      exact (hstays _ hx).1
    · by_contra hends
      rw [Bool.not_eq_false] at hends
      exact hj (hown _ hx j (ends_session hends))
  · intro p q y j _ _ _ _ _
    by_cases hj : j = i
    · rw [hj]
      exact (hstays _ hx).2
    · have hnew := handler_unseen hr.at_event.1 (i := j) fun x hx hs =>
        hj (hown x (List.mem_append_left _ hx) j hs)
      rw [hnew]
      rfl

/-- Messages for the client key `k`, numbered from 0. -/
def batchFor (k : ClientKey) (n : ℕ) : List CanisterOutputMessage :=
  (List.range n).map fun j => messageFor k ("gateway_" ++ toString j)

/-- A poller fills the channel of a session and takes up one more message for it; the session
reads one, and the poller fills the channel again and takes up another. -/
def readsWhenFull (c : CanisterPrincipal) (k : ClientKey) : List Event :=
  opens 0 (wsOpen c k) ++ polls 0 (batchFor k (CHANNEL_CAPACITY + 2)) ::
    ((List.replicate CHANNEL_CAPACITY [Event.relay 0, .put 0]).flatten ++ [.relay 0, .recv 0, .put 0, .relay 0])

set_option maxRecDepth 20000 in
/-- The poller is suspended on the full channel, and the session reads on. -/
theorem no_circular_wait_room : ∃ w, LTS.exec (step .simple) World.new (readsWhenFull [9] ⟨[1], 1⟩) = some w ∧
    w.SuspendedOn 0 0 ∧ NoCircularWait .simple w := by
  have hend : ((LTS.exec (step .simple) World.new (readsWhenFull [9] ⟨[1], 1⟩)).any fun w =>
      ((w.pollers 0).any fun q => q.phase = .sending 0 ⟨[1], 1⟩
        ((messageFor ⟨[1], 1⟩ "gateway_101").toClient [] []) ⟨[], [], [], some true⟩) &&
      !(w.handlers 0).rxDropped && (w.buffer 0).length = CHANNEL_CAPACITY) = true := by
    decide +kernel
  have hstays : ((LTS.trace (step .simple) World.new (readsWhenFull [9] ⟨[1], 1⟩)).all fun x =>
      !x.2.ends x.1 0 && !(x.1.handlers 0).leaving) = true := by decide +kernel
  obtain ⟨w, hw, hend⟩ := (Option.any_eq_true _ _).mp hend
  rw [Bool.and_eq_true, Bool.and_eq_true, decide_eq_true_eq, Bool.not_eq_true'] at hend
  obtain ⟨⟨hp, hopen⟩, hfull⟩ := hend
  obtain ⟨q, hq, hsend⟩ := (Option.any_eq_true _ _).mp hp
  have hr : Runs .simple _ w := LTS.exec_run hw
  have hone : ∀ e ∈ readsWhenFull [9] ⟨[1], 1⟩, e.session = none ∨ e.session = some 0 := by decide +kernel
  have hroom := leavesWithRoom_one hr (fun x hx => hone x.2 (LTS.mem_trace hx)) fun x hx => by
    have hall := List.all_eq_true.mp hstays x hx
    rw [Bool.and_eq_true, Bool.not_eq_true', Bool.not_eq_true'] at hall
    exact hall
  exact ⟨w, hw, ⟨⟨q, _, _, _, hq, of_decide_eq_true hsend⟩, hopen, Nat.le_of_eq hfull.symm⟩,
    (no_circular_wait hr).1 hroom⟩

/-- A poller fills the channel of a session and takes up one more message for it, and the
session reads a close frame. -/
def closesWhenFull (c : CanisterPrincipal) (k : ClientKey) : List Event :=
  opens 0 (wsOpen c k) ++ polls 0 (batchFor k (CHANNEL_CAPACITY + 1)) ::
    ((List.replicate CHANNEL_CAPACITY [Event.relay 0, .put 0]).flatten ++
      [.relay 0, .readWs 0 (.ok .close), .update 0 .ok])

set_option maxRecDepth 20000 in
/-- The poller waits for the session, and the session for the poller. -/
theorem closing_session_deadlocks : ∃ cfg h w, Runs cfg h w ∧ ¬ NoCircularWait cfg w := by
  have hend : ((LTS.exec (step .simple) World.new (closesWhenFull [9] ⟨[1], 1⟩)).any fun w =>
      ((w.pollers 0).any fun q => q.phase = .sending 0 ⟨[1], 1⟩
        ((messageFor ⟨[1], 1⟩ "gateway_100").toClient [] []) ⟨[], [], [], some true⟩) &&
      (w.buffer 0).length = CHANNEL_CAPACITY && (w.handlers 0).phase = .closed [9] ⟨[1], 1⟩) = true := by
    decide +kernel
  obtain ⟨w, hw, hend⟩ := (Option.any_eq_true _ _).mp hend
  rw [Bool.and_eq_true, Bool.and_eq_true, decide_eq_true_eq, decide_eq_true_eq] at hend
  obtain ⟨⟨hp, hfull⟩, hph⟩ := hend
  obtain ⟨q, hq, hsend⟩ := (Option.any_eq_true _ _).mp hp
  have hr : Runs .simple _ w := LTS.exec_run hw
  refine ⟨.simple, _, w, hr, fun hno => ?_⟩
  have hl : (w.handlers 0).leaving = true := by rw [Handler.leaving, hph]
  have hs : w.SuspendedOn 0 0 :=
    ⟨⟨q, _, _, _, hq, of_decide_eq_true hsend⟩, rxDropped_of_leaving hl, Nat.le_of_eq hfull.symm⟩
  rw [(noCircularWait_iff (reachable hr)).mp hno 0 0 hs] at hl
  cases hl

end IcWsGateway
