/-
# Entries and their pollers

An entry of the gateway map has a poller that serves it, or a handler that holds
the token to start one (`World.Attended`). Two kinds of event leave an entry
without a poller (`abandons`): a failed relay of the first envelope in a handler
that holds the token, and a panic of a poller. Without them every entry keeps its
poller over every run (`served_run`), and each of them breaks it
(`abandons_unserved`).

Key definitions: `World.Attended`, `World.Served`, `abandons`.
Key theorems: `served_next`, `served_run`, `abandons_unserved`.
-/
import IcWsGateway.Registrations

namespace IcWsGateway

variable {cfg : Config} {w w' : World} {h : List (World × Event)} {e : Event} {i : ClientId}
  {c : CanisterPrincipal} {k : ClientKey} {r : PollerRef} {p : PollerId}

/-! ### Entries with a poller -/

/-- The poller that the handler is about to start. -/
def Phase.toStart : Phase → Option (CanisterPrincipal × PollerRef)
  | .relayingOpen _ c _ (some r) | .startingPoller c (some r) => some (c, r)
  | _ => none

/-- A poller of `c` with the poller state `r` runs or is about to be started. -/
def World.Attended (w : World) (c : CanisterPrincipal) (r : PollerRef) : Prop :=
  (∃ p q, w.pollers p = some q ∧ q.Serving ∧ q.canisterId = c ∧ q.pollerState = r) ∨
    ∃ i, (w.handlers i).phase.toStart = some (c, r)

/-- Every canister's entry has a poller that runs or is about to be started, and a
client that joins the entry is served by that poller. -/
structure World.Served (w : World) : Prop where
  entries : ∀ c r, w.gateway.data.lookup c = some r → w.Attended c r
  joins : ∀ c k tx g, w.gateway.insertClientChannelAndGetNewPollerState c k tx = (g, none) →
    ∃ r, w.Attended c r ∧ g.data.lookup c = some r ∧ (g.clients r).lookup k = some ⟨tx⟩

theorem served_of_entries (hat : ∀ c r, w.gateway.data.lookup c = some r → w.Attended c r) :
    w.Served := by
  refine ⟨hat, fun c k tx g hg => ?_⟩
  have hn : w.gateway.data.lookup c ≠ none := by
    intro hn
    have hsome := (insert_isSome w.gateway c k tx).mpr hn
    rw [hg] at hsome
    cases hsome
  obtain ⟨r, hr, hk⟩ := insert_stored w.gateway c k tx
  have hr' := hr
  rw [insert_lookup, if_neg (fun h => hn h.2)] at hr'
  rw [hg] at hr hk
  exact ⟨r, hat c r hr', hr, hk⟩

/-- The event leaves an entry without a poller: the relay of the first envelope
fails where the handler holds the token to start a poller, or a poller panics. -/
def abandons (cfg : Config) : World × Event → Bool
  | (w, .relayOpen i io) =>
    match (w.handlers i).phase with
    | .relayingOpen m _ _ (some _) =>
      match (w.handlers i).session.relayClientMessage m io with
      | (_, .err _) => true
      | _ => false
    | _ => false
  | (w, .pollReply p r) =>
    match w.pollers p, pollCanister r with
    | some q, .ok (.messagesPolled out) =>
      match updateNonce cfg.overflowChecks q.nextMessageNonce out.messages with
      | (_, .panicked _) => true
      | _ => false
    | _, _ => false
  | _ => false

section Abandons

variable {io : Io} {m : Message} {out : List Output} {x : IcWsError}

theorem abandons_relayOpen (hph : (w.handlers i).phase = .relayingOpen m c k (some r))
    (hrel : (w.handlers i).session.relayClientMessage m io = (out, .err x)) :
    abandons cfg (w, .relayOpen i io) = true := by
  simp only [abandons, hph, hrel]

theorem abandons_pollReply {reply : PollReply} {q : CanisterPoller} {msgs : CanisterOutputCertifiedMessages}
    {n : UInt64} {y : String} (hq : w.pollers p = some q)
    (hreply : pollCanister reply = .ok (.messagesPolled msgs))
    (hnonce : updateNonce cfg.overflowChecks q.nextMessageNonce msgs.messages = (n, .panicked y)) :
    abandons cfg (w, .pollReply p reply) = true := by
  simp only [abandons, hq, hreply, hnonce]

/-- The two events that leave an entry without a poller. -/
theorem abandons_cases (ha : abandons cfg (w, e) = true) :
    (∃ i io m c k r out x, e = .relayOpen i io ∧
      (w.handlers i).phase = .relayingOpen m c k (some r) ∧
      (w.handlers i).session.relayClientMessage m io = (out, .err x)) ∨
    ∃ p reply q msgs n y, e = .pollReply p reply ∧ w.pollers p = some q ∧
      pollCanister reply = .ok (.messagesPolled msgs) ∧
      updateNonce cfg.overflowChecks q.nextMessageNonce msgs.messages = (n, .panicked y) := by
  cases e with
  | relayOpen i io =>
    apply Or.inl
    simp only [abandons] at ha
    split at ha
    · rename_i m c k r hph
      split at ha
      · rename_i out x hrel
        exact ⟨i, io, m, c, k, r, out, x, rfl, hph, hrel⟩
      · cases ha
    · cases ha
  | pollReply p reply =>
    apply Or.inr
    simp only [abandons] at ha
    split at ha
    · rename_i q msgs hq hreply
      split at ha
      · rename_i n y hnonce
        exact ⟨p, reply, q, msgs, n, y, rfl, hq, hreply, hnonce⟩
      · cases ha
    · cases ha
  | _ => cases ha

end Abandons

/-! ### Every entry keeps its poller -/

/-- A poller serves until it removes its entry, or panics. -/
theorem serving_next (hw : Sound w) (he : step cfg w e = some w') (hok : ¬ abandons cfg (w, e))
    {q : CanisterPoller} (hq : w.pollers p = some q) (hs : q.Serving)
    (hrm : ¬ removesEntry q.canisterId (w, e)) :
    ∃ q', w'.pollers p = some q' ∧ q'.Serving ∧ q'.canisterId = q.canisterId ∧
      q'.pollerState = q.pollerState := by
  have hp := step_poller he p
  have hentry := hw.entry_of_active hq hs
  rw [hq] at hp
  generalize w'.pollers p = y at hp ⊢
  cases hp with
  | other => exact ⟨q, rfl, hs, rfl, rfl⟩
  | start phase fresh => exact absurd fresh (hw.not_next hq)
  | noncePanic phase reply nonce => exact absurd (abandons_pollReply hq reply nonce) hok
  | relayed phase done next =>
    refine ⟨_, rfl, ?_, rfl, rfl⟩
    rcases next with rfl | rfl <;> rfl
  | terminate phase empty => exact absurd (by simp [removesEntry, hq, empty]) hrm
  | fail phase removed => exact absurd (by simp [removesEntry, hq, removed, Except.toBool]) hrm
  | failPanic phase panic =>
    simp only [GatewayState.removeFailedCanister, hentry] at panic
    cases panic
  | stop phase =>
    unfold CanisterPoller.Serving at hs
    rw [phase] at hs
    rename_i r
    cases r <;> cases hs
  | _ => exact ⟨_, rfl, rfl, rfl, rfl⟩

theorem toStart_relayingOpen {m : Message} {c' : CanisterPrincipal} {t : Option PollerRef}
    (hts : (Phase.relayingOpen m c' k t).toStart = some (c, r)) : c' = c ∧ t = some r := by
  cases t with
  | none => cases hts
  | some r' =>
    cases hts
    exact ⟨rfl, rfl⟩

theorem toStart_startingPoller {c' : CanisterPrincipal} {t : Option PollerRef}
    (hts : (Phase.startingPoller c' t).toStart = some (c, r)) : c' = c ∧ t = some r := by
  cases t with
  | none => cases hts
  | some r' =>
    cases hts
    exact ⟨rfl, rfl⟩

/-- A handler that is about to start a poller goes on to do so, unless the relay of
the first envelope fails. -/
theorem HandlerStep.toStart {h h' : Handler} (hs : HandlerStep w i h e h') (hwf : h.Wf i)
    (hts : h.phase.toStart = some (c, r)) :
    h'.phase.toStart = some (c, r) ∨ (e = .startPoller i ∧ h.phase = .startingPoller c (some r)) ∨
      ∃ io m k out x, e = .relayOpen i io ∧ h.phase = .relayingOpen m c k (some r) ∧
        h.session.relayClientMessage m io = (out, .err x) := by
  cases hs with
  | other | push => exact Or.inl hts
  | relayOpen phase =>
    rw [phase] at hts
    obtain ⟨rfl, rfl⟩ := toStart_relayingOpen hts
    exact Or.inl rfl
  | relayOpenFail phase relayed =>
    rw [phase] at hts
    obtain ⟨rfl, rfl⟩ := toStart_relayingOpen hts
    exact Or.inr (Or.inr ⟨_, _, _, _, _, rfl, phase, relayed⟩)
  | relayOpenPanic phase relayed =>
    -- the session has its canister id, so there is nothing to panic about
    have hk := (hwf.relayingOpen phase).1
    obtain ⟨_, -, hrel⟩ | ⟨_, -, hrel⟩ := relayClientMessage_cases hk.canisterId _ _
    · rw [hrel] at relayed
      cases relayed
    · rw [hrel] at relayed
      cases relayed
  | startPoller phase =>
    rw [phase] at hts
    obtain ⟨rfl, rfl⟩ := toStart_startingPoller hts
    exact Or.inr (Or.inl ⟨rfl, phase⟩)
  | readWs phase | recv phase | cutOff phase | update phase | insert phase | rollback phase
  | remove phase | removePanic phase | removeIfExists phase | removeVacant phase | wsClosed phase =>
    rw [phase] at hts
    cases hts

/-- A handler that is about to start a poller stays so until it does, unless the entry is left
without a poller. -/
theorem toStart_next (hw : Sound w) (he : step cfg w e = some w') (hok : ¬ abandons cfg (w, e))
    (hts : (w.handlers i).phase.toStart = some (c, r)) :
    (w'.handlers i).phase.toStart = some (c, r) ∨
      ∃ p, e = .startPoller i ∧ w.pollers p = none ∧ w'.pollers p = some (.new c r) := by
  obtain hts' | ⟨rfl, hph⟩ | ⟨io, m, k, out, x, rfl, hph, hrel⟩ :=
    (step_handler he i).toStart (hw.wf i) hts
  · exact Or.inl hts'
  · exact Or.inr ⟨w.nextPoller, rfl, hw.next_none, startPoller_pollers hph he⟩
  · exact absurd (abandons_relayOpen hph hrel) hok

/-- An entry keeps its poller until it is removed. -/
theorem World.Attended.next (ha : w.Attended c r) (hw : Sound w) (he : step cfg w e = some w')
    (hok : ¬ abandons cfg (w, e)) (hrm : ¬ removesEntry c (w, e)) : w'.Attended c r := by
  rcases ha with ⟨p, q, hq, hs, rfl, rfl⟩ | ⟨i, hts⟩
  · obtain ⟨q', hq', hs', hc', hr'⟩ := serving_next hw he hok hq hs hrm
    exact Or.inl ⟨p, q', hq', hs', hc', hr'⟩
  · obtain hts' | ⟨p, -, -, hp⟩ := toStart_next hw he hok hts
    · exact Or.inr ⟨i, hts'⟩
    · exact Or.inl ⟨p, .new c r, hp, rfl, rfl, rfl⟩

/-- A new entry comes with a handler that is about to start its poller. -/
theorem insertsNew_attended (hw : Sound w) (he : step cfg w e = some w') (hi : insertsNew c (w, e)) :
    ∃ r, w'.gateway.data.lookup c = some r ∧ w'.Attended c r := by
  cases e with
  | commit i =>
    simp only [insertsNew] at hi
    split at hi
    · rename_i m c' k tx hph
      simp only [decide_eq_true_eq, insert_isSome] at hi
      obtain ⟨rfl, hn⟩ := hi
      obtain ⟨-, hg, hph', -⟩ := commit_setup hw hph he
      refine ⟨w.gateway.nextRef, ?_, Or.inr ⟨i, ?_⟩⟩
      · rw [hg, insert_lookup, if_pos ⟨rfl, hn⟩]
      · rw [hph', GatewayState.insertClientChannelAndGetNewPollerState]
        simp only [hn, Phase.toStart]
    · cases hi
  | _ => cases hi

/-- **Every entry keeps its poller.** -/
theorem served_next (hw : Sound w) (hs : w.Served) (he : step cfg w e = some w')
    (hok : ¬ abandons cfg (w, e)) : w'.Served := by
  refine served_of_entries fun c r hl => ?_
  by_cases hi : insertsNew c (w, e)
  · obtain ⟨r', hl', ha⟩ := insertsNew_attended hw he hi
    rw [hl, Option.some.injEq] at hl'
    rw [hl']
    exact ha
  · by_cases hrm : removesEntry c (w, e)
    · rw [(removesEntry_entry he hrm).2] at hl
      cases hl
    · rw [entry_unchanged he hi hrm] at hl
      exact (hs.entries c r hl).next hw he hok hrm

theorem served_run (hr : Runs cfg h w) (hok : ∀ x ∈ h, ¬ abandons cfg x) : w.Served := by
  induction hr with
  | nil => exact served_of_entries fun c r hl => by cases hl
  | @snoc h t t' e hr he ih =>
    have hok' : ∀ x ∈ h, ¬ abandons cfg x := fun x hx => hok x (List.mem_append_left _ hx)
    exact served_next (reachable hr) (ih hok') he (hok (t, e) (by simp))

/-! ### An entry that has lost its poller -/

/-- A handler that is about to start a poller holds the token for its poller state. -/
theorem toStart_token (hts : (w.handlers i).phase.toStart = some (c, r)) : w.registry.token i = some r := by
  show (w.handlers i).phase.token = some r
  unfold Phase.toStart at hts
  split at hts <;> cases hts <;> rename_i hph <;> rw [hph] <;> rfl

/-- The life of a poller state at an entry with a poller. -/
theorem World.Attended.life (ha : w.Attended c r)
    {life : ℕ → Registry.Life CanisterPrincipal ClientId} (ho : Registry.Own w.registry life) :
    (∃ p, life r = .worked c p .active) ∨
      ∃ i c', (w.handlers i).phase.toStart = some (c, r) ∧ life r = .offered c' i := by
  rcases ha with ⟨p, q, hq, hs, rfl, rfl⟩ | ⟨i, hts⟩
  · refine Or.inl ⟨p, (ho.worker ..).mp ((registry_worker hq).trans ?_)⟩
    rw [show q.phase.stage = .active from hs]
  · obtain ⟨c', hl⟩ := (ho.token i r).mp (toStart_token hts)
    exact Or.inr ⟨i, c', hts, hl⟩

/-- The two holders of a poller state at an entry with a poller: the entry, and the
poller or the one who will start it. -/
theorem World.Attended.strong (ha : w.Attended c r) (hw : Sound w) : w.gateway.strong r = 2 := by
  obtain ⟨life, ho, -⟩ := hw.lives
  have hst : w.gateway.strong r = (life r).holders := ho.strong r
  rw [hst]
  obtain ⟨p, hl⟩ | ⟨i, c', -, hl⟩ := ha.life ho
  · rw [hl]
    rfl
  · rw [hl]
    rfl

/-- **Either event leaves an entry without a poller.** -/
theorem abandons_unserved (hw : Sound w) (he : step cfg w e = some w') (ha : abandons cfg (w, e)) :
    ¬ w'.Served := by
  intro hs
  obtain ⟨life, ho, -⟩ := (hw.step he).lives
  obtain ⟨i, io, m, c, k, r, out, x, rfl, hph, hrel⟩ |
    ⟨p, reply, q, msgs, n, y, rfl, hq, hreply, hnonce⟩ := abandons_cases ha
  · -- the token is still with the handler, which no longer wants to start the poller
    have hph' : (w'.handlers i).phase = .rollback x c k (some r) := by
      simp only [step, World.relayOpen, hph, hrel] at he
      cases he
      simp
    have htok : w'.registry.token i = some r := by
      show (w'.handlers i).phase.token = some r
      rw [hph']
      rfl
    obtain ⟨c', hl⟩ := (ho.token i r).mp htok
    have hentry : w'.gateway.data.lookup c' = some r := (ho.entry c' r).mpr (by rw [hl]; rfl)
    obtain ⟨p, hl'⟩ | ⟨j, c'', hts, hl'⟩ := (hs.entries c' r hentry).life ho
    · rw [hl] at hl'
      cases hl'
    · rw [hl] at hl'
      cases hl'
      rw [hph'] at hts
      cases hts
  · have hq' : w'.pollers p = some { q with nextMessageNonce := n, phase := .ended (.panicked y) } := by
      simp only [step, World.pollReply, hq] at he
      split_ifs at he
      simp only [hreply, hnonce] at he
      cases he
      exact Function.update_self ..
    have hl : life q.pollerState = .worked q.canisterId p (.ended .crashed) :=
      (ho.worker ..).mp (registry_worker hq')
    have hentry : w'.gateway.data.lookup q.canisterId = some q.pollerState :=
      (ho.entry ..).mpr (by rw [hl]; rfl)
    obtain ⟨p', hl'⟩ | ⟨j, c'', -, hl'⟩ := (hs.entries _ _ hentry).life ho
    · rw [hl] at hl'
      cases hl'
    · rw [hl] at hl'
      cases hl'

end IcWsGateway
