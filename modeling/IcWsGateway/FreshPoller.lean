/-
# Which poller a joining client gets

A poller starts at nonce 0 and keeps its nonce as long as it serves its
canister. It looks whether its poller state is empty once in an iteration, so a
client can be inserted while the poller state is empty and the poller still
there. That client is served by a poller that polls on from where it is: from 0
if it has got no messages yet (`nonce_eq_zero`), from the last nonce otherwise
(`nonce_ne_zero`). And it is served at all only if its entry has not lost its
poller (`served_run`).

Key definitions: `World.JoinedFresh`, `ServedFresh`, `JoinsFresh`.
Key theorems: `joining_client_is_served_fresh`, `idle_canister_served_stale`.
-/
import IcWsGateway.Attendance

namespace IcWsGateway

variable {cfg : Config} {w w' : World} {h : List (World × Event)} {i : ClientId} {c : CanisterPrincipal}
  {k : ClientKey}

/-- The event brings messages of the canister to the poller `p`. -/
def carries (p : PollerId) : World × Event → Prop
  | (_, .pollReply p' (.replied (.ok out))) => p' = p ∧ out.messages ≠ []
  | _ => False

/-- No session is registered for the canister `c`. -/
def World.Unregistered (w : World) (c : CanisterPrincipal) : Prop :=
  ∀ r, w.gateway.data.lookup c = some r → w.gateway.clients r = ∅

/-- Session `i` is stored in the poller state at the entry of its canister, and that
poller state has a poller that polls from nonce 0 on, or one that is yet to be started. -/
def World.JoinedFresh (w : World) (i : ClientId) (c : CanisterPrincipal) (k : ClientKey) : Prop :=
  ∃ r, w.gateway.data.lookup c = some r ∧ (w.gateway.clients r).lookup k = some ⟨i⟩ ∧
    ((∃ p q, w.pollers p = some q ∧ q.Serving ∧ q.canisterId = c ∧ q.pollerState = r ∧ q.nextMessageNonce = 0) ∨
      ∃ j, (w.handlers j).phase.toStart = some (c, r))

/-- If the event inserts a session for a canister without registered sessions, the
session has a poller from nonce 0 on; if the insert makes the entry, the session is the
one to start it. -/
def ServedFresh (cfg : Config) (_ : List (World × Event)) (w : World) (e : Event) : Prop :=
  ∀ i m c k tx w', e = .commit i → (w.handlers i).phase = .setup m c k tx → w.Unregistered c →
    step cfg w e = some w' → w'.JoinedFresh i c k ∧
      (w.gateway.data.lookup c = none →
        ∃ r, w'.gateway.data.lookup c = some r ∧ (w'.handlers i).phase.toStart = some (c, r))

/-- If the event inserts a session for a canister without registered sessions, a
poller that serves the canister now has not got any messages yet. -/
def JoinsFresh (h : List (World × Event)) (w : World) (e : Event) : Prop :=
  ∀ i m c k tx, e = .commit i → (w.handlers i).phase = .setup m c k tx → w.Unregistered c →
    ∀ p q, w.pollers p = some q → q.Serving → q.canisterId = c → ∀ x ∈ h, ¬ carries p x

/-! ### The nonce of a poller -/

/-- With overflow checks the nonce after some messages is not 0. -/
theorem updateNonce_ne_zero : ∀ {n n' : UInt64} {ms : List CanisterOutputMessage},
    updateNonce true n ms = (n', .ok ()) → n ≠ 0 ∨ ms ≠ [] → n' ≠ 0
  | n, n', [], h, hn => by
    cases h
    simpa using hn
  | n, n', m :: ms, h, _ => by
    unfold updateNonce at h
    split at h
    · cases h
    · rename_i k _
      split_ifs at h with h1 h2
      · cases h
      · cases h
      · refine updateNonce_ne_zero h (Or.inl fun h0 => h2 ⟨rfl, ?_⟩)
        have := congrArg UInt64.toNat h0
        have hk := k.toNat_lt
        simp only [UInt64.toNat_add, UInt64.toNat_one, UInt64.toNat_zero] at this
        omega

theorem pollCanister_messages {r : PollReply} {out : CanisterOutputCertifiedMessages}
    (h : pollCanister r = .ok (.messagesPolled out)) : r = .replied (.ok out) ∧ out.messages ≠ [] := by
  unfold pollCanister at h
  split at h
  · rename_i certifiedCanisterOutput
    by_cases hl : certifiedCanisterOutput.messages.length = 0
    · rw [if_pos hl] at h
      cases h
    · rw [if_neg hl, Except.ok.injEq, PollingStatus.messagesPolled.injEq] at h
      subst h
      exact ⟨rfl, fun h0 => hl (by rw [h0]; rfl)⟩
  · split_ifs at h
    cases h
  · cases h
  · cases h
  · cases h

/-- A poller that has got no messages is at nonce 0. -/
theorem nonce_eq_zero (hr : Runs cfg h w) {p : PollerId} {q : CanisterPoller} (hq : w.pollers p = some q)
    (hc : ∀ x ∈ h, ¬ carries p x) : q.nextMessageNonce = 0 := by
  induction hr generalizing q with
  | nil => cases hq
  | @snoc h t t' e hr he ih =>
    have ih := fun {q} (hq : t.pollers p = some q) => ih hq fun x hx => hc x (List.mem_append_left _ hx)
    have hno : ¬ carries p (t, e) := hc (t, e) (by simp)
    have hs := step_poller he p
    rw [hq] at hs
    generalize hx : t.pollers p = x at hs
    cases hs with
    | other => exact ih hx
    | start => rfl
    | polled phase reply nonce | nonceFailed phase reply nonce | noncePanic phase reply nonce =>
      obtain ⟨rfl, hne⟩ := pollCanister_messages reply
      exact absurd ⟨rfl, hne⟩ hno
    | pollFailed | timedOut | noMessages | relayed | send | skip | put | wake | terminate | goOn | fail |
      failPanic | stop =>
      have hn := ih hx
      exact hn

/-- The poller is about to remove its entry after a failure, or has stopped. -/
def PollerPhase.Failing : PollerPhase → Prop
  | .failed _ | .returned _ | .ended _ => True
  | _ => False

/-- A poller that fails and still serves is about to remove its entry. -/
theorem serving_failing {q : CanisterPoller} (hs : q.Serving) (hf : q.phase.Failing) :
    ∃ e, q.phase = .failed e := by
  unfold CanisterPoller.Serving at hs
  generalize q.phase = ph at hs hf
  cases ph with
  | failed e => exact ⟨e, rfl⟩
  | returned r => rcases r with _ | _ <;> cases hs
  | ended r => rcases r with (_ | _) | _ <;> cases hs
  | _ => exact hf.elim

/-- A reply with messages leaves a nonce other than 0, or the poller fails. -/
theorem carries_nonce (hoc : cfg.overflowChecks = true) {e : Event} (he : step cfg w e = some w')
    {p : PollerId} (hc : carries p (w, e)) :
    ∃ q, w'.pollers p = some q ∧ (q.nextMessageNonce ≠ 0 ∨ q.phase.Failing) := by
  unfold carries at hc
  split at hc
  · rename_i t p' out hte
    cases hte
    obtain ⟨rfl, hne⟩ := hc
    have hpoll : pollCanister (.replied (.ok out)) = .ok (.messagesPolled out) := by
      simp [pollCanister, hne]
    cases step_cases he with
    | polled poller phase reply nonce =>
      rw [hpoll] at reply
      cases reply
      exact ⟨_, Function.update_self .., Or.inl (updateNonce_ne_zero (hoc ▸ nonce) (Or.inr hne))⟩
    | nonceFailed => exact ⟨_, Function.update_self .., Or.inr trivial⟩
    | noncePanic => exact ⟨_, Function.update_self .., Or.inr trivial⟩
    | pollFailed poller phase reply | timedOut poller phase reply | noMessages poller phase reply =>
      rw [hpoll] at reply
      cases reply
  · exact hc.elim

/-- With overflow checks, a poller that has got messages is not at nonce 0, unless
it has failed. -/
theorem nonce_ne_zero (hoc : cfg.overflowChecks = true) (hr : Runs cfg h w) {p : PollerId}
    {x : World × Event} (hx : x ∈ h) (hc : carries p x) :
    ∃ q, w.pollers p = some q ∧ (q.nextMessageNonce ≠ 0 ∨ q.phase.Failing) := by
  induction hr with
  | nil => simp at hx
  | @snoc h t t' e hr he ih =>
    have hs := step_poller he p
    rcases List.mem_append.mp hx with hx | hx
    · obtain ⟨q, hq, hn⟩ := ih hx
      rw [hq] at hs
      generalize t'.pollers p = y at hs
      cases hs with
      | other => exact ⟨q, rfl, hn⟩
      | start phase fresh => exact absurd fresh ((reachable hr).not_next hq)
      | polled phase reply nonce =>
        refine ⟨_, rfl, Or.inl (updateNonce_ne_zero (hoc ▸ nonce) (Or.inl (hn.resolve_right ?_)))⟩
        rw [phase]
        exact id
      | pollFailed | nonceFailed | noncePanic | terminate | fail | failPanic | stop =>
        exact ⟨_, rfl, Or.inr trivial⟩
      | timedOut phase | noMessages phase | relayed phase | send phase =>
        exact ⟨_, rfl, Or.inl (hn.resolve_right (by rw [phase]; exact id))⟩
      | skip phase | put phase | wake phase | goOn phase =>
        exact ⟨_, rfl, Or.inl (hn.resolve_right (by rw [phase]; exact id))⟩
    · simp only [List.mem_singleton] at hx
      subst hx
      exact carries_nonce hoc he hc

/-! ### Joining clients -/

/-- The poller that serves the canister of a fresh client is at nonce 0. -/
theorem World.JoinedFresh.nonce (hj : w.JoinedFresh i c k) (hw : Sound w) {p : PollerId} {q : CanisterPoller}
    (hq : w.pollers p = some q) (hs : q.Serving) (hc : q.canisterId = c) : q.nextMessageNonce = 0 := by
  obtain ⟨r, hr, -, ⟨p', q', hq', hs', hc', -, h0⟩ | ⟨j, hts⟩⟩ := hj
  · have hp := serving_unique hw hq' hq hs' hs (hc'.trans hc.symm)
    rw [hp, hq, Option.some.injEq] at hq'
    rw [hq', h0]
  · -- a poller state whose token is out has no poller yet
    obtain ⟨life, ho, -⟩ := hw.lives
    obtain ⟨c', hl⟩ := (ho.token j r).mp (toStart_token hts)
    have hentry := hw.entry_of_active hq hs
    rw [hc, hr, Option.some.injEq] at hentry
    have hl' := (ho.worker ..).mp (registry_worker hq)
    rw [← hentry, hl] at hl'
    cases hl'

/-- A client that is inserted is stored at its canister's entry, with the token if the
insert makes the entry. -/
theorem inserted_entry (hw : Sound w) {m : Message} {tx : Sender} (hph : (w.handlers i).phase = .setup m c k tx)
    (he : step cfg w (.commit i) = some w') :
    ∃ r, w'.gateway.data.lookup c = some r ∧ (w'.gateway.clients r).lookup k = some ⟨i⟩ ∧
      (w.gateway.data.lookup c = none → (w'.handlers i).phase.toStart = some (c, r)) := by
  obtain ⟨rfl, hg, hph', -⟩ := commit_setup hw hph he
  obtain ⟨r, hr, hk⟩ := insert_stored w.gateway c k tx
  refine ⟨r, by rw [hg, hr], by rw [hg, hk], fun hn => ?_⟩
  rw [insert_lookup, if_pos ⟨rfl, hn⟩, Option.some.injEq] at hr
  rw [hph', GatewayState.insertClientChannelAndGetNewPollerState]
  simp only [hn, Phase.toStart, hr]

/-- A client that joins a canister whose pollers have got nothing is served from nonce 0. -/
theorem served_fresh (hr : Runs cfg h w) (hok : ∀ x ∈ h, ¬ abandons cfg x) {e : Event}
    (hj : JoinsFresh h w e) : ServedFresh cfg h w e := by
  rintro i m c k tx w' rfl hph hu he
  have hw := reachable hr
  have hnot : ¬ abandons cfg (w, .commit i) := nofun
  have hserved : w'.Served := served_run (hr.snoc he) fun x hx => by
    rcases List.mem_append.mp hx with hx | hx
    · exact hok x hx
    · rw [List.mem_singleton.mp hx]
      exact hnot
  obtain ⟨r, hl, hk, hts⟩ := inserted_entry hw hph he
  refine ⟨⟨r, hl, hk, ?_⟩, fun hn => ⟨r, hl, hts hn⟩⟩
  obtain ⟨p, q, hq, hs, hc, hst⟩ | htok := hserved.entries c r hl
  · -- an insert starts no poller, so it is one from before
    have hp := step_poller he p
    rw [hq] at hp
    generalize hx : w.pollers p = x at hp
    cases hp with
    | other =>
      have h0 := nonce_eq_zero hr hx (hj i m c k tx rfl hph hu p q hx hs hc)
      exact Or.inl ⟨p, q, hq, hs, hc, hst, h0⟩
  · exact Or.inr htok

/-- **A joining client is served by a fresh poller**, in every run in which no entry loses
its poller and a client that joins a canister without registered sessions finds a poller
that has not got messages yet, or none. A poller is started by the handler that holds the
token for its poller state, at nonce 0; and that handler does start it, unless it loses
the token. With overflow checks and while no poller is failing, an event that breaks the
condition gives a client a poller that is not fresh. -/
theorem joining_client_is_served_fresh (hr : Runs cfg h w) :
    ((∀ x ∈ h, ¬ abandons cfg x) → LTS.Along JoinsFresh h → LTS.Along (ServedFresh cfg) h) ∧
    (∀ e w' p q, step cfg w e = some w' → w.pollers p = none → w'.pollers p = some q →
      q.nextMessageNonce = 0 ∧
        ∃ j, e = .startPoller j ∧ (w.handlers j).phase.toStart = some (q.canisterId, q.pollerState)) ∧
    (∀ e w' j c r, step cfg w e = some w' → ¬ abandons cfg (w, e) →
      (w.handlers j).phase.toStart = some (c, r) →
      (w'.handlers j).phase.toStart = some (c, r) ∨
        ∃ p, e = .startPoller j ∧ w.pollers p = none ∧ w'.pollers p = some (.new c r)) ∧
    (cfg.overflowChecks = true → (∀ x ∈ h, ¬ abandons cfg x) →
      (∀ p q e, w.pollers p = some q → q.phase ≠ .failed e) →
      ∀ e w', step cfg w e = some w' → (ServedFresh cfg h w e ↔ JoinsFresh h w e)) := by
  have hw := reachable hr
  refine ⟨fun hok ha => ?_, fun e w' p q he hn hq => ?_, fun e w' j c r he hok hts => toStart_next hw he hok hts,
    fun hoc hok hf e w' he => ⟨fun hs => ?_, served_fresh hr hok⟩⟩
  · rintro h₁ t e h₂ rfl
    exact served_fresh hr.at_event.1 (fun x hx => hok x (List.mem_append_left _ hx)) (ha h₁ t e h₂ rfl)
  · have hs := step_poller he p
    rw [hn, hq] at hs
    cases hs with
    | start phase => exact ⟨rfl, _, rfl, by rw [phase]; rfl⟩
  · rintro i m c k tx rfl hph hu p q hq hs' hc x hx hcar
    have hq'' : w'.pollers p = some q := by
      have hp := step_poller he p
      rw [hq] at hp
      generalize w'.pollers p = y at hp ⊢
      cases hp with
      | other => rfl
    have hzero := (hs i m c k tx w' rfl hph hu he).1.nonce (hw.step he) hq'' hs' hc
    obtain ⟨q', hq', hn⟩ := nonce_ne_zero hoc hr hx hcar
    rw [hq, Option.some.injEq] at hq'
    subst hq'
    rcases hn with hn | hn
    · exact hn hzero
    · obtain ⟨e, he'⟩ := serving_failing hs' hn
      exact hf p q e hq he'

/-- A client gets a message and leaves, and another one joins before the poller
looks whether there are clients left. -/
def joinsIdle (c : CanisterPrincipal) : List Event :=
  opens 0 (wsOpen c ⟨[1], 1⟩) ++ [polls 0 [messageFor ⟨[1], 1⟩ "gateway_5"], .relay 0, .put 0, .relay 0] ++
    closes 0 ++ [.readWs 1 (.ok (wsOpen c ⟨[2], 2⟩)), .update 1 .ok, .lock 1]

set_option maxRecDepth 20000 in
/-- The second client joins a poller that polls on from nonce 6. -/
theorem idle_canister_served_stale :
    ∃ cfg h w e w', Runs cfg h w ∧ step cfg w e = some w' ∧ ¬ ServedFresh cfg h w e := by
  have hes : (LTS.exec (step .simple) World.new (joinsIdle [9])).isSome := by decide
  have hs : (LTS.exec (step .simple) World.new (joinsIdle [9] ++ [.commit 1])).isSome := by decide
  have he := step_after hs
  refine ⟨.simple, _, World.after .simple (joinsIdle [9]), .commit 1, _, runs_after hes, he, fun hf => ?_⟩
  have h0 : (World.after .simple (joinsIdle [9])).gateway.data.lookup [9] = some 0 := by decide
  have hempty : (World.after .simple (joinsIdle [9])).gateway.clients 0 = ∅ := by decide
  have hq : (World.after .simple (joinsIdle [9] ++ [.commit 1])).pollers 0 = some ⟨[9], 0, 6, .sleeping⟩ := by decide
  have hph : ((World.after .simple (joinsIdle [9])).handlers 1).phase =
      .setup (wsOpen [9] ⟨[2], 2⟩) [9] ⟨[2], 2⟩ 1 := by decide
  have hfresh := (hf 1 _ [9] _ 1 _ rfl hph (fun r hr => by rw [h0] at hr; cases hr; exact hempty) he).1
  have h6 := hfresh.nonce (reachable (runs_after hs)) hq rfl rfl
  cases h6

/-- A client leaves before any message has come, and another one joins. -/
def joinsUnused (c : CanisterPrincipal) : List Event :=
  opens 0 (wsOpen c ⟨[1], 1⟩) ++ closes 0 ++
    [.readWs 1 (.ok (wsOpen c ⟨[2], 2⟩)), .update 1 .ok, .lock 1]

set_option maxRecDepth 20000 in
/-- The second client joins a poller that is still at nonce 0. -/
theorem joining_client_is_served_fresh_unused :
    (World.after .simple (joinsUnused [9] ++ [.commit 1])).JoinedFresh 1 [9] ⟨[2], 2⟩ := by
  have hes : (LTS.exec (step .simple) World.new (joinsUnused [9])).isSome := by decide
  have hs : (LTS.exec (step .simple) World.new (joinsUnused [9] ++ [.commit 1])).isSome := by decide
  have he := step_after hs
  have hok : ∀ x ∈ LTS.trace (step .simple) World.new (joinsUnused [9] ++ [.commit 1]),
      ¬ abandons .simple x := by decide
  have hj : LTS.Along JoinsFresh (LTS.trace (step .simple) World.new (joinsUnused [9] ++ [.commit 1])) := by
    rintro h₁ t e h₂ heq i m c k tx - - - p q - - - ⟨u, e'⟩ hx hcar
    have hmem := LTS.mem_trace (heq ▸ List.mem_append_left _ hx)
    have hno : ∀ e ∈ joinsUnused [9] ++ [.commit 1], ¬ carries p (u, e) := by
      simp [joinsUnused, opens, closes, carries]
    exact hno e' hmem hcar
  have htrace : LTS.trace (step .simple) World.new (joinsUnused [9] ++ [.commit 1]) = _ ++ _ :: _ :=
    trace_after hes he
  have hph : ((World.after .simple (joinsUnused [9])).handlers 1).phase =
      .setup (wsOpen [9] ⟨[2], 2⟩) [9] ⟨[2], 2⟩ 1 := by decide
  have h0 : (World.after .simple (joinsUnused [9])).gateway.data.lookup [9] = some 0 := by decide
  have hempty : (World.after .simple (joinsUnused [9])).gateway.clients 0 = ∅ := by decide
  exact ((joining_client_is_served_fresh (runs_after hs)).1 hok hj _ _ _ _ htrace 1 _ [9] _ 1 _ rfl hph
    (fun r hr => by rw [h0] at hr; cases hr; exact hempty) he).1

end IcWsGateway
