/-
# What a poller relays of its canister's log

A canister that numbers the messages of its log consecutively and answers a poll
with a part of the log from the nonce asked for never makes a poller fail over a
nonce. What the poller has relayed and what is left of its batch is then a segment
of the log that ends at the poller's nonce (`relays_log`), each message with the
certificate and tree of its batch (`relayed_batch`), whatever timeouts, errors and
empty replies come between the batches.

Key definitions: `Numbered`, `AnswersFromLog`, `relayStep`, `Consumed`.
Key theorems: `updateNonce_numbered`, `relays_log`, `relayed_batch`.
-/
import IcWsGateway.FreshPoller
import IcWsGateway.Lib.Log

namespace IcWsGateway

variable {cfg : Config} {s w w' : World} {h : List (World × Event)} {p : PollerId}
  {c : CanisterPrincipal} {e : Event}

/-! ### The log of a canister -/

/-- The messages are numbered consecutively from `b` on, with nonces below `2^64 - 1`. -/
def NumberedFrom (b : ℕ) (ms : List CanisterOutputMessage) : Prop :=
  ∀ j m, ms[j]? = some m → ∃ n, getNonceFromMessage m.key = .ok n ∧ n.toNat = b + j ∧ n.toNat + 1 < 2 ^ 64

/-- A list with a first nonce in range is numbered, if the rest is from the next one on. -/
theorem NumberedFrom.cons {n : UInt64} {m : CanisterOutputMessage} {ms : List CanisterOutputMessage}
    (hm : getNonceFromMessage m.key = .ok n) (hlt : n.toNat + 1 < 2 ^ 64) (h : NumberedFrom (n.toNat + 1) ms) :
    NumberedFrom n.toNat (m :: ms) := by
  intro j m' hj
  cases j with
  | zero =>
    cases hj
    exact ⟨n, hm, rfl, hlt⟩
  | succ j =>
    obtain ⟨n', h1, h2, h3⟩ := h j m' hj
    exact ⟨n', h1, by omega, h3⟩

theorem numberedFrom_nil (b : ℕ) : NumberedFrom b [] := fun _ _ hj => by cases hj

theorem NumberedFrom.tail {b : ℕ} {m : CanisterOutputMessage} {ms : List CanisterOutputMessage}
    (h : NumberedFrom b (m :: ms)) : NumberedFrom (b + 1) ms := by
  intro j m' hj
  obtain ⟨n, h1, h2, h3⟩ := h (j + 1) m' (by simpa using hj)
  exact ⟨n, h1, by omega, h3⟩

theorem NumberedFrom.segment {b a : ℕ} {log ms : List CanisterOutputMessage} (h : NumberedFrom b log)
    (hs : Log.Segment log a ms) : NumberedFrom (b + a) ms := by
  intro j m hj
  have hlt : j < ms.length := (List.getElem?_eq_some_iff.mp hj).1
  obtain ⟨n, h1, h2, h3⟩ := h (a + j) m (by rw [hs.getElem?_eq hlt, hj])
  exact ⟨n, h1, by omega, h3⟩

/-- The log of each canister is numbered consecutively. -/
def NumberedLogs (base : CanisterPrincipal → ℕ) (w : World) : Prop :=
  ∀ c, NumberedFrom (base c) (w.logs c)

theorem NumberedFrom.shorten {b : ℕ} {log log' : List CanisterOutputMessage} (h : NumberedFrom b log')
    (hl : log <+: log') : NumberedFrom b log := by
  intro j m hj
  obtain ⟨x, rfl⟩ := hl
  exact h j m (by rw [List.getElem?_append_left (List.getElem?_eq_some_iff.mp hj).1, hj])

/-- The logs only grow. -/
theorem logs_grow (hr : LTS.Run (step cfg) s h w) (c : CanisterPrincipal) : s.logs c <+: w.logs c := by
  induction hr with
  | nil => exact List.prefix_rfl
  | snoc hr he ih =>
    apply ih.trans
    obtain hl | ⟨c', m, -, hl⟩ := step_logs he
    · rw [hl]
    · rw [hl, Function.update_apply]
      split_ifs with hc
      · rw [hc]
        exact List.prefix_append _ _
      · exact List.prefix_rfl

/-- The answer to a poll is a segment of the log from the nonce asked for; at nonce 0
from anywhere. -/
def AnswersFromLog (base : CanisterPrincipal → ℕ) (_ : List (World × Event)) (w : World) (e : Event) : Prop :=
  ∀ p q out, e = .pollReply p (.replied (.ok out)) → w.pollers p = some q →
    ∃ a, Log.Segment (w.logs q.canisterId) a out.messages ∧
      (q.nextMessageNonce ≠ 0 → q.nextMessageNonce.toNat = base q.canisterId + a)

/-- On consecutive messages from the nonce on, `update_nonce` succeeds. -/
theorem updateNonce_numbered (oc : Bool) : ∀ {n : UInt64} {b : ℕ} {ms : List CanisterOutputMessage},
    NumberedFrom b ms → (n ≠ 0 → n.toNat = b) → ms ≠ [] →
    ∃ n', updateNonce oc n ms = (n', .ok ()) ∧ n'.toNat = b + ms.length
  | n, b, [], _, _, hne => absurd rfl hne
  | n, b, m :: ms, hnum, hn, _ => by
    obtain ⟨k, hk, hkb, hlt⟩ := hnum 0 m rfl
    have h0 : ¬ (n ≠ 0 ∧ k ≠ n) := by
      rintro ⟨hn0, hne⟩
      exact hne (UInt64.toNat_inj.mp (by rw [hkb, hn hn0, Nat.add_zero]))
    have h1 : ¬ (oc = true ∧ k.toNat + 1 = 2 ^ 64) := fun h => by omega
    have hsucc : (k + 1).toNat = b + 1 := by
      rw [UInt64.toNat_add, UInt64.toNat_one]
      omega
    unfold updateNonce
    simp only [hk]
    rw [if_neg h0, if_neg h1]
    by_cases hms : ms = []
    · subst hms
      exact ⟨k + 1, rfl, by rw [hsucc]; rfl⟩
    · obtain ⟨n', h2, h3⟩ := updateNonce_numbered oc (n := k + 1) hnum.tail (fun _ => hsucc) hms
      exact ⟨n', h2, by rw [h3, List.length_cons]; omega⟩

/-! ### Relay steps -/

/-- A message of a batch, with the certificate and the tree of the batch. -/
structure RelayStep where
  message : CanisterOutputMessage
  cert : Bytes
  tree : Bytes
deriving DecidableEq

/-- What its client is to get: the key and the content of the message, with the
certificate and the tree of the batch. -/
def RelayStep.toClient (x : RelayStep) : CanisterToClientMessage :=
  { key := x.message.key, content := x.message.content, cert := x.cert, tree := x.tree }

/-- The message that the poller relays next. -/
def PollerPhase.next : PollerPhase → Option RelayStep
  | .relaying msgs => msgs.messages.head?.map fun m => ⟨m, msgs.cert, msgs.tree⟩
  | _ => none

/-- What is left of the poller's batch. -/
def PollerPhase.left : PollerPhase → List CanisterOutputMessage
  | .relaying msgs | .sending _ _ _ msgs => msgs.messages
  | _ => []

/-- The message that the poller `p` relays in the event, or finds no client for. -/
def relayStep (p : PollerId) : World × Event → Option RelayStep
  | (w, .relay p') => if p' = p then (w.pollers p).bind fun q => q.phase.next else none
  | _ => none

theorem relayStep_none (hp : e ≠ .relay p) : relayStep p (w, e) = none := by
  cases e with
  | relay p' => exact if_neg fun h => hp (by rw [h])
  | _ => rfl

theorem relayStep_self {q : CanisterPoller} (hq : w.pollers p = some q) :
    relayStep p (w, .relay p) = q.phase.next := by
  simp only [relayStep, if_true, hq, Option.bind_some]

theorem relay_poller (he : WorldStep cfg w (.relay p) w') : w.pollers p ≠ none := by
  intro hq
  cases he with
  | relayed poller | relayedMore poller | send poller | skip poller =>
    rw [hq] at poller
    cases poller

/-- A relay step takes its message off the batch. -/
theorem relay_left {q : CanisterPoller} (hq : w.pollers p = some q) (he : WorldStep cfg w (.relay p) w') :
    ∃ q', w'.pollers p = some q' ∧ q'.canisterId = q.canisterId ∧
      q'.nextMessageNonce = q.nextMessageNonce ∧
      ((relayStep p (w, .relay p)).map RelayStep.message).toList ++ q'.phase.left = q.phase.left := by
  rw [relayStep_self hq]
  cases he with
  | relayed poller phase done | relayedMore poller phase done =>
    rw [hq, Option.some.injEq] at poller
    subst poller
    rw [phase]
    exact ⟨_, Function.update_self .., rfl, rfl, by simp [PollerPhase.next, PollerPhase.left, done]⟩
  | send poller phase head | skip poller phase head =>
    rw [hq, Option.some.injEq] at poller
    subst poller
    rw [phase]
    exact ⟨_, Function.update_self .., rfl, rfl, by simp [PollerPhase.next, PollerPhase.left, head]⟩

/-- A poller that does not exist yet has relayed nothing. -/
theorem relays_nil (hr : Runs cfg h w) (hn : w.pollers p = none) : h.filterMap (relayStep p) = [] := by
  induction hr with
  | nil => rfl
  | @snoc h t t' e hr he ih =>
    have hs := step_poller he p
    have ht : t.pollers p = none := by
      generalize t.pollers p = x at hs
      generalize hy : t'.pollers p = y at hs hn
      subst hn
      cases hs
      rfl
    have hno : relayStep p (t, e) = none := by
      cases e with
      | relay p' =>
        by_cases hp : p' = p
        · simp [relayStep, hp, ht]
        · exact if_neg hp
      | _ => rfl
    rw [LTS.filterMap_snoc, ih ht, hno]
    rfl

/-! ### The log that a poller has relayed -/

/-- The messages are those of the log up to the nonce; at nonce 0 there are none yet. -/
def Consumed (b : ℕ) (log ms : List CanisterOutputMessage) (n : UInt64) : Prop :=
  n = 0 ∧ ms = [] ∨ ∃ a, ms ≠ [] ∧ Log.Segment log a ms ∧ n.toNat = b + a + ms.length

theorem Consumed.grow {b : ℕ} {log log' ms : List CanisterOutputMessage} {n : UInt64}
    (h : Consumed b log ms n) (hl : log <+: log') : Consumed b log' ms n := by
  obtain h | ⟨a, hne, hs, hn⟩ := h
  · exact Or.inl h
  · exact Or.inr ⟨a, hne, hs.grow hl, hn⟩

/-- The next batch, which starts at the nonce: `update_nonce` succeeds, and moves the
nonce to its end. -/
theorem Consumed.batch {oc : Bool} {b a : ℕ} {log ms out : List CanisterOutputMessage} {n n' : UInt64}
    {r : Outcome String Unit} (h : Consumed b log ms n) (hnum : NumberedFrom b log) (hne : out ≠ [])
    (hs : Log.Segment log a out) (hstart : n ≠ 0 → n.toNat = b + a)
    (hu : updateNonce oc n out = (n', r)) : r = .ok () ∧ Consumed b log (ms ++ out) n' := by
  obtain ⟨n'', hok, hn''⟩ := updateNonce_numbered oc (hnum.segment hs) hstart hne
  rw [hok, Prod.mk.injEq] at hu
  obtain ⟨rfl, rfl⟩ := hu
  refine ⟨rfl, Or.inr ?_⟩
  obtain ⟨-, rfl⟩ | ⟨a', hne', hs', hn⟩ := h
  · exact ⟨a, by simpa using hne, hs, hn''⟩
  · have hn0 : n ≠ 0 := fun h0 => by
      have hpos := List.length_pos_of_ne_nil hne'
      rw [h0, UInt64.toNat_zero] at hn
      omega
    have ha : a = a' + ms.length := by
      have := hstart hn0
      omega
    subst ha
    refine ⟨a', by simp [hne], hs'.append hs, ?_⟩
    rw [hn'', List.length_append]
    omega

theorem NumberedLogs.before {base : CanisterPrincipal → ℕ} (hn : NumberedLogs base w)
    (hr : LTS.Run (step cfg) s h w) : NumberedLogs base s :=
  fun c => (hn c).shorten (logs_grow hr c)

theorem logs_step (he : step cfg w e = some w') (c : CanisterPrincipal) : w.logs c <+: w'.logs c :=
  logs_grow (LTS.Run.nil.snoc he) c

/-- The messages that the poller has relayed, and those left of its batch. -/
def CanisterPoller.taken (q : CanisterPoller) (p : PollerId) (h : List (World × Event)) :
    List CanisterOutputMessage :=
  (h.filterMap (relayStep p)).map RelayStep.message ++ q.phase.left

/-- An event that is no relay step and brings no batch. -/
theorem taken_of_left {q q' : CanisterPoller} {x : World × Event} (hx : relayStep p x = none)
    (hl : q'.phase.left = q.phase.left) : q'.taken p (h ++ [x]) = q.taken p h := by
  simp [CanisterPoller.taken, hx, hl]

/-- **What a poller relays.** With a numbered log and answers from it, what the poller
has relayed, followed by what is left of its batch, is the segment of its canister's
log that ends at its nonce. -/
theorem relays_log {base : CanisterPrincipal → ℕ} (hr : Runs cfg h w) (hn : NumberedLogs base w)
    (ha : LTS.Along (AnswersFromLog base) h) {q : CanisterPoller} (hq : w.pollers p = some q) :
    Consumed (base q.canisterId) (w.logs q.canisterId) (q.taken p h) q.nextMessageNonce := by
  induction hr generalizing q with
  | nil => cases hq
  | @snoc h t t' e hr he ih =>
    obtain ⟨ha', hok⟩ := LTS.along_snoc.mp ha
    have hnt : NumberedLogs base t := hn.before (LTS.Run.nil.snoc he)
    have ih := fun {q} (hq : t.pollers p = some q) => (ih hnt ha' hq).grow (logs_step he _)
    by_cases hrel : e = .relay p
    · subst hrel
      rcases htq : t.pollers p with _ | q₀
      · exact absurd htq (relay_poller (step_cases he))
      · obtain ⟨q', hq', hc, hnonce, hleft⟩ := relay_left htq (step_cases he)
        rw [hq, Option.some.injEq] at hq'
        subst hq'
        have htaken : q.taken p (h ++ [(t, .relay p)]) = q₀.taken p h := by
          rw [CanisterPoller.taken, CanisterPoller.taken, ← hleft, LTS.filterMap_snoc]
          rcases relayStep p (t, .relay p) with _ | x <;> simp
        rw [htaken, hc, hnonce]
        exact ih htq
    · have hno := relayStep_none (w := t) hrel
      have hs := step_poller he p
      rw [hq] at hs
      generalize hx : t.pollers p = x at hs
      cases hs with
      | other =>
        rw [taken_of_left hno rfl]
        exact ih hx
      | start phase fresh =>
        have hnone : t.pollers p = none := by
          rcases hp : t.pollers p with _ | q₀
          · rfl
          · exact absurd fresh ((reachable hr).not_next hp)
        refine Or.inl ⟨rfl, ?_⟩
        simp [CanisterPoller.taken, relays_nil hr hnone, hno, CanisterPoller.new, PollerPhase.left]
      | @polled q₀ r out n phase reply nonce =>
        obtain ⟨rfl, hne⟩ := pollCanister_messages reply
        obtain ⟨a, hseg, hstart⟩ := hok p q₀ out rfl hx
        have hb := (ih hx).batch (hn q₀.canisterId) hne (hseg.grow (logs_step he _)) hstart nonce
        have htaken : ({ q₀ with nextMessageNonce := n, phase := .relaying out } : CanisterPoller).taken p
            (h ++ [(t, .pollReply p (.replied (.ok out)))]) = q₀.taken p h ++ out.messages := by
          simp [CanisterPoller.taken, hno, phase, PollerPhase.left]
        rw [htaken]
        exact hb.2
      | nonceFailed phase reply nonce | noncePanic phase reply nonce =>
        -- the nonces of the batch are those of the log, and parse
        obtain ⟨rfl, hne⟩ := pollCanister_messages reply
        obtain ⟨a, hseg, hstart⟩ := hok p _ _ rfl hx
        have hb := (ih hx).batch (hn _) hne (hseg.grow (logs_step he _)) hstart nonce
        cases hb.1
      | pollFailed phase | timedOut phase | noMessages phase | wake phase | terminate phase =>
        rw [taken_of_left hno (q := _) (by rw [phase]; rfl)]
        exact ih hx
      | goOn phase | fail phase | failPanic phase | stop phase =>
        rw [taken_of_left hno (by rw [phase]; rfl)]
        exact ih hx
      | put phase =>
        rw [taken_of_left hno (by rw [phase]; rfl)]
        exact ih hx
      | relayed | send | skip => exact absurd rfl hrel

/-! ### The batch of a message -/

/-- The rest of the batch that the poller is relaying. -/
def PollerPhase.batch : PollerPhase → Option CanisterOutputCertifiedMessages
  | .relaying msgs | .sending _ _ _ msgs => some msgs
  | _ => none

/-- The messages are the end of a reply that the poller has got, with its certificate
and tree. -/
def FromReply (h : List (World × Event)) (p : PollerId) (msgs : CanisterOutputCertifiedMessages) : Prop :=
  ∃ t out, (t, Event.pollReply p (.replied (.ok out))) ∈ h ∧ msgs.messages <:+ out.messages ∧
    msgs.cert = out.cert ∧ msgs.tree = out.tree

theorem FromReply.snoc {msgs : CanisterOutputCertifiedMessages} (hf : FromReply h p msgs)
    (x : World × Event) : FromReply (h ++ [x]) p msgs := by
  obtain ⟨t, out, hm, hrest⟩ := hf
  exact ⟨t, out, List.mem_append_left _ hm, hrest⟩

theorem FromReply.rest {msgs : CanisterOutputCertifiedMessages} {m : CanisterOutputMessage}
    {rest : List CanisterOutputMessage} (hf : FromReply h p msgs) (hm : msgs.messages = m :: rest) :
    FromReply h p { msgs with messages := rest } := by
  obtain ⟨t, out, ht, hs, hc⟩ := hf
  refine ⟨t, out, ht, ?_, hc⟩
  rw [hm] at hs
  exact (List.suffix_cons m rest).trans hs

theorem batch_from_reply (hr : Runs cfg h w) {q : CanisterPoller} (hq : w.pollers p = some q)
    {msgs : CanisterOutputCertifiedMessages} (hb : q.phase.batch = some msgs) : FromReply h p msgs := by
  induction hr generalizing q msgs with
  | nil => cases hq
  | @snoc h t t' e hr he ih =>
    have hs := step_poller he p
    rw [hq] at hs
    generalize hx : t.pollers p = x at hs
    have hold : ∀ {q₀ : CanisterPoller} {msgs'}, x = some q₀ → q₀.phase.batch = some msgs' →
        FromReply (h ++ [(t, e)]) p msgs' := fun hq₀ hb₀ => (ih (hx.trans hq₀) hb₀).snoc _
    cases hs with
    | other => exact hold rfl hb
    | polled phase reply nonce =>
      obtain ⟨rfl, -⟩ := pollCanister_messages reply
      cases hb
      exact ⟨t, _, by simp, List.suffix_rfl, rfl, rfl⟩
    | send phase head | skip phase head =>
      cases hb
      exact (hold rfl (by rw [phase]; rfl)).rest head
    | put phase =>
      cases hb
      exact hold rfl (by rw [phase]; rfl)
    | relayed phase done next => rcases next with rfl | rfl <;> cases hb
    | start | pollFailed | nonceFailed | noncePanic | timedOut | noMessages | wake | terminate | goOn => cases hb
    | fail | failPanic | stop => cases hb

theorem relayStep_some {x : RelayStep} (hx : relayStep p (w, e) = some x) :
    e = .relay p ∧ ∃ q msgs rest, w.pollers p = some q ∧ q.phase = .relaying msgs ∧
      msgs.messages = x.message :: rest ∧ x.cert = msgs.cert ∧ x.tree = msgs.tree := by
  cases e with
  | relay p' =>
    simp only [relayStep] at hx
    split_ifs at hx with hp
    subst hp
    obtain ⟨q, hq, hn⟩ := Option.bind_eq_some_iff.mp hx
    refine ⟨rfl, q, ?_⟩
    unfold PollerPhase.next at hn
    split at hn
    · rename_i msgs hph
      rcases hms : msgs.messages with _ | ⟨m, rest⟩
      · rw [hms] at hn
        cases hn
      · rw [hms] at hn
        cases hn
        exact ⟨msgs, rest, hq, hph, hms, rfl, rfl⟩
    · cases hn
  | _ => cases hx

/-- Each message that a poller relays is one of a reply it has got, and goes with the
certificate and tree of that reply. -/
theorem relayed_batch (hr : Runs cfg h w) {x : RelayStep} (hx : x ∈ h.filterMap (relayStep p)) :
    ∃ t out, (t, Event.pollReply p (.replied (.ok out))) ∈ h ∧ x.message ∈ out.messages ∧
      x.cert = out.cert ∧ x.tree = out.tree := by
  obtain ⟨⟨u, e⟩, hmem, hstep⟩ := List.mem_filterMap.mp hx
  obtain ⟨h₁, h₂, rfl⟩ := List.append_of_mem hmem
  obtain ⟨rfl, q, msgs, rest, hq, hph, hms, hc, htr⟩ := relayStep_some hstep
  obtain ⟨t, out, ht, hs, hc', htr'⟩ := batch_from_reply hr.at_event.1 hq (by rw [hph]; rfl)
  refine ⟨t, out, List.mem_append_left _ ht, hs.subset ?_, hc.trans hc', htr.trans htr'⟩
  rw [hms]
  exact List.mem_cons_self

end IcWsGateway
