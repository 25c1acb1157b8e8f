/-
# Replies to connecting clients

The handler registers its session before it relays the `ws_open` envelope. A
canister that answers a client only after its `ws_open` envelope was submitted
therefore never gets ahead of the registration: when a poller relays a message, the
session it is for has been inserted (`inserted_before_relayed`), and if it is not
found, it has left or the poller that served it has failed. With answers that leave
out no message that was not relayed, every message below the nonce of a poller has
been relayed (`relayed_below`), so at the end of an iteration the sessions that it
serves have got all of theirs.

Key definitions: `AppendsAfterOpen`, `AnswersUnrelayed`, `Relayed`.
Key theorems: `inserted_before_relayed`, `relayed_below`, `no_reply_too_early`.
-/
import IcWsGateway.ClientMessages
import IcWsGateway.Delivery
import IcWsGateway.PollerFailure

namespace IcWsGateway

variable {cfg : Config} {s w w' : World} {h : List (World × Event)} {i : ClientId} {p : PollerId}
  {c : CanisterPrincipal} {k : ClientKey} {m : CanisterOutputMessage} {e : Event}

/-! ### The canister -/

/-- A canister queues a message for a client only after the `ws_open` envelope of its
session was submitted to it. -/
def AppendsAfterOpen (h : List (World × Event)) (w : World) (e : Event) : Prop :=
  ∀ c m, e = .append c m → ∃ i t, t ∈ h.filterMap (wsOpenOf i) ∧ t ∈ w.submitted ∧
    (w.handlers i).session.canisterId = some c ∧ (w.handlers i).session.clientKey = some m.clientKey

/-- A poller of the canister has relayed the message, or found no client for it. -/
def Relayed (h : List (World × Event)) (c : CanisterPrincipal) (m : CanisterOutputMessage) : Prop :=
  ∃ x ∈ h, ∃ p y, relayStep p x = some y ∧ y.message = m ∧
    (x.1.pollers p).map CanisterPoller.canisterId = some c

/-- The answer to a poll is a segment of the log from the nonce asked for; at nonce 0
from anywhere, but not after a message that no poller has relayed. -/
def AnswersUnrelayed (base : CanisterPrincipal → ℕ) (h : List (World × Event)) (w : World) (e : Event) :
    Prop :=
  ∀ p q out, e = .pollReply p (.replied (.ok out)) → w.pollers p = some q →
    ∃ a, Log.Segment (w.logs q.canisterId) a out.messages ∧
      (q.nextMessageNonce ≠ 0 → q.nextMessageNonce.toNat = base q.canisterId + a) ∧
      (q.nextMessageNonce = 0 → ∀ m ∈ (w.logs q.canisterId).take a, Relayed h q.canisterId m)

theorem AnswersUnrelayed.fromLog {base : CanisterPrincipal → ℕ} (ha : AnswersUnrelayed base h w e) :
    AnswersFromLog base h w e := by
  intro p q out he hq
  obtain ⟨a, hs, hn, -⟩ := ha p q out he hq
  exact ⟨a, hs, hn⟩

theorem Relayed.snoc (hr : Relayed h c m) (x : World × Event) : Relayed (h ++ [x]) c m := by
  obtain ⟨y, hy, hrest⟩ := hr
  exact ⟨y, List.mem_append_left _ hy, hrest⟩

/-! ### First the insert, then the reply -/

/-- A session past its `ws_open` envelope is a member or has left. -/
theorem Handler.PastOpen.seat {a : Handler} (ha : a.PastOpen) (hc : a.session.canisterId = some c)
    (hk : a.session.clientKey = some k) : a.seat = .member c k ∨ a.seat = .gone := by
  unfold Handler.seat
  split
  · exact Or.inr rfl
  · exact Or.inr rfl
  · rename_i hph
    exact absurd hph (ha.2.1 _ _ _ _)
  · left
    simp only [ha.1, hc, hk]

/-- What is in a log was queued. -/
theorem appended_of_mem (hr : Runs cfg h w) (hm : m ∈ w.logs c) : ∃ x ∈ h, x.2 = .append c m := by
  induction hr with
  | nil => cases hm
  | @snoc h t t' e hr he ih =>
    have hold : m ∈ t.logs c → ∃ x ∈ h ++ [(t, e)], x.2 = .append c m := by
      intro hm
      obtain ⟨x, hx, hxe⟩ := ih hm
      exact ⟨x, List.mem_append_left _ hx, hxe⟩
    obtain hl | ⟨c', m', hev, hl⟩ := step_logs he
    · rw [hl] at hm
      exact hold hm
    · by_cases hc : c = c'
      · subst hc
        rw [hl, Function.update_self, List.mem_append, List.mem_singleton] at hm
        rcases hm with hm | rfl
        · exact hold hm
        · exact ⟨(t, e), by simp, hev⟩
      · rw [hl, Function.update_of_ne hc] at hm
        exact hold hm

/-- The session whose `ws_open` envelope is relayed has been inserted. -/
theorem joined_of_wsOpen (hr : Runs cfg h w) (hd : DistinctKeys w) {t : RelayTask}
    (ht : t ∈ h.filterMap (wsOpenOf i)) : (joined h i).isSome := by
  obtain ⟨⟨u, e⟩, hx, hxt⟩ := List.mem_filterMap.mp ht
  obtain ⟨h₁, h₂, rfl⟩ := List.append_of_mem hx
  have hr₁ := hr.at_event.1
  cases e with
  | relayOpen j io =>
    simp only [wsOpenOf] at hxt
    split at hxt
    · rename_i m c k token hph
      have hwf := (reachable hr₁).wf i
      have hseat : u.registry.seat i = .member c k :=
        seat_of_keyed (hwf.relayingOpen hph).1 (by rw [hph]; rfl)
      obtain ⟨r, hj, -⟩ := stored_where_joined hr₁ (hd.along hr h₁ u _ h₂ rfl) hseat
      rw [joined_append hj]
      rfl
    · cases hxt
  | _ => cases hxt

/-- **The session is inserted before its messages are queued**: for a message in the log
there is a session with its key, inserted and past its `ws_open` envelope. -/
theorem inserted_before_queued (hr : Runs cfg h w) (hd : DistinctKeys w) (ha : LTS.Along AppendsAfterOpen h)
    (hm : m ∈ w.logs c) :
    ∃ i, (w.handlers i).session.canisterId = some c ∧ (w.handlers i).session.clientKey = some m.clientKey ∧
      (joined h i).isSome ∧ (w.handlers i).PastOpen := by
  obtain ⟨⟨t, e⟩, hx, rfl⟩ := appended_of_mem hr hm
  obtain ⟨h₁, h₂, rfl⟩ := List.append_of_mem hx
  obtain ⟨i, task, ht, -, hc, hk⟩ := ha h₁ t _ h₂ rfl c m rfl
  have ht' : task ∈ (h₁ ++ (t, .append c m) :: h₂).filterMap (wsOpenOf i) := by
    rw [List.filterMap_append]
    exact List.mem_append_left _ ht
  obtain ⟨hr₁, t', he, hr₂⟩ := hr.at_event
  obtain ⟨hc', hk'⟩ := keys_keep (LTS.run_cons he hr₂) (reachable hr₁) hc hk
  exact ⟨i, hc', hk', joined_of_wsOpen hr hd ht', pastOpen_of_wsOpen hr (List.ne_nil_of_mem ht')⟩

/-- What a poller is about to relay is in the log of its canister. -/
theorem left_in_log {base : CanisterPrincipal → ℕ} (hr : Runs cfg h w) (hn : NumberedLogs base w)
    (ha : LTS.Along (AnswersFromLog base) h) {q : CanisterPoller} (hq : w.pollers p = some q)
    (hm : m ∈ q.phase.left) : m ∈ w.logs q.canisterId := by
  have htaken : m ∈ q.taken p h := List.mem_append_right _ hm
  obtain ⟨-, hnil⟩ | ⟨a, -, hs, -⟩ := relays_log hr hn ha hq
  · rw [hnil] at htaken
    cases htaken
  · exact hs.mem htaken

/-- The message that a poller relays next is left of its batch. -/
theorem next_left {q : CanisterPoller} {y : RelayStep} (hy : q.phase.next = some y) :
    y.message ∈ q.phase.left := by
  unfold PollerPhase.next at hy
  split at hy
  · rename_i msgs hph
    rw [hph]
    rcases hms : msgs.messages with _ | ⟨m, rest⟩
    · rw [hms] at hy
      cases hy
    · rw [hms] at hy
      cases hy
      show m ∈ msgs.messages
      rw [hms]
      exact List.mem_cons_self
  · cases hy

/-- **The session is inserted before its messages are relayed.** -/
theorem inserted_before_relayed {base : CanisterPrincipal → ℕ} (hr : Runs cfg h w) (hd : DistinctKeys w)
    (hn : NumberedLogs base w) (hap : LTS.Along AppendsAfterOpen h)
    (ha : LTS.Along (AnswersFromLog base) h) {q : CanisterPoller} (hq : w.pollers p = some q) {y : RelayStep}
    (hy : q.phase.next = some y) :
    ∃ i, (w.handlers i).session.canisterId = some q.canisterId ∧
      (w.handlers i).session.clientKey = some y.message.clientKey ∧ (joined h i).isSome ∧
      (w.handlers i).PastOpen :=
  inserted_before_queued hr hd hap (left_in_log hr hn ha hq (next_left hy))

/-- A poller that is relaying serves the sessions at the entry of its canister. -/
theorem serving_of_next {q : CanisterPoller} {y : RelayStep} (hy : q.phase.next = some y) : q.Serving := by
  unfold PollerPhase.next at hy
  split at hy
  · rename_i msgs hph
    unfold CanisterPoller.Serving
    rw [hph]
    rfl
  · cases hy

/-- A message whose session is not found: it has left, or its poller has failed. -/
theorem not_found_left {base : CanisterPrincipal → ℕ} (hr : Runs cfg h w) (hd : DistinctKeys w)
    (hn : NumberedLogs base w) (hap : LTS.Along AppendsAfterOpen h) (ha : LTS.Along (AnswersFromLog base) h)
    {q : CanisterPoller} (hq : w.pollers p = some q) {y : RelayStep} (hy : q.phase.next = some y)
    (hno : (w.gateway.clients q.pollerState).lookup y.message.clientKey = none) :
    ∃ i, (w.handlers i).session.canisterId = some q.canisterId ∧
      (w.handlers i).session.clientKey = some y.message.clientKey ∧ (joined h i).isSome ∧
      (w.registry.seat i = .gone ∨
        ∃ p' q', w.pollers p' = some q' ∧ joined h i = some q'.pollerState ∧ q'.Failed) := by
  obtain ⟨i, hc, hk, hj, hpast⟩ := inserted_before_relayed hr hd hn hap ha hq hy
  refine ⟨i, hc, hk, hj, ?_⟩
  rcases hpast.seat hc hk with hs | hs
  · rcases member_registered hr hd hs with hreg | hf
    · have hentry := (reachable hr).entry_of_active hq (serving_of_next hy)
      rw [World.Registered, hentry, Option.bind_some, hno] at hreg
      cases hreg
    · exact Or.inr hf
  · exact Or.inl hs

/-! ### What is below the nonce has been relayed -/

/-- Each message of the log below the nonce has been relayed, or is left of the batch. -/
def Below (base : CanisterPrincipal → ℕ) (h : List (World × Event)) (w : World) (q : CanisterPoller) : Prop :=
  ∀ j m, (w.logs q.canisterId)[j]? = some m → base q.canisterId + j < q.nextMessageNonce.toNat →
    Relayed h q.canisterId m ∨ m ∈ q.phase.left

/-- The nonce of a poller is not past the end of the log. -/
theorem Consumed.nonce_le {b n : ℕ} {log ms : List CanisterOutputMessage} {x : UInt64}
    (hc : Consumed b log ms x) (hn : b + n < x.toNat) : n < log.length := by
  obtain ⟨rfl, -⟩ | ⟨a, hne, hs, hx⟩ := hc
  · rw [UInt64.toNat_zero] at hn
    omega
  · have hlen : ms.length ≤ log.length - a := by
      have := hs.length_le
      rwa [List.length_drop] at this
    have hpos := List.length_pos_of_ne_nil hne
    omega

/-- An event that leaves the nonce and the batch of the poller as they are. -/
theorem Below.next {base : CanisterPrincipal → ℕ} {q q' : CanisterPoller} {ms : List CanisterOutputMessage}
    (hb : Below base h w q) (he : step cfg w e = some w')
    (hc : Consumed (base q.canisterId) (w.logs q.canisterId) ms q.nextMessageNonce)
    (hcid : q'.canisterId = q.canisterId) (hnonce : q'.nextMessageNonce = q.nextMessageNonce)
    (hleft : ∀ m ∈ q.phase.left, Relayed (h ++ [(w, e)]) q.canisterId m ∨ m ∈ q'.phase.left) :
    Below base (h ++ [(w, e)]) w' q' := by
  intro j m hj hlt
  rw [hcid] at hj hlt ⊢
  rw [hnonce] at hlt
  have hj' : (w.logs q.canisterId)[j]? = some m := by
    obtain ⟨x, hx⟩ := logs_step he q.canisterId
    rw [← hx, List.getElem?_append_left (hc.nonce_le hlt)] at hj
    exact hj
  rcases hb j m hj' hlt with hr | hl
  · exact Or.inl (hr.snoc _)
  · exact hleft m hl

/-- The reply that brings a batch. -/
theorem Below.batch {base : CanisterPrincipal → ℕ} {q : CanisterPoller}
    {out : CanisterOutputCertifiedMessages} {n : UInt64} {oc : Bool} {a : ℕ} (hb : Below base h w q)
    (hleft : q.phase.left = []) (hn : NumberedFrom (base q.canisterId) (w.logs q.canisterId))
    (hs : Log.Segment (w.logs q.canisterId) a out.messages) (hne : out.messages ≠ [])
    (hstart : q.nextMessageNonce ≠ 0 → q.nextMessageNonce.toNat = base q.canisterId + a)
    (hall : q.nextMessageNonce = 0 → ∀ m ∈ (w.logs q.canisterId).take a, Relayed h q.canisterId m)
    (hu : updateNonce oc q.nextMessageNonce out.messages = (n, .ok ())) :
    Below base h w { q with nextMessageNonce := n, phase := .relaying out } := by
  obtain ⟨n', hok, hn'⟩ := updateNonce_numbered oc (hn.segment hs) hstart hne
  rw [hok, Prod.mk.injEq] at hu
  obtain ⟨rfl, -⟩ := hu
  intro j m hj hlt
  change base q.canisterId + j < n'.toNat at hlt
  change (w.logs q.canisterId)[j]? = some m at hj
  show Relayed h q.canisterId m ∨ m ∈ out.messages
  by_cases hja : j < a
  · left
    by_cases h0 : q.nextMessageNonce = 0
    · refine hall h0 m (List.mem_of_getElem? (i := j) ?_)
      rw [List.getElem?_take_of_lt hja]
      exact hj
    · have hlt' : base q.canisterId + j < q.nextMessageNonce.toNat := by
        rw [hstart h0]
        omega
      apply (hb j m hj hlt').resolve_right
      rw [hleft]
      exact List.not_mem_nil
  · right
    have hlen : j - a < out.messages.length := by omega
    have hsame := hs.getElem?_eq hlen
    rw [show a + (j - a) = j by omega, hj] at hsame
    exact List.mem_of_getElem? hsame.symm

/-- The relay step moves its message from the batch to what has been relayed. -/
theorem relayed_or_left {q q' : CanisterPoller} (hq : w.pollers p = some q)
    (hleft : ((relayStep p (w, .relay p)).map RelayStep.message).toList ++ q'.phase.left = q.phase.left) :
    ∀ m ∈ q.phase.left, Relayed (h ++ [(w, .relay p)]) q.canisterId m ∨ m ∈ q'.phase.left := by
  intro m hm
  rw [← hleft, List.mem_append] at hm
  rcases hm with hm | hm
  · rcases hy : relayStep p (w, .relay p) with _ | y
    · rw [hy] at hm
      cases hm
    · rw [hy] at hm
      have hmy : m = y.message := by simpa using hm
      refine Or.inl ⟨(w, .relay p), by simp, p, y, hy, hmy.symm, ?_⟩
      simp only [hq, Option.map_some]
  · exact Or.inr hm

/-- **What is below the nonce has been relayed**, or is left of the batch. -/
theorem relayed_below {base : CanisterPrincipal → ℕ} (hr : Runs cfg h w) (hn : NumberedLogs base w)
    (ha : LTS.Along (AnswersUnrelayed base) h) {q : CanisterPoller} (hq : w.pollers p = some q) :
    Below base h w q := by
  induction hr generalizing q with
  | nil => cases hq
  | @snoc h t t' e hr he ih =>
    obtain ⟨ha', hok⟩ := LTS.along_snoc.mp ha
    have hnt : NumberedLogs base t := hn.before (LTS.Run.nil.snoc he)
    have hcon := fun {q} (hq : t.pollers p = some q) =>
      relays_log hr hnt (ha'.mono fun _ _ _ hx => hx.fromLog) hq
    have ih := fun {q} (hq : t.pollers p = some q) => ih hnt ha' hq
    by_cases hrel : e = .relay p
    · subst hrel
      rcases htq : t.pollers p with _ | q₀
      · exact absurd htq (relay_poller (step_cases he))
      · obtain ⟨q', hq', hc, hnonce, hleft⟩ := relay_left htq (step_cases he)
        rw [hq, Option.some.injEq] at hq'
        subst hq'
        exact (ih htq).next he (hcon htq) hc hnonce (relayed_or_left htq hleft)
    · have hs := step_poller he p
      rw [hq] at hs
      generalize hx : t.pollers p = x at hs
      cases hs with
      | other => exact (ih hx).next he (hcon hx) rfl rfl fun m hm => Or.inr hm
      | start => exact fun j m _ hlt => absurd hlt (Nat.not_lt_zero _)
      | polled phase reply nonce =>
        obtain ⟨rfl, hne⟩ := pollCanister_messages reply
        obtain ⟨a, hs, hstart, hall⟩ := hok p _ _ rfl hx
        have hb := (ih hx).batch (by rw [phase]; rfl) (hnt _) hs hne hstart hall nonce
        have hc := (hcon hx).batch (hnt _) hne hs hstart nonce
        exact hb.next he hc.2 rfl rfl fun m hm => Or.inr hm
      | nonceFailed phase reply nonce | noncePanic phase reply nonce =>
        obtain ⟨rfl, hne⟩ := pollCanister_messages reply
        obtain ⟨a, hs, hstart, -⟩ := hok p _ _ rfl hx
        have hc := (hcon hx).batch (hnt _) hne hs hstart nonce
        cases hc.1
      | pollFailed phase | timedOut phase | noMessages phase =>
        refine (ih hx).next he (hcon hx) rfl rfl fun m hm => ?_
        rw [phase] at hm
        cases hm
      | wake phase | terminate phase | goOn phase | fail phase | failPanic phase | stop phase =>
        refine (ih hx).next he (hcon hx) rfl rfl fun m hm => ?_
        rw [phase] at hm
        cases hm
      | put phase =>
        refine (ih hx).next he (hcon hx) rfl rfl fun m hm => Or.inr ?_
        rw [phase] at hm
        exact hm
      | relayed | send | skip => exact absurd rfl hrel

/-! ### The sessions that a poller serves have got their messages -/

/-- The session of a message that is relayed has been inserted, so if its poller serves
it later, it was registered then. -/
theorem registered_when_relayed {base : CanisterPrincipal → ℕ} {h₁ h₂ : List (World × Event)} {t : World}
    (hr : Runs cfg (h₁ ++ (t, e) :: h₂) w) (hd : DistinctKeys w) (hn : NumberedLogs base w)
    (hap : LTS.Along AppendsAfterOpen (h₁ ++ (t, e) :: h₂))
    (ha : LTS.Along (AnswersFromLog base) (h₁ ++ (t, e) :: h₂)) {q : CanisterPoller}
    (hq : w.pollers p = some q) (hs : q.Serving) (hk : (w.gateway.clients q.pollerState).lookup k = some ⟨i⟩)
    {p' : PollerId} {q₀ : CanisterPoller} (hq₀ : t.pollers p' = some q₀) {y : RelayStep}
    (hy : q₀.phase.next = some y) (hyk : y.message.clientKey = k) (hc : q₀.canisterId = q.canisterId) :
    t.Registered i q.canisterId k := by
  obtain ⟨hr₁, t', he, hr₂⟩ := hr.at_event
  have hrun := LTS.run_cons he hr₂
  have ht := reachable hr₁
  have hw := reachable hr
  -- the session of the message is `i`
  have hdt : DistinctKeys t := hd.along hr h₁ t e h₂ rfl
  obtain ⟨j, hjc, hjk, -, hpast⟩ :=
    inserted_before_relayed hr₁ hdt (hn.before hrun) hap.prefix ha.prefix hq₀ hy
  rw [hc] at hjc
  rw [hyk] at hjk
  have hmem : w.registry.seat i = .member q.canisterId k := hw.stored_seat (hw.entry_of_active hq hs) hk
  obtain ⟨hic, hik, -⟩ := seat_keys hmem
  obtain ⟨hjc', hjk'⟩ := keys_keep hrun ht hjc hjk
  obtain rfl : j = i := hd j i _ _ hjc' hjk' hic hik
  rcases hpast.seat hjc hjk with hseat | hgone
  · obtain hreg | ⟨p₁, q₁, hq₁, hj₁, hf⟩ := member_registered hr₁ hdt hseat
    · exact hreg
    · -- its poller has failed, so that it is not `p`
      have hf' : Sound w ∧ w.FailedPoller p₁ q₁.canisterId q₁.pollerState :=
        hrun.state_invariant (I := fun w => Sound w ∧ w.FailedPoller p₁ q₁.canisterId q₁.pollerState)
          ⟨ht, q₁, hq₁, rfl, rfl, hf⟩ fun _ _ _ hI he => ⟨hI.1.step he, hI.2.next hI.1 he⟩
      have hjoin := joined_of_stored hr hk
      rw [joined_append hj₁, Option.some.injEq] at hjoin
      have hentry := hw.entry_of_active hq hs
      rw [← hjoin] at hentry
      exact absurd hentry ((hf'.2.not_entry hw).1 q.canisterId)
  · have hgone' : Sound w ∧ w.registry.seat j = .gone :=
      hrun.state_invariant (I := fun w => Sound w ∧ w.registry.seat j = .gone) ⟨ht, hgone⟩
        fun _ _ _ hI he => ⟨hI.1.step he, (step_refines hI.1 he).gone hI.2⟩
    rw [hgone'.2] at hmem
    cases hmem

/-- Between two batches nothing is left to relay or to put. -/
theorem nothing_left {ph : PollerPhase} (hb : ph.batch = none) : ph.left = [] ∧ ph.inFlight i = [] := by
  cases ph with
  | relaying | sending => cases hb
  | _ => exact ⟨rfl, rfl⟩

/-- **At the end of an iteration** the sessions that the poller serves have got all
messages for them below its nonce. -/
theorem served_below {base : CanisterPrincipal → ℕ} (hr : Runs cfg h w) (hd : DistinctKeys w)
    (hn : NumberedLogs base w) (hap : LTS.Along AppendsAfterOpen h) (ha : LTS.Along (AnswersUnrelayed base) h)
    {q : CanisterPoller} (hq : w.pollers p = some q) (hs : q.Serving) (hb : q.phase.batch = none)
    (hk : (w.gateway.clients q.pollerState).lookup k = some ⟨i⟩) {j : ℕ}
    (hj : (w.logs q.canisterId)[j]? = some m) (hlt : base q.canisterId + j < q.nextMessageNonce.toNat)
    (hmk : m.clientKey = k) :
    ∃ y ∈ h.filterMap (deliveryStep i q.canisterId k), y.message = m ∧
      { key := m.key, content := m.content, cert := y.cert, tree := y.tree } ∈ h.filterMap (putOn i) := by
  have hlog := ha.mono fun _ _ _ hx => hx.fromLog
  have hleft := nothing_left (i := i) hb
  obtain ⟨x, hx, p', y, hy, rfl, hxc⟩ := (relayed_below hr hn ha hq j m hj hlt).resolve_right
    (by rw [hleft.1]; exact List.not_mem_nil)
  obtain ⟨t, e⟩ := x
  have hmem : y ∈ h.filterMap (deliveryStep i q.canisterId k) := by
    refine List.mem_filterMap.mpr ⟨(t, e), hx, ?_⟩
    obtain ⟨h₁, h₂, rfl⟩ := List.append_of_mem hx
    obtain ⟨rfl, q₀, msgs, rest, hq₀, hph, hms, -⟩ := relayStep_some hy
    have hnext : q₀.phase.next = some y := by
      rw [← relayStep_self hq₀]
      exact hy
    rw [hq₀, Option.map_some, Option.some.injEq] at hxc
    have hreg := registered_when_relayed hr hd hn hap hlog hq hs hk hq₀ hnext hmk hxc
    refine Option.filter_eq_some_iff.mpr ⟨hy, decide_eq_true ⟨?_, hmk, hreg⟩⟩
    rw [hq₀, Option.map_some, hxc]
  have hw := reachable hr
  obtain ⟨hc, hk', -⟩ := seat_keys (hw.stored_seat (hw.entry_of_active hq hs) hk)
  obtain ⟨hput, hdel⟩ := delivered_by hr hc hk' hq (joined_of_stored hr hk)
  have hall := poller_puts hr p i
  rw [inFlight_of hq, hleft.2, List.append_nil, ← hput, ← hdel] at hall
  refine ⟨y, hmem, rfl, ?_⟩
  rw [← hall]
  exact List.mem_map_of_mem hmem

/-- **No reply to a connecting client is dropped for coming too early.** With distinct
keys, a numbered log, a canister that queues a message for a client only after its
`ws_open` envelope was submitted, and answers that leave out nothing that was not
relayed: if a poller finds no sender for the message it relays, the session of the
message was registered, and it has left or the poller that served it has failed; and at
the end of an iteration the sessions that the poller serves have got all their messages
below its nonce. -/
theorem no_reply_too_early {base : CanisterPrincipal → ℕ} (hr : Runs cfg h w) (hd : DistinctKeys w)
    (hn : NumberedLogs base w) (hap : LTS.Along AppendsAfterOpen h)
    (ha : LTS.Along (AnswersUnrelayed base) h) {q : CanisterPoller} (hq : w.pollers p = some q) :
    (∀ y, q.phase.next = some y → (w.gateway.clients q.pollerState).lookup y.message.clientKey = none →
      ∃ i, (w.handlers i).session.canisterId = some q.canisterId ∧
        (w.handlers i).session.clientKey = some y.message.clientKey ∧ (joined h i).isSome ∧
        (w.registry.seat i = .gone ∨
          ∃ p' q', w.pollers p' = some q' ∧ joined h i = some q'.pollerState ∧ q'.Failed)) ∧
    (q.Serving → q.phase.batch = none → ∀ i k, (w.gateway.clients q.pollerState).lookup k = some ⟨i⟩ →
      ∀ j m, (w.logs q.canisterId)[j]? = some m → base q.canisterId + j < q.nextMessageNonce.toNat →
        m.clientKey = k →
        ∃ y ∈ h.filterMap (deliveryStep i q.canisterId k), y.message = m ∧
          { key := m.key, content := m.content, cert := y.cert, tree := y.tree } ∈ h.filterMap (putOn i)) := by
  have hlog := ha.mono fun _ _ _ hx => hx.fromLog
  exact ⟨fun y hy hno => not_found_left hr hd hn hap hlog hq hy hno, fun hs hb i k hk j m hj hlt hmk =>
    served_below hr hd hn hap ha hq hs hb hk hj hlt hmk⟩

/-- A client opens a session, and its `ws_open` envelope is submitted. -/
def submitsOpen (c : CanisterPrincipal) (k : ClientKey) : List Event :=
  opens 0 (wsOpen c k) ++ [.submit (wsOpenTask c k)]

/-- The canister replies. -/
def replies (c : CanisterPrincipal) (k : ClientKey) : List Event :=
  submitsOpen c k ++ .append c (messageFor k "gateway_5") :: []

/-- The poller relays the reply and is done with the batch. -/
def relaysReply : List Event := [.relay 0, .put 0, .relay 0]

/-- The reply is polled and relayed. -/
def connects (c : CanisterPrincipal) (k : ClientKey) : List Event :=
  replies c k ++ polls 0 [messageFor k "gateway_5"] :: relaysReply

set_option maxRecDepth 20000 in
/-- The reply to a connecting client is put on its channel. -/
theorem no_reply_too_early_first :
    ∃ y ∈ (LTS.trace (step .simple) World.new (connects [9] ⟨[1], 1⟩)).filterMap (deliveryStep 0 [9] ⟨[1], 1⟩),
      y.message = messageFor ⟨[1], 1⟩ "gateway_5" ∧
      { key := "gateway_5", content := [], cert := y.cert, tree := y.tree } ∈
        (LTS.trace (step .simple) World.new (connects [9] ⟨[1], 1⟩)).filterMap (putOn 0) := by
  have h₁ : (LTS.exec (step .simple) World.new (submitsOpen [9] ⟨[1], 1⟩)).isSome := by decide
  have h₂ : (LTS.exec (step .simple) World.new (replies [9] ⟨[1], 1⟩)).isSome := by decide
  have hes : (LTS.exec (step .simple) World.new (connects [9] ⟨[1], 1⟩)).isSome := by decide
  have he : (step .simple (World.after .simple (replies [9] ⟨[1], 1⟩))
      (polls 0 [messageFor ⟨[1], 1⟩ "gateway_5"])).isSome := by decide
  obtain ⟨w₁, he⟩ := Option.isSome_iff_exists.mp he
  have hr := runs_after hes
  have htrace : LTS.trace (step .simple) World.new (connects [9] ⟨[1], 1⟩) = _ ++ _ :: _ := trace_after h₂ he
  have hreplies : LTS.trace (step .simple) World.new (replies [9] ⟨[1], 1⟩) = _ ++ _ :: _ := trace_after h₁ rfl
  have hlog : (World.after .simple (connects [9] ⟨[1], 1⟩)).logs [9] =
      [messageFor ⟨[1], 1⟩ "gateway_5"] := by decide
  have hn : NumberedLogs (fun _ => 5) (World.after .simple (connects [9] ⟨[1], 1⟩)) := by
    refine numberedLogs_after (c := [9]) hes (by simp [connects, replies, submitsOpen, opens, relaysReply, polls]) ?_
    rw [hlog]
    exact NumberedFrom.cons (n := 5) (by decide) (by decide) (numberedFrom_nil _)
  have hap : LTS.Along AppendsAfterOpen (LTS.trace (step .simple) World.new (connects [9] ⟨[1], 1⟩)) := by
    rw [htrace, hreplies]
    refine (LTS.along_once (fun c m hev => ?_) fun x hx _ c m hev => ?_).append_all fun x hx _ c m hev => ?_
    · cases hev
      exact ⟨0, wsOpenTask [9] ⟨[1], 1⟩, by decide, by decide, by decide, by decide⟩
    · have hmem : x.2 ∈ submitsOpen [9] ⟨[1], 1⟩ ++ [] :=
        List.mem_append.mpr ((List.mem_append.mp hx).imp LTS.mem_trace LTS.mem_trace)
      rw [hev] at hmem
      revert hmem
      simp [submitsOpen, opens]
    · have hmem : x.2 ∈ polls 0 [messageFor ⟨[1], 1⟩ "gateway_5"] :: relaysReply := by
        rcases List.mem_cons.mp hx with rfl | hx
        · exact List.mem_cons_self
        · exact List.mem_cons_of_mem _ (LTS.mem_trace hx)
      rw [hev] at hmem
      revert hmem
      simp [polls, relaysReply]
  have ha : LTS.Along (AnswersUnrelayed fun _ => 5) (LTS.trace (step .simple) World.new (connects [9] ⟨[1], 1⟩)) := by
    rw [htrace]
    refine LTS.along_once (fun p q out hev hp => ?_) fun x hx _ p q out hev => ?_
    · cases hev
      have hq : (World.after .simple (replies [9] ⟨[1], 1⟩)).pollers 0 = some ⟨[9], 0, 0, .polling⟩ := by
        decide
      have hlog₀ : (World.after .simple (replies [9] ⟨[1], 1⟩)).logs [9] =
          [messageFor ⟨[1], 1⟩ "gateway_5"] := by decide
      rw [hq] at hp
      cases hp
      refine ⟨0, ?_, fun h0 => absurd rfl h0, fun _ m hm => ?_⟩
      · rw [hlog₀]
        exact List.prefix_rfl
      · rw [List.take_zero] at hm
        cases hm
    · have hmem : x.2 ∈ replies [9] ⟨[1], 1⟩ ++ relaysReply :=
        List.mem_append.mpr ((List.mem_append.mp hx).imp LTS.mem_trace LTS.mem_trace)
      rw [hev] at hmem
      revert hmem
      simp [replies, submitsOpen, opens, relaysReply]
  have hq : (World.after .simple (connects [9] ⟨[1], 1⟩)).pollers 0 = some ⟨[9], 0, 6, .sleeping⟩ := by
    decide
  refine (no_reply_too_early hr (distinctKeys_after hes 1 (by decide) (by decide)) hn hap ha hq).2
    rfl rfl 0 ⟨[1], 1⟩ (by decide) 0 _ ?_ (by decide) rfl
  rw [hlog]
  rfl

end IcWsGateway
