/-
# Slow clients

A poller relays a batch message by message, and waits where a channel is full. So a
session that reads slowly, or not at all, holds back the messages for the others behind
its own, but only once its channel is full: a poller gets to a message by its own steps
exactly if the messages ahead of it fit into the channels they are for
(`reaches_of_fits`), and where those for one session do not, it does not get there
without a step of that session (`held_back`).

Key definitions: `World.AtMessage`, `World.Reaches`, `PollerPhase.ahead`, `World.Fits`.
Key theorems: `reaches_of_fits`, `held_back`, `slow_clients_hold_back`.
-/
import IcWsGateway.Deadlock

namespace IcWsGateway

variable {cfg : Config} {s w w' : World} {h : List (World × Event)} {i : ClientId} {p : PollerId}
  {c : CanisterPrincipal} {k : ClientKey} {e : Event} {q : CanisterPoller} {n : ℕ}
  {m : CanisterToClientMessage} {msgs : CanisterOutputCertifiedMessages}

/-! ### What is ahead of a message -/

/-- The poller is about to take up the first of the messages `rest`, which are left. -/
def World.AtMessage (w : World) (p : PollerId) (rest : List CanisterOutputMessage) : Prop :=
  ∃ q msgs, w.pollers p = some q ∧ q.phase = .relaying msgs ∧ msgs.messages = rest

/-- The client key of the message in the poller's hand. -/
def PollerPhase.hand : PollerPhase → List ClientKey
  | .sending _ k _ _ => [k]
  | _ => []

/-- The client keys of the messages ahead of the one that is number `n` of those left. -/
def PollerPhase.ahead (ph : PollerPhase) (n : ℕ) : List ClientKey :=
  ph.hand ++ (ph.left.take n).map CanisterOutputMessage.clientKey

/-- The messages ahead of number `n` that are for the client key `k` fit into the channel
of session `i`. -/
def World.Fits (w : World) (q : CanisterPoller) (n : ℕ) (k : ClientKey) (i : ClientId) : Prop :=
  (w.buffer i).length + (q.phase.ahead n).count k ≤ CHANNEL_CAPACITY

/-- The poller gets to message number `n` of those left by its own steps alone. -/
def World.Reaches (cfg : Config) (w : World) (p : PollerId) (q : CanisterPoller) (n : ℕ) : Prop :=
  ∃ es w', (∀ e ∈ es, e = .relay p ∨ e = .put p) ∧ LTS.exec (step cfg) w es = some w' ∧
    w'.AtMessage p (q.phase.left.drop n)

/-! ### The steps of the poller -/

/-- A session is stored under one key. -/
theorem stored_once (hw : Sound w) (hq : w.pollers p = some q) (hst : q.phase.stage = .active)
    {k' : ClientKey} (hk : (w.gateway.clients q.pollerState).lookup k = some ⟨i⟩)
    (hk' : (w.gateway.clients q.pollerState).lookup k' = some ⟨i⟩) : k' = k := by
  have hentry := hw.entry_of_active hq hst
  have hseat := hw.stored_seat hentry hk
  have hseat' := hw.stored_seat hentry hk'
  rw [hseat, Registry.Seat.member.injEq] at hseat'
  exact hseat'.2.symm

/-- With room in the channel the poller lets go of the message. -/
theorem put_step (cfg : Config) (hw : Sound w) (hq : w.pollers p = some q)
    (hph : q.phase = .sending i k m msgs) (hroom : (w.buffer i).length < CHANNEL_CAPACITY) :
    ∃ w', step cfg w (.put p) = some w' ∧ w'.pollers p = some { q with phase := .relaying msgs } ∧
      w'.gateway = w.gateway ∧ ∀ j, w'.buffer j = w.buffer j ++ if j = i then [m] else [] := by
  have hopen := (hw.sending_open hq hph).2
  have hroom' : (w.handlers i).session.clientChannelRx.length < CHANNEL_CAPACITY := hroom
  have he : step cfg w (.put p) = some ((w.push i m).setPoller p { q with phase := .relaying msgs }) := by
    simp only [step, World.put, hq, hph, hopen, Bool.false_eq_true, if_false, if_pos hroom']
  refine ⟨_, he, by simp, rfl, fun j => ?_⟩
  by_cases hj : j = i
  · subst hj
    simp [World.buffer, World.push]
  · simp [World.buffer, World.push, hj]

/-- The poller takes up the next message, or finds no client for it. -/
theorem relay_step (cfg : Config) {m : CanisterOutputMessage} {rest : List CanisterOutputMessage}
    (hq : w.pollers p = some q) (hph : q.phase = .relaying msgs) (hms : msgs.messages = m :: rest) :
    ∃ w' ph, step cfg w (.relay p) = some w' ∧ w'.pollers p = some { q with phase := ph } ∧
      w'.gateway = w.gateway ∧ w'.handlers = w.handlers ∧
      ((w.gateway.clients q.pollerState).lookup m.clientKey = none ∧
          ph = .relaying { msgs with messages := rest } ∨
        ∃ i, (w.gateway.clients q.pollerState).lookup m.clientKey = some ⟨i⟩ ∧
          ph = .sending i m.clientKey (m.toClient msgs.cert msgs.tree) { msgs with messages := rest }) := by
  rcases hcl : (w.gateway.clients q.pollerState).lookup m.clientKey with _ | ⟨⟨i⟩⟩
  · have he : step cfg w (.relay p) =
        some (w.setPoller p { q with phase := .relaying { msgs with messages := rest } }) := by
      simp only [step, World.relay, hq, hph, hms, hcl]
    exact ⟨_, _, he, by simp, rfl, rfl, Or.inl ⟨rfl, rfl⟩⟩
  · have he : step cfg w (.relay p) = some (w.setPoller p { q with
        phase := .sending i m.clientKey (m.toClient msgs.cert msgs.tree) { msgs with messages := rest } }) := by
      simp only [step, World.relay, hq, hph, hms, hcl]
    exact ⟨_, _, he, by simp, rfl, rfl, Or.inr ⟨i, rfl, rfl⟩⟩

/-- Every message ahead of number `n` fits into the channel it is for. -/
def World.AllFit (w : World) (q : CanisterPoller) (n : ℕ) : Prop :=
  ∀ k i, (w.gateway.clients q.pollerState).lookup k = some ⟨i⟩ → w.Fits q n k i

/-- The poller puts the message in its hand; the others still fit. -/
theorem put_fits (cfg : Config) (hw : Sound w) (hq : w.pollers p = some q)
    (hph : q.phase = .sending i k m msgs) (hfit : w.AllFit q n) :
    ∃ w', step cfg w (.put p) = some w' ∧ w'.pollers p = some { q with phase := .relaying msgs } ∧
      w'.AllFit { q with phase := .relaying msgs } n := by
  have hahead : q.phase.ahead n = k :: (msgs.messages.take n).map CanisterOutputMessage.clientKey := by
    rw [PollerPhase.ahead, hph]
    rfl
  have hk := (hw.sending_open hq hph).1
  have hroom : (w.buffer i).length < CHANNEL_CAPACITY := by
    have hle := hfit k i hk
    unfold World.Fits at hle
    rw [hahead, List.count_cons_self] at hle
    omega
  obtain ⟨w', he, hq', hg, hb⟩ := put_step cfg hw hq hph hroom
  refine ⟨w', he, hq', fun k' j hk' => ?_⟩
  rw [hg] at hk'
  have hle := hfit k' j hk'
  unfold World.Fits at hle ⊢
  rw [hahead] at hle
  show (w'.buffer j).length + ((msgs.messages.take n).map CanisterOutputMessage.clientKey).count k' ≤ _
  rw [hb]
  by_cases hj : j = i
  · subst hj
    obtain rfl := stored_once hw hq (by rw [hph]; rfl) hk' hk
    rw [List.count_cons_self] at hle
    simp only [if_true, List.length_append, List.length_singleton]
    omega
  · have hne : k ≠ k' := by
      rintro rfl
      rw [hk] at hk'
      cases hk'
      exact hj rfl
    rw [List.count_cons_of_ne hne] at hle
    simpa [hj] using hle

/-- The poller takes up a message; what was ahead still fits. -/
theorem relay_fits (cfg : Config) {m : CanisterOutputMessage} {rest : List CanisterOutputMessage}
    (hq : w.pollers p = some q) (hph : q.phase = .relaying msgs) (hms : msgs.messages = m :: rest)
    (hfit : w.AllFit q (n + 1)) :
    ∃ w' ph, step cfg w (.relay p) = some w' ∧ w'.pollers p = some { q with phase := ph } ∧
      w'.AllFit { q with phase := ph } n ∧ ((∃ msgs', ph = .relaying msgs' ∧ msgs'.messages = rest) ∨
        ∃ i k m msgs', ph = .sending i k m msgs' ∧ msgs'.messages = rest) := by
  have hahead : q.phase.ahead (n + 1) = m.clientKey :: (rest.take n).map CanisterOutputMessage.clientKey := by
    simp [PollerPhase.ahead, PollerPhase.hand, PollerPhase.left, hph, hms]
  obtain ⟨w', ph, he, hq', hg, hh, hcase⟩ := relay_step cfg hq hph hms
  have hb : ∀ j, w'.buffer j = w.buffer j := fun j => by rw [World.buffer, hh]; rfl
  have hkeep : ∀ l : List ClientKey, ph.ahead n = l →
      (∀ k, l.count k ≤ (q.phase.ahead (n + 1)).count k) → w'.AllFit { q with phase := ph } n := by
    intro l hl hcount k j hk
    rw [hg] at hk
    have hle := hfit k j hk
    have hle' := hcount k
    unfold World.Fits at hle ⊢
    rw [hb]
    show (w.buffer j).length + (ph.ahead n).count k ≤ CHANNEL_CAPACITY
    rw [hl]
    omega
  obtain ⟨-, rfl⟩ | ⟨i, -, rfl⟩ := hcase
  · refine ⟨w', _, he, hq', hkeep ((rest.take n).map CanisterOutputMessage.clientKey) rfl ?_,
      Or.inl ⟨_, rfl, rfl⟩⟩
    intro k
    rw [hahead]
    exact List.count_le_count_cons
  · refine ⟨w', _, he, hq', hkeep (m.clientKey :: (rest.take n).map CanisterOutputMessage.clientKey) rfl ?_,
      Or.inr ⟨_, _, _, _, rfl, rfl⟩⟩
    intro k
    rw [hahead]

/-- From where the poller has nothing in its hand. -/
theorem reaches_relaying (cfg : Config) : ∀ (n : ℕ) {w : World} {q : CanisterPoller}
    {msgs : CanisterOutputCertifiedMessages}, Sound w → w.pollers p = some q →
    q.phase = .relaying msgs → n ≤ msgs.messages.length → w.AllFit q n →
    ∃ es w', (∀ e ∈ es, e = .relay p ∨ e = .put p) ∧ LTS.exec (step cfg) w es = some w' ∧
      w'.AtMessage p (msgs.messages.drop n)
  | 0, w, q, msgs, _, hq, hph, _, _ => ⟨[], w, by simp, rfl, q, msgs, hq, hph, rfl⟩
  | n + 1, w, q, msgs, hw, hq, hph, hn, hfit => by
    rcases hms : msgs.messages with _ | ⟨m, rest⟩
    · rw [hms] at hn
      simp at hn
    · rw [hms] at hn
      have hn' : n ≤ rest.length := Nat.le_of_succ_le_succ hn
      obtain ⟨w₁, ph, he₁, hq₁, hfit₁, ⟨msgs', rfl, rfl⟩ | ⟨i, k, m', msgs', rfl, rfl⟩⟩ :=
        relay_fits cfg hq hph hms hfit
      · obtain ⟨es, w', hes, hex, hat⟩ := reaches_relaying cfg n (hw.step he₁) hq₁ rfl hn' hfit₁
        refine ⟨.relay p :: es, w', ?_, ?_, hat⟩
        · simpa using hes
        · rw [LTS.exec, he₁]
          exact hex
      · have hw₁ := hw.step he₁
        obtain ⟨w₂, he₂, hq₂, hfit₂⟩ := put_fits cfg hw₁ hq₁ rfl hfit₁
        obtain ⟨es, w', hes, hex, hat⟩ := reaches_relaying cfg n (hw₁.step he₂) hq₂ rfl hn' hfit₂
        refine ⟨.relay p :: .put p :: es, w', ?_, ?_, hat⟩
        · simpa using hes
        · rw [LTS.exec, he₁, Option.bind_some, LTS.exec, he₂]
          exact hex

/-- **If everything ahead fits, the poller needs nobody** to get to the message. -/
theorem reaches_of_fits (cfg : Config) (hw : Sound w) (hq : w.pollers p = some q)
    (hb : q.phase.batch = some msgs) (hn : n ≤ msgs.messages.length) (hfit : w.AllFit q n) :
    w.Reaches cfg p q n := by
  unfold World.Reaches
  unfold PollerPhase.batch at hb
  split at hb
  · rename_i msgs' hph
    cases hb
    rw [hph]
    exact reaches_relaying cfg n hw hq hph hn hfit
  · rename_i i k m msgs' hph
    cases hb
    obtain ⟨w₁, he₁, hq₁, hfit₁⟩ := put_fits cfg hw hq hph hfit
    obtain ⟨es, w', hes, hex, hat⟩ := reaches_relaying cfg n (hw.step he₁) hq₁ rfl hn hfit₁
    refine ⟨.put p :: es, w', ?_, ?_, ?_⟩
    · simpa using hes
    · rw [LTS.exec, he₁]
      exact hex
    · rw [hph]
      exact hat
  · cases hb

/-! ### Held back by a session -/

/-- A channel never holds more than its capacity. -/
theorem buffer_le (hr : Runs cfg h w) (i : ClientId) : (w.buffer i).length ≤ CHANNEL_CAPACITY := by
  refine hr.state_invariant (I := fun w => (w.buffer i).length ≤ CHANNEL_CAPACITY) (Nat.zero_le _) ?_
  intro t e t' hle he
  have hs := step_handler he i
  unfold World.buffer at hle ⊢
  generalize t.handlers i = a at hs hle
  generalize t'.handlers i = b at hs ⊢
  cases hs with
  | recv phase rx =>
    rw [rx, List.length_cons] at hle
    exact Nat.le_of_succ_le hle
  | push poller sending open_ room =>
    rw [List.length_append, List.length_singleton]
    exact room
  | update phase updated =>
    rw [dispatch_session, tryUpdateState_rx updated]
    exact hle
  | _ => exact hle

/-- Only a step of its own stores the sender of a session. -/
theorem stored_before (hw : Sound w) (he : step cfg w e = some w') (hown : e.session ≠ some i)
    {r : PollerRef} (hk : (w'.gateway.clients r).lookup k = some ⟨i⟩) :
    (w.gateway.clients r).lookup k = some ⟨i⟩ := by
  obtain hk' | ⟨j, m, c, rfl, hph, -⟩ := stored_cases he hk
  · exact hk'
  · obtain rfl := ((hw.wf j).setup hph).1
    exact absurd rfl hown

theorem stored_before_run {r : PollerRef} : ∀ {es : List Event} {w w' : World},
    (∀ e ∈ es, e.session ≠ some i) → Sound w → LTS.exec (step cfg) w es = some w' →
    (w'.gateway.clients r).lookup k = some ⟨i⟩ → (w.gateway.clients r).lookup k = some ⟨i⟩
  | [], w, w', _, _, hex, hk => by
    cases hex
    exact hk
  | e :: es, w, w', hes, hw, hex, hk => by
    rw [LTS.exec, Option.bind_eq_some_iff] at hex
    obtain ⟨w₁, he, hex⟩ := hex
    have hk₁ := stored_before_run (fun e' he' => hes e' (List.mem_cons_of_mem _ he')) (hw.step he) hex hk
    exact stored_before hw he (hes e List.mem_cons_self) hk₁

/-- The poller is at most at message number `n` of `msgs`, and the messages ahead of
it for the key `k` are too many for the channel of session `i`. -/
def World.HeldBack (w : World) (p : PollerId) (r : PollerRef) (ms : List CanisterOutputMessage) (n : ℕ)
    (k : ClientKey) (i : ClientId) : Prop :=
  ∃ q a, w.pollers p = some q ∧ q.pollerState = r ∧ q.phase.batch ≠ none ∧ a ≤ n ∧
    q.phase.left = ms.drop a ∧
    CHANNEL_CAPACITY < (w.buffer i).length + (q.phase.ahead (n - a)).count k

/-- Nothing ahead and nothing in its hand: nothing holds the poller back. -/
theorem not_heldBack_nil (hr : Runs cfg h w) {l : List ClientKey} (hl : l = []) :
    ¬ CHANNEL_CAPACITY < (w.buffer i).length + l.count k := by
  have hle := buffer_le hr i
  rw [hl, List.count_nil]
  omega

/-- A poller that is held back and takes up a message is not at message number `n` yet. -/
theorem taken_up {ms rest : List CanisterOutputMessage} {m : CanisterOutputMessage} {a : ℕ}
    (hr : Runs cfg h w) (hph : q.phase = .relaying msgs) (hms : msgs.messages = m :: rest)
    (hleft : q.phase.left = ms.drop a) (ha : a ≤ n)
    (hfull : CHANNEL_CAPACITY < (w.buffer i).length + (q.phase.ahead (n - a)).count k) :
    a + 1 ≤ n ∧ ms.drop (a + 1) = rest ∧
      q.phase.ahead (n - a) = m.clientKey :: (rest.take (n - (a + 1))).map CanisterOutputMessage.clientKey := by
  have hl : q.phase.left = m :: rest := by rw [hph, ← hms]; rfl
  have hhand : q.phase.hand = [] := by rw [hph]; rfl
  have hlt : a + 1 ≤ n := by
    by_contra hge
    have ha0 : n - a = 0 := by omega
    have hnil : q.phase.ahead (n - a) = [] := by
      rw [PollerPhase.ahead, hhand, ha0]
      rfl
    exact not_heldBack_nil hr hnil hfull
  refine ⟨hlt, ?_, ?_⟩
  · rw [← List.tail_drop, ← hleft, hl]
    rfl
  · have hsucc : n - a = (n - (a + 1)) + 1 := by omega
    rw [PollerPhase.ahead, hhand, hl, hsucc]
    rfl

/-- **Without a step of the session the poller stays held back**, while the session is
registered. -/
theorem World.HeldBack.next {r : PollerRef} {ms : List CanisterOutputMessage} (hr : Runs cfg h w)
    (hb : w.HeldBack p r ms n k i) (he : step cfg w e = some w')
    (hown : e.session ≠ some i) (hk' : (w'.gateway.clients r).lookup k = some ⟨i⟩) :
    w'.HeldBack p r ms n k i := by
  obtain ⟨q, a, hq, rfl, hbatch, ha, hleft, hfull⟩ := hb
  have hw := reachable hr
  have hk := stored_before hw he hown hk'
  have hne : e ≠ .recv i := fun hre => hown (by rw [hre]; rfl)
  have hbuf := buffer_step he i
  rw [receivedBy_none hne, Option.toList_none, List.nil_append] at hbuf
  have hgrow : (w.buffer i).length ≤ (w'.buffer i).length := by
    rw [← hbuf, List.length_append]
    exact Nat.le_add_right ..
  have hs := step_poller he p
  rw [hq] at hs
  unfold World.HeldBack
  generalize w'.pollers p = y at hs ⊢
  have hno : ∀ ph, q.phase = ph → ph.batch = none → False := fun ph hph h => hbatch (by rw [hph, h])
  cases hs with
  | other => exact ⟨q, a, rfl, rfl, hbatch, ha, hleft, by omega⟩
  | start phase fresh => exact absurd fresh (hw.not_next hq)
  | relayed phase done next =>
    have hnil : q.phase.ahead (n - a) = [] := by
      simp [PollerPhase.ahead, PollerPhase.hand, PollerPhase.left, phase, done]
    exact absurd hfull (not_heldBack_nil hr hnil)
  | @send _ msgs m rest client phase head found =>
    obtain ⟨hlt, hdrop, hahead⟩ := taken_up hr phase head hleft ha hfull
    refine ⟨_, a + 1, rfl, rfl, by simp [PollerPhase.batch], hlt, hdrop.symm, ?_⟩
    have hsame : (PollerPhase.sending client.sender m.clientKey (m.toClient msgs.cert msgs.tree)
        { msgs with messages := rest }).ahead (n - (a + 1)) = q.phase.ahead (n - a) := hahead.symm
    rw [hsame]
    omega
  | @skip _ msgs m rest phase head absent =>
    obtain ⟨hlt, hdrop, hahead⟩ := taken_up hr phase head hleft ha hfull
    refine ⟨_, a + 1, rfl, rfl, by simp [PollerPhase.batch], hlt, hdrop.symm, ?_⟩
    have hkey : m.clientKey ≠ k := by
      rintro rfl
      rw [hk] at absent
      cases absent
    rw [hahead, List.count_cons_of_ne hkey] at hfull
    show CHANNEL_CAPACITY < _ + ((rest.take (n - (a + 1))).map CanisterOutputMessage.clientKey).count k
    omega
  | @put _ j k₀ m msgs phase room =>
    refine ⟨_, a, rfl, rfl, by simp [PollerPhase.batch], ha, ?_, ?_⟩
    · rw [← hleft, phase]
      rfl
    · have hahead : q.phase.ahead (n - a) =
          k₀ :: ({ q with phase := .relaying msgs } : CanisterPoller).phase.ahead (n - a) := by
        rw [PollerPhase.ahead, phase]
        rfl
      rw [hahead] at hfull
      obtain ⟨hj, hopen⟩ := hw.sending_open hq phase
      by_cases hji : j = i
      · subst hji
        have hput : putOn j (w, .put p) = some m := by
          simp only [putOn, hq, Option.map_some, phase, hopen, and_self, if_true]
        rw [hput] at hbuf
        obtain rfl := stored_once hw hq (by rw [phase]; rfl) hj hk
        rw [List.count_cons_self] at hfull
        rw [← hbuf, List.length_append, Option.toList_some, List.length_singleton]
        omega
      · have hkey : k₀ ≠ k := by
          rintro rfl
          rw [hj] at hk
          cases hk
          exact hji rfl
        rw [List.count_cons_of_ne hkey] at hfull
        omega
  | pollFailed phase | polled phase | nonceFailed phase | noncePanic phase => exact (hno _ phase rfl).elim
  | timedOut phase | noMessages phase | wake phase => exact (hno _ phase rfl).elim
  | terminate phase | goOn phase | fail phase | failPanic phase | stop phase => exact (hno _ phase rfl).elim

/-- **Where its messages do not fit, a session holds the poller back**: without one of
its steps the poller does not get to the message, as long as it is registered. -/
theorem held_back {ms : List CanisterOutputMessage} {r : PollerRef} :
    ∀ {es : List Event} {h : List (World × Event)} {w w' : World}, Runs cfg h w →
    w.HeldBack p r ms n k i → (∀ e ∈ es, e.session ≠ some i) → LTS.exec (step cfg) w es = some w' →
    (w'.gateway.clients r).lookup k = some ⟨i⟩ → w'.HeldBack p r ms n k i
  | [], _, w, w', _, hb, _, hex, _ => by
    cases hex
    exact hb
  | e :: es, h, w, w', hr, hb, hes, hex, hk => by
    rw [LTS.exec, Option.bind_eq_some_iff] at hex
    obtain ⟨w₁, he, hex⟩ := hex
    have hes' : ∀ e ∈ es, e.session ≠ some i := fun e' he' => hes e' (List.mem_cons_of_mem _ he')
    have hr₁ := hr.snoc he
    have hk₁ := stored_before_run hes' (reachable hr₁) hex hk
    exact held_back hr₁ (hb.next hr he (hes e List.mem_cons_self) hk₁) hes' hex hk

theorem World.HeldBack.not_at {ms : List CanisterOutputMessage} {r : PollerRef} (hr : Runs cfg h w)
    (hn : n ≤ ms.length) (hb : w.HeldBack p r ms n k i) : ¬ w.AtMessage p (ms.drop n) := by
  rintro ⟨q', msgs, hq', hph, hms⟩
  obtain ⟨q, a, hq, -, -, ha, hleft, hfull⟩ := hb
  rw [hq] at hq'
  cases hq'
  have hl : ms.drop a = ms.drop n := by rw [← hleft, hph, ← hms]; rfl
  have hlen := congrArg List.length hl
  rw [List.length_drop, List.length_drop] at hlen
  have hnil : q'.phase.ahead (n - a) = [] := by
    have ha0 : n - a = 0 := by omega
    rw [ha0, hph]
    rfl
  exact not_heldBack_nil hr hnil hfull

theorem heldBack_of_not_fits (hq : w.pollers p = some q) (hb : q.phase.batch = some msgs)
    (hf : ¬ w.Fits q n k i) : w.HeldBack p q.pollerState q.phase.left n k i :=
  ⟨q, 0, hq, rfl, by rw [hb]; nofun, Nat.zero_le n, rfl, Nat.lt_of_not_le hf⟩

/-- The steps of `relay_messages` do not touch the gateway state. -/
theorem relaying_gateway : ∀ {es : List Event} {w w' : World}, (∀ e ∈ es, e = .relay p ∨ e = .put p) →
    LTS.exec (step cfg) w es = some w' → w'.gateway = w.gateway
  | [], w, w', _, hex => by
    cases hex
    rfl
  | e :: es, w, w', hes, hex => by
    rw [LTS.exec, Option.bind_eq_some_iff] at hex
    obtain ⟨w₁, he, hex⟩ := hex
    have ih := relaying_gateway (fun e' he' => hes e' (List.mem_cons_of_mem _ he')) hex
    have hg := step_gateway he
    obtain rfl | rfl := hes e List.mem_cons_self
    · generalize w₁.gateway = g at hg ih
      cases hg with
      | other => exact ih
    · generalize w₁.gateway = g at hg ih
      cases hg with
      | other => exact ih

/-! ### Slow clients -/

/-- **A slow client holds back the others once its channel is full.** In every reachable
state, for every message left of the batch that a poller relays: the poller gets to it
by its own steps, whatever the sessions do or do not do, exactly if for each registered
client the messages ahead of it fit into the client's channel; and where those for one
client do not, it does not get there without a step of that client's session, as long as
this is registered. -/
theorem slow_clients_hold_back (hr : Runs cfg h w) (hq : w.pollers p = some q)
    (hb : q.phase.batch = some msgs) (hn : n ≤ q.phase.left.length) :
    (w.Reaches cfg p q n ↔ w.AllFit q n) ∧
    ∀ k i, (w.gateway.clients q.pollerState).lookup k = some ⟨i⟩ → ¬ w.Fits q n k i →
      ∀ es w', (∀ e ∈ es, e.session ≠ some i) → LTS.exec (step cfg) w es = some w' →
        (w'.gateway.clients q.pollerState).lookup k = some ⟨i⟩ → ¬ w'.AtMessage p (q.phase.left.drop n) := by
  have hleft : q.phase.left = msgs.messages := by
    unfold PollerPhase.batch at hb
    split at hb <;> rename_i hph
    · cases hb
      rw [hph]
      rfl
    · cases hb
      rw [hph]
      rfl
    · cases hb
  have hheld : ∀ k i, ¬ w.Fits q n k i → ∀ es w', (∀ e ∈ es, e.session ≠ some i) →
      LTS.exec (step cfg) w es = some w' → (w'.gateway.clients q.pollerState).lookup k = some ⟨i⟩ →
      ¬ w'.AtMessage p (q.phase.left.drop n) := by
    intro k i hf es w' hes hex hk
    have hr' : Runs cfg _ w' := hr.append (LTS.exec_run hex)
    exact (held_back hr (heldBack_of_not_fits hq hb hf) hes hex hk).not_at hr' hn
  refine ⟨⟨fun hre k i hk => ?_, fun hfit => ?_⟩, fun k i _ hf => hheld k i hf⟩
  · by_contra hf
    obtain ⟨es, w', hes, hex, hat⟩ := hre
    refine hheld k i hf es w' (fun e he => ?_) hex ?_ hat
    · obtain rfl | rfl := hes e he <;> nofun
    · rw [relaying_gateway hes hex]
      exact hk
  · rw [hleft] at hn
    exact reaches_of_fits cfg (reachable hr) hq hb hn hfit

/-- Two clients of a canister, and a message for each. -/
def pollsForTwo (c : CanisterPrincipal) : List Event :=
  twoClients c ++ [polls 0 [messageFor ⟨[1], 1⟩ "gateway_0", messageFor ⟨[2], 2⟩ "gateway_1"]]

set_option maxRecDepth 20000 in
/-- There is room for the message for the first, so the poller gets to the second. -/
theorem slow_clients_hold_back_room : ∃ q, (World.after .simple (pollsForTwo [9])).pollers 0 = some q ∧
    (World.after .simple (pollsForTwo [9])).Reaches .simple 0 q 1 := by
  have hr : Runs .simple _ (World.after .simple (pollsForTwo [9])) := runs_after (by decide)
  have hq : (World.after .simple (pollsForTwo [9])).pollers 0 = some ⟨[9], 0, 2, .relaying
      ⟨[messageFor ⟨[1], 1⟩ "gateway_0", messageFor ⟨[2], 2⟩ "gateway_1"], [], [], some true⟩⟩ := by decide
  refine ⟨_, hq, (slow_clients_hold_back hr hq rfl (Nat.le_succ 1)).1.mpr fun k i _ => ?_⟩
  have hbuf := buffer_le_length hr i
  have hlen : (LTS.trace (step .simple) World.new (pollsForTwo [9])).length = 13 := by decide
  have hcount : ([⟨[1], 1⟩] : List ClientKey).count k ≤ 1 := List.count_le_length
  show _ + ([⟨[1], 1⟩] : List ClientKey).count k ≤ 100
  omega

/-- Slow clients are harmless: with two clients registered with a poller, it gets to
each message for the one without a step of the session of the other. -/
def SlowClientsHarmless (cfg : Config) (w : World) : Prop :=
  ∀ p q i j k k' n m, w.pollers p = some q → i ≠ j →
    (w.gateway.clients q.pollerState).lookup k = some ⟨i⟩ →
    (w.gateway.clients q.pollerState).lookup k' = some ⟨j⟩ →
    q.phase.left[n]? = some m → m.clientKey = k' →
    ∃ es w', (∀ e ∈ es, e.session ≠ some i) ∧ LTS.exec (step cfg) w es = some w' ∧
      w'.AtMessage p (q.phase.left.drop n)

/-- A poller that is suspended on a session stays so without a step of the session. -/
theorem World.SuspendedOn.next (hw : Sound w) (hs : w.SuspendedOn p i) (he : step cfg w e = some w')
    (hown : e.session ≠ some i) : w'.SuspendedOn p i := by
  obtain ⟨⟨q, k, m, msgs, hq, hph⟩, hopen, hfull⟩ := hs
  have hne : e ≠ .recv i := fun hre => hown (by rw [hre]; rfl)
  have hbuf := buffer_step he i
  rw [receivedBy_none hne, Option.toList_none, List.nil_append] at hbuf
  refine ⟨⟨q, k, m, msgs, ?_, hph⟩, ?_, ?_⟩
  · have hno : ∀ ph, q.phase = ph → ph.pin = none → False := fun ph hph' h => by
      rw [← hph', hph] at h
      cases h
    have hstep := step_poller he p
    rw [hq] at hstep
    generalize w'.pollers p = y at hstep ⊢
    cases hstep with
    | other => rfl
    | start phase fresh => exact absurd fresh (hw.not_next hq)
    | put phase room =>
      rw [hph] at phase
      cases phase
      rw [hopen] at room
      obtain room | room := room
      · cases room
      · exact absurd hfull (Nat.not_le_of_lt room)
    | pollFailed phase | polled phase | nonceFailed phase | noncePanic phase => exact (hno _ phase rfl).elim
    | timedOut phase | noMessages phase | relayed phase | send phase => exact (hno _ phase rfl).elim
    | skip phase | wake phase | terminate phase | goOn phase => exact (hno _ phase rfl).elim
    | fail phase | failPanic phase | stop phase => exact (hno _ phase rfl).elim
  · have hh := step_handler he i
    generalize w.handlers i = a at hh hopen
    generalize w'.handlers i = b at hh ⊢
    cases hh with
    | other | push => exact hopen
    | _ => exact absurd rfl hown
  · rw [← hbuf, List.length_append]
    exact Nat.le_trans hfull (Nat.le_add_right ..)

theorem World.SuspendedOn.exec : ∀ {es : List Event} {w w' : World}, Sound w → w.SuspendedOn p i →
    (∀ e ∈ es, e.session ≠ some i) → LTS.exec (step cfg) w es = some w' → w'.SuspendedOn p i
  | [], w, w', _, hs, _, hex => by
    cases hex
    exact hs
  | e :: es, w, w', hw, hs, hes, hex => by
    rw [LTS.exec, Option.bind_eq_some_iff] at hex
    obtain ⟨w₁, he, hex⟩ := hex
    have hs₁ := hs.next hw he (hes e List.mem_cons_self)
    exact World.SuspendedOn.exec (hw.step he) hs₁ (fun e' he' => hes e' (List.mem_cons_of_mem _ he')) hex

/-- Two clients of a canister, of which the first reads nothing: its channel is full, and
the poller has one more message for it before that for the second. -/
def stallsOneOfTwo (c : CanisterPrincipal) : List Event :=
  twoClients c ++ polls 0 (batchFor ⟨[1], 1⟩ (CHANNEL_CAPACITY + 1) ++ [messageFor ⟨[2], 2⟩ "gateway_101"]) ::
    ((List.replicate CHANNEL_CAPACITY [Event.relay 0, .put 0]).flatten ++ [.relay 0])

set_option maxRecDepth 20000 in
/-- The poller does not get to the message for the second client; in the run in which the
first one reads a message, it does. -/
theorem slow_client_stalls : ∃ cfg h w, Runs cfg h w ∧ ¬ SlowClientsHarmless cfg w ∧
    ∃ w', LTS.exec (step cfg) w [.recv 0, .put 0] = some w' ∧
      w'.AtMessage 0 [messageFor ⟨[2], 2⟩ "gateway_101"] := by
  have hend : ((LTS.exec (step .simple) World.new (stallsOneOfTwo [9])).any fun w =>
      ((w.pollers 0).any fun q => q.pollerState = 0 ∧ q.phase = .sending 0 ⟨[1], 1⟩
        ((messageFor ⟨[1], 1⟩ "gateway_100").toClient [] [])
        ⟨[messageFor ⟨[2], 2⟩ "gateway_101"], [], [], some true⟩) &&
      (w.buffer 0).length = CHANNEL_CAPACITY && !(w.handlers 0).rxDropped &&
      (w.gateway.clients 0).lookup ⟨[1], 1⟩ = some ⟨0⟩ && (w.gateway.clients 0).lookup ⟨[2], 2⟩ = some ⟨1⟩ &&
      (LTS.exec (step .simple) w [.recv 0, .put 0]).any fun w' => (w'.pollers 0).any fun q =>
        q.phase = .relaying ⟨[messageFor ⟨[2], 2⟩ "gateway_101"], [], [], some true⟩) = true := by
    decide +kernel
  obtain ⟨w, hw, hend⟩ := (Option.any_eq_true _ _).mp hend
  simp only [Bool.and_eq_true, decide_eq_true_eq, Bool.not_eq_true'] at hend
  obtain ⟨⟨⟨⟨⟨hp, hfull⟩, hopen⟩, hk₀⟩, hk₁⟩, hnext⟩ := hend
  obtain ⟨q, hq, hph⟩ := (Option.any_eq_true _ _).mp hp
  obtain ⟨href, hsend⟩ := of_decide_eq_true hph
  have hr : Runs .simple _ w := LTS.exec_run hw
  refine ⟨.simple, _, w, hr, fun hno => ?_, ?_⟩
  · have hs : w.SuspendedOn 0 0 := ⟨⟨q, _, _, _, hq, hsend⟩, hopen, Nat.le_of_eq hfull.symm⟩
    have hm : q.phase.left[0]? = some (messageFor ⟨[2], 2⟩ "gateway_101") := by rw [hsend]; rfl
    have hk₀' : (w.gateway.clients q.pollerState).lookup ⟨[1], 1⟩ = some ⟨0⟩ := by rw [href]; exact hk₀
    have hk₁' : (w.gateway.clients q.pollerState).lookup ⟨[2], 2⟩ = some ⟨1⟩ := by rw [href]; exact hk₁
    obtain ⟨es, w', hes, hex, q', msgs, hq', hph', -⟩ := hno 0 q 0 1 _ _ 0 _ hq (by decide) hk₀' hk₁' hm rfl
    obtain ⟨⟨q'', _, _, _, hq'', hph''⟩, -⟩ := hs.exec (reachable hr) hes hex
    rw [hq'] at hq''
    cases hq''
    rw [hph'] at hph''
    cases hph''
  · obtain ⟨w', hw', hat⟩ := (Option.any_eq_true _ _).mp hnext
    obtain ⟨q', hq', hph'⟩ := (Option.any_eq_true _ _).mp hat
    exact ⟨w', hw', q', _, hq', of_decide_eq_true hph', rfl⟩

end IcWsGateway
