/-
# A poller of the system runs the loop of `run_polling`

`runPolling` is the loop by itself: one iteration after the other, each given its
reply and its delays. In the system the same loop is cut into events, between
which everything else happens. Whatever happens there, the poller has done what
`runPolling` does with the replies it got (`poller_runs_loop`): the nonce is that
of the last iteration, the messages it took and those it still has in hand are
the batches of the iterations, it has woken up once for each iteration that asked
to sleep, and it has failed exactly when, and as, the last iteration did.

Key definitions: `replyTo`, `takenBy`, `wakes`, `Follows`.
Key theorems: `runPolling_snoc`, `Follows.reply`, `Follows.own`, `poller_runs_loop`.
-/
import IcWsGateway.PollTiming
import IcWsGateway.Delivery

namespace IcWsGateway

variable {cfg : Config} {w w' : World} {h : List (World × Event)} {e : Event} {p : PollerId} {q q' : CanisterPoller}
  {oc : Bool} {ms n : UInt64}

/-! ### The loop, one iteration longer -/

/-- The nonce after the iterations. -/
def finalNonce (n : UInt64) (its : List Iteration) : UInt64 :=
  (its.getLast?.map Iteration.nextMessageNonce).getD n

/-- How the last of the iterations ended. -/
def outcomeOf (its : List Iteration) : Outcome String Unit :=
  (its.getLast?.map Iteration.result).getD (.ok ())

theorem finalNonce_cons (n : UInt64) (it : Iteration) (its : List Iteration) :
    finalNonce n (it :: its) = finalNonce it.nextMessageNonce its := by
  unfold finalNonce
  rw [List.getLast?_cons]
  rcases its.getLast? with _ | x <;> rfl

theorem outcomeOf_cons (it : Iteration) (its : List Iteration) (hok : it.result = .ok ()) :
    outcomeOf (it :: its) = outcomeOf its := by
  unfold outcomeOf
  rw [List.getLast?_cons]
  rcases its.getLast? with _ | x
  · exact hok
  · rfl

@[simp] theorem finalNonce_snoc (n : UInt64) (its : List Iteration) (it : Iteration) :
    finalNonce n (its ++ [it]) = it.nextMessageNonce := by
  simp [finalNonce]

@[simp] theorem outcomeOf_snoc (its : List Iteration) (it : Iteration) : outcomeOf (its ++ [it]) = it.result := by
  simp [outcomeOf]

theorem runPolling_ok {r : Round} {rs : List Round} (hok : (pollAndRelay oc ms n r.reply r.delays).result = .ok ()) :
    runPolling oc ms n (r :: rs) = pollAndRelay oc ms n r.reply r.delays ::
      runPolling oc ms (pollAndRelay oc ms n r.reply r.delays).nextMessageNonce rs := by
  simp only [runPolling, hok]

theorem runPolling_stop {r : Round} {rs : List Round} (hok : (pollAndRelay oc ms n r.reply r.delays).result ≠ .ok ()) :
    runPolling oc ms n (r :: rs) = [pollAndRelay oc ms n r.reply r.delays] := by
  unfold runPolling
  dsimp only
  split
  · rename_i hres
    exact absurd hres hok
  · rfl

/-- One more reply is one more iteration, as long as the loop goes on. -/
theorem runPolling_snoc (oc : Bool) (ms : UInt64) (r : Round) : ∀ (rs : List Round) (n : UInt64),
    outcomeOf (runPolling oc ms n rs) = .ok () →
    runPolling oc ms n (rs ++ [r]) = runPolling oc ms n rs ++
      [pollAndRelay oc ms (finalNonce n (runPolling oc ms n rs)) r.reply r.delays]
  | [], n, _ => by
    by_cases hok : (pollAndRelay oc ms n r.reply r.delays).result = .ok ()
    · exact runPolling_ok hok
    · exact runPolling_stop hok
  | r₀ :: rs, n, hout => by
    by_cases hok : (pollAndRelay oc ms n r₀.reply r₀.delays).result = .ok ()
    · have htail : outcomeOf (runPolling oc ms (pollAndRelay oc ms n r₀.reply r₀.delays).nextMessageNonce rs) =
          .ok () := by
        rw [← outcomeOf_cons _ _ hok, ← runPolling_ok hok]
        exact hout
      rw [List.cons_append, runPolling_ok hok, runPolling_ok hok, finalNonce_cons, List.cons_append]
      rw [runPolling_snoc oc ms r rs _ htail]
    · rw [runPolling_stop hok] at hout
      exact absurd hout hok

/-! ### What the events of a poller do -/

/-- The poller whose task takes the step. -/
def Event.poller : Event → Option PollerId
  | .pollReply p _ | .relay p | .put p | .wake p | .checkTerminate p | .removeFailed p | .endPoller p => some p
  | _ => none

/-- The reply that the poller `p` gets in the event. -/
def replyTo (p : PollerId) : World × Event → Option PollReply
  | (_, .pollReply p' r) => if p' = p then some r else none
  | _ => none

/-- The sleep of the poller `p` is over. -/
def wakes (p : PollerId) : World × Event → Bool
  | (_, .wake p') => p' = p
  | _ => false

/-- The iteration sleeps, or is going to. -/
def PollerPhase.sleepsYet : PollerPhase → Bool
  | .relaying msgs | .sending _ _ _ msgs => msgs.isEndOfQueue.getD true
  | .sleeping => true
  | _ => false

/-- How the iterations of a poller in this phase have ended. -/
def PollerPhase.outcome : PollerPhase → Outcome String Unit
  | .failed e | .returned (.error e) | .ended (.returned (.error e)) => .err e
  | .ended (.panicked m) => .panicked m
  | _ => .ok ()

/-- The poller `p` has done in the history what the iterations say. -/
structure Follows (its : List Iteration) (p : PollerId) (h : List (World × Event)) (q : CanisterPoller) : Prop where
  nonce : q.nextMessageNonce = finalNonce 0 its
  relayed : q.taken p h = its.flatMap Iteration.relayed
  slept : h.countP (wakes p) + (if q.phase.sleepsYet then 1 else 0) = its.countP fun it => it.asked.isSome
  outcome : outcomeOf its = q.phase.outcome

theorem wakes_other (hp : e.poller ≠ some p) : wakes p (w, e) = false := by
  cases e with
  | wake p' => exact decide_eq_false fun hpp => hp (congrArg some hpp)
  | _ => rfl

theorem replyTo_other (hp : e.poller ≠ some p) : replyTo p (w, e) = none := by
  cases e with
  | pollReply p' r => exact if_neg fun hpp => hp (congrArg some hpp)
  | _ => rfl

theorem relayStep_other (hp : e.poller ≠ some p) : relayStep p (w, e) = none := by
  refine relayStep_none fun he => hp ?_
  rw [he]
  rfl

/-- The others leave the poller alone, or start it. -/
theorem poller_other (he : step cfg w e = some w') (hp : e.poller ≠ some p) :
    w'.pollers p = w.pollers p ∨ p = w.nextPoller ∧ ∃ c r, w'.pollers p = some (.new c r) := by
  have hs := step_poller he p
  generalize w.pollers p = x at hs ⊢
  generalize w'.pollers p = y at hs ⊢
  cases hs with
  | other => exact Or.inl rfl
  | start phase fresh => exact Or.inr ⟨fresh, _, _, rfl⟩
  | _ => exact absurd rfl hp

/-- An iteration that fails has given nothing to `relay_messages` and does not sleep. -/
theorem pollAndRelay_fails {reply : PollReply} {d : Delays}
    (hres : (pollAndRelay oc ms n reply d).result ≠ .ok ()) :
    (pollAndRelay oc ms n reply d).relayed = [] ∧ (pollAndRelay oc ms n reply d).asked = none := by
  rcases hr : pollCanister reply with x | status
  · rw [pollAndRelay_error hr]
    exact ⟨rfl, rfl⟩
  · cases status with
    | noMessagesPolled =>
      rw [pollAndRelay_idle hr, sleepForRest_eq] at hres
      exact absurd rfl hres
    | timedOut =>
      rw [pollAndRelay_timedOut hr]
      exact ⟨rfl, rfl⟩
    | messagesPolled out =>
      rcases hn : updateNonce oc n out.messages with ⟨k, u | x | m⟩
      · by_cases hend : out.isEndOfQueue.getD true = true
        · rw [pollAndRelay_drained hr hn hend, sleepForRest_eq] at hres
          exact absurd rfl hres
        · rw [pollAndRelay_more hr hn hend] at hres
          exact absurd rfl hres
      · rw [pollAndRelay_err hr hn]
        exact ⟨rfl, rfl⟩
      · rw [pollAndRelay_panicked hr hn]
        exact ⟨rfl, rfl⟩

/-- Where an iteration leaves its poller, the phase tells what it did. -/
theorem Iteration.Leaves.phase {it : Iteration} {ph : PollerPhase} (hl : it.Leaves ph)
    (hfails : it.result ≠ .ok () → it.relayed = [] ∧ it.asked = none) :
    ph.left = it.relayed ∧ ph.sleepsYet = it.asked.isSome ∧ it.result = ph.outcome := by
  cases ph with
  | relaying out =>
    obtain ⟨hresult, hrelayed, hasked⟩ := hl
    exact ⟨hrelayed.symm, (Bool.eq_iff_iff.mpr hasked).symm, hresult⟩
  | sleeping =>
    obtain ⟨hresult, hrelayed, hasked⟩ := hl
    exact ⟨hrelayed.symm, hasked.symm, hresult⟩
  | checking =>
    obtain ⟨hresult, hrelayed, hasked⟩ := hl
    exact ⟨hrelayed.symm, by rw [hasked]; rfl, hresult⟩
  | failed x =>
    have hresult : it.result = .err x := hl
    obtain ⟨hrelayed, hasked⟩ := hfails (by rw [hresult]; nofun)
    exact ⟨hrelayed.symm, by rw [hasked]; rfl, hresult⟩
  | ended r =>
    obtain ⟨m, rfl, hresult⟩ := hl
    obtain ⟨hrelayed, hasked⟩ := hfails (by rw [hresult]; nofun)
    exact ⟨hrelayed.symm, by rw [hasked]; rfl, hresult⟩
  | _ => exact hl.elim

/-- Only a poller that awaits a reply gets one. -/
theorem polling_of_reply {r : PollReply} (hq : w.pollers p = some q)
    (he : step cfg w (.pollReply p r) = some w') : q.phase = .polling := by
  cases step_cases he with
  | pollFailed poller phase | polled poller phase | nonceFailed poller phase =>
    rw [hq] at poller
    cases poller
    exact phase
  | noncePanic poller phase | timedOut poller phase | noMessages poller phase =>
    rw [hq] at poller
    cases poller
    exact phase

/-- A reply begins an iteration. -/
theorem Follows.reply {its : List Iteration} {r : PollReply} (hf : Follows its p h q) (hq : w.pollers p = some q)
    (he : step cfg w (.pollReply p r) = some w') (hq' : w'.pollers p = some q') (ms : UInt64) (d : Delays) :
    Follows (its ++ [pollAndRelay cfg.overflowChecks ms (finalNonce 0 its) r d]) p (h ++ [(w, .pollReply p r)]) q' := by
  have hpolling := polling_of_reply hq he
  obtain ⟨q'', hq'', hnonce, hleaves⟩ := pollReply_agrees ms d hq he
  rw [hq'] at hq''
  cases hq''
  rw [hf.nonce] at hnonce hleaves
  have hrelayed := hf.relayed
  have hslept := hf.slept
  rw [hpolling] at hslept
  have hfails := @pollAndRelay_fails cfg.overflowChecks ms (finalNonce 0 its) r d
  generalize pollAndRelay cfg.overflowChecks ms (finalNonce 0 its) r d = it at hnonce hleaves hfails
  obtain ⟨hleft, hsleeps, hresult⟩ : q'.phase.left = it.relayed ∧ q'.phase.sleepsYet = it.asked.isSome ∧
      it.result = q'.phase.outcome := hleaves.phase hfails
  refine ⟨?_, ?_, ?_, ?_⟩
  · rw [finalNonce_snoc, hnonce]
  · rw [List.flatMap_append, List.flatMap_singleton, ← hrelayed, ← hleft]
    simp [CanisterPoller.taken, hpolling, PollerPhase.left, relayStep]
  · rw [List.countP_append, List.countP_append, List.countP_singleton, List.countP_singleton, ← hslept, hsleeps]
    rfl
  · rw [outcomeOf_snoc, hresult]

/-- What the other events of a poller do to its phase. -/
inductive Move (p : PollerId) : PollerPhase → Event → PollerPhase → Prop
  | drained (msgs : CanisterOutputCertifiedMessages) (done : msgs.messages = [])
      (last : msgs.isEndOfQueue.getD true = true) : Move p (.relaying msgs) (.relay p) .sleeping
  | more (msgs : CanisterOutputCertifiedMessages) (done : msgs.messages = [])
      (more : msgs.isEndOfQueue.getD true = false) : Move p (.relaying msgs) (.relay p) .checking
  | send (msgs : CanisterOutputCertifiedMessages) (m : CanisterOutputMessage) (rest : List CanisterOutputMessage)
      (i : ClientId) (head : msgs.messages = m :: rest) : Move p (.relaying msgs) (.relay p)
        (.sending i m.clientKey (m.toClient msgs.cert msgs.tree) { msgs with messages := rest })
  | skip (msgs : CanisterOutputCertifiedMessages) (m : CanisterOutputMessage) (rest : List CanisterOutputMessage)
      (head : msgs.messages = m :: rest) :
      Move p (.relaying msgs) (.relay p) (.relaying { msgs with messages := rest })
  | put (i : ClientId) (k : ClientKey) (m : CanisterToClientMessage) (msgs : CanisterOutputCertifiedMessages) :
      Move p (.sending i k m msgs) (.put p) (.relaying msgs)
  | wake : Move p .sleeping (.wake p) .checking
  | terminate : Move p .checking (.checkTerminate p) (.returned (.ok ()))
  | goOn : Move p .checking (.checkTerminate p) .polling
  | fail (x : String) : Move p (.failed x) (.removeFailed p) (.returned (.error x))
  | stop (r : Except String Unit) : Move p (.returned r) (.endPoller p) (.ended (.returned r))

theorem Move.to {ph ph' : PollerPhase} (hm : Move p ph e ph') (hph : q.phase = ph) : Move p q.phase e ph' := by
  rw [hph]
  exact hm

/-- A poller finds the entry it removes, so it does not panic there. -/
theorem own_move (hw : Sound w) (he : step cfg w e = some w') (hp : e.poller = some p)
    (hr : ∀ r, e ≠ .pollReply p r) (hq : w.pollers p = some q) :
    ∃ ph, Move p q.phase e ph ∧ w'.pollers p = some { q with phase := ph } := by
  have hpoller : ∀ {x}, w.pollers p = some x → x = q := fun hx => Option.some.inj (hx.symm.trans hq)
  cases step_cases he with
  | relayed poller phase done last =>
    cases hp
    obtain rfl := hpoller poller
    exact ⟨_, (Move.drained _ done last).to phase, Function.update_self ..⟩
  | relayedMore poller phase done more =>
    cases hp
    obtain rfl := hpoller poller
    exact ⟨_, (Move.more _ done more).to phase, Function.update_self ..⟩
  | send poller phase head found =>
    cases hp
    obtain rfl := hpoller poller
    exact ⟨_, (Move.send _ _ _ _ head).to phase, Function.update_self ..⟩
  | skip poller phase head absent =>
    cases hp
    obtain rfl := hpoller poller
    exact ⟨_, (Move.skip _ _ _ head).to phase, Function.update_self ..⟩
  | putDropped poller phase | put poller phase =>
    cases hp
    obtain rfl := hpoller poller
    exact ⟨_, (Move.put _ _ _ _).to phase, Function.update_self ..⟩
  | wake poller phase =>
    cases hp
    obtain rfl := hpoller poller
    exact ⟨_, Move.wake.to phase, Function.update_self ..⟩
  | terminate poller phase =>
    cases hp
    obtain rfl := hpoller poller
    exact ⟨_, Move.terminate.to phase, Function.update_self ..⟩
  | goOn poller phase =>
    cases hp
    obtain rfl := hpoller poller
    exact ⟨_, Move.goOn.to phase, Function.update_self ..⟩
  | fail poller phase =>
    cases hp
    obtain rfl := hpoller poller
    exact ⟨_, (Move.fail _).to phase, Function.update_self ..⟩
  | failPanic poller phase free entry =>
    cases hp
    obtain rfl := hpoller poller
    rw [hw.entry_of_active hq (by rw [phase]; rfl)] at entry
    cases entry
  | stop poller phase =>
    cases hp
    obtain rfl := hpoller poller
    exact ⟨_, (Move.stop _).to phase, Function.update_self ..⟩
  | pollFailed | polled | nonceFailed | noncePanic | timedOut | noMessages =>
    cases hp
    exact absurd rfl (hr _)
  | _ => cases hp

/-- The other events of a poller go on with its iteration. -/
theorem Follows.own {its : List Iteration} {ph : PollerPhase} (hf : Follows its p h q) (hq : w.pollers p = some q)
    (hm : Move p q.phase e ph) : Follows its p (h ++ [(w, e)]) { q with phase := ph } := by
  have htaken : ((relayStep p (w, e)).map RelayStep.message).toList ++ ph.left = q.phase.left := by
    generalize hph : q.phase = ph₀ at hm
    cases hm with
    | drained msgs done | more msgs done =>
      rw [relayStep_self hq, hph]
      simp [PollerPhase.next, PollerPhase.left, done]
    | send msgs m rest i head | skip msgs m rest head =>
      rw [relayStep_self hq, hph]
      simp [PollerPhase.next, PollerPhase.left, head]
    | _ => rfl
  have hslept : (if wakes p (w, e) then 1 else 0) + (if ph.sleepsYet then 1 else 0) =
      if q.phase.sleepsYet then 1 else 0 := by
    generalize q.phase = ph₀ at hm
    cases hm with
    | drained msgs done last | more msgs done last => simp [PollerPhase.sleepsYet, wakes, last]
    | wake => simp [PollerPhase.sleepsYet, wakes]
    | send | skip | put | terminate | goOn | fail | stop => exact Nat.zero_add _
  have houtcome : ph.outcome = q.phase.outcome := by
    generalize q.phase = ph₀ at hm
    cases hm with
    | stop r => rcases r with x | ⟨⟩ <;> rfl
    | _ => rfl
  refine ⟨hf.nonce, ?_, ?_, by rw [hf.outcome, houtcome]⟩
  · rw [← hf.relayed, CanisterPoller.taken, CanisterPoller.taken, ← htaken, LTS.filterMap_snoc]
    rcases relayStep p (w, e) with _ | x <;> simp
  · have hold := hf.slept
    rw [List.countP_append, List.countP_singleton]
    show _ + (if ph.sleepsYet then 1 else 0) = _
    omega

/-- The others change nothing of what the poller has done. -/
theorem Follows.other {its : List Iteration} (hf : Follows its p h q) (hp : e.poller ≠ some p) :
    Follows its p (h ++ [(w, e)]) q := by
  refine ⟨hf.nonce, ?_, ?_, hf.outcome⟩
  · rw [taken_of_left (relayStep_other hp) rfl]
    exact hf.relayed
  · rw [List.countP_append, List.countP_singleton, wakes_other hp]
    exact hf.slept

/-! ### Every run -/

/-- Only a poller that is there takes steps. -/
theorem poller_there (he : step cfg w e = some w') (hp : e.poller = some p) : w.pollers p ≠ none := by
  intro hn
  have hgone : ∀ {q}, w.pollers p ≠ some q := fun hq => Option.some_ne_none _ (hq.symm.trans hn)
  cases step_cases he with
  | pollFailed poller | polled poller | nonceFailed poller | noncePanic poller | timedOut poller =>
    cases hp
    exact hgone poller
  | noMessages poller | relayed poller | relayedMore poller | send poller | skip poller | putDropped poller =>
    cases hp
    exact hgone poller
  | put poller | wake poller | terminate poller | goOn poller | fail poller | failPanic poller | stop poller =>
    cases hp
    exact hgone poller
  | _ => cases hp

/-- A poller that is not there yet has taken no step. -/
theorem no_steps_before (hr : Runs cfg h w) (hn : w.pollers p = none) : ∀ x ∈ h, x.2.poller ≠ some p := by
  intro x hx hp
  obtain ⟨t, e⟩ := x
  obtain ⟨h₁, h₂, rfl⟩ := List.append_of_mem hx
  obtain ⟨hr₁, t', he, hr₂⟩ := hr.at_event
  obtain ⟨q, hq⟩ := Option.ne_none_iff_exists'.mp (poller_there he hp)
  obtain ⟨q', hq', -⟩ := poller_keeps (LTS.run_cons he hr₂) (reachable hr₁) hq
  rw [hn] at hq'
  cases hq'

theorem Follows.start (hno : ∀ x ∈ h, x.2.poller ≠ some p) (c : CanisterPrincipal) (r : PollerRef) :
    Follows [] p h (.new c r) := by
  have hrelays : h.filterMap (relayStep p) = [] :=
    List.filterMap_eq_nil_iff.mpr fun x hx => relayStep_other (hno x hx)
  have hwakes : h.countP (wakes p) = 0 := by
    rw [List.countP_eq_zero]
    intro x hx
    rw [wakes_other (w := x.1) (hno x hx)]
    exact Bool.false_ne_true
  refine ⟨rfl, ?_, ?_, rfl⟩
  · rw [CanisterPoller.taken, hrelays]
    rfl
  · rw [hwakes]
    rfl

theorem replies_none (hno : ∀ x ∈ h, x.2.poller ≠ some p) : h.filterMap (replyTo p) = [] :=
  List.filterMap_eq_nil_iff.mpr fun x hx => replyTo_other (hno x hx)

/-- **A poller of the system runs the loop of `run_polling`**, however its steps lie among those of the
others and whatever the delays: there is one iteration for each reply it got, its nonce is that of the last
one, the messages it has relayed or skipped and those it has in hand are the batches of the iterations, it has
slept and is to sleep once for each that asked to, and it is over with the error or the panic of the last. -/
theorem poller_runs_loop (hr : Runs cfg h w) (hq : w.pollers p = some q) (ms : UInt64) {rounds : List Round}
    (hrounds : rounds.map Round.reply = h.filterMap (replyTo p)) :
    (runPolling cfg.overflowChecks ms 0 rounds).length = rounds.length ∧
      Follows (runPolling cfg.overflowChecks ms 0 rounds) p h q := by
  induction hr generalizing q rounds with
  | nil => cases hq
  | @snoc h t t' e hr he ih =>
    rw [LTS.filterMap_snoc] at hrounds
    by_cases hp : e.poller = some p
    · obtain ⟨q₀, hq₀⟩ := Option.ne_none_iff_exists'.mp (poller_there he hp)
      by_cases hreply : ∃ r, e = .pollReply p r
      · obtain ⟨r, rfl⟩ := hreply
        obtain ⟨rounds', last, rfl, hrounds', hlast⟩ := List.map_eq_append_iff.mp hrounds
        obtain ⟨hlen, hf⟩ := ih hq₀ hrounds'
        obtain ⟨round, rfl⟩ : ∃ round, last = [round] := by
          rw [← List.length_eq_one_iff]
          have hone := congrArg List.length hlast
          simpa [replyTo] using hone
        have hr' : round.reply = r := by simpa [replyTo] using hlast
        have hgoing : outcomeOf (runPolling cfg.overflowChecks ms 0 rounds') = .ok () := by
          rw [hf.outcome, polling_of_reply hq₀ he]
          rfl
        rw [runPolling_snoc _ _ _ _ _ hgoing, hr']
        refine ⟨by simp [hlen], hf.reply hq₀ he hq ms round.delays⟩
      · push Not at hreply
        have hno : replyTo p (t, e) = none := by
          cases e with
          | pollReply p' r => exact if_neg fun hpp => hreply r (by rw [hpp])
          | _ => rfl
        rw [hno, Option.toList_none, List.append_nil] at hrounds
        obtain ⟨hlen, hf⟩ := ih hq₀ hrounds
        obtain ⟨ph, hm, hq'⟩ := own_move (reachable hr) he hp hreply hq₀
        rw [hq] at hq'
        cases hq'
        exact ⟨hlen, hf.own hq₀ hm⟩
    · rw [replyTo_other hp, Option.toList_none, List.append_nil] at hrounds
      obtain hsame | ⟨rfl, c, r, hnew⟩ := poller_other he hp
      · rw [hsame] at hq
        obtain ⟨hlen, hf⟩ := ih hq hrounds
        exact ⟨hlen, hf.other hp⟩
      · rw [hq] at hnew
        cases hnew
        have hnone := (reachable hr).next_none
        have hno := no_steps_before hr hnone
        rw [replies_none hno, List.map_eq_nil_iff] at hrounds
        subst hrounds
        exact ⟨rfl, (Follows.start hno c r).other hp⟩

/-- A session is set up, its poller relays a batch with one message while the client closes the session,
sleeps, and fails in its next poll. -/
def pollsTwice (c : CanisterPrincipal) (k : ClientKey) : List Event :=
  opens 0 (wsOpen c k) ++ [polls 0 [messageFor k "gateway_5"], .relay 0, .readWs 0 (.ok .close), .put 0, .relay 0, .wake 0,
    .checkTerminate 0, .pollReply 0 (.replied (.error (.candid "trap")))]

/-- The replies of this course, with delays. -/
def pollsTwiceRounds (k : ClientKey) : List Round :=
  [⟨.replied (.ok ⟨[messageFor k "gateway_5"], [], [], some true⟩), ⟨3, 2, 1, 0⟩⟩,
    ⟨.replied (.error (.candid "trap")), ⟨7, 0, 0, 0⟩⟩]

set_option maxRecDepth 20000 in
/-- This poller has run two iterations. -/
theorem poller_runs_loop_twice :
    Follows (runPolling false 200 0 (pollsTwiceRounds ⟨[1], 1⟩)) 0
      (LTS.trace (step .simple) World.new (pollsTwice [9] ⟨[1], 1⟩))
      ⟨[9], 0, 6, .failed "Unrecoverable candid error: trap"⟩ := by
  have hr : Runs .simple _ (World.after .simple (pollsTwice [9] ⟨[1], 1⟩)) := runs_after (by decide)
  have hq : (World.after .simple (pollsTwice [9] ⟨[1], 1⟩)).pollers 0 =
      some ⟨[9], 0, 6, .failed "Unrecoverable candid error: trap"⟩ := by decide
  have hrounds : (pollsTwiceRounds ⟨[1], 1⟩).map Round.reply = (LTS.trace (step .simple) World.new
      (pollsTwice [9] ⟨[1], 1⟩)).filterMap (replyTo 0) := by decide
  exact (poller_runs_loop hr hq 200 hrounds).2

end IcWsGateway
