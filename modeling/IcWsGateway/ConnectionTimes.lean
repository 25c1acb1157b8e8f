/-
# The connections being accepted

What the listener knows of the connections it has accepted. A connection is in
one place at a time: its handshake is under way, its task waits to send it, it is
in the channel, or its session handler has been started (`Placed`). So a
completed handshake leads to one session handler, and nothing stands in its way
(`reaches_handler`). `clients_connection_time` has the time of every connection
ever accepted (`Timed`), so the `unwrap` in `start_session_handler` finds the
connection's own time.

An entry is never removed, though: the map is exact only until the first
handshake fails or the first connection is handed over (`connection_times_iff`).

Key definitions: `WsListener.Placed`, `WsListener.Timed`, `WsListener.Exact`.
Key theorems: `WsListener.placed_run`, `WsListener.timed_run`,
`WsListener.reaches_handler`, `WsListener.connection_times_iff`.
-/
import IcWsGateway.WsListener

namespace IcWsGateway
namespace WsListener

variable {w w' : WsListener} {e : Event} {h g : List (WsListener × Event)} {tls : Bool} {id : ClientId}

/-! ### Where a connection is -/

/-- The tasks in this state whose handshake is under way. -/
def inHandshake : Option AcceptTask → ℕ
  | some (.handshaking _) => 1
  | _ => 0

/-- The tasks in this state that wait to send their connection. -/
def inSending : Option AcceptTask → ℕ
  | some (.sending _) => 1
  | _ => 0

section Tasks

variable (stream : TcpStream) (sent : CustomStream)

@[simp] theorem inHandshake_none : inHandshake none = 0 := rfl
@[simp] theorem inHandshake_handshaking : inHandshake (some (.handshaking stream)) = 1 := rfl
@[simp] theorem inHandshake_sending : inHandshake (some (.sending sent)) = 0 := rfl
@[simp] theorem inSending_none : inSending none = 0 := rfl
@[simp] theorem inSending_handshaking : inSending (some (.handshaking stream)) = 0 := rfl
@[simp] theorem inSending_sending : inSending (some (.sending sent)) = 1 := rfl

end Tasks

/-- How often the channel has the connection `id`. -/
def queued (w : WsListener) (id : ClientId) : ℕ := w.channel.countP fun c => c.clientId = id

/-- The session handlers that were started for the connection `id`. -/
def started (w : WsListener) (id : ClientId) : ℕ := w.handlers.countP fun s => s.clientId = id

/-- How often the connection `id` is past its handshake. -/
def beyond (w : WsListener) (id : ClientId) : ℕ :=
  inSending (w.tasks.lookup id) + w.queued id + w.started id

/-- How often the connection `id` is anywhere. -/
def places (w : WsListener) (id : ClientId) : ℕ := inHandshake (w.tasks.lookup id) + w.beyond id

/-- The connection that the event accepts. -/
def accepts : WsListener × Event → Option ClientId
  | (w, .accepted _ _) => some w.nextClientId
  | _ => none

/-- The connection whose handshake the event completes; without TLS there is none to
do. -/
def completes : WsListener × Event → Option ClientId
  | (w, .accepted _ _) => if w.tlsEnabled then none else some w.nextClientId
  | (_, .handshake id .completed) => some id
  | _ => none

/-- The connections whose handshake was completed. -/
def completions (h : List (WsListener × Event)) : List ClientId := h.filterMap completes

/-- Every connection is in one place at most, those to come in none, and past its
handshake as often as that was completed. -/
structure Placed (h : List (WsListener × Event)) (w : WsListener) : Prop where
  once : ∀ id, w.places id ≤ 1
  fresh : ∀ id, w.nextClientId ≤ id → w.places id = 0
  completed : ∀ id, (completions h).count id = w.beyond id

theorem pending_iff : w.Pending id ↔ 0 < inHandshake (w.tasks.lookup id) + inSending (w.tasks.lookup id) + w.queued id := by
  have hq : (∃ c ∈ w.channel, c.clientId = id) ↔ 0 < w.queued id := by
    simp only [queued, List.countP_pos_iff, decide_eq_true_eq]
  unfold Pending
  rw [hq]
  rcases w.tasks.lookup id with _ | (stream | stream)
  · simp
  · simp
  · simp

/-- A connection that is accepted starts its handshake, or has none to do. -/
theorem accepted_places {stream : TcpStream} {now : Instant} (hf : w.places w.nextClientId = 0)
    (hw' : w' = { acceptConnection w stream now with nextClientId := w.nextClientId + 1 }) (id : ClientId) :
    w'.beyond id = w.beyond id + (if completes (w, .accepted stream now) = some id then 1 else 0) ∧
      w'.places id ≤ w.places id + (if w.nextClientId = id then 1 else 0) := by
  have hlookup : w'.tasks.lookup id = if id = w.nextClientId then
      some (if w.tlsEnabled then .handshaking stream else .sending (.tcp stream)) else w.tasks.lookup id := by
    rw [hw']
    exact FiniteMap.lookup_insert_eq ..
  have hq : w'.queued id = w.queued id := by rw [hw']; rfl
  have hst : w'.started id = w.started id := by rw [hw']; rfl
  simp only [places, beyond] at hf ⊢
  rw [hlookup, hq, hst]
  by_cases hid : id = w.nextClientId
  · subst hid
    rcases htls : w.tlsEnabled with _ | _
    · simp only [completes, htls, inHandshake_sending, inSending_sending, Bool.false_eq_true, if_false, if_true]
      omega
    · simp only [completes, htls, inHandshake_handshaking, inSending_handshaking, if_true, reduceCtorEq, if_false]
      omega
  · have hne : ¬ w.nextClientId = id := fun heq => hid heq.symm
    have hno : ¬ completes (w, .accepted stream now) = some id := by
      simp only [completes]
      split_ifs
      · nofun
      · exact fun heq => hne (Option.some.inj heq)
    rw [if_neg hid, if_neg hno, if_neg hne]
    omega

/-- A task takes its connection one place further, or ends. -/
theorem TaskStep.places (hs : TaskStep w e w') (id : ClientId) :
    w'.beyond id = w.beyond id + (if completes (w, e) = some id then 1 else 0) ∧
      w'.places id ≤ w.places id := by
  cases hs with
  | completed id₀ stream found =>
    have hlookup : (w.tasks.insert id₀ (.sending (.tcpWithTls stream))).lookup id =
        if id = id₀ then some (.sending (.tcpWithTls stream)) else w.tasks.lookup id :=
      FiniteMap.lookup_insert_eq ..
    simp only [WsListener.places, beyond, queued, started, hlookup, completes, Option.some.injEq]
    by_cases hid : id = id₀
    · subst hid
      simp only [found, inHandshake_handshaking, inHandshake_sending, inSending_handshaking, inSending_sending,
        if_true]
      omega
    · simp only [hid, Ne.symm hid, if_false]
      omega
  | ended id₀ stream result lost found =>
    have hlookup : (w.tasks.erase id₀).lookup id = if id = id₀ then none else w.tasks.lookup id :=
      FiniteMap.lookup_erase_eq ..
    have hno : completes (w, .handshake id₀ result) = none := by
      cases result
      · exact absurd rfl lost
      · rfl
      · rfl
    simp only [WsListener.places, beyond, queued, started, hlookup, hno]
    by_cases hid : id = id₀
    · subst hid
      simp only [found, inHandshake_handshaking, inHandshake_none, inSending_handshaking, inSending_none, if_true,
        reduceCtorEq, if_false]
      omega
    · simp only [hid, reduceCtorEq, if_false]
      omega
  | sent id₀ stream found room =>
    have hlookup : (w.tasks.erase id₀).lookup id = if id = id₀ then none else w.tasks.lookup id :=
      FiniteMap.lookup_erase_eq ..
    simp only [WsListener.places, beyond, queued, started, hlookup, completes, List.countP_append,
      List.countP_singleton, decide_eq_true_eq]
    by_cases hid : id = id₀
    · subst hid
      simp only [found, inHandshake_sending, inHandshake_none, inSending_sending, inSending_none, if_true,
        reduceCtorEq, if_false]
      omega
    · simp only [hid, Ne.symm hid, reduceCtorEq, if_false]
      omega

/-- **Every event takes a connection one place further**, or out. -/
theorem Moved.places (hm : Moved w e w') (hf : w.places w.nextClientId = 0) (id : ClientId) :
    w'.beyond id = w.beyond id + (if completes (w, e) = some id then 1 else 0) ∧
      w'.places id ≤ w.places id + (if accepts (w, e) = some id then 1 else 0) := by
  cases hm with
  | accepted stream now =>
    simp only [accepts, Option.some.injEq]
    exact accepted_places hf rfl id
  | disabled empty => exact ⟨rfl, Nat.le_refl _⟩
  | handedOver c rest start event head found =>
    have hno : completes (w, e) = none := by
      rcases event with rfl | rfl <;> rfl
    simp only [WsListener.places, beyond, queued, started, head, hno, List.countP_cons, List.countP_append,
      List.countP_nil, decide_eq_true_eq, reduceCtorEq, if_false]
    omega
  | task step =>
    obtain ⟨h1, h2⟩ := step.places id
    exact ⟨h1, Nat.le_trans h2 (Nat.le_add_right ..)⟩

/-- The number of the next connection. -/
theorem Moved.nextClientId (hm : Moved w e w') :
    (accepts (w, e) = some w.nextClientId ∧ w'.nextClientId = w.nextClientId + 1) ∨
      (accepts (w, e) = none ∧ w'.nextClientId = w.nextClientId) := by
  cases hm with
  | accepted stream now => exact Or.inl ⟨rfl, rfl⟩
  | disabled empty => exact Or.inr ⟨rfl, rfl⟩
  | handedOver c rest start event head found =>
    refine Or.inr ⟨?_, rfl⟩
    rcases event with rfl | rfl <;> rfl
  | task step => cases step <;> exact Or.inr ⟨rfl, rfl⟩

theorem Placed.step (hp : Placed h w) (hm : Moved w e w') : Placed (h ++ [(w, e)]) w' := by
  have hplaces := hm.places (hp.fresh _ (Nat.le_refl _))
  have hnext := hm.nextClientId
  constructor
  · intro id
    have hle := (hplaces id).2
    have honce := hp.once id
    by_cases hid : accepts (w, e) = some id
    · rw [if_pos hid] at hle
      have hfresh : w.places id = 0 := by
        apply hp.fresh id
        rcases hnext with ⟨ha, -⟩ | ⟨ha, -⟩
        · rw [ha, Option.some.injEq] at hid
          exact Nat.le_of_eq hid
        · rw [ha] at hid
          cases hid
      omega
    · rw [if_neg hid] at hle
      omega
  · intro id hid
    have hle := (hplaces id).2
    have hold : w.nextClientId ≤ id ∧ ¬ accepts (w, e) = some id := by
      rcases hnext with ⟨ha, hn⟩ | ⟨ha, hn⟩
      · rw [hn] at hid
        rw [ha, Option.some.injEq]
        exact ⟨Nat.le_of_succ_le hid, Nat.ne_of_lt hid⟩
      · rw [hn] at hid
        rw [ha]
        exact ⟨hid, nofun⟩
    have hfresh : w.places id = 0 := hp.fresh id hold.1
    rw [if_neg hold.2] at hle
    omega
  · intro id
    have hcount : (completions (h ++ [(w, e)])).count id =
        (completions h).count id + (if completes (w, e) = some id then 1 else 0) := by
      unfold completions
      rw [LTS.filterMap_snoc, List.count_append]
      rcases completes (w, e) with _ | id'
      · rfl
      · simp only [Option.toList_some, List.count_singleton, beq_iff_eq, Option.some.injEq]
    rw [hcount, (hplaces id).1, hp.completed id]

theorem placed_init (tls : Bool) : Placed [] (init tls) := by
  have hnone : ∀ id, (init tls).places id = 0 := by
    intro id
    have hlookup : (init tls).tasks.lookup id = none := FiniteMap.lookup_empty id
    simp only [places, beyond, hlookup]
    rfl
  refine ⟨fun id => ?_, fun id _ => hnone id, fun id => ?_⟩
  · rw [hnone id]
    omega
  · have hle : (init tls).beyond id ≤ (init tls).places id := Nat.le_add_left ..
    rw [hnone id] at hle
    exact (Nat.le_zero.mp hle).symm

/-- **In every run every connection is in one place.** -/
theorem placed_run (hr : LTS.Run step (init tls) h w) : Placed h w := by
  induction hr with
  | nil => exact placed_init tls
  | snoc hr hs ih => exact ih.step ((sound_run hr).moved hs)

/-! ### The times of the connections -/

/-- The time of the event, if it accepts the connection `id`. -/
def acceptedAt (id : ClientId) : WsListener × Event → Option Instant
  | (w, .accepted _ now) => if w.nextClientId = id then some now else none
  | _ => none

/-- The time at which the connection `id` was accepted. -/
def acceptTime (h : List (WsListener × Event)) (id : ClientId) : Option Instant :=
  h.findSome? (acceptedAt id)

theorem acceptTime_snoc (h : List (WsListener × Event)) (x : WsListener × Event) (id : ClientId) :
    acceptTime (h ++ [x]) id = (acceptTime h id).or (acceptedAt id x) := by
  unfold acceptTime
  rw [List.findSome?_append]
  congr 1
  simp only [List.findSome?_cons, List.findSome?_nil]
  cases acceptedAt id x <;> rfl

/-- The map has every connection that was ever accepted, with its own time, and every
session handler was started with the time of its connection. -/
structure Timed (h : List (WsListener × Event)) (w : WsListener) : Prop where
  times : ∀ id, w.clientsConnectionTime.lookup id = acceptTime h id
  known : ∀ id, (w.clientsConnectionTime.lookup id).isSome ↔ id < w.nextClientId
  starts : ∀ s ∈ w.handlers, acceptTime h s.clientId = some s.start

/-- No event but an accept changes the map. -/
theorem Moved.times (hm : Moved w e w') : (∃ stream now, e = .accepted stream now ∧
      w' = { acceptConnection w stream now with nextClientId := w.nextClientId + 1 }) ∨
    (w'.clientsConnectionTime = w.clientsConnectionTime ∧ w'.nextClientId = w.nextClientId ∧
      ∀ id, acceptedAt id (w, e) = none) := by
  cases hm with
  | accepted stream now => exact Or.inl ⟨stream, now, rfl, rfl⟩
  | disabled empty => exact Or.inr ⟨rfl, rfl, fun _ => rfl⟩
  | handedOver c rest start event head found =>
    refine Or.inr ⟨rfl, rfl, fun _ => ?_⟩
    rcases event with rfl | rfl <;> rfl
  | task step => cases step <;> exact Or.inr ⟨rfl, rfl, fun _ => rfl⟩

/-- What an event adds to the session handlers. -/
theorem Moved.handlers (hm : Moved w e w') : ∀ s ∈ w'.handlers, s ∈ w.handlers ∨
    w.clientsConnectionTime.lookup s.clientId = some s.start := by
  cases hm with
  | accepted | disabled => exact fun s hs => Or.inl hs
  | handedOver c rest start event head found =>
    intro s hs
    rcases List.mem_append.mp hs with hs | hs
    · exact Or.inl hs
    · rw [List.mem_singleton] at hs
      subst hs
      exact Or.inr found
  | task step => cases step <;> exact fun s hs => Or.inl hs

theorem Timed.step (ht : Timed h w) (hm : Moved w e w') : Timed (h ++ [(w, e)]) w' := by
  have hstarts : ∀ s ∈ w'.handlers, acceptTime (h ++ [(w, e)]) s.clientId = some s.start := by
    intro s hs
    have hold : acceptTime h s.clientId = some s.start := by
      rcases hm.handlers s hs with hs | hs
      · exact ht.starts s hs
      · rw [← ht.times]
        exact hs
    rw [acceptTime_snoc, hold]
    rfl
  obtain ⟨stream, now, rfl, hw'⟩ | ⟨hmap, hnext, hno⟩ := hm.times
  · have hlookup : ∀ id, w'.clientsConnectionTime.lookup id =
        if id = w.nextClientId then some now else w.clientsConnectionTime.lookup id := by
      intro id
      rw [hw']
      exact FiniteMap.lookup_insert_eq ..
    have hn : w'.nextClientId = w.nextClientId + 1 := by rw [hw']
    refine ⟨fun id => ?_, fun id => ?_, hstarts⟩
    · rw [acceptTime_snoc, ← ht.times, hlookup]
      by_cases hid : id = w.nextClientId
      · have hnone : w.clientsConnectionTime.lookup id = none := by
          have hk := (ht.known id).not.mpr (by rw [hid]; exact Nat.lt_irrefl _)
          exact Option.not_isSome_iff_eq_none.mp hk
        rw [if_pos hid, hnone]
        show _ = if w.nextClientId = id then some now else none
        rw [if_pos hid.symm]
      · rw [if_neg hid]
        show _ = (w.clientsConnectionTime.lookup id).or (if w.nextClientId = id then some now else none)
        rw [if_neg (fun heq => hid heq.symm), Option.or_none]
    · rw [hlookup, hn, Nat.lt_succ_iff_lt_or_eq]
      by_cases hid : id = w.nextClientId
      · rw [if_pos hid]
        exact ⟨fun _ => Or.inr hid, fun _ => rfl⟩
      · rw [if_neg hid, ht.known id]
        exact ⟨Or.inl, fun hlt => hlt.resolve_right hid⟩
  · refine ⟨fun id => ?_, fun id => ?_, hstarts⟩
    · rw [acceptTime_snoc, hno, Option.or_none, hmap]
      exact ht.times id
    · rw [hmap, hnext]
      exact ht.known id

theorem timed_init (tls : Bool) : Timed [] (init tls) := by
  have hnone : ∀ id, (init tls).clientsConnectionTime.lookup id = none := fun id => FiniteMap.lookup_empty id
  refine ⟨fun id => hnone id, fun id => ?_, fun s hs => absurd hs List.not_mem_nil⟩
  rw [hnone id]
  exact ⟨nofun, fun hlt => absurd hlt (Nat.not_lt_zero _)⟩

/-- **In every run the map has the times of all accepted connections.** -/
theorem timed_run (hr : LTS.Run step (init tls) h w) : Timed h w := by
  induction hr with
  | nil => exact timed_init tls
  | snoc hr hs ih => exact ih.step ((sound_run hr).moved hs)

/-- The map grows with the number of connections ever accepted. -/
theorem Timed.keys (ht : Timed h w) : w.clientsConnectionTime.keys = Finset.range w.nextClientId := by
  ext id
  rw [Finmap.mem_keys, ← Finmap.lookup_isSome, ht.known, Finset.mem_range]

/-! ### From the handshake to the session handler -/

theorem received_step (hw : Sound w) {c : AcceptedConnection} {rest : List AcceptedConnection}
    (hc : w.channel = c :: rest) :
    ∃ w', step w .received = some w' ∧ w'.channel = rest ∧ w'.tasks = w.tasks := by
  obtain ⟨w', hr⟩ : ∃ w', receive w = some w' := by
    unfold receive
    rw [hc]
    exact ⟨_, rfl⟩
  have hs : step w .received = some w' := by
    simp only [step, if_pos hw.running]
    exact hr
  obtain ⟨c', rest', start, hc', -, rfl⟩ := hw.receive hr
  rw [hc, List.cons.injEq] at hc'
  exact ⟨_, hs, hc'.2.symm, rfl⟩

/-- The listener empties its channel. -/
theorem drain : ∀ (n : ℕ) (w : WsListener), Sound w → w.channel.length = n →
    ∃ w', LTS.exec step w (List.replicate n .received) = some w' ∧ w'.channel = [] ∧ w'.tasks = w.tasks
  | 0, w, _, hn => ⟨w, rfl, List.eq_nil_of_length_eq_zero hn, rfl⟩
  | n + 1, w, hw, hn => by
    obtain ⟨c, rest, hc⟩ := List.exists_cons_of_length_eq_add_one hn
    obtain ⟨w₁, hs, hch, htasks⟩ := received_step hw hc
    have hlen : w₁.channel.length = n := by
      rw [hc, List.length_cons] at hn
      rw [hch]
      omega
    obtain ⟨w', hexec, hempty, htasks'⟩ := drain n w₁ (hw.step hs) hlen
    refine ⟨w', ?_, hempty, htasks'.trans htasks⟩
    rw [List.replicate_succ, LTS.exec, hs]
    exact hexec

/-- Wherever a run goes on to, a connection past its handshake is in one place. -/
theorem beyond_eq_one (hr : LTS.Run step (init tls) h w) (hid : id ∈ completions h)
    (hr' : LTS.Run step w g w') : w'.beyond id = 1 := by
  have hp := placed_run (hr.append hr')
  have hmem : id ∈ completions (h ++ g) := by
    unfold completions
    rw [List.filterMap_append]
    exact List.mem_append_left _ hid
  have hpos : 0 < (completions (h ++ g)).count id := List.count_pos_iff.mpr hmem
  have hcount := hp.completed id
  have honce := hp.once id
  have hle : w'.beyond id ≤ w'.places id := Nat.le_add_left ..
  omega

/-- **A completed handshake leads to a session handler**: the listener and the task of
the connection get there by themselves, whatever else is under way. -/
theorem reaches_handler (hr : LTS.Run step (init tls) h w) (hid : id ∈ completions h) :
    ∃ es w', (∀ e ∈ es, e = .received ∨ e = .send id) ∧ LTS.exec step w es = some w' ∧ w'.started id = 1 := by
  obtain ⟨w₁, hex₁, hch₁, -⟩ := drain _ w (sound_run hr) rfl
  have hr₁ := hr.append (LTS.exec_run hex₁)
  have hb₁ := beyond_eq_one hr hid (LTS.exec_run hex₁)
  have hq₁ : w₁.queued id = 0 := by
    unfold queued
    rw [hch₁]
    rfl
  have hreceived : ∀ e ∈ List.replicate w.channel.length Event.received, e = .received ∨ e = .send id :=
    fun e he => Or.inl (List.eq_of_mem_replicate he)
  unfold beyond at hb₁
  by_cases hsend : ∃ stream, w₁.tasks.lookup id = some (.sending stream)
  · -- its task has not sent it yet: now there is room
    obtain ⟨stream, hstream⟩ := hsend
    obtain ⟨w₂, hs₂, hch₂, ht₂⟩ : ∃ w₂, step w₁ (.send id) = some w₂ ∧ w₂.channel = [⟨id, stream⟩] ∧
        w₂.tasks = w₁.tasks.erase id := by
      have hroom : w₁.channel.length < channelCapacity := by
        rw [hch₁]
        decide
      refine ⟨{ w₁ with tasks := w₁.tasks.erase id, channel := w₁.channel ++ [⟨id, stream⟩] }, ?_, ?_, rfl⟩
      · simp only [step, hstream, if_pos hroom]
      · simp only [hch₁, List.nil_append]
    have hw₂ : Sound w₂ := (sound_run hr₁).step hs₂
    obtain ⟨w₃, hs₃, hch₃, ht₃⟩ := received_step hw₂ hch₂
    have hex : LTS.exec step w (List.replicate w.channel.length .received ++ [.send id, .received]) = some w₃ := by
      rw [LTS.exec_append, hex₁, Option.bind_some, LTS.exec, hs₂, Option.bind_some, LTS.exec_singleton hs₃]
    refine ⟨_, w₃, ?_, hex, ?_⟩
    · intro e he
      rcases List.mem_append.mp he with he | he
      · exact hreceived e he
      · simp only [List.mem_cons, List.not_mem_nil, or_false] at he
        rcases he with he | he
        · exact Or.inr he
        · exact Or.inl he
    · have hb₃ := beyond_eq_one hr hid (LTS.exec_run hex)
      have hlookup : w₃.tasks.lookup id = none := by
        rw [ht₃, ht₂, FiniteMap.lookup_erase_eq, if_pos rfl]
      have hq₃ : w₃.queued id = 0 := by
        unfold queued
        rw [hch₃]
        rfl
      unfold beyond at hb₃
      rw [hlookup, inSending_none, hq₃] at hb₃
      omega
  · refine ⟨_, w₁, hreceived, hex₁, ?_⟩
    have hzero : inSending (w₁.tasks.lookup id) = 0 := by
      rcases hl : w₁.tasks.lookup id with _ | (stream | stream)
      · rfl
      · rfl
      · exact absurd ⟨stream, hl⟩ hsend
    omega

/-! ### The exact map -/

/-- The map has the connections on their way to a session handler and no others. -/
def Exact (w : WsListener) : Prop :=
  ∀ id, (∃ start, w.clientsConnectionTime.lookup id = some start) ↔ w.Pending id

/-- The event is the last of a connection's way: it is handed over, or its handshake
fails or times out. -/
def finishes : WsListener × Event → Bool
  | (w, .acceptFailed) => !w.channel.isEmpty
  | (_, .received) => true
  | (_, .handshake _ .failed) | (_, .handshake _ .timedOut) => true
  | _ => false

theorem Exact.step (hx : w.Exact) (hm : Moved w e w') (hf : ¬ finishes (w, e)) : w'.Exact := by
  intro id
  cases hm with
  | accepted stream now =>
    rw [pending_accepted]
    show (∃ start, (w.clientsConnectionTime.insert w.nextClientId now).lookup id = some start) ↔ _
    rw [FiniteMap.lookup_insert_eq]
    by_cases hid : id = w.nextClientId
    · rw [if_pos hid]
      exact ⟨fun _ => Or.inl hid, fun _ => ⟨now, rfl⟩⟩
    · rw [if_neg hid, hx id]
      exact ⟨Or.inr, fun h => h.resolve_left hid⟩
  | disabled empty => exact hx id
  | handedOver c rest start event head found =>
    refine absurd ?_ hf
    rcases event with rfl | rfl
    · rfl
    · simp [finishes, head]
  | task step =>
    cases step with
    | completed id₀ stream found => exact (hx id).trans (pending_completed found).symm
    | ended id₀ stream result lost found =>
      refine absurd ?_ hf
      cases result
      · exact absurd rfl lost
      · rfl
      · rfl
    | sent id₀ stream found room => exact (hx id).trans (pending_sent found).symm

/-- A connection that has come to the end of its way leaves its entry behind. -/
theorem not_exact_of_finishes (hw : Sound w) (hp : Placed h w) (hm : Moved w e w') (hf : finishes (w, e)) :
    ¬ w'.Exact := by
  intro hx
  have hp' := hp.step hm
  cases hm with
  | accepted stream now => cases hf
  | disabled empty =>
    simp only [finishes, empty] at hf
    cases hf
  | handedOver c rest start event head found =>
    have hpending := pending_iff.mp ((hx c.clientId).mp ⟨start, found⟩)
    have honce := hp'.once c.clientId
    have hstarted : 0 < started { w with channel := rest, acceptDisabled := false,
                                         handlers := w.handlers ++ [⟨c.clientId, c.stream, start⟩] } c.clientId := by
      simp [started]
    unfold places beyond at honce
    omega
  | task step =>
    cases step with
    | completed id₀ stream found => cases hf
    | ended id₀ stream result lost found =>
      obtain ⟨start, hstart⟩ := hw.timed id₀ (Or.inl (by rw [found]; rfl))
      have hpending : 0 < inHandshake ((w.tasks.erase id₀).lookup id₀) +
          inSending ((w.tasks.erase id₀).lookup id₀) + w.queued id₀ :=
        pending_iff.mp ((hx id₀).mp ⟨start, hstart⟩)
      rw [FiniteMap.lookup_erase_eq, if_pos rfl, inHandshake_none, inSending_none] at hpending
      have honce := hp.once id₀
      unfold places beyond at honce
      rw [found, inHandshake_handshaking] at honce
      omega
    | sent id₀ stream found room => cases hf

theorem exact_init (tls : Bool) : (init tls).Exact := by
  intro id
  have hmap : (init tls).clientsConnectionTime.lookup id = none := FiniteMap.lookup_empty id
  constructor
  · rintro ⟨start, hstart⟩
    rw [hmap] at hstart
    cases hstart
  · intro hid
    obtain ⟨start, hstart⟩ := (sound_init tls).timed id hid
    exact ⟨start, hstart⟩

theorem exact_run (hr : LTS.Run step (init tls) h w) (hf : ∀ x ∈ h, ¬ finishes x) : w.Exact := by
  induction hr with
  | nil => exact exact_init tls
  | @snoc h t t' e hr hs ih =>
    have hf' : ∀ x ∈ h, ¬ finishes x := fun x hx => hf x (List.mem_append_left _ hx)
    exact (ih hf').step ((sound_run hr).moved hs) (hf (t, e) (by simp))

/-- What the listener knows of the connections it has accepted, in every run: the
`unwrap` in `start_session_handler` has not panicked; the map has every connection ever
accepted with its own time, and every session handler was started with that; and each
completed handshake leads to one session handler. -/
structure Tracked (h : List (WsListener × Event)) (w : WsListener) : Prop where
  running : w.panicked = none
  keys : w.clientsConnectionTime.keys = Finset.range w.nextClientId
  times : ∀ id, w.clientsConnectionTime.lookup id = acceptTime h id
  starts : ∀ s ∈ w.handlers, acceptTime h s.clientId = some s.start
  once : ∀ id, w.beyond id = (completions h).count id ∧ w.beyond id ≤ 1
  handled : ∀ id ∈ completions h, ∃ es w', (∀ e ∈ es, e = .received ∨ e = .send id) ∧
    LTS.exec step w es = some w' ∧ w'.started id = 1

theorem tracked_run (hr : LTS.Run step (init tls) h w) : Tracked h w := by
  have ht := timed_run hr
  have hp := placed_run hr
  refine ⟨(sound_run hr).running, ht.keys, ht.times, ht.starts, fun id => ⟨(hp.completed id).symm, ?_⟩,
    fun id hid => reaches_handler hr hid⟩
  exact Nat.le_trans (Nat.le_add_left ..) (hp.once id)

/-- **The connections being accepted**: in every run the listener finds the own time of
each connection and starts one session handler for it (`Tracked`); and the map has
exactly the connections on their way in every state of the run, if and only if no
connection of the run has been handed over and no handshake has failed. -/
theorem connection_times_iff (hr : LTS.Run step (init tls) h w) :
    Tracked h w ∧
      ((∀ g v, g <+: h → LTS.Run step (init tls) g v → v.Exact) ↔ ∀ x ∈ h, ¬ finishes x) := by
  refine ⟨tracked_run hr, ?_⟩
  constructor
  · rintro hexact ⟨t, e⟩ hx hf
    obtain ⟨h₁, h₂, rfl⟩ := List.append_of_mem hx
    obtain ⟨hr₁, t', hs, -⟩ := hr.at_event
    have hpre : h₁ ++ [(t, e)] <+: h₁ ++ (t, e) :: h₂ := ⟨h₂, by simp⟩
    have hw := sound_run hr₁
    exact not_exact_of_finishes hw (placed_run hr₁) (hw.moved hs) hf (hexact _ t' hpre (hr₁.snoc hs))
  · intro hf g v hpre hg
    exact exact_run hg fun x hx => hf x (hpre.subset hx)

/-- Two connections are accepted, and the handshake of one is complete. -/
def twoPending : List Event := [.accepted 1 10, .accepted 2 20, .handshake 1 .completed, .send 1]

theorem twoPending_exact : ∃ w, LTS.exec step (init true) twoPending = some w ∧ w.Exact := by
  have hsome : (LTS.exec step (init true) twoPending).isSome := by decide
  obtain ⟨w, hw⟩ := Option.isSome_iff_exists.mp hsome
  have hr := LTS.exec_run hw
  have hf : ∀ x ∈ LTS.trace step (init true) twoPending, ¬ finishes x := by decide
  exact ⟨w, hw, (connection_times_iff hr).2.mpr hf _ w (List.prefix_refl _) hr⟩

/-- The handshake of one connection is completed and it is handed over; that of another
times out. -/
def bothDone : List Event :=
  [.accepted 1 10, .handshake 0 .completed, .send 0, .received, .accepted 2 20, .handshake 1 .timedOut]

/-- No connection is on its way any more, and the map still has both. -/
theorem bothDone_not_exact : ∃ w, LTS.exec step (init true) bothDone = some w ∧ w.tasks = ∅ ∧
    w.channel = [] ∧ w.clientsConnectionTime.lookup 0 = some 10 ∧
    w.clientsConnectionTime.lookup 1 = some 20 ∧ ¬ w.Exact := by
  have hdone : (LTS.exec step (init true) bothDone).any (fun w => w.tasks = ∅ ∧ w.channel = [] ∧
      w.clientsConnectionTime.lookup 0 = some 10 ∧ w.clientsConnectionTime.lookup 1 = some 20) = true := by
    decide
  obtain ⟨w, hw, hd⟩ := (Option.any_eq_true _ _).mp hdone
  obtain ⟨htasks, hchannel, h0, h1⟩ := of_decide_eq_true hd
  refine ⟨w, hw, htasks, hchannel, h0, h1, fun hx => ?_⟩
  obtain hid | ⟨c, hc, -⟩ := (hx 0).mp ⟨10, h0⟩
  · rw [htasks, FiniteMap.lookup_empty] at hid
    cases hid
  · rw [hchannel] at hc
    exact absurd hc List.not_mem_nil

end WsListener
end IcWsGateway
