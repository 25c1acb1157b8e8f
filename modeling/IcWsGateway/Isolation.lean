/-
# The canisters of a gateway are isolated

The gateway serves many canisters at once, with one map, one lock for each shard of it and one counter for each
kind of thing it makes. Cut a run down to one canister, its sessions, its pollers and their tasks, and what is left
is a run of the gateway by itself (`canister_isolated`): the others have only used up numbers. And the others
hold none of its events back, but by a lock: one that waits for a shard that a session of another canister has
locked, be it the shard of its own canister, for an operation on the map, or any shard at all, where it counts the
pollers (`held_back_by_shard`).

Key definitions: `World.only`, `World.Concerns`, `Seen`, `stepSeen`.
Key theorems: `own_step`, `others_step`, `canister_isolated`, `held_back_by_shard`.
-/
import IcWsGateway.Shares

namespace IcWsGateway

variable {cfg : Config} {w w' : World} {h : List (World × Event)} {e : Event} {i j : ClientId} {p : PollerId}
  {c : CanisterPrincipal} {k : ClientKey} {r : PollerRef} {q : CanisterPoller} {σ : Share}

/-! ### The world of one canister -/

open Classical in
/-- The session is in the share. -/
noncomputable def Share.has (σ : Share) (i : ClientId) : Bool := decide (i ∈ σ.sessions)

theorem Share.has_iff : σ.has i = true ↔ i ∈ σ.sessions := by
  simp [Share.has]

/-- The counting task is that of a session or a poller of the share. -/
noncomputable def Share.runs (σ : Share) (w : World) : Counter → Bool
  | .session i => σ.has i
  | .poller p => (w.pollers p).any fun q => q.canisterId = σ.canister

attribute [ext] World

namespace World

/-- The world without what belongs to the other canisters: their sessions have not begun. -/
noncomputable def only (w : World) (σ : Share) : World where
  gateway := w.gateway.only σ
  handlers := cut σ.sessions w.handlers Handler.new
  pollers p := (w.pollers p).filter fun q => q.canisterId = σ.canister
  nextPoller := w.nextPoller
  gatewayLock s := (w.gatewayLock s).filter σ.has
  shardsRead t := if σ.runs w t then w.shardsRead t else 0
  spawned := w.spawned.filter fun t => σ.has t.client
  submitted := w.submitted.filter fun t => σ.has t.client
  nextTask := w.nextTask
  logs := cut {σ.canister} w.logs fun _ => []

/-- The event is one of the canister `c`: of one of its sessions `S` or a relay task of theirs, of one of its
pollers, or its own. -/
def Concerns (w : World) (c : CanisterPrincipal) (S : Set ClientId) : Event → Prop
  | .readWs i _ | .recv i | .update i _ | .lock i | .commit i | .relayOpen i _ | .readShard (.session i)
  | .startPoller i | .wsClosed i => i ∈ S
  | .submit t => t.client ∈ S
  | .pollReply p _ | .relay p | .put p | .wake p | .checkTerminate p | .removeFailed p
  | .readShard (.poller p) | .endPoller p => ∃ q, w.pollers p = some q ∧ q.canisterId = c
  | .append c' _ => c' = c

/-- The shard of the gateway map that has to be free for the event. -/
def waitsFor (cfg : Config) (w : World) : Event → Option ℕ
  | .lock i => (w.handlers i).phase.target.map cfg.gatewayShard
  | .checkTerminate p | .removeFailed p => (w.pollers p).map fun q => cfg.gatewayShard q.canisterId
  | .readShard t =>
    if w.counts t = true ∧ w.shardsRead t + 1 < cfg.gatewayShards then some (w.shardsRead t) else none
  | .startPoller i =>
    if w.counts (.session i) = true ∧ w.shardsRead (.session i) + 1 = cfg.gatewayShards then
      some (w.shardsRead (.session i))
    else none
  | .endPoller p =>
    if w.counts (.poller p) = true ∧ w.shardsRead (.poller p) + 1 = cfg.gatewayShards then
      some (w.shardsRead (.poller p))
    else none
  | _ => none

/-- The share is what belongs to its canister. -/
structure Splits (w : World) (σ : Share) : Prop where
  gateway : w.gateway.Splits σ
  session : ∀ i c, (w.handlers i).session.canisterId = some c → (i ∈ σ.sessions ↔ c = σ.canister)
  token : ∀ i r, (w.handlers i).phase.token = some r → (r ∈ σ.refs ↔ i ∈ σ.sessions)
  poller : ∀ p q, w.pollers p = some q → (q.pollerState ∈ σ.refs ↔ q.canisterId = σ.canister)
  stored : ∀ r k i, (w.gateway.clients r).lookup k = some ⟨i⟩ → (r ∈ σ.refs ↔ i ∈ σ.sessions)
  next : w.gateway.nextRef ∉ σ.refs
  unread : ∀ p, w.pollers p = none → w.shardsRead (.poller p) = 0

end World

/-- The share after an event, which may make a poller state for its canister. -/
def Share.after (σ : Share) (x : World × Event) : Share :=
  { σ with refs := {r | r ∈ σ.refs ∨ makes x = some (r, σ.canister)} }

theorem Share.after_same {x : World × Event} (hx : ∀ r, makes x ≠ some (r, σ.canister)) : σ.after x = σ := by
  rcases σ with ⟨c, S, R⟩
  show Share.mk c S {r | r ∈ R ∨ makes x = some (r, c)} = _
  congr 1
  ext r
  exact or_iff_left (hx r)

theorem Share.after_new {x : World × Event} {r : PollerRef} (hx : makes x = some (r, σ.canister)) :
    σ.after x = { σ with refs := insert r σ.refs } := by
  rcases σ with ⟨c, S, R⟩
  show Share.mk c S {r' | r' ∈ R ∨ makes x = some (r', c)} = _
  congr 1
  ext r'
  simp [hx, or_comm, eq_comm]

namespace World

/-! ### Changes within the share -/

theorem only_gateway : (w.only σ).gateway = w.gateway.only σ := rfl

theorem only_handlers (hi : i ∈ σ.sessions) : (w.only σ).handlers i = w.handlers i := by
  show cut σ.sessions w.handlers Handler.new i = w.handlers i
  exact cut_of_mem hi

theorem only_poller (hq : w.pollers p = some q) (hc : q.canisterId = σ.canister) :
    (w.only σ).pollers p = some q := by
  show (w.pollers p).filter _ = some q
  rw [hq, Option.filter_some, if_pos (decide_eq_true hc)]

theorem only_setHandler (hi : i ∈ σ.sessions) (a : Handler) :
    (w.setHandler i a).only σ = (w.only σ).setHandler i a := by
  refine World.ext rfl ?_ rfl rfl rfl rfl rfl rfl rfl rfl
  exact cut_update hi a

theorem only_goto (hi : i ∈ σ.sessions) (ph : Phase) : (w.goto i ph).only σ = (w.only σ).goto i ph := by
  unfold World.goto
  rw [only_setHandler hi, only_handlers hi]

theorem only_setGateway (g : GatewayState) : (w.setGateway g).only σ = (w.only σ).setGateway (g.only σ) := rfl

theorem runs_session (hi : i ∈ σ.sessions) : σ.runs w (.session i) = true := Share.has_iff.mpr hi

theorem runs_poller (hq : w.pollers p = some q) (hc : q.canisterId = σ.canister) : σ.runs w (.poller p) = true := by
  show (w.pollers p).any _ = true
  rw [hq, Option.any_some, decide_eq_true hc]

theorem only_reads {t : Counter} (ht : σ.runs w t = true) : (w.only σ).shardsRead t = w.shardsRead t := if_pos ht

theorem only_counter (hq : w.pollers p = some q) (hc : q.canisterId = σ.canister) :
    (w.only σ).shardsRead (.poller p) = w.shardsRead (.poller p) :=
  only_reads (runs_poller hq hc)

/-- A new poller has read no shard. -/
theorem only_setPoller (hc : q.canisterId = σ.canister)
    (hread : (w.only σ).shardsRead (.poller p) = w.shardsRead (.poller p)) :
    (w.setPoller p q).only σ = (w.only σ).setPoller p q := by
  refine World.ext rfl rfl ?_ rfl rfl ?_ rfl rfl rfl rfl
  · funext p'
    show (Function.update w.pollers p (some q) p').filter _ = Function.update (w.only σ).pollers p (some q) p'
    by_cases hp : p' = p
    · rw [hp, Function.update_self, Function.update_self, Option.filter_some, if_pos (decide_eq_true hc)]
    · rw [Function.update_of_ne hp, Function.update_of_ne hp]
      rfl
  · funext t
    rcases t with i | p'
    · rfl
    · by_cases hp : p' = p
      · rw [hp, only_counter (Function.update_self ..) hc]
        exact hread.symm
      · have hsame : σ.runs (w.setPoller p q) (.poller p') = σ.runs w (.poller p') := by
          show (Function.update w.pollers p (some q) p').any _ = _
          rw [Function.update_of_ne hp]
          rfl
        show (if σ.runs (w.setPoller p q) (.poller p') then _ else 0) = _
        rw [hsame]
        rfl

theorem only_unlock (s : ℕ) : (w.unlock s).only σ = (w.only σ).unlock s := by
  refine World.ext rfl rfl rfl rfl ?_ rfl rfl rfl rfl rfl
  funext s'
  show (Function.update w.gatewayLock s none s').filter _ = Function.update (w.only σ).gatewayLock s none s'
  by_cases hs : s' = s
  · rw [hs, Function.update_self, Function.update_self]
    rfl
  · rw [Function.update_of_ne hs, Function.update_of_ne hs]
    rfl

theorem only_push (hi : i ∈ σ.sessions) (m : CanisterToClientMessage) :
    (w.push i m).only σ = (w.only σ).push i m := by
  unfold World.push
  rw [only_setHandler hi, only_handlers hi]

theorem only_spawn (hi : i ∈ σ.sessions) (out : List Output) (w : World) :
    (w.spawn i out).only σ = (w.only σ).spawn i out := by
  induction out generalizing w with
  | nil => rfl
  | cons o out ih =>
    cases o with
    | relayEnvelope c env =>
      have hone : ∀ t : RelayTask, t.client = i →
          ({ w with spawned := w.spawned ++ [t], nextTask := w.nextTask + 1 } : World).only σ =
            { w.only σ with spawned := (w.only σ).spawned ++ [t], nextTask := (w.only σ).nextTask + 1 } := by
        intro t ht
        refine World.ext rfl rfl rfl rfl rfl rfl ?_ rfl rfl rfl
        show (w.spawned ++ [t]).filter (fun t => σ.has t.client) = w.spawned.filter (fun t => σ.has t.client) ++ [t]
        rw [List.filter_append, List.filter_singleton, ht, Share.has_iff.mpr hi]
        rfl
      show ((_ : World).spawn i out).only σ = _
      rw [ih, hone _ rfl]
      rfl
    | _ => exact ih w

/-! ### The events of its sessions -/

theorem only_readWs (hi : i ∈ σ.sessions) (u : Except String Message) :
    (w.only σ).readWs i u = (w.readWs i u).map (·.only σ) := by
  unfold World.readWs
  rw [only_handlers hi]
  split
  · rw [Option.map_some, only_goto hi]
  · rfl

theorem only_senderDropped (hs : w.Splits σ) (hi : i ∈ σ.sessions) :
    (w.only σ).gateway.SenderDropped i ↔ w.gateway.SenderDropped i := by
  refine forall₂_congr fun r _ => ?_
  show (0 < (w.gateway.only σ).strong r → ¬ FiniteMap.Stores ((w.gateway.only σ).clients r) ⟨i⟩) ↔ _
  by_cases hr : r ∈ σ.refs
  · rw [GatewayState.only_strong hr, GatewayState.only_clients hr]
  · rw [GatewayState.only_strong_outside hr]
    refine iff_of_true (fun hpos => absurd hpos (Nat.lt_irrefl 0)) fun _ hstores => ?_
    obtain ⟨k, hk⟩ := FiniteMap.stores_iff.mp hstores
    exact hr ((hs.stored r k i hk).mpr hi)

theorem only_recv (hs : w.Splits σ) (hi : i ∈ σ.sessions) : (w.only σ).recv i = (w.recv i).map (·.only σ) := by
  unfold World.recv
  rw [only_handlers hi]
  dsimp only
  split
  · rw [Option.map_some, only_setHandler hi]
  · simp only [only_senderDropped hs hi]
    split_ifs
    · rw [Option.map_some, only_goto hi]
    · rfl
  · rfl

theorem only_update (hi : i ∈ σ.sessions) (io : Io) : (w.only σ).update i io = (w.update i io).map (·.only σ) := by
  unfold World.update
  rw [only_handlers hi]
  dsimp only
  split
  · rw [Option.map_some, only_spawn hi, only_setHandler hi]
  · rfl

theorem only_relayOpen (hs : w.Splits σ) (hi : i ∈ σ.sessions) (io : Io) :
    (w.only σ).relayOpen i io = (w.relayOpen i io).map (·.only σ) := by
  unfold World.relayOpen
  rw [only_handlers hi]
  split
  · rename_i m c k t hph
    have ht : ∀ r, t = some r → r ∈ σ.refs := by
      intro r hr
      exact (hs.token i r (by rw [hph, ← hr]; rfl)).mpr hi
    split
    · rw [Option.map_some, only_spawn hi, only_goto hi]
    · rw [Option.map_some, only_spawn hi, only_goto hi]
    · rw [Option.map_some, only_spawn hi, only_setGateway, only_goto hi, GatewayState.only_dropToken ht]
      rfl
  · rfl

/-- The keys that the phase holds are those of the session. -/
theorem canister_of_target (hw : Sound w) (ht : (w.handlers i).phase.target = some c) :
    (w.handlers i).session.canisterId = some c := by
  unfold Phase.target at ht
  split at ht
  · rename_i hph
    cases ht
    exact ((hw.wf i).setup hph).2.1.canisterId
  · rename_i hph
    cases ht
    exact ((hw.wf i).rollback hph).canisterId
  · rename_i hph
    cases ht
    exact ((hw.wf i).closed hph).canisterId
  · rename_i hph
    cases ht
    exact ((hw.wf i).failed hph).canisterId
  · cases ht

/-- A shard that no session of another canister has locked is free for the share where it is free. -/
theorem only_shard {s : ℕ} (hfree : ∀ j, w.gatewayLock s = some j → j ∈ σ.sessions) :
    (w.only σ).gatewayLock s = w.gatewayLock s := by
  show (w.gatewayLock s).filter σ.has = _
  rcases hl : w.gatewayLock s with _ | j
  · rfl
  · rw [Option.filter_some, if_pos (Share.has_iff.mpr (hfree j hl))]

/-- A counting task of the share reads the shards that it reads in the world. -/
theorem only_lastShard {t : Counter} (hread : (w.only σ).shardsRead t = w.shardsRead t)
    (hfree : w.shardsRead t + 1 = cfg.gatewayShards → ∀ j, w.gatewayLock (w.shardsRead t) = some j → j ∈ σ.sessions) :
    (w.only σ).LastShard cfg t ↔ w.LastShard cfg t := by
  unfold World.LastShard
  rw [hread]
  refine and_congr_right fun hlast => ?_
  rw [only_shard (hfree hlast)]

theorem only_startPoller (hw : Sound w) (hs : w.Splits σ) (hi : i ∈ σ.sessions)
    (hfree : ∀ s, w.waitsFor cfg (.startPoller i) = some s → ∀ j, w.gatewayLock s = some j → j ∈ σ.sessions) :
    (w.only σ).startPoller cfg i = (w.startPoller cfg i).map (·.only σ) := by
  unfold World.startPoller
  rw [only_handlers hi]
  split
  · rename_i c r hph
    obtain ⟨k, hk, -⟩ := (hw.wf i).startingPoller hph
    have hc : c = σ.canister := (hs.session i c hk.canisterId).mp hi
    have hq : (CanisterPoller.new c r).canisterId = σ.canister := hc
    have hcounts : w.counts (.session i) = true := by
      simp only [World.counts, hph]
    have hlast : (w.only σ).LastShard cfg (.session i) ↔ w.LastShard cfg (.session i) :=
      only_lastShard (only_reads (runs_session hi)) fun hl => hfree _ (if_pos ⟨hcounts, hl⟩)
    have hread : (w.only σ).shardsRead (.poller w.nextPoller) = w.shardsRead (.poller w.nextPoller) := by
      show (if σ.runs w (.poller w.nextPoller) then w.shardsRead (.poller w.nextPoller) else 0) = _
      rw [hs.unread _ hw.next_none, ite_self]
    have hset : ((w.setPoller w.nextPoller (.new c r)).goto i .awaiting).only σ =
        ((w.only σ).setPoller w.nextPoller (.new c r)).goto i .awaiting := by
      rw [only_goto hi, only_setPoller hq hread]
    simp only [hlast]
    split_ifs
    · rw [Option.map_some, Option.some.injEq]
      show { ((w.only σ).setPoller w.nextPoller (.new c r)).goto i .awaiting with nextPoller := w.nextPoller + 1 } = _
      rw [← hset]
      rfl
    · rfl
  · rw [Option.map_some, only_goto hi]
  · rfl

theorem only_counts {t : Counter} (hc : w.Concerns σ.canister σ.sessions (.readShard t)) :
    (w.only σ).counts t = w.counts t ∧ σ.runs w t = true := by
  cases t with
  | session i =>
    refine ⟨?_, runs_session hc⟩
    unfold World.counts
    dsimp only
    rw [only_handlers hc]
  | poller p =>
    obtain ⟨q, hq, hqc⟩ := hc
    refine ⟨?_, runs_poller hq hqc⟩
    unfold World.counts
    dsimp only
    rw [only_poller hq hqc, hq]

theorem only_readShard {t : Counter} (hc : w.Concerns σ.canister σ.sessions (.readShard t))
    (hfree : ∀ s, w.waitsFor cfg (.readShard t) = some s → ∀ j, w.gatewayLock s = some j → j ∈ σ.sessions) :
    (w.only σ).readShard cfg t = (w.readShard cfg t).map (·.only σ) := by
  obtain ⟨hcounts, hruns⟩ := only_counts hc
  unfold World.readShard
  rw [hcounts, only_reads hruns]
  by_cases hmore : w.counts t = true ∧ w.shardsRead t + 1 < cfg.gatewayShards
  · rw [only_shard (hfree _ (if_pos hmore))]
    split_ifs
    · rw [Option.map_some, Option.some.injEq]
      refine World.ext rfl rfl rfl rfl rfl ?_ rfl rfl rfl rfl
      funext u
      show Function.update (w.only σ).shardsRead t _ u = if σ.runs w u then Function.update w.shardsRead t _ u else 0
      by_cases hu : u = t
      · rw [hu, Function.update_self, Function.update_self, if_pos hruns]
      · rw [Function.update_of_ne hu, Function.update_of_ne hu]
        rfl
    · rfl
  · rw [if_neg fun hread => hmore ⟨hread.1, hread.2.1⟩, if_neg fun hread => hmore ⟨hread.1, hread.2.1⟩]
    rfl

theorem only_wsClosed (hi : i ∈ σ.sessions) : (w.only σ).wsClosed i = (w.wsClosed i).map (·.only σ) := by
  unfold World.wsClosed
  rw [only_handlers hi]
  split
  · rw [Option.map_some, only_goto hi]
  · rfl

theorem only_lock (hi : i ∈ σ.sessions)
    (hfree : ∀ s, w.waitsFor cfg (.lock i) = some s → ∀ j, w.gatewayLock s = some j → j ∈ σ.sessions) :
    (w.only σ).lock cfg i = (w.lock cfg i).map (·.only σ) := by
  unfold World.lock
  rw [only_handlers hi]
  split
  · rename_i c ht
    have hlock : (w.only σ).gatewayLock (cfg.gatewayShard c) = w.gatewayLock (cfg.gatewayShard c) := by
      show (w.gatewayLock (cfg.gatewayShard c)).filter σ.has = _
      rcases hl : w.gatewayLock (cfg.gatewayShard c) with _ | j
      · rfl
      · have hj := hfree _ (by rw [World.waitsFor, ht]; rfl) j hl
        rw [Option.filter_some, if_pos (Share.has_iff.mpr hj)]
    rw [hlock]
    split_ifs
    · rw [Option.map_some, Option.some.injEq]
      refine World.ext rfl rfl rfl rfl ?_ rfl rfl rfl rfl rfl
      funext s
      show Function.update (w.only σ).gatewayLock _ _ s = (Function.update w.gatewayLock _ _ s).filter _
      by_cases hs : s = cfg.gatewayShard c
      · rw [hs, Function.update_self, Function.update_self, Option.filter_some, if_pos (Share.has_iff.mpr hi)]
      · rw [Function.update_of_ne hs, Function.update_of_ne hs]
        rfl
    · rfl
  · rfl

/-- A guard in a poller state of the share is held by a poller of the share. -/
theorem only_guarded (hs : w.Splits σ) (hr : r ∈ σ.refs) (k : ClientKey) :
    (w.only σ).Guarded cfg r k ↔ w.Guarded cfg r k := by
  refine exists_congr fun p => and_congr_right fun _ => ?_
  show ((w.pollers p).filter _).any _ = true ↔ _
  rcases hq : w.pollers p with _ | q
  · rfl
  · rw [Option.filter_some]
    by_cases hc : q.canisterId = σ.canister
    · rw [if_pos (decide_eq_true hc)]
    · rw [if_neg (by rw [decide_eq_true_iff]; exact hc), Option.any_none, Option.any_some, decide_eq_true_iff]
      refine iff_of_false Bool.false_ne_true ?_
      rintro ⟨rfl, -⟩
      exact hc ((hs.poller p q hq).mp hr)

theorem only_canCommit (hs : w.Splits σ) (hi : i ∈ σ.sessions) (k : ClientKey) :
    (w.only σ).CanCommit cfg i σ.canister k ↔ w.CanCommit cfg i σ.canister k := by
  have hlock : (w.only σ).gatewayLock (cfg.gatewayShard σ.canister) = some i ↔
      w.gatewayLock (cfg.gatewayShard σ.canister) = some i := by
    show (w.gatewayLock _).filter σ.has = some i ↔ _
    rw [Option.filter_eq_some_iff]
    exact and_iff_left (Share.has_iff.mpr hi)
  have hentry : (w.only σ).gateway.data.lookup σ.canister = w.gateway.data.lookup σ.canister :=
    GatewayState.only_lookup ..
  refine and_congr hlock ?_
  rw [hentry]
  refine forall₂_congr fun r hr => not_congr (only_guarded hs ?_ k)
  exact hs.gateway.own r hr

/-- Removing a session removes it from the share. -/
theorem only_removeClient (hs : w.Splits σ) (hi : i ∈ σ.sessions) (k : ClientKey) (ph : Phase) :
    (w.only σ).removeClient i σ.canister k ph = (w.removeClient i σ.canister k ph).only σ := by
  unfold World.removeClient
  rw [only_gateway, GatewayState.only_removeClient hs.gateway]
  rcases w.gateway.removeClient σ.canister k with m | g
  · show (w.only σ).goto i (.ended (.panicked m)) = (w.goto i (.ended (.panicked m))).only σ
    rw [only_goto hi]
  · show ((w.only σ).setGateway (g.only σ)).goto i ph = ((w.setGateway g).goto i ph).only σ
    rw [only_goto hi, only_setGateway]

/-- An operation of the share is done on the share, and makes a poller state there if it makes one at all. -/
theorem only_commit (hw : Sound w) (hs : w.Splits σ) (hi : i ∈ σ.sessions) :
    (w.only σ).commit cfg i = (w.commit cfg i).map (·.only (σ.after (w, .commit i))) := by
  have hc : ∀ {c}, (w.handlers i).phase.target = some c → c = σ.canister := fun ht =>
    (hs.session i _ (canister_of_target hw ht)).mp hi
  have hnew : ∀ {m c k tx}, (w.handlers i).phase = .setup m c k tx → ∀ ph,
      ((w.setGateway (w.gateway.insertClientChannelAndGetNewPollerState σ.canister k tx).1).goto i ph).only
        (σ.after (w, .commit i)) =
      ((w.only σ).setGateway
        ((w.gateway.only σ).insertClientChannelAndGetNewPollerState σ.canister k tx).1).goto i ph := by
    intro m c k tx hph ph
    obtain rfl := hc (target_of_setup hph)
    have hi' : i ∈ (σ.after (w, .commit i)).sessions := hi
    rw [only_goto hi', only_setGateway]
    by_cases hnone : w.gateway.data.lookup σ.canister = none
    · have hmk : makes (w, .commit i) = some (w.gateway.nextRef, σ.canister) := by
        rw [makes_eq hph, if_pos hnone]
      rw [Share.after_new hmk, GatewayState.only_insert_new hnone]
      rfl
    · have hmk : ∀ r, makes (w, .commit i) ≠ some (r, σ.canister) := by
        intro r
        rw [makes_eq hph, if_neg hnone]
        exact (Option.some_ne_none _).symm
      rw [Share.after_same hmk, GatewayState.only_insert_entry hs.gateway hnone]
  have hsame : (∀ m c k tx, (w.handlers i).phase ≠ .setup m c k tx) → σ.after (w, .commit i) = σ := by
    intro hno
    refine Share.after_same fun r => ?_
    simp only [makes]
    exact (Option.some_ne_none _).symm
  unfold World.commit
  rw [only_handlers hi]
  split
  · rename_i m c k tx hph
    obtain rfl := hc (target_of_setup hph)
    simp only [only_canCommit hs hi]
    split_ifs with hcan
    · have htok : ((w.gateway.only σ).insertClientChannelAndGetNewPollerState σ.canister k tx).2 =
          (w.gateway.insertClientChannelAndGetNewPollerState σ.canister k tx).2 := by
        rw [insert_token, insert_token, GatewayState.only_lookup]
        rfl
      rw [Option.map_some, Option.some.injEq, only_unlock, hnew hph, ← htok]
      rfl
    · rfl
  · rename_i x c k t hph
    obtain rfl := hc (target_of_rollback hph)
    have hno : ∀ m c k tx, (w.handlers i).phase ≠ .setup m c k tx := by
      intro m' c' k' tx' heq
      rw [hph] at heq
      cases heq
    rw [hsame hno]
    have ht : ∀ r, t = some r → r ∈ σ.refs := by
      intro r hr
      exact (hs.token i r (by rw [hph, ← hr]; rfl)).mpr hi
    simp only [only_canCommit hs hi]
    split_ifs with hcan
    · rw [Option.map_some, Option.some.injEq, only_unlock, only_setGateway, GatewayState.only_dropToken ht,
        only_removeClient hs hi]
      rfl
    · rfl
  · rename_i c k hph
    obtain rfl := hc (target_of_closed hph)
    have hno : ∀ m c k tx, (w.handlers i).phase ≠ .setup m c k tx := by
      intro m' c' k' tx' heq
      rw [hph] at heq
      cases heq
    rw [hsame hno]
    simp only [only_canCommit hs hi]
    split_ifs with hcan
    · rw [Option.map_some, Option.some.injEq, only_unlock, only_removeClient hs hi]
    · rfl
  · rename_i x c k hph
    obtain rfl := hc (target_of_failed hph)
    have hno : ∀ m c k tx, (w.handlers i).phase ≠ .setup m c k tx := by
      intro m' c' k' tx' heq
      rw [hph] at heq
      cases heq
    rw [hsame hno]
    simp only [only_canCommit hs hi]
    split_ifs with hcan
    · rw [only_gateway, GatewayState.only_removeClientIfExists hs.gateway]
      rcases w.gateway.removeClientIfExists σ.canister k with ⟨g, k' | _⟩
      · rw [Option.map_some, Option.some.injEq, only_unlock, only_goto hi, only_setGateway]
      · rw [Option.map_some, Option.some.injEq, only_unlock, only_goto hi, only_setGateway]
    · rfl
  · rfl

/-! ### The events of its pollers -/

theorem only_dropPoller (hread : (w.only σ).shardsRead (.poller p) = w.shardsRead (.poller p)) (hc : q.canisterId = σ.canister) (hr : q.pollerState ∈ σ.refs) (x : TaskResult) :
    (w.dropPoller p q x).only σ = (w.only σ).dropPoller p q x := by
  have hc' : ({ q with phase := .ended x } : CanisterPoller).canisterId = σ.canister := hc
  unfold World.dropPoller
  rw [only_setGateway, only_setPoller hc' hread, GatewayState.only_dropArc hr]
  rfl

theorem only_pollReply (hs : w.Splits σ) (hq : w.pollers p = some q) (hc : q.canisterId = σ.canister)
    (reply : PollReply) : (w.only σ).pollReply cfg p reply = (w.pollReply cfg p reply).map (·.only σ) := by
  have hr : q.pollerState ∈ σ.refs := (hs.poller p q hq).mpr hc
  have hset : ∀ n ph, (w.setPoller p { q with nextMessageNonce := n, phase := ph }).only σ =
      (w.only σ).setPoller p { q with nextMessageNonce := n, phase := ph } :=
    fun n ph => only_setPoller hc (only_counter hq hc)
  unfold World.pollReply
  rw [only_poller hq hc, hq]
  dsimp only
  split_ifs with hph
  · rcases pollCanister reply with x | status
    · exact congrArg some (hset _ _).symm
    · cases status with
      | noMessagesPolled => exact congrArg some (hset _ _).symm
      | timedOut => exact congrArg some (hset _ _).symm
      | messagesPolled out =>
        dsimp only
        rcases updateNonce cfg.overflowChecks q.nextMessageNonce out.messages with ⟨n, u | x | m⟩
        · exact congrArg some (hset _ _).symm
        · exact congrArg some (hset _ _).symm
        · have hdrop : (w.dropPoller p { q with nextMessageNonce := n } (.panicked m)).only σ =
              (w.only σ).dropPoller p { q with nextMessageNonce := n } (.panicked m) :=
            only_dropPoller (q := { q with nextMessageNonce := n }) (only_counter hq hc) hc hr _
          exact congrArg some hdrop.symm
  · rfl

theorem only_setPhase (hq : w.pollers p = some q) (hc : q.canisterId = σ.canister) (ph : PollerPhase) :
    (w.setPoller p { q with phase := ph }).only σ = (w.only σ).setPoller p { q with phase := ph } :=
  only_setPoller hc (only_counter hq hc)

theorem only_relay (hs : w.Splits σ) (hq : w.pollers p = some q) (hc : q.canisterId = σ.canister) :
    (w.only σ).relay p = (w.relay p).map (·.only σ) := by
  have hr : q.pollerState ∈ σ.refs := (hs.poller p q hq).mpr hc
  unfold World.relay
  rw [only_poller hq hc, hq]
  dsimp only
  split
  · rename_i msgs hph
    split
    · split_ifs
      · rw [Option.map_some, only_setPhase hq hc]
      · rw [Option.map_some, only_setPhase hq hc]
    · rename_i m rest hms
      rw [only_gateway, GatewayState.only_clients hr]
      split
      · rw [Option.map_some, only_setPhase hq hc]
      · rw [Option.map_some, only_setPhase hq hc]
  · rfl

/-- The session that a poller sends to is one of its canister. -/
theorem Splits.receiver (hs : w.Splits σ) (hw : Sound w) (hq : w.pollers p = some q) {m : CanisterToClientMessage}
    {msgs : CanisterOutputCertifiedMessages} (hph : q.phase = .sending i k m msgs) :
    i ∈ σ.sessions ↔ q.canisterId = σ.canister := by
  have hstored := hs.stored q.pollerState k i (hw.sending_open hq hph).1
  rw [← hstored, hs.poller p q hq]

theorem only_put (hw : Sound w) (hs : w.Splits σ) (hq : w.pollers p = some q) (hc : q.canisterId = σ.canister) :
    (w.only σ).put p = (w.put p).map (·.only σ) := by
  unfold World.put
  rw [only_poller hq hc, hq]
  dsimp only
  split
  · rename_i i k m msgs hph
    have hi : i ∈ σ.sessions := (hs.receiver hw hq hph).mpr hc
    rw [only_handlers hi]
    split_ifs
    · rw [Option.map_some, only_setPhase hq hc]
    · rw [Option.map_some, only_setPhase (w := w.push i m) hq hc, only_push hi]
    · rfl
  · rfl

theorem only_wake (hq : w.pollers p = some q) (hc : q.canisterId = σ.canister) :
    (w.only σ).wake p = (w.wake p).map (·.only σ) := by
  unfold World.wake
  rw [only_poller hq hc, hq]
  dsimp only
  split_ifs
  · rw [Option.map_some, only_setPhase hq hc]
  · rfl

theorem only_checkTerminate (hs : w.Splits σ) (hq : w.pollers p = some q) (hc : q.canisterId = σ.canister)
    (hfree : ∀ j, w.gatewayLock (cfg.gatewayShard q.canisterId) = some j → j ∈ σ.sessions) :
    (w.only σ).checkTerminate cfg p = (w.checkTerminate cfg p).map (·.only σ) := by
  have hcheck := GatewayState.only_removeCanisterIfEmpty hs.gateway
  rw [← hc] at hcheck
  unfold World.checkTerminate
  rw [only_poller hq hc, hq]
  dsimp only
  rw [only_shard hfree]
  split_ifs
  · rw [only_gateway, hcheck]
    rcases w.gateway.removeCanisterIfEmpty q.canisterId with ⟨g, _ | _⟩
    · dsimp only
      rw [Option.map_some, only_setPhase (w := w.setGateway g) hq hc, only_setGateway]
    · dsimp only
      rw [Option.map_some, only_setPhase (w := w.setGateway g) hq hc, only_setGateway]
  · rfl

theorem only_removeFailed (hs : w.Splits σ) (hq : w.pollers p = some q) (hc : q.canisterId = σ.canister)
    (hfree : ∀ j, w.gatewayLock (cfg.gatewayShard q.canisterId) = some j → j ∈ σ.sessions) :
    (w.only σ).removeFailed cfg p = (w.removeFailed cfg p).map (·.only σ) := by
  have hr : q.pollerState ∈ σ.refs := (hs.poller p q hq).mpr hc
  have hremove := GatewayState.only_removeFailedCanister hs.gateway
  rw [← hc] at hremove
  unfold World.removeFailed
  rw [only_poller hq hc, hq]
  dsimp only
  rw [only_shard hfree]
  split
  · split_ifs
    · rw [only_gateway, hremove]
      rcases w.gateway.removeFailedCanister q.canisterId with m | g
      · exact congrArg some (only_dropPoller (only_counter hq hc) hc hr _).symm
      · show some (((w.only σ).setGateway (g.only σ)).setPoller p _) = some (((w.setGateway g).setPoller p _).only σ)
        rw [only_setPhase (w := w.setGateway g) hq hc, only_setGateway]
    · rfl
  · rfl

theorem only_endPoller (hs : w.Splits σ) (hq : w.pollers p = some q) (hc : q.canisterId = σ.canister)
    (hfree : ∀ s, w.waitsFor cfg (.endPoller p) = some s → ∀ j, w.gatewayLock s = some j → j ∈ σ.sessions) :
    (w.only σ).endPoller cfg p = (w.endPoller cfg p).map (·.only σ) := by
  unfold World.endPoller
  rw [only_poller hq hc, hq]
  dsimp only
  split
  · rename_i r hph
    have hcounts : w.counts (.poller p) = true := by
      simp only [World.counts, hq, Option.map_some, hph]
    have hlast : (w.only σ).LastShard cfg (.poller p) ↔ w.LastShard cfg (.poller p) :=
      only_lastShard (only_counter hq hc) fun hl => hfree _ (if_pos ⟨hcounts, hl⟩)
    simp only [hlast]
    split_ifs
    · rw [Option.map_some, only_dropPoller (only_counter hq hc) hc ((hs.poller p q hq).mpr hc)]
    · rfl
  · rfl

/-! ### Its relay tasks, and the canister itself -/

theorem only_submit {t : RelayTask} (ht : t.client ∈ σ.sessions) :
    (w.only σ).submit t = (w.submit t).map (·.only σ) := by
  have hhas : σ.has t.client = true := Share.has_iff.mpr ht
  unfold World.submit
  have hmem : t ∈ (w.only σ).spawned ↔ t ∈ w.spawned := by
    show t ∈ w.spawned.filter _ ↔ _
    rw [List.mem_filter]
    exact and_iff_left hhas
  simp only [hmem]
  split_ifs
  · rw [Option.map_some, Option.some.injEq]
    refine World.ext rfl rfl rfl rfl rfl rfl ?_ ?_ rfl rfl
    · show (w.spawned.filter _).erase t = (w.spawned.erase t).filter _
      exact List.erase_filter
    · show w.submitted.filter _ ++ [t] = (w.submitted ++ [t]).filter _
      rw [List.filter_append, List.filter_singleton, hhas]
      rfl
  · rfl

theorem only_append (m : CanisterOutputMessage) :
    (w.only σ).append σ.canister m = (w.append σ.canister m).only σ := by
  refine World.ext rfl rfl rfl rfl rfl rfl rfl rfl rfl ?_
  have hlog : (w.only σ).logs σ.canister = w.logs σ.canister := by
    show cut {σ.canister} w.logs (fun _ => []) σ.canister = _
    exact cut_of_mem rfl
  show Function.update (w.only σ).logs σ.canister ((w.only σ).logs σ.canister ++ [m]) = cut _ (Function.update _ _ _) _
  rw [hlog]
  exact (cut_update (Set.mem_singleton σ.canister) _).symm

end World

/-- **An event of the share happens on the share alone as it does in the world**, unless it waits for a shard
that a session of another canister has locked. -/
theorem own_step (hw : Sound w) (hs : w.Splits σ) (hc : w.Concerns σ.canister σ.sessions e)
    (hfree : ∀ s, w.waitsFor cfg e = some s → ∀ j, w.gatewayLock s = some j → j ∈ σ.sessions) :
    step cfg (w.only σ) e = (step cfg w e).map (·.only (σ.after (w, e))) := by
  have hsame : (∀ i, e ≠ .commit i) → σ.after (w, e) = σ := by
    intro hno
    refine Share.after_same fun r => ?_
    cases e with
    | commit i => exact absurd rfl (hno i)
    | _ => nofun
  cases e with
  | commit i => exact World.only_commit hw hs hc
  | readWs i u =>
    rw [hsame nofun]
    exact World.only_readWs hc u
  | recv i =>
    rw [hsame nofun]
    exact World.only_recv hs hc
  | update i io =>
    rw [hsame nofun]
    exact World.only_update hc io
  | lock i =>
    rw [hsame nofun]
    exact World.only_lock hc hfree
  | relayOpen i io =>
    rw [hsame nofun]
    exact World.only_relayOpen hs hc io
  | readShard t =>
    rw [hsame nofun]
    exact World.only_readShard hc hfree
  | startPoller i =>
    rw [hsame nofun]
    exact World.only_startPoller hw hs hc hfree
  | wsClosed i =>
    rw [hsame nofun]
    exact World.only_wsClosed hc
  | submit t =>
    rw [hsame nofun]
    exact World.only_submit hc
  | pollReply p r =>
    obtain ⟨q, hq, hqc⟩ := hc
    rw [hsame nofun]
    exact World.only_pollReply hs hq hqc r
  | relay p =>
    obtain ⟨q, hq, hqc⟩ := hc
    rw [hsame nofun]
    exact World.only_relay hs hq hqc
  | put p =>
    obtain ⟨q, hq, hqc⟩ := hc
    rw [hsame nofun]
    exact World.only_put hw hs hq hqc
  | wake p =>
    obtain ⟨q, hq, hqc⟩ := hc
    rw [hsame nofun]
    exact World.only_wake hq hqc
  | checkTerminate p =>
    obtain ⟨q, hq, hqc⟩ := hc
    rw [hsame nofun]
    exact World.only_checkTerminate hs hq hqc (hfree _ (by rw [World.waitsFor, hq]; rfl))
  | removeFailed p =>
    obtain ⟨q, hq, hqc⟩ := hc
    rw [hsame nofun]
    exact World.only_removeFailed hs hq hqc (hfree _ (by rw [World.waitsFor, hq]; rfl))
  | endPoller p =>
    obtain ⟨q, hq, hqc⟩ := hc
    rw [hsame nofun]
    exact World.only_endPoller hs hq hqc hfree
  | append c m =>
    obtain rfl : c = σ.canister := hc
    rw [hsame nofun]
    exact congrArg some (World.only_append m)

/-! ### The events of the others -/

theorem only_same {g g' : GatewayState} (hg : g'.only σ = g.only σ) :
    g'.only σ = { g.only σ with nextRef := g'.nextRef } := by
  have hnext : g'.nextRef = g.nextRef := by
    show (g'.only σ).nextRef = (g.only σ).nextRef
    rw [hg]
  rw [hg, hnext]
  rfl

/-- The canister of a session of another canister. -/
theorem World.Splits.other_session (hs : w.Splits σ) (hi : i ∉ σ.sessions)
    (hc : (w.handlers i).session.canisterId = some c) : c ≠ σ.canister :=
  fun hcc => hi ((hs.session i c hc).mpr hcc)

theorem others_gateway (hw : Sound w) (hs : w.Splits σ) (he : step cfg w e = some w')
    (hn : ¬ w.Concerns σ.canister σ.sessions e) :
    w'.gateway.only σ = { w.gateway.only σ with nextRef := w'.gateway.nextRef } := by
  have hpoller : ∀ {p q}, w.pollers p = some q → ¬ (∃ q, w.pollers p = some q ∧ q.canisterId = σ.canister) →
      q.canisterId ≠ σ.canister ∧ q.pollerState ∉ σ.refs := by
    intro p q hq hno
    have hne : q.canisterId ≠ σ.canister := fun hc => hno ⟨q, hq, hc⟩
    exact ⟨hne, fun hr => hne ((hs.poller p q hq).mp hr)⟩
  have hg := step_gateway he
  generalize w'.gateway = g at hg
  cases hg with
  | other => rfl
  | @insert i m c k tx phase =>
    have hc := hs.other_session hn ((hw.wf i).setup phase).2.1.canisterId
    exact GatewayState.others_insert hs.gateway hs.next hc k tx
  | @rollback i x c k t phase =>
    have hc := hs.other_session hn ((hw.wf i).rollback phase).canisterId
    have ht : ∀ r, t = some r → r ∉ σ.refs := by
      intro r hr hin
      exact hn ((hs.token i r (by rw [phase, ← hr]; rfl)).mp hin)
    refine only_same ?_
    rw [GatewayState.others_dropToken ht]
    exact GatewayState.others_struck hs.gateway hc k
  | @remove i c k phase =>
    have hkeyed : (w.handlers i).session.canisterId = some c := by
      rcases phase with hph | ⟨x, hph⟩
      · exact ((hw.wf i).closed hph).canisterId
      · exact ((hw.wf i).failed hph).canisterId
    exact only_same (GatewayState.others_struck hs.gateway (hs.other_session hn hkeyed) k)
  | @relayOpenPanic i m c k t io out msg phase =>
    have ht : ∀ r, t = some r → r ∉ σ.refs := by
      intro r hr hin
      exact hn ((hs.token i r (by rw [phase, ← hr]; rfl)).mp hin)
    exact only_same (GatewayState.others_dropToken ht)
  | noncePanic poller | failPanic poller | stop poller =>
    exact only_same (GatewayState.others_dropArc (hpoller poller hn).2)
  | terminate poller phase entry | fail poller phase entry =>
    have hc := (hpoller poller hn).1
    exact only_same (GatewayState.others_removeEntry hc (hs.gateway.other _ _ hc entry))

theorem others_handlers (hw : Sound w) (hs : w.Splits σ) (he : step cfg w e = some w')
    (hn : ¬ w.Concerns σ.canister σ.sessions e) (hi : i ∈ σ.sessions) : w'.handlers i = w.handlers i := by
  have hh := step_handler he i
  generalize w'.handlers i = b at hh
  cases hh with
  | other => rfl
  | push poller sending => exact absurd ⟨_, poller, (hs.receiver hw poller sending).mp hi⟩ hn
  | _ => exact absurd hi hn

theorem others_pollers (hw : Sound w) (hs : w.Splits σ) (he : step cfg w e = some w')
    (hn : ¬ w.Concerns σ.canister σ.sessions e) (p : PollerId) :
    (w'.only σ).pollers p = (w.only σ).pollers p := by
  show (w'.pollers p).filter _ = (w.pollers p).filter _
  have hp := step_poller he p
  generalize hx : w.pollers p = x at hp
  generalize w'.pollers p = y at hp
  cases hp with
  | other => rfl
  | @start _ i c r phase fresh =>
    have hnone : x = none := by
      rw [← hx, fresh]
      exact hw.next_none
    obtain ⟨k, hk, -⟩ := (hw.wf i).startingPoller phase
    have hc : c ≠ σ.canister := hs.other_session hn hk.canisterId
    rw [hnone, Option.filter_none, Option.filter_some, if_neg]
    rw [decide_eq_true_iff]
    exact hc
  | _ =>
    have hc : ¬ decide (_ = σ.canister) = true := fun hc => hn ⟨_, hx, of_decide_eq_true hc⟩
    rw [Option.filter_some, Option.filter_some, if_neg hc, if_neg hc]

theorem others_locks (he : step cfg w e = some w') (hn : ¬ w.Concerns σ.canister σ.sessions e) (s : ℕ) :
    (w'.only σ).gatewayLock s = (w.only σ).gatewayLock s := by
  have hout : ∀ {j}, j ∉ σ.sessions → (some j).filter σ.has = none := by
    intro j hj
    rw [Option.filter_some, if_neg]
    rw [Share.has_iff]
    exact hj
  show (w'.gatewayLock s).filter σ.has = (w.gatewayLock s).filter σ.has
  by_cases hlock : ∃ j, e = .lock j
  · obtain ⟨j, rfl⟩ := hlock
    obtain ⟨c, -, hfree, hl, -⟩ := lock_locks he
    rw [hl, Function.update_apply]
    split_ifs with hsc
    · rw [hsc, hfree, hout hn]
      rfl
    · rfl
  · by_cases hcommit : ∃ j, e = .commit j
    · obtain ⟨j, rfl⟩ := hcommit
      obtain ⟨c, -, hheld, hl⟩ := commit_locks he
      rw [hl, Function.update_apply]
      split_ifs with hsc
      · rw [hsc, hheld, hout hn]
        rfl
      · rfl
    · rw [other_locks he (fun j hj => hlock ⟨j, hj⟩) fun j hj => hcommit ⟨j, hj⟩]

/-- The others read shards for themselves. -/
theorem others_reads (hw : Sound w) (hs : w.Splits σ) (he : step cfg w e = some w')
    (hn : ¬ w.Concerns σ.canister σ.sessions e) (t : Counter) :
    (w'.only σ).shardsRead t = (w.only σ).shardsRead t := by
  have hruns : σ.runs w' t = σ.runs w t := by
    cases t with
    | session i => rfl
    | poller p =>
      have hp : (w'.pollers p).filter (fun q => q.canisterId = σ.canister) =
          (w.pollers p).filter fun q => q.canisterId = σ.canister := others_pollers hw hs he hn p
      show (w'.pollers p).any _ = (w.pollers p).any _
      rw [← Option.isSome_filter, hp, Option.isSome_filter]
  show (if σ.runs w' t then w'.shardsRead t else 0) = if σ.runs w t then w.shardsRead t else 0
  rw [hruns]
  obtain hsame | ⟨u, rfl, hcounts, -, hread⟩ := step_shardsRead he
  · rw [hsame]
  · rw [hread]
    by_cases hu : t = u
    · subst hu
      have hnot : ¬ σ.runs w t = true := by
        intro hruns
        cases t with
        | session i => exact hn (Share.has_iff.mp hruns)
        | poller p =>
          obtain ⟨q, -, hq, -⟩ := World.counts_poller hcounts
          have hq' : (w.pollers p).any (fun q => q.canisterId = σ.canister) = true := hruns
          rw [hq, Option.any_some, decide_eq_true_iff] at hq'
          exact hn ⟨q, hq, hq'⟩
      rw [if_neg hnot, if_neg hnot]
    · rw [Function.update_of_ne hu]

/-- The tasks that a session spawns are its own. -/
theorem spawn_spawned (i : ClientId) : ∀ (out : List Output) (w : World),
    (∃ ts, (w.spawn i out).spawned = w.spawned ++ ts ∧ ∀ t ∈ ts, t.client = i) ∧ w.nextTask ≤ (w.spawn i out).nextTask
  | [], w => ⟨⟨[], (List.append_nil _).symm, nofun⟩, Nat.le_refl _⟩
  | o :: out, w => by
    cases o with
    | relayEnvelope c env =>
      obtain ⟨⟨ts, hts, hclient⟩, hnext⟩ := spawn_spawned i out
        { w with spawned := w.spawned ++ [⟨w.nextTask, i, c, env⟩], nextTask := w.nextTask + 1 }
      refine ⟨⟨⟨w.nextTask, i, c, env⟩ :: ts, ?_, ?_⟩, Nat.le_of_succ_le hnext⟩
      · rw [World.spawn, hts, List.append_assoc]
        rfl
      · intro t ht
        rcases List.mem_cons.mp ht with rfl | ht
        · rfl
        · exact hclient t ht
    | _ => exact spawn_spawned i out w

theorem others_tasks (he : step cfg w e = some w') (hn : ¬ w.Concerns σ.canister σ.sessions e) :
    (w'.only σ).spawned = (w.only σ).spawned ∧ (w'.only σ).submitted = (w.only σ).submitted ∧
      (w'.only σ).logs = (w.only σ).logs ∧ w.nextTask ≤ w'.nextTask := by
  have hout : ∀ {j}, j ∉ σ.sessions → ¬ σ.has j = true := fun hj hhas => hj (Share.has_iff.mp hhas)
  -- the tasks that others spawn
  have hspawn : ∀ {i out} {v : World}, i ∉ σ.sessions → v.spawned = w.spawned → v.submitted = w.submitted →
      v.nextTask = w.nextTask → v.logs = w.logs →
      ((v.spawn i out).only σ).spawned = (w.only σ).spawned ∧ ((v.spawn i out).only σ).submitted = (w.only σ).submitted ∧
        ((v.spawn i out).only σ).logs = (w.only σ).logs ∧ w.nextTask ≤ (v.spawn i out).nextTask := by
    intro i out v hi hsp hsub hnext hlogs
    obtain ⟨⟨ts, hts, hclient⟩, hle⟩ := spawn_spawned i out v
    refine ⟨?_, ?_, ?_, hnext ▸ hle⟩
    · show (v.spawn i out).spawned.filter _ = w.spawned.filter _
      have hnone : ts.filter (fun t => σ.has t.client) = [] :=
        List.filter_eq_nil_iff.mpr fun t ht => by rw [hclient t ht]; exact hout hi
      rw [hts, List.filter_append, hnone, List.append_nil, hsp]
    · show (v.spawn i out).submitted.filter _ = w.submitted.filter _
      rw [World.spawn_submitted, hsub]
    · show cut _ (v.spawn i out).logs _ = cut _ w.logs _
      rw [World.spawn_logs, hlogs]
  cases step_cases he with
  | update => exact hspawn hn rfl rfl rfl rfl
  | relayOpen | relayOpenFail | relayOpenPanic => exact hspawn hn rfl rfl rfl rfl
  | @submit t spawned =>
    refine ⟨?_, ?_, rfl, Nat.le_refl _⟩
    · show (w.spawned.erase t).filter _ = w.spawned.filter _
      rw [← List.erase_filter]
      refine List.erase_of_not_mem fun hmem => ?_
      exact hout hn (List.mem_filter.mp hmem).2
    · show (w.submitted ++ [t]).filter _ = w.submitted.filter _
      have hnot : σ.has t.client = false := eq_false_of_ne_true (hout hn)
      rw [List.filter_append, List.filter_singleton, hnot]
      exact List.append_nil _
  | append =>
    refine ⟨rfl, rfl, ?_, Nat.le_refl _⟩
    exact cut_update_outside (fun hc => hn (Set.mem_singleton_iff.mp hc)) _
  | _ => exact ⟨rfl, rfl, rfl, Nat.le_refl _⟩

theorem nextPoller_mono (he : step cfg w e = some w') : w.nextPoller ≤ w'.nextPoller := by
  cases step_cases he with
  | startPoller => exact Nat.le_succ _
  | update | relayOpen | relayOpenFail | relayOpenPanic => rw [World.spawn_nextPoller]; exact Nat.le_refl _
  | _ => exact Nat.le_refl _

/-- Others use up numbers. -/
def World.skip (w : World) (pollerStates pollers tasks : ℕ) : World :=
  { w with
    gateway := { w.gateway with nextRef := w.gateway.nextRef + pollerStates }
    nextPoller := w.nextPoller + pollers
    nextTask := w.nextTask + tasks }

/-- **An event of the others does nothing to the share**, but that it may use up numbers. -/
theorem others_step (hw : Sound w) (hs : w.Splits σ) (he : step cfg w e = some w')
    (hn : ¬ w.Concerns σ.canister σ.sessions e) :
    w'.only σ = (w.only σ).skip (w'.gateway.nextRef - w.gateway.nextRef) (w'.nextPoller - w.nextPoller)
      (w'.nextTask - w.nextTask) := by
  obtain ⟨hspawned, hsubmitted, hlogs, htask⟩ := others_tasks he hn
  refine World.ext ?_ ?_ ?_ ?_ ?_ ?_ hspawned hsubmitted ?_ hlogs
  · show w'.gateway.only σ = { w.gateway.only σ with
      nextRef := w.gateway.nextRef + (w'.gateway.nextRef - w.gateway.nextRef) }
    rw [others_gateway hw hs he hn, Nat.add_sub_of_le (nextRef_mono he)]
  · exact cut_congr fun i hi => others_handlers hw hs he hn hi
  · funext p
    exact others_pollers hw hs he hn p
  · exact (Nat.add_sub_of_le (nextPoller_mono he)).symm
  · funext s
    exact others_locks he hn s
  · funext t
    exact others_reads hw hs he hn t
  · exact (Nat.add_sub_of_le htask).symm

/-! ### Every run -/

/-- What the share sees of an event: its own event, or that others have used up some numbers. -/
inductive Seen
  | own (e : Event)
  | others (pollerStates pollers tasks : ℕ)

def stepSeen (cfg : Config) (w : World) : Seen → Option World
  | .own e => step cfg w e
  | .others pollerStates pollers tasks => some (w.skip pollerStates pollers tasks)

open Classical in
/-- What the canister `c` with the sessions `S` sees of an event. -/
noncomputable def seen (cfg : Config) (c : CanisterPrincipal) (S : Set ClientId) (x : World × Event) : Seen :=
  if x.1.Concerns c S x.2 then .own x.2
  else match step cfg x.1 x.2 with
    | some w' => .others (w'.gateway.nextRef - x.1.gateway.nextRef) (w'.nextPoller - x.1.nextPoller)
        (w'.nextTask - x.1.nextTask)
    | none => .others 0 0 0

/-- The sessions `S` are those of the canister `c`, and perhaps some that have no canister. -/
def World.SessionsOf (w : World) (c : CanisterPrincipal) (S : Set ClientId) : Prop :=
  ∀ i c', (w.handlers i).session.canisterId = some c' → (i ∈ S ↔ c' = c)

theorem World.SessionsOf.before {S : Set ClientId} (hS : w'.SessionsOf c S) (hw : Sound w)
    (he : step cfg w e = some w') : w.SessionsOf c S :=
  fun i c' hc => hS i c' ((step_handler he i).canister (hw.wf i) hc)

/-- The canister `c`, its sessions, and the poller states made for it in the history. -/
def shareOf (c : CanisterPrincipal) (S : Set ClientId) (h : List (World × Event)) : Share :=
  ⟨c, S, {r | madeFor h r = some c}⟩

theorem shareOf_snoc {S : Set ClientId} (hr : Runs cfg h w) (he : step cfg w e = some w') :
    shareOf c S (h ++ [(w, e)]) = (shareOf c S h).after (w, e) := by
  have hrefs : {r | madeFor (h ++ [(w, e)]) r = some c} =
      {r | r ∈ (shareOf c S h).refs ∨ makes (w, e) = some (r, c)} := by
    ext r
    show madeFor (h ++ [(w, e)]) r = some c ↔ madeFor h r = some c ∨ makes (w, e) = some (r, c)
    rw [madeFor_snoc]
    rcases hold : madeFor h r with _ | c'
    · rw [Option.none_or, lookup_toList]
      simp
    · refine ⟨Or.inl, fun hor => hor.elim id fun hmk => ?_⟩
      exact absurd (makes_cases he hmk).1 (Nat.ne_of_lt ((made_for hr).bound r c' hold))
  unfold shareOf at hrefs ⊢
  rw [hrefs]
  rfl

/-- A token is held by a session with a canister. -/
theorem canister_of_token (hw : Sound w) (ht : (w.handlers i).phase.token = some r) :
    ∃ c, (w.handlers i).session.canisterId = some c := by
  unfold Phase.token at ht
  split at ht
  · rename_i hph
    exact ⟨_, ((hw.wf i).relayingOpen hph).1.canisterId⟩
  · rename_i hph
    obtain ⟨k, hk, -⟩ := (hw.wf i).startingPoller hph
    exact ⟨_, hk.canisterId⟩
  · rename_i hph
    exact ⟨_, ((hw.wf i).rollback hph).canisterId⟩
  · cases ht

/-- A poller that is not there yet has read no shard. -/
theorem unread_poller (hr : Runs cfg h w) (p : PollerId) (hp : w.pollers p = none) :
    w.shardsRead (.poller p) = 0 := by
  induction hr with
  | nil => rfl
  | @snoc h t t' e hr he ih =>
    have hold : t.pollers p = none := by
      have hstep := step_poller he p
      rw [hp] at hstep
      generalize t.pollers p = x at hstep
      cases hstep with
      | other => rfl
    obtain hsame | ⟨u, rfl, hcounts, -, hread⟩ := step_shardsRead he
    · rw [hsame]
      exact ih hold
    · have hu : Counter.poller p ≠ u := by
        rintro rfl
        obtain ⟨q, -, hq, -⟩ := World.counts_poller hcounts
        rw [hold] at hq
        cases hq
      rw [hread, Function.update_of_ne hu]
      exact ih hold

/-- The share of a canister is what belongs to it. -/
theorem splits {S : Set ClientId} (hr : Runs cfg h w) (hS : w.SessionsOf c S) : w.Splits (shareOf c S h) := by
  have hm := made_for hr
  have hown : ∀ {r c'}, madeFor h r = some c' → (r ∈ (shareOf c S h).refs ↔ c' = c) := by
    intro r c' hc'
    show madeFor h r = some c ↔ c' = c
    rw [hc', Option.some.injEq]
  refine ⟨⟨?_, ?_⟩, hS, ?_, ?_, ?_, ?_, unread_poller hr⟩
  · intro r hentry
    exact hm.entry c r hentry
  · intro c' r hne hentry hin
    exact hne ((hown (hm.entry c' r hentry)).mp hin)
  · intro i r ht
    obtain ⟨c', hc'⟩ := canister_of_token (reachable hr) ht
    rw [hown (hm.token i c' r hc' ht)]
    exact (hS i c' hc').symm
  · intro p q hq
    exact hown (hm.poller p q hq)
  · intro r k i hk
    obtain ⟨c', hc', howner⟩ := hm.stored r k i hk
    rw [hown howner]
    exact (hS i c' hc').symm
  · intro hin
    exact Nat.lt_irrefl _ (hm.bound _ c hin)

theorem new_only (c : CanisterPrincipal) (S : Set ClientId) : World.new.only (shareOf c S []) = World.new := by
  refine World.ext (GatewayState.ext rfl cut_self cut_self rfl) cut_self rfl rfl rfl ?_ rfl rfl rfl cut_self
  funext t
  exact ite_self 0

/-- What makes a poller state for a canister is an insert of one of its sessions. -/
theorem makes_concerns (hw : Sound w) (hs : w.Splits σ) (hmk : makes (w, e) = some (r, σ.canister)) :
    w.Concerns σ.canister σ.sessions e := by
  cases e with
  | commit i =>
    simp only [makes] at hmk
    split at hmk
    · rename_i m c k tx hph
      split_ifs at hmk
      obtain ⟨-, rfl⟩ := Prod.mk.inj (Option.some.inj hmk)
      exact (hs.session i _ ((hw.wf i).setup hph).2.1.canisterId).mpr rfl
    · cases hmk
  | _ => cases hmk

/-- An event that happens has found its shard free. -/
theorem free_of_step {s : ℕ} (he : step cfg w e = some w') (hs : w.waitsFor cfg e = some s) :
    w.gatewayLock s = none := by
  cases e with
  | lock i =>
    obtain ⟨c, ht, hfree, -⟩ := lock_locks he
    rw [World.waitsFor, ht, Option.map_some] at hs
    rw [← Option.some.inj hs, hfree]
  | checkTerminate p =>
    cases step_cases he with
    | terminate poller phase free | goOn poller phase free =>
      rw [World.waitsFor, poller, Option.map_some] at hs
      rw [← Option.some.inj hs, free]
  | removeFailed p =>
    cases step_cases he with
    | fail poller phase free | failPanic poller phase free =>
      rw [World.waitsFor, poller, Option.map_some] at hs
      rw [← Option.some.inj hs, free]
  | readShard t =>
    cases step_cases he with
    | readShard counts more free =>
      rw [World.waitsFor, if_pos ⟨counts, more⟩] at hs
      rw [← Option.some.inj hs, free]
  | startPoller i =>
    unfold World.waitsFor at hs
    dsimp only at hs
    split_ifs at hs with hread
    obtain ⟨c, r, hph⟩ := World.counts_session hread.1
    cases step_cases he with
    | startPoller phase last => rw [← Option.some.inj hs, last.2]
    | noPoller phase =>
      rw [phase] at hph
      cases hph
  | endPoller p =>
    unfold World.waitsFor at hs
    dsimp only at hs
    split_ifs at hs
    cases step_cases he with
    | stop poller phase last => rw [← Option.some.inj hs, last.2]
  | _ => cases hs

/-- **Isolation of the canisters.** The part of a run that belongs to one canister, its sessions, its pollers
and their relay tasks, is a run of the gateway by itself, in which others only use up numbers: whatever the
sessions, the pollers and the queues of the other canisters do, and however their events lie among those of this
canister, each of its own does what it would do without them. -/
theorem canister_isolated (hr : Runs cfg h w) {S : Set ClientId} (hS : w.SessionsOf c S) :
    LTS.exec (stepSeen cfg) World.new (h.map (seen cfg c S)) = some (w.only (shareOf c S h)) := by
  have hstep : ∀ h w e w', Runs cfg h w → step cfg w e = some w' → w'.SessionsOf c S →
      w.SessionsOf c S ∧
        stepSeen cfg (w.only (shareOf c S h)) (seen cfg c S (w, e)) = some (w'.only (shareOf c S (h ++ [(w, e)]))) := by
    intro h w e w' hr he hS
    have hw := reachable hr
    have hS' := hS.before hw he
    have hs := splits hr hS'
    refine ⟨hS', ?_⟩
    rw [shareOf_snoc hr he]
    by_cases hc : w.Concerns c S e
    · have hown := own_step hw hs hc fun s hwait j hj => by
        rw [free_of_step he hwait] at hj
        cases hj
      rw [seen, if_pos hc]
      show step cfg (w.only (shareOf c S h)) e = _
      rw [hown, he]
      rfl
    · have hsame : (shareOf c S h).after (w, e) = shareOf c S h :=
        Share.after_same fun r hmk => hc (makes_concerns hw hs hmk)
      rw [seen, if_neg hc, hsame, others_step hw hs he hc]
      dsimp only
      rw [he]
      rfl
  have hrun := LTS.Run.seen (fun h w => w.only (shareOf c S h)) (seen cfg c S) hstep hr hS
  rw [new_only] at hrun
  exact hrun

/-- The sessions that have the canister `c`. -/
def World.sessionsOf (w : World) (c : CanisterPrincipal) : Set ClientId :=
  {i | (w.handlers i).session.canisterId = some c}

theorem World.sessionsOf_sessions (w : World) (c : CanisterPrincipal) : w.SessionsOf c (w.sessionsOf c) := by
  intro i c' hc'
  show (w.handlers i).session.canisterId = some c ↔ c' = c
  rw [hc', Option.some.injEq]

/-- Clients of two canisters open sessions, and both pollers poll. -/
def twoCanisters (c c' : CanisterPrincipal) : List Event :=
  opens 0 (wsOpen c ⟨[1], 1⟩) ++ opens 1 (wsOpen c' ⟨[2], 2⟩) ++
    [polls 1 [messageFor ⟨[2], 2⟩ "gateway_0"], .relay 1, polls 0 [], .put 1]

set_option maxRecDepth 20000 in
/-- The second canister served by itself. -/
theorem canister_isolated_two :
    LTS.exec (stepSeen .simple) World.new ((LTS.trace (step .simple) World.new (twoCanisters [9] [8])).map
        (seen .simple [8] ((World.after .simple (twoCanisters [9] [8])).sessionsOf [8]))) =
      some ((World.after .simple (twoCanisters [9] [8])).only (shareOf [8]
        ((World.after .simple (twoCanisters [9] [8])).sessionsOf [8])
        (LTS.trace (step .simple) World.new (twoCanisters [9] [8])))) :=
  canister_isolated (runs_after (by decide)) (World.sessionsOf_sessions _ _)

/-- **Others hold a canister back by a locked shard only.** An event of a canister's share does in the world what it
does on the share alone, or it waits for a shard that a session of another canister has locked: that of its canister,
or the next one that it reads to count the pollers. -/
theorem held_back_by_shard (hr : Runs cfg h w) {S : Set ClientId} (hS : w.SessionsOf c S) (hc : w.Concerns c S e) :
    (step cfg w e).map (·.only ((shareOf c S h).after (w, e))) = step cfg (w.only (shareOf c S h)) e ∨
      step cfg w e = none ∧ ∃ j c', w.waitsFor cfg e = some (cfg.gatewayShard c') ∧
        w.gatewayLock (cfg.gatewayShard c') = some j ∧ (w.handlers j).phase.target = some c' ∧ c' ≠ c := by
  have hw := reachable hr
  have hs := splits hr hS
  by_cases hfree : ∀ s, w.waitsFor cfg e = some s → ∀ j, w.gatewayLock s = some j → j ∈ S
  · exact Or.inl (own_step hw hs hc hfree).symm
  · push Not at hfree
    obtain ⟨s, hwait, j, hj, hout⟩ := hfree
    obtain ⟨c', ht, rfl⟩ := lock_held hr s j hj
    have hnone : step cfg w e = none := by
      by_contra hne
      obtain ⟨w', he⟩ := Option.ne_none_iff_exists'.mp hne
      rw [free_of_step he hwait] at hj
      cases hj
    exact Or.inr ⟨hnone, j, c', hwait, hj, ht, hs.other_session hout (World.canister_of_target hw ht)⟩

/-- The first session is about to start its poller and has read the first of two shards to count the pollers; the
second session has locked the other one, to insert its client. -/
def countsMeanwhile (c c' : CanisterPrincipal) : List Event :=
  [.readWs 0 (.ok (wsOpen c ⟨[1], 1⟩)), .update 0 .ok, .lock 0, .commit 0, .relayOpen 0 .ok, .readShard (.session 0),
    .readWs 1 (.ok (wsOpen c' ⟨[2], 2⟩)), .update 1 .ok, .lock 1]

set_option maxRecDepth 20000 in
/-- The first session waits for the second. -/
theorem held_back_by_shard_counting :
    step .twoShards (World.after .twoShards (countsMeanwhile [9] [8])) (.startPoller 0) = none ∧
    ((step .twoShards (World.after .twoShards (countsMeanwhile [9] [8])) (.startPoller 0)).map
        (·.only ((shareOf [9] ((World.after .twoShards (countsMeanwhile [9] [8])).sessionsOf [9])
          (LTS.trace (step .twoShards) World.new (countsMeanwhile [9] [8]))).after
            (World.after .twoShards (countsMeanwhile [9] [8]), .startPoller 0))) =
      step .twoShards ((World.after .twoShards (countsMeanwhile [9] [8])).only
        (shareOf [9] ((World.after .twoShards (countsMeanwhile [9] [8])).sessionsOf [9])
          (LTS.trace (step .twoShards) World.new (countsMeanwhile [9] [8])))) (.startPoller 0) ∨
    step .twoShards (World.after .twoShards (countsMeanwhile [9] [8])) (.startPoller 0) = none ∧
      ∃ j c', (World.after .twoShards (countsMeanwhile [9] [8])).waitsFor .twoShards (.startPoller 0) =
          some (Config.twoShards.gatewayShard c') ∧
        (World.after .twoShards (countsMeanwhile [9] [8])).gatewayLock (Config.twoShards.gatewayShard c') = some j ∧
        ((World.after .twoShards (countsMeanwhile [9] [8])).handlers j).phase.target = some c' ∧ c' ≠ [9]) := by
  have h0 : ((World.after .twoShards (countsMeanwhile [9] [8])).handlers 0).session.canisterId = some [9] := by decide
  have hwaits : (step .twoShards (World.after .twoShards (countsMeanwhile [9] [8])) (.startPoller 0)).isNone := by decide
  exact ⟨Option.isNone_iff_eq_none.mp hwaits,
    held_back_by_shard (runs_after (by decide)) (World.sessionsOf_sessions _ _) h0⟩

end IcWsGateway
