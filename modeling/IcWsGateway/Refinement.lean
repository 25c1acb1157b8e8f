/-
# The gateway is a registry

The gateway map, the poller states, the sessions and the pollers of a world are
a registry in the sense of `Registry` (`World.registry`): canisters are the
resources, poller states the rosters, session handlers the members and pollers
the workers; the reference that the insert returns is the token, and the guard
that a poller holds while it sends is a pin. Every event either leaves this
registry alone or is one of its steps (`step_refines`), so what `Registry`
proves of the lives of rosters holds in every reachable world (`reachable`).

Key definitions: `World.registry`, `Sound`, `DistinctKeys`.
Key theorems: `step_refines`, `reachable`, `seated`.
-/
import IcWsGateway.Handlers
import IcWsGateway.Lib.Registry

namespace IcWsGateway

open Registry (Seat Stage Action)

/-! ### The registry of a world -/

/-- A session is a member from the insert of its sender to its removal, or to its
end without one. -/
def Handler.seat (h : Handler) : Seat CanisterPrincipal ClientKey :=
  match h.phase with
  | .ended _ | .closing .. => .gone
  | .setup .. => .outside
  | _ =>
    match h.clientChannelTx, h.session.canisterId, h.session.clientKey with
    | none, some c, some k => .member c k
    | _, _, _ => .outside

def Phase.token : Phase → Option PollerRef
  | .relayingOpen _ _ _ t | .startingPoller _ t | .rollback _ _ _ t => t
  | _ => none

def PollerPhase.stage : PollerPhase → Stage
  | .returned (.ok _) => .retired .empty
  | .returned (.error _) => .retired .failed
  | .ended (.returned (.ok _)) => .ended .empty
  | .ended (.returned (.error _)) => .ended .failed
  | .ended (.panicked _) => .ended .crashed
  | _ => .active

def PollerPhase.pin : PollerPhase → Option (ClientKey × ClientId)
  | .sending i k _ _ => some (k, i)
  | _ => none

def World.registry (w : World) : Registry.State CanisterPrincipal ClientKey ClientId where
  entry c := w.gateway.data.lookup c
  members r k := ((w.gateway.clients r).lookup k).map ClientSender.sender
  strong := w.gateway.strong
  next := w.gateway.nextRef
  seat i := (w.handlers i).seat
  token i := (w.handlers i).phase.token
  worker p := (w.pollers p).map fun q => (q.canisterId, q.pollerState, q.phase.stage)
  pin p := (w.pollers p).bind fun q => q.phase.pin
  nextWorker := w.nextPoller

theorem registry_new : World.new.registry = Registry.State.init := by
  refine Registry.State.ext ?_ ?_ rfl rfl rfl rfl rfl rfl rfl
  · funext c
    exact FiniteMap.lookup_empty c
  · funext r k
    simp [World.registry, World.new, GatewayState.new, Registry.State.init]

/-- A handler with keys is a member in this phase. -/
def Phase.inside : Phase → Bool
  | .setup .. | .closing .. | .ended _ => false
  | _ => true

theorem seat_of_keyed {h : Handler} {c : CanisterPrincipal} {k : ClientKey} (hk : h.Keyed c k)
    (hi : h.phase.inside = true) : h.seat = .member c k := by
  unfold Handler.seat
  split
  · rename_i hph
    rw [hph] at hi
    cases hi
  · rename_i hph
    rw [hph] at hi
    cases hi
  · rename_i hph
    rw [hph] at hi
    cases hi
  · simp only [hk.tx, hk.canisterId, hk.clientKey]

/-- A change of one handler that keeps its seat and its token. -/
theorem registry_setHandler {w : World} {i : ClientId} {h : Handler}
    (hs : h.seat = (w.handlers i).seat) (ht : h.phase.token = (w.handlers i).phase.token) :
    (w.setHandler i h).registry = w.registry := by
  refine Registry.State.ext rfl rfl rfl rfl ?_ ?_ rfl rfl rfl
  · funext j
    simp only [World.registry, World.setHandler_handlers, Function.update_apply]
    split_ifs with hj
    · rw [hj, hs]
    · rfl
  · funext j
    simp only [World.registry, World.setHandler_handlers, Function.update_apply]
    split_ifs with hj
    · rw [hj, ht]
    · rfl

/-- A change of one handler, in its registry. -/
theorem registry_setHandler_eq (w : World) (i : ClientId) (h : Handler) :
    (w.setHandler i h).registry = { w.registry with
      seat := Function.update w.registry.seat i h.seat
      token := Function.update w.registry.token i h.phase.token } := by
  refine Registry.State.ext rfl rfl rfl rfl ?_ ?_ rfl rfl rfl <;>
  · funext j
    simp only [World.registry, World.setHandler_handlers, Function.update_apply]
    split_ifs <;> rfl

/-- A change of one poller, in the registry. -/
theorem registry_setPoller_eq (w : World) (p : PollerId) (q : CanisterPoller) :
    (w.setPoller p q).registry = { w.registry with
      worker := Function.update w.registry.worker p (some (q.canisterId, q.pollerState, q.phase.stage))
      pin := Function.update w.registry.pin p q.phase.pin } := by
  refine Registry.State.ext rfl rfl rfl rfl rfl rfl ?_ ?_ rfl <;>
  · funext j
    simp only [World.registry, World.setPoller_pollers, Function.update_apply]
    split_ifs <;> rfl

/-- A change of one poller that keeps its stage and its pin. -/
theorem registry_setPoller {w : World} {p : PollerId} {q q' : CanisterPoller}
    (hq : w.pollers p = some q) (hc : q'.canisterId = q.canisterId) (hr : q'.pollerState = q.pollerState)
    (hs : q'.phase.stage = q.phase.stage) (hp : q'.phase.pin = q.phase.pin) :
    (w.setPoller p q').registry = w.registry := by
  rw [registry_setPoller_eq]
  refine Registry.State.ext rfl rfl rfl rfl rfl rfl ?_ ?_ rfl
  · rw [hc, hr, hs]
    apply Function.update_eq_self_iff.mpr
    simp [World.registry, hq]
  · rw [hp]
    apply Function.update_eq_self_iff.mpr
    simp [World.registry, hq]

theorem registry_spawn (w : World) (i : ClientId) (out : List Output) :
    (w.spawn i out).registry = w.registry := by
  simp [World.registry]

theorem registry_unlock (w : World) (s : ℕ) : (w.unlock s).registry = w.registry := rfl

/-! ### The operations on the gateway state -/

/-- The guard of a poller is what keeps its key from being touched. -/
theorem not_blocked {cfg : Config} {w : World} {r : PollerRef} {k : ClientKey}
    (hlt : ∀ p x, w.registry.worker p = some x → p < w.registry.nextWorker)
    (hg : ¬ w.Guarded cfg r k) : ¬ w.registry.Blocked r k := by
  rintro ⟨p, c, i, x, hw, hp⟩
  refine hg ⟨p, hlt p _ hw, ?_⟩
  simp only [World.registry, Option.map_eq_some_iff, Prod.mk.injEq] at hw
  obtain ⟨q, hq, rfl, rfl, rfl⟩ := hw
  simp only [World.registry, hq, Option.bind_some] at hp
  have hguard : q.guardedKey = some k := by
    unfold PollerPhase.pin at hp
    split at hp
    · rename_i hph
      cases hp
      unfold CanisterPoller.guardedKey
      rw [hph]
    · cases hp
  simp only [hq, Option.any_some, hguard, decide_true, and_self]

theorem registry_dropArc (w : World) (r : PollerRef) :
    (w.setGateway (w.gateway.dropArc r)).registry = w.registry.drop r := rfl

theorem members_setClients (g : GatewayState) (r r' : PollerRef) (m : Clients) (k : ClientKey) :
    (((g.setClients r m).clients r').lookup k).map ClientSender.sender =
      if r' = r then (m.lookup k).map ClientSender.sender
      else ((g.clients r').lookup k).map ClientSender.sender := by
  simp only [GatewayState.setClients, Function.update_apply]
  split_ifs <;> rfl

/-- The insert is a join, and what it returns is the token. -/
theorem registry_insert {w : World} {i : ClientId} {c : CanisterPrincipal} {k : ClientKey} {h : Handler}
    (ht : w.registry.token i = none) (hs : h.seat = .member c k)
    (htok : h.phase.token = (w.gateway.insertClientChannelAndGetNewPollerState c k i).2) :
    ((w.setGateway (w.gateway.insertClientChannelAndGetNewPollerState c k i).1).setHandler i h).registry =
      match w.registry.entry c with
      | some r => (w.registry.setMember r k (some i)).setSeat i (.member c k)
      | none => w.registry.create i c k := by
  rw [registry_setHandler_eq, hs, htok]
  unfold GatewayState.insertClientChannelAndGetNewPollerState
  rcases he : w.gateway.data.lookup c with _ | r
  · have he' : w.registry.entry c = none := he
    simp only [he']
    refine Registry.State.ext ?_ ?_ rfl rfl rfl rfl rfl rfl rfl
    · funext c'
      simp only [World.registry, Registry.State.create, World.setGateway_gateway,
        FiniteMap.lookup_insert_eq, Function.update_apply]
    · funext r' k'
      simp only [World.registry, Registry.State.create, World.setGateway_gateway, Function.update_apply]
      by_cases hr : r' = w.gateway.nextRef
      · simp only [hr, if_true, Function.update_apply, FiniteMap.lookup_insert_eq, Finmap.lookup_empty]
        split_ifs <;> rfl
      · simp only [hr, if_false]
  · have he' : w.registry.entry c = some r := he
    simp only [he']
    refine Registry.State.ext rfl ?_ rfl rfl rfl ?_ rfl rfl rfl
    · funext r' k'
      simp only [World.registry, Registry.State.setSeat, Registry.State.setMember,
        World.setGateway_gateway, members_setClients, FiniteMap.lookup_insert_eq, Function.update_apply]
      by_cases hr : r' = r
      · simp only [hr, if_true, Function.update_apply]
        split_ifs <;> rfl
      · simp only [hr, if_false]
    · exact Function.update_eq_self_iff.mpr ht.symm

/-- Removing a key, or not finding it, strikes it from the roster. -/
theorem members_removeKey (g : GatewayState) (r r' : PollerRef) (k k' : ClientKey) :
    ((((g.removeKey r k).getD g).clients r').lookup k').map ClientSender.sender =
      if r' = r ∧ k' = k then none else ((g.clients r').lookup k').map ClientSender.sender := by
  unfold GatewayState.removeKey
  rcases hl : (g.clients r).lookup k with _ | x
  · simp only [Option.getD_none]
    split_ifs with h
    · rw [h.1, h.2, hl]
      rfl
    · rfl
  · simp only [Option.getD_some, members_setClients, FiniteMap.lookup_erase_eq]
    by_cases hr : r' = r
    · by_cases hk : k' = k
      · simp [hr, hk]
      · simp [hr, hk]
    · simp [hr]

/-- What `remove_client` and `remove_client_if_exists` leave of the gateway state. -/
def GatewayState.struck (g : GatewayState) (c : CanisterPrincipal) (k : ClientKey) : GatewayState :=
  match g.data.lookup c with
  | some r => (g.removeKey r k).getD g
  | none => g

theorem struck_of_removeClient {g g' : GatewayState} {c : CanisterPrincipal} {k : ClientKey}
    (h : g.removeClient c k = .ok g') : g' = g.struck c k := by
  unfold GatewayState.removeClient at h
  unfold GatewayState.struck
  rcases hl : g.data.lookup c with _ | r
  · rw [hl] at h
    cases h
    rfl
  · rw [hl] at h
    dsimp only at h ⊢
    rcases hr : g.removeKey r k with _ | g₁
    · rw [hr] at h
      cases h
    · rw [hr] at h
      cases h
      rfl

theorem struck_of_panic {g : GatewayState} {c : CanisterPrincipal} {k : ClientKey} {m : String}
    (h : g.removeClient c k = .error m) : g.struck c k = g := by
  unfold GatewayState.removeClient at h
  unfold GatewayState.struck
  rcases hl : g.data.lookup c with _ | r
  · rfl
  · rw [hl] at h
    dsimp only at h ⊢
    rcases hr : g.removeKey r k with _ | g₁
    · rfl
    · rw [hr] at h
      cases h

theorem struck_of_removeClientIfExists {g g' : GatewayState} {c : CanisterPrincipal} {k : ClientKey}
    {r : ClientRemovalResult} (h : g.removeClientIfExists c k = (g', r)) : g' = g.struck c k := by
  unfold GatewayState.removeClientIfExists at h
  unfold GatewayState.struck
  rcases hl : g.data.lookup c with _ | r
  · rw [hl] at h
    cases h
    rfl
  · rw [hl] at h
    dsimp only at h ⊢
    rcases hr : g.removeKey r k with _ | g₁
    · rw [hr] at h
      cases h
      rfl
    · rw [hr] at h
      cases h
      rfl

theorem registry_struck (w : World) (c : CanisterPrincipal) (k : ClientKey) :
    (w.setGateway (w.gateway.struck c k)).registry = w.registry.strike c k := by
  unfold GatewayState.struck Registry.State.strike
  rcases he : w.gateway.data.lookup c with _ | r
  · have he' : w.registry.entry c = none := he
    simp only [he']
    rfl
  · have he' : w.registry.entry c = some r := he
    have hrest : ∀ g : GatewayState, g = (w.gateway.removeKey r k).getD w.gateway →
        g.data = w.gateway.data ∧ g.strong = w.gateway.strong ∧ g.nextRef = w.gateway.nextRef := by
      rintro g rfl
      unfold GatewayState.removeKey
      split <;> exact ⟨rfl, rfl, rfl⟩
    obtain ⟨h1, h2, h3⟩ := hrest _ rfl
    simp only [he']
    refine Registry.State.ext ?_ ?_ h2 h3 rfl rfl rfl rfl rfl
    · funext c'
      show ((w.gateway.removeKey r k).getD w.gateway).data.lookup c' = w.gateway.data.lookup c'
      rw [h1]
    · funext r' k'
      simp only [World.registry, Registry.State.setMember, World.setGateway_gateway, members_removeKey,
        Function.update_apply]
      by_cases hr : r' = r
      · by_cases hk : k' = k
        · simp [hr, hk]
        · simp [hr, hk]
      · simp [hr]

/-! ### The events -/

/-- The event is a step of the registry, or none of its business. -/
def Refines (w w' : World) : Prop :=
  w'.registry = w.registry ∨ ∃ a, Registry.Step a w.registry w'.registry

/-- What is known of a reachable world, in its registry. -/
structure Sound (w : World) : Prop where
  wf : ∀ i, (w.handlers i).Wf i
  lives : ∃ life, Registry.Own w.registry life ∧ Registry.Roster w.registry life
  cutOff : ∀ i, (w.handlers i).phase = .updating (.canister none) → w.registry.Dropped i

variable {cfg : Config} {w w' : World}

theorem Sound.worker_lt (hw : Sound w) (p : PollerId) (x : CanisterPrincipal × ℕ × Stage)
    (h : w.registry.worker p = some x) : p < w.registry.nextWorker := by
  obtain ⟨life, ho, -⟩ := hw.lives
  exact ho.worker_lt p x h

/-- The end of a session that is a member, seen in the registry: its key is struck,
and the token that was still in its hands is dropped. -/
theorem registry_leave (w : World) (i : ClientId) (c : CanisterPrincipal) (k : ClientKey) {h : Handler}
    (hs : h.seat = .gone) (ht : h.phase.token = none) :
    ((w.setGateway ((w.gateway.struck c k).dropToken (w.registry.token i))).setHandler i h).registry =
    ((w.registry.strike c k).dropToken i).setSeat i .gone := by
  have htok : (w.registry.strike c k).token i = w.registry.token i := by
    unfold Registry.State.strike
    split <;> rfl
  have hstrike := registry_struck w c k
  rw [registry_setHandler_eq, hs, ht]
  unfold Registry.State.dropToken
  rw [htok]
  rcases htok' : w.registry.token i with _ | r
  · rw [← hstrike]
    refine Registry.State.ext rfl rfl rfl rfl rfl ?_ rfl rfl rfl
    exact Function.update_eq_self_iff.mpr htok'.symm
  · rw [← hstrike]
    rfl

/-- A session that is a member leaves the registry. -/
theorem leave_refines {i : ClientId} {c : CanisterPrincipal} {k : ClientKey} {ph₀ : Phase} (ph : Phase)
    (hw : Sound w) (hc : w.CanCommit cfg i c k) (hk : (w.handlers i).Keyed c k)
    (hph : (w.handlers i).phase = ph₀) (hi : ph₀.inside = true)
    (hseat : ({ w.handlers i with phase := ph } : Handler).seat = .gone) (htok : ph.token = none) (n : ℕ) :
    Refines w (((w.setGateway ((w.gateway.struck c k).dropToken ph₀.token)).goto i ph).unlock n) := by
  have hmember : w.registry.seat i = .member c k := seat_of_keyed hk (by rw [hph]; exact hi)
  have htok₀ : ph₀.token = w.registry.token i := by rw [← hph]; rfl
  have hleave := registry_leave w i c k hseat htok
  refine Or.inr ⟨.leave i, ?_⟩
  rw [registry_unlock, htok₀, World.goto, World.setGateway_handlers, hleave]
  exact .leave hmember fun r he => not_blocked hw.worker_lt (hc.2 r he)

theorem insert_refines {i : ClientId} {m : Message} {c : CanisterPrincipal} {k : ClientKey} {tx : Sender}
    (hw : Sound w) (hph : (w.handlers i).phase = .setup m c k tx) (hc : w.CanCommit cfg i c k)
    (g : GatewayState × Option PollerRef)
    (hg : g = w.gateway.insertClientChannelAndGetNewPollerState c k tx) :
    Refines w ((w.setGateway g.1).goto i (.relayingOpen m c k g.2)) := by
  obtain ⟨rfl, hk, -⟩ := (hw.wf i).setup hph
  have hseat : w.registry.seat tx = .outside := by simp [World.registry, Handler.seat, hph]
  have htok : w.registry.token tx = none := by simp [World.registry, Phase.token, hph]
  refine Or.inr ⟨.join tx c k, ?_⟩
  have hk' : ({ w.handlers tx with phase := .relayingOpen m c k g.2 } : Handler).seat = .member c k :=
    seat_of_keyed (hk.of_eq rfl rfl rfl fun _ => id) rfl
  rw [hg] at hk' ⊢
  have := registry_insert htok hk' rfl
  simp only [World.goto, World.setGateway_handlers]
  rw [this]
  split
  · rename_i r he
    exact .join hseat he (not_blocked hw.worker_lt (hc.2 r he))
  · rename_i he
    exact .create hseat he

theorem commit_refines {i : ClientId} (hw : Sound w) (h : WorldStep cfg w (.commit i) w') :
    Refines w w' := by
  have hwf := hw.wf i
  cases h with
  | insert phase free => exact insert_refines hw phase free _ rfl
  | rollback phase free removed =>
    obtain rfl := struck_of_removeClient removed
    exact leave_refines (.ended _) hw free (hwf.rollback phase) phase rfl rfl rfl _
  | @rollbackPanic _ e c k t m phase free panic =>
    have hleave := leave_refines (.ended (.panicked m)) hw free (hwf.rollback phase) phase rfl rfl rfl
    rw [struck_of_panic panic] at hleave
    exact hleave _
  | remove phase free removed =>
    obtain rfl := struck_of_removeClient removed
    exact leave_refines (.closing _ _ _) hw free (hwf.closed phase) phase rfl rfl rfl _
  | @removePanic _ c k m phase free panic =>
    have hleave := leave_refines (.ended (.panicked m)) hw free (hwf.closed phase) phase rfl rfl rfl
    rw [struck_of_panic panic] at hleave
    exact hleave _
  | removeIfExists phase free removed =>
    obtain rfl := struck_of_removeClientIfExists removed
    exact leave_refines (.closing _ _ _) hw free (hwf.failed phase) phase rfl rfl rfl _
  | removeVacant phase free vacant =>
    obtain rfl := struck_of_removeClientIfExists vacant
    exact leave_refines (.ended _) hw free (hwf.failed phase) phase rfl rfl rfl _

/-- A handler that ends with nothing to remove. -/
theorem registry_end {w : World} {i : ClientId} {h : Handler} (hs : h.seat = .gone)
    (ht : h.phase.token = none) (htok : w.registry.token i = none) :
    (w.setHandler i h).registry = w.registry.setSeat i .gone := by
  rw [registry_setHandler_eq, hs, ht]
  refine Registry.State.ext rfl rfl rfl rfl rfl ?_ rfl rfl rfl
  exact Function.update_eq_self_iff.mpr htok.symm

theorem update_refines {i : ClientId} {io : Io} (hw : Sound w) (h : WorldStep cfg w (.update i io) w') :
    Refines w w' := by
  cases h with
  | @update _ _ u s out r phase updated =>
    have htok : w.registry.token i = none := by simp [World.registry, Phase.token, phase]
    have htok' : (w.handlers i).phase.token = none := htok
    unfold Refines
    rw [registry_spawn]
    rcases (hw.wf i).updating phase with ⟨hf, -⟩ | ⟨c, k, hk, hl⟩
    · have hseat : (w.handlers i).seat = .outside := by simp [Handler.seat, phase, hf.tx]
      obtain ⟨m, k, c, -, -, -, -, hd⟩ | ⟨-, r', hd⟩ := update_fresh hf updated
      · rw [hd]
        exact Or.inl (registry_setHandler hseat.symm htok'.symm)
      · rw [hd, registry_end (h := { w.handlers i with session := s, phase := .ended r' }) rfl rfl htok]
        exact Or.inr ⟨.withdraw i, .withdraw hseat⟩
    · have hseat : (w.handlers i).seat = .member c k :=
        seat_of_keyed hk (by rw [phase]; rfl)
      have hd := update_keyed hk hl updated
      have hk' := hd.keyed hk
      generalize ({ w.handlers i with session := s } : Handler).dispatch r = h' at hd hk' ⊢
      cases hd with
      | close | ignored | relayed | delivered | readFailed | failed =>
        refine Or.inl (registry_setHandler ?_ htok'.symm)
        rw [hseat]
        exact seat_of_keyed hk' rfl
      | @cutOff e =>
        rw [registry_end (h := { w.handlers i with phase := .ended (.returned (.error e)) }) rfl rfl htok]
        exact Or.inr ⟨.quit i, .quit hseat htok (hw.cutOff i phase)⟩

theorem relayOpen_refines {i : ClientId} {io : Io} (hw : Sound w)
    (h : WorldStep cfg w (.relayOpen i io) w') : Refines w w' := by
  -- the handler goes on with its keys and its token
  have hkept : ∀ {m c k t} (ph : Phase), (w.handlers i).phase = .relayingOpen m c k t → ph.inside = true →
      ph.token = t → (w.goto i ph).registry = w.registry := by
    intro m c k t ph hph hin ht
    have hk := ((hw.wf i).relayingOpen hph).1
    refine registry_setHandler ?_ (by simp [Phase.token, hph, ← ht])
    rw [seat_of_keyed hk (by rw [hph]; rfl)]
    exact seat_of_keyed (hk.of_eq rfl rfl rfl fun _ => id) hin
  unfold Refines
  cases h with
  | relayOpen phase relayed =>
    rw [registry_spawn]
    exact Or.inl (hkept _ phase rfl rfl)
  | relayOpenFail phase relayed =>
    rw [registry_spawn]
    exact Or.inl (hkept _ phase rfl rfl)
  | @relayOpenPanic _ _ m _ _ _ _ _ phase relayed =>
    obtain ⟨req, -, hr⟩ | ⟨e, -, hr⟩ := relayClientMessage_cases ((hw.wf i).relayingOpen phase).1.canisterId m io
    · rw [hr] at relayed
      cases relayed
    · rw [hr] at relayed
      cases relayed

/-- The number of the next poller has not been used. -/
theorem Sound.next_none (hw : Sound w) : w.pollers w.nextPoller = none := by
  rcases hp : w.pollers w.nextPoller with _ | q
  · rfl
  · exact absurd (hw.worker_lt w.nextPoller _ (by simp only [World.registry, hp]; rfl)) (Nat.lt_irrefl _)

/-- The start of a poller launches the worker of the roster. -/
theorem registry_startPoller {i : ClientId} {c : CanisterPrincipal} {k : ClientKey} {r : PollerRef}
    {h : Handler} (hw : Sound w) (hseat : w.registry.seat i = .member c k) (hs : h.seat = .member c k)
    (ht : h.phase.token = none) :
    ({ (w.setPoller w.nextPoller (.new c r)).setHandler i h with
      nextPoller := w.nextPoller + 1 } : World).registry = w.registry.launch i c r := by
  have hnone := hw.next_none
  have hreg : ({ (w.setPoller w.nextPoller (.new c r)).setHandler i h with
      nextPoller := w.nextPoller + 1 } : World).registry =
      { ((w.setPoller w.nextPoller (.new c r)).setHandler i h).registry with
        nextWorker := w.nextPoller + 1 } := rfl
  rw [hreg, registry_setHandler_eq, registry_setPoller_eq, hs, ht]
  refine Registry.State.ext rfl rfl rfl rfl ?_ rfl rfl ?_ rfl
  · exact Function.update_eq_self_iff.mpr hseat.symm
  · apply Function.update_eq_self_iff.mpr
    simp [World.registry, hnone, CanisterPoller.new, PollerPhase.pin]

theorem startPoller_refines {i : ClientId} (hw : Sound w) (h : WorldStep cfg w (.startPoller i) w') :
    Refines w w' := by
  cases h with
  | @startPoller _ c r phase =>
    obtain ⟨k, hk, -⟩ := (hw.wf i).startingPoller phase
    have hseat : w.registry.seat i = .member c k :=
      seat_of_keyed hk (by rw [phase]; rfl)
    have htok : w.registry.token i = some r := by simp [World.registry, Phase.token, phase]
    have hseat' : ({ w.handlers i with phase := .awaiting } : Handler).seat = .member c k :=
      seat_of_keyed (hk.of_eq rfl rfl rfl fun _ => id) rfl
    refine Or.inr ⟨.launch i, ?_⟩
    rw [World.goto, World.setPoller_handlers, registry_startPoller hw hseat hseat' rfl]
    exact .launch hseat htok
  | noPoller phase =>
    obtain ⟨k, hk, -⟩ := (hw.wf i).startingPoller phase
    refine Or.inl (registry_setHandler ?_ (by simp [Phase.token, phase]))
    rw [seat_of_keyed hk (by rw [phase]; rfl)]
    exact seat_of_keyed (hk.of_eq rfl rfl rfl fun _ => id) rfl

/-! ### The events of the pollers -/

theorem registry_worker {p : PollerId} {q : CanisterPoller} (hq : w.pollers p = some q) :
    w.registry.worker p = some (q.canisterId, q.pollerState, q.phase.stage) := by
  simp [World.registry, hq]

theorem registry_pin {p : PollerId} {q : CanisterPoller} (hq : w.pollers p = some q) :
    w.registry.pin p = q.phase.pin := by
  simp [World.registry, hq]

/-- The end of a poller's task, in the registry. -/
theorem registry_dropPoller {p : PollerId} {q : CanisterPoller} (hq : w.registry.pin p = none)
    (r : TaskResult) : (w.dropPoller p q r).registry =
      (w.registry.drop q.pollerState).setWorker p (q.canisterId, q.pollerState, (PollerPhase.ended r).stage) := by
  unfold World.dropPoller
  rw [show (w.setPoller p { q with phase := .ended r }).setGateway (w.gateway.dropArc q.pollerState) =
    (w.setGateway (w.gateway.dropArc q.pollerState)).setPoller p { q with phase := .ended r } from rfl,
    registry_setPoller_eq, registry_dropArc]
  refine Registry.State.ext rfl rfl rfl rfl rfl rfl rfl ?_ rfl
  exact Function.update_eq_self_iff.mpr hq.symm

/-- A poller takes a guard or lets go of it. -/
theorem registry_setPin {p : PollerId} {q : CanisterPoller} (hq : w.pollers p = some q)
    (ph : PollerPhase) (hs : ph.stage = q.phase.stage) :
    (w.setPoller p { q with phase := ph }).registry = w.registry.setPin p ph.pin := by
  rw [registry_setPoller_eq]
  dsimp only
  rw [hs, ← registry_worker hq]
  refine Registry.State.ext rfl rfl rfl rfl rfl rfl ?_ rfl rfl
  exact Function.update_eq_self ..

/-- The removal of an entry by its poller. -/
theorem registry_retire {p : PollerId} {q q' : CanisterPoller} {r : PollerRef} {x : Registry.Finish}
    (hp : w.registry.pin p = none) (hp' : q'.phase.pin = none)
    (hq' : (q'.canisterId, q'.pollerState, q'.phase.stage) =
      (q.canisterId, q.pollerState, .retired x)) :
    ((w.setGateway (w.gateway.removeEntry q.canisterId r)).setPoller p q').registry =
      w.registry.retire p q.canisterId q.pollerState r x := by
  rw [registry_setPoller_eq, hq', hp']
  refine Registry.State.ext ?_ rfl rfl rfl rfl rfl rfl ?_ rfl
  · funext c
    simp only [World.registry, World.setGateway_gateway, GatewayState.removeEntry,
      GatewayState.dropArc, FiniteMap.lookup_erase_eq, Registry.State.retire, Function.update_apply]
  · exact Function.update_eq_self_iff.mpr hp.symm

/-- A poller that goes on to a phase with the same stage and pin. -/
theorem registry_setPhase {p : PollerId} {q : CanisterPoller} {ph₀ : PollerPhase}
    (hq : w.pollers p = some q) (hph : q.phase = ph₀) (n : UInt64) (ph : PollerPhase)
    (hs : ph.stage = ph₀.stage) (hp : ph.pin = ph₀.pin) :
    (w.setPoller p { q with nextMessageNonce := n, phase := ph }).registry = w.registry :=
  registry_setPoller hq rfl rfl (by rw [hph]; exact hs) (by rw [hph]; exact hp)

theorem pollReply_refines {p : PollerId} {r : PollReply} (h : WorldStep cfg w (.pollReply p r) w') :
    Refines w w' := by
  cases h with
  | noncePanic poller phase =>
    have hpin : w.registry.pin p = none := (registry_pin poller).trans (by rw [phase]; rfl)
    refine Or.inr ⟨.crash p, ?_⟩
    rw [registry_dropPoller hpin]
    exact .crash ((registry_worker poller).trans (by rw [phase]; rfl)) hpin
  | pollFailed poller phase => exact Or.inl (registry_setPhase poller phase _ _ rfl rfl)
  | polled poller phase => exact Or.inl (registry_setPhase poller phase _ _ rfl rfl)
  | nonceFailed poller phase => exact Or.inl (registry_setPhase poller phase _ _ rfl rfl)
  | timedOut poller phase => exact Or.inl (registry_setPhase poller phase _ _ rfl rfl)
  | noMessages poller phase => exact Or.inl (registry_setPhase poller phase _ _ rfl rfl)

theorem relay_refines {p : PollerId} (h : WorldStep cfg w (.relay p) w') : Refines w w' := by
  cases h with
  | relayed poller phase => exact Or.inl (registry_setPhase poller phase _ _ rfl rfl)
  | relayedMore poller phase => exact Or.inl (registry_setPhase poller phase _ _ rfl rfl)
  | @send _ q msgs m rest client poller phase head found =>
    have hs : q.phase.stage = .active := by rw [phase]; rfl
    have hw : w.registry.worker p = some (q.canisterId, q.pollerState, .active) :=
      (registry_worker poller).trans (by rw [hs])
    have hm : w.registry.members q.pollerState m.clientKey = some client.sender := by
      simp [World.registry, found]
    refine Or.inr ⟨.pin p m.clientKey client.sender, ?_⟩
    rw [registry_setPin poller _ (hs ▸ rfl)]
    exact .pin hw hm
  | skip poller phase => exact Or.inl (registry_setPhase poller phase _ _ rfl rfl)

theorem put_refines {p : PollerId} (h : WorldStep cfg w (.put p) w') : Refines w w' := by
  refine Or.inr ⟨.unpin p, ?_⟩
  cases h with
  | putDropped poller phase =>
    rw [registry_setPin poller _ (by rw [phase]; rfl)]
    exact .unpin
  | @put _ q i k m msgs poller phase =>
    have hpush : (w.push i m).registry = w.registry := by
      refine registry_setHandler ?_ rfl
      unfold Handler.seat
      rfl
    have hq : (w.push i m).pollers p = some q := poller
    rw [registry_setPin hq _ (by rw [phase]; rfl), hpush]
    exact .unpin

theorem checkTerminate_refines {p : PollerId} (h : WorldStep cfg w (.checkTerminate p) w') :
    Refines w w' := by
  cases h with
  | terminate poller phase free entry empty =>
    have hpin : w.registry.pin p = none := (registry_pin poller).trans (by rw [phase]; rfl)
    refine Or.inr ⟨.retire p .empty, ?_⟩
    rw [registry_retire hpin rfl rfl]
    refine .retire ((registry_worker poller).trans (by rw [phase]; rfl)) hpin entry nofun fun _ k => ?_
    simp [World.registry, empty]
  | goOn poller phase => exact Or.inl (registry_setPhase poller phase _ _ rfl rfl)

theorem removeFailed_refines {p : PollerId} (h : WorldStep cfg w (.removeFailed p) w') :
    Refines w w' := by
  cases h with
  | fail poller phase free entry =>
    have hpin : w.registry.pin p = none := (registry_pin poller).trans (by rw [phase]; rfl)
    refine Or.inr ⟨.retire p .failed, ?_⟩
    rw [registry_retire hpin rfl rfl]
    exact .retire ((registry_worker poller).trans (by rw [phase]; rfl)) hpin entry nofun nofun
  | failPanic poller phase =>
    have hpin : w.registry.pin p = none := (registry_pin poller).trans (by rw [phase]; rfl)
    refine Or.inr ⟨.crash p, ?_⟩
    rw [registry_dropPoller hpin]
    exact .crash ((registry_worker poller).trans (by rw [phase]; rfl)) hpin

theorem endPoller_refines {p : PollerId} (h : WorldStep cfg w (.endPoller p) w') : Refines w w' := by
  cases h with
  | @stop _ q r poller phase =>
    refine Or.inr ⟨.release p, ?_⟩
    rw [registry_dropPoller ((registry_pin poller).trans (by rw [phase]; rfl))]
    rcases r with e | ⟨⟩
    · exact .release ((registry_worker poller).trans (by rw [phase]; rfl))
    · exact .release ((registry_worker poller).trans (by rw [phase]; rfl))

/-- **Every event is a step of the registry, or leaves it alone.** -/
theorem step_refines {e : Event} (hw : Sound w) (h : step cfg w e = some w') : Refines w w' := by
  have hs := step_cases h
  cases e with
  | readWs i u =>
    cases hs with
    | readWs phase => refine Or.inl (registry_setHandler ?_ ?_) <;> simp [Handler.seat, Phase.token, phase]
  | recv i =>
    cases hs with
    | recv phase => refine Or.inl (registry_setHandler ?_ ?_) <;> simp [Handler.seat, Phase.token, phase]
    | cutOff phase => refine Or.inl (registry_setHandler ?_ ?_) <;> simp [Handler.seat, Phase.token, phase]
  | update i io => exact update_refines hw hs
  | lock i =>
    cases hs
    exact Or.inl rfl
  | commit i => exact commit_refines hw hs
  | relayOpen i io => exact relayOpen_refines hw hs
  | readShard t =>
    cases hs
    exact Or.inl rfl
  | startPoller i => exact startPoller_refines hw hs
  | wsClosed i =>
    cases hs with
    | wsClosed phase => refine Or.inl (registry_setHandler ?_ ?_) <;> simp [Handler.seat, Phase.token, phase]
  | submit t =>
    cases hs
    exact Or.inl rfl
  | pollReply p r => exact pollReply_refines hs
  | relay p => exact relay_refines hs
  | put p => exact put_refines hs
  | wake p =>
    cases hs with
    | wake poller phase => exact Or.inl (registry_setPhase poller phase _ _ rfl rfl)
  | checkTerminate p => exact checkTerminate_refines hs
  | removeFailed p => exact removeFailed_refines hs
  | endPoller p => exact endPoller_refines hs
  | append c m =>
    cases hs
    exact Or.inl rfl

/-! ### Reachable worlds -/

/-- What a session that is about to read `None` has seen: no poller state that is
still held stores its sender. -/
theorem dropped_of_senderDropped (hw : Sound w) {i : ClientId} (h : w.gateway.SenderDropped i) :
    w.registry.Dropped i := by
  intro r k hm
  obtain ⟨life, ho, -⟩ := hw.lives
  by_contra hpos
  have hr : r < w.gateway.nextRef := by
    by_contra hge
    have hu : life r = .unborn := (ho.unborn r).mpr (Nat.le_of_not_lt hge)
    rw [ho.strong, hu] at hpos
    exact hpos rfl
  refine h r hr (Nat.pos_of_ne_zero hpos) (FiniteMap.stores_iff.mpr ⟨k, ?_⟩)
  simp only [World.registry, Option.map_eq_some_iff] at hm
  obtain ⟨⟨x⟩, hx, rfl⟩ := hm
  exact hx

theorem Sound.new : Sound World.new := by
  refine ⟨fun i => Or.inl ⟨rfl, rfl, rfl, rfl⟩, ⟨fun _ => .unborn, ?_⟩, fun i h => by cases h⟩
  rw [registry_new]
  exact ⟨.init, .init⟩

/-- Only `recv` finds that a session has been cut off. -/
theorem HandlerStep.cutOff_cases {i : ClientId} {h h' : Handler} {e : Event}
    (hs : HandlerStep w i h e h') (hw : h.Wf i) (hph : h'.phase = .updating (.canister none)) :
    ((h.phase = .updating (.canister none)) ∨
      h.phase = .awaiting ∧ w.gateway.SenderDropped i) ∧ ∃ c k, h.Keyed c k := by
  cases hs with
  | other | push =>
    refine ⟨Or.inl hph, ?_⟩
    have hph' : h.phase = .updating (.canister none) := hph
    obtain ⟨c, k, hk, -⟩ := (hw.updating hph').resolve_left fun hf => hf.2 rfl
    exact ⟨c, k, hk⟩
  | readWs | recv | insert | rollback | remove | removePanic | removeIfExists | removeVacant |
    relayOpen | relayOpenFail | relayOpenPanic | startPoller | wsClosed => cases hph
  | cutOff phase rx tx dropped =>
    obtain ⟨c, k, hk, -⟩ := hw.keyed_of_tx phase tx
    exact ⟨Or.inr ⟨phase, dropped⟩, c, k, hk⟩
  | update phase updated =>
    replace hw := hw.updating phase
    rcases hw with ⟨hf, -⟩ | ⟨c, k, hk, hl⟩
    · obtain ⟨m, k, c, -, -, -, -, hd⟩ | ⟨-, r', hd⟩ := update_fresh hf updated <;> rw [hd] at hph <;> cases hph
    · have hd := update_keyed hk hl updated
      generalize ({ h with session := _ } : Handler).dispatch _ = h' at hd hph
      cases hd <;> cases hph

theorem Refines.dropped {i : ClientId} (hr : Refines w w') (hi : w.registry.seat i ≠ .outside)
    (hd : w.registry.Dropped i) : w'.registry.Dropped i := by
  rcases hr with hr | ⟨a, ha⟩
  · rw [hr]
    exact hd
  · exact hd.step hi ha

theorem Refines.gone {i : ClientId} (hr : Refines w w') (hi : w.registry.seat i = .gone) :
    w'.registry.seat i = .gone := by
  rcases hr with hr | ⟨a, ha⟩
  · rw [hr]
    exact hi
  · exact ha.gone hi

theorem Sound.step {e : Event} (hw : Sound w) (h : step cfg w e = some w') : Sound w' := by
  have hr := step_refines hw h
  refine ⟨fun i => (step_handler h i).wf (hw.wf i), ?_, fun i hph => ?_⟩
  · obtain ⟨life, ho, hro⟩ := hw.lives
    rcases hr with hr | ⟨a, ha⟩
    · rw [hr]
      exact ⟨life, ho, hro⟩
    · obtain ⟨life', ho', hro', -⟩ := ha.sound ho hro
      exact ⟨life', ho', hro'⟩
  · obtain ⟨hc, c, k, hk⟩ := (step_handler h i).cutOff_cases (hw.wf i) hph
    have hseat : w.registry.seat i = .member c k := by
      rcases hc with hph | ⟨hph, -⟩ <;>
        exact seat_of_keyed hk (by rw [hph]; rfl)
    apply hr.dropped (by rw [hseat]; nofun)
    rcases hc with hph | ⟨-, hd⟩
    · exact hw.cutOff i hph
    · exact dropped_of_senderDropped hw hd

/-- **Every reachable world is a registry whose rosters have lives.** -/
theorem reachable {h : List (World × Event)} (hr : Runs cfg h w) : Sound w :=
  hr.state_invariant Sound.new fun _ _ _ hw he => hw.step he

/-! ### Distinct keys -/

/-- No two sessions have the same client key and canister. -/
def DistinctKeys (w : World) : Prop :=
  ∀ i j c k, (w.handlers i).session.canisterId = some c → (w.handlers i).session.clientKey = some k →
    (w.handlers j).session.canisterId = some c → (w.handlers j).session.clientKey = some k → i = j

/-- A session keeps its keys. -/
theorem HandlerStep.keys {i : ClientId} {h h' : Handler} {e : Event} (hs : HandlerStep w i h e h')
    (hw : h.Wf i) {c : CanisterPrincipal} {k : ClientKey} (hc : h.session.canisterId = some c)
    (hk : h.session.clientKey = some k) :
    h'.session.canisterId = some c ∧ h'.session.clientKey = some k := by
  cases hs with
  | update phase updated =>
    replace hw := hw.updating phase
    rcases hw with ⟨hf, -⟩ | ⟨c', k', hk', hl⟩
    · rw [hf.canisterId] at hc
      cases hc
    · have hd := (update_keyed hk' hl updated).keyed hk'
      rw [hd.canisterId, hd.clientKey]
      rw [hk'.canisterId] at hc
      rw [hk'.clientKey] at hk
      exact ⟨hc, hk⟩
  | _ => exact ⟨hc, hk⟩

/-- Keys that are distinct in the end were distinct before. -/
theorem DistinctKeys.before {e : Event} (hw : Sound w) (h : step cfg w e = some w')
    (hd : DistinctKeys w') : DistinctKeys w := by
  intro i j c k hic hik hjc hjk
  obtain ⟨h1, h2⟩ := (step_handler h i).keys (hw.wf i) hic hik
  obtain ⟨h3, h4⟩ := (step_handler h j).keys (hw.wf j) hjc hjk
  exact hd i j c k h1 h2 h3 h4

theorem seat_keys {h : Handler} {c : CanisterPrincipal} {k : ClientKey} (hs : h.seat = .member c k) :
    h.session.canisterId = some c ∧ h.session.clientKey = some k ∧ h.clientChannelTx = none := by
  unfold Handler.seat at hs
  split at hs
  · cases hs
  · cases hs
  · cases hs
  · split at hs
    · rename_i htx hc hk
      cases hs
      exact ⟨hc, hk, htx⟩
    · cases hs

theorem DistinctKeys.distinct (hd : DistinctKeys w) : w.registry.Distinct := by
  intro i j c k hi hj
  obtain ⟨h1, h2, -⟩ := seat_keys hi
  obtain ⟨h3, h4, -⟩ := seat_keys hj
  exact hd i j c k h1 h2 h3 h4

/-- While no two members have the same keys, every session that is a member is found
in a poller state that has its entry or whose poller has failed. -/
theorem seated_of_distinct {h : List (World × Event)} (hr : Runs cfg h w)
    (ha : LTS.Along (fun _ t _ => t.registry.Distinct) h) (hd : w.registry.Distinct) :
    ∃ life, Registry.Own w.registry life ∧ Registry.Roster w.registry life ∧
      Registry.Seated w.registry life := by
  induction hr with
  | nil =>
    rw [registry_new]
    exact ⟨_, .init, .init, .init⟩
  | @snoc _ t t' e hr he ih =>
    obtain ⟨ha', hd'⟩ := LTS.along_snoc.mp ha
    obtain ⟨life, ho, hro, hse⟩ := ih ha' hd'
    rcases step_refines (reachable hr) he with hr' | ⟨a, ha⟩
    · rw [hr']
      exact ⟨life, ho, hro, hse⟩
    · obtain ⟨life', ho', hro', hse'⟩ := ha.sound ho hro
      exact ⟨life', ho', hro', hse' hd' hd hse⟩

theorem DistinctKeys.along {h : List (World × Event)} (hr : Runs cfg h w) (hd : DistinctKeys w) :
    LTS.Along (fun _ t _ => DistinctKeys t) h := by
  induction hr with
  | nil => exact LTS.along_nil _
  | snoc hr he ih =>
    have hd' := hd.before (reachable hr) he
    exact LTS.along_snoc.mpr ⟨ih hd', hd'⟩

/-- **With distinct keys**, every session that is a member is found in a poller
state that has its entry or whose poller has failed. -/
theorem seated {h : List (World × Event)} (hr : Runs cfg h w) (hd : DistinctKeys w) :
    ∃ life, Registry.Own w.registry life ∧ Registry.Roster w.registry life ∧
      Registry.Seated w.registry life :=
  seated_of_distinct hr ((hd.along hr).mono fun _ _ _ h => h.distinct) hd.distinct

end IcWsGateway
