/-
# The identity of the gateway over its lives (`ic-identity`)

A client puts the principal it gets in the handshake message into its first
envelope, and the canister lets nobody else poll its messages. So the principal
has to outlive the process. `load_key_pair` makes a key pair where there is no
key file, and from then on only reads it: however often the gateway is
restarted, whatever fails on the way, all its handshake messages carry the same
principal (`one_principal`).

A first write that fails in its midst leaves a key file too, and it is never
written again: from then on no start succeeds.

`ring` and the agent are parameters: what they return is an input of each life.

Key definitions: `loadKeyPair`, `Life`, `Life.boot`, `Life.live`.
Key theorems: `boot_file`, `boot_ok`, `one_principal`.
-/
import IcWsGateway.Admission

namespace IcWsGateway

/-- The path of the key pair: a file, or nothing that is one. `is_file` is taken to tell the two apart, as it does
unless it cannot look the path up, when it says that there is no file. -/
inductive KeyFile
  | absent
  | file (content : Bytes)
deriving DecidableEq, Repr

/-- What the operating system and the random generator do in `load_key_pair`. -/
structure KeyIo where
  generatePkcs8 : Except String Bytes
  /-- a failed write leaves any state of the file -/
  write : Except (String × KeyFile) Unit
  read : Except String Unit

/-- What is under the names of `ring` and `ic_agent`: the parser of a key pair, and the principal of
an identity. -/
structure KeyLibrary (KeyPair : Type) where
  fromPkcs8 : Bytes → Except String KeyPair
  sender : KeyPair → Principal

variable {KeyPair : Type}

/-- `Ed25519KeyPair::from_pkcs8`, with the error of `load_key_pair`. -/
def parseKeyPair (lib : KeyLibrary KeyPair) (content : Bytes) : Except String KeyPair :=
  match lib.fromPkcs8 content with
  | .ok keyPair => .ok keyPair
  | .error e => .error ("Could not parse the key pair. Error: " ++ e)

/-- `load_key_pair`, and the file it leaves. -/
def loadKeyPair (lib : KeyLibrary KeyPair) (io : KeyIo) : KeyFile → KeyFile × Except String KeyPair
  | .absent =>
    match io.generatePkcs8 with
    | .error e => (.absent, .error ("Could not generate a key pair. Error: " ++ e))
    | .ok keyPair =>
      match io.write with
      | .error (e, left) => (left, .error ("Could not write to file. Error: " ++ e))
      | .ok () => (.file keyPair, parseKeyPair lib keyPair)
  | .file content =>
    match io.read with
    | .error e => (.file content, .error ("Could not read from file. Error: " ++ e))
    | .ok () => (.file content, parseKeyPair lib content)

def IC_MAINNET_URLS : List String := ["https://icp0.io", "https://icp-api.io"]

def isMainnet (icNetworkUrl : String) : Bool := IC_MAINNET_URLS.contains icNetworkUrl

/-- What the agent of the gateway is made of. -/
structure Agent where
  url : String
  principal : Principal
  verifyQuerySignatures : Bool
  /-- the root key is one that the network at `url` has sent -/
  fetchedRootKey : Bool
deriving DecidableEq, Repr

/-- What the builder and the network return to `get_new_agent`. -/
structure AgentIo where
  build : Except String Unit
  fetchRootKey : Except String Unit

/-- The builder of the agent. -/
def Agent.build (io : AgentIo) (url : String) (identity : Principal) (verifyQuerySignatures : Bool) :
    Except String Agent :=
  match io.build with
  | .error e => .error e
  | .ok () => .ok { url := url, principal := identity, verifyQuerySignatures := verifyQuerySignatures,
                    fetchedRootKey := false }

/-- The root key is fetched only where the agent does not know it. -/
def getNewAgent (io : AgentIo) (icNetworkUrl : String) (identity : Principal) : Except String Agent :=
  match Agent.build io icNetworkUrl identity (isMainnet icNetworkUrl) with
  | .error e => .error e
  | .ok agent =>
    if isMainnet icNetworkUrl then .ok agent
    else
      match io.fetchRootKey with
      | .error e => .error e
      | .ok () => .ok { agent with fetchedRootKey := true }

/-- One life of the gateway's process: what its environment returns, and the events of its tasks. -/
structure Life where
  /-- how `create_data_dir` ends -/
  dataDir : Except String Unit
  keyIo : KeyIo
  icNetworkUrl : String
  agentIo : AgentIo
  listenerIo : ListenerIo
  info : DeploymentInfo
  events : List Gateway.Event

namespace Life

variable (lib : KeyLibrary KeyPair) (cfg : Config)

/-- `main` up to its agent, and the key file it leaves. -/
def boot (l : Life) (f : KeyFile) : KeyFile × Except String Agent :=
  match l.dataDir with
  | .error e => (f, .error e)
  | .ok () =>
    match loadKeyPair lib l.keyIo f with
    | (f', .error e) => (f', .error e)
    | (f', .ok keyPair) =>
      (f', expect (getNewAgent l.agentIo l.icNetworkUrl (lib.sender keyPair)) "could not get new agent")

/-- What the tasks of the gateway go through in this life. -/
def history (l : Life) (f : KeyFile) : List (Gateway × Gateway.Event) :=
  match (l.boot lib f).2 with
  | .error _ => []
  | .ok agent =>
    match Gateway.start l.listenerIo l.info agent.principal with
    | .error _ => []
    | .ok g => LTS.trace (Gateway.step cfg) g l.events

/-- One life after the other, with the key file in between. -/
def live (f : KeyFile) (l : Life) : Option KeyFile := some (l.boot lib f).1

end Life

variable {lib : KeyLibrary KeyPair} {cfg : Config} {l : Life} {f f' : KeyFile} {content : Bytes}
  {h : List (KeyFile × Life)}

/-! ### One start -/

/-- A key file that is there stays as it is. -/
theorem loadKeyPair_file (lib : KeyLibrary KeyPair) (io : KeyIo) :
    (loadKeyPair lib io (.file content)).1 = .file content := by
  simp only [loadKeyPair]
  rcases io.read with e | ⟨⟩ <;> rfl

theorem parseKeyPair_ok {keyPair : KeyPair} (hp : parseKeyPair lib content = .ok keyPair) :
    lib.fromPkcs8 content = .ok keyPair := by
  unfold parseKeyPair at hp
  rcases hlib : lib.fromPkcs8 content with e | k
  · rw [hlib] at hp
    cases hp
  · rw [hlib] at hp
    cases hp
    rfl

/-- A key pair that is loaded is the one of the key file. -/
theorem loadKeyPair_ok {io : KeyIo} {keyPair : KeyPair} (hl : loadKeyPair lib io f = (f', .ok keyPair)) :
    ∃ content, f' = .file content ∧ lib.fromPkcs8 content = .ok keyPair := by
  unfold loadKeyPair at hl
  split at hl
  · split at hl
    · cases hl
    · rename_i document hgen
      split at hl
      · cases hl
      · rw [Prod.mk.injEq] at hl
        exact ⟨document, hl.1.symm, parseKeyPair_ok hl.2⟩
  · rename_i content
    split at hl
    · cases hl
    · rw [Prod.mk.injEq] at hl
      exact ⟨content, hl.1.symm, parseKeyPair_ok hl.2⟩

theorem build_ok {io : AgentIo} {url : String} {identity : Principal} {verify : Bool} {agent : Agent}
    (ha : Agent.build io url identity verify = .ok agent) :
    agent = { url := url, principal := identity, verifyQuerySignatures := verify, fetchedRootKey := false } := by
  unfold Agent.build at ha
  split at ha <;> cases ha
  rfl

/-- An agent believes the root key that its network sends exactly where that is not the mainnet. -/
theorem getNewAgent_ok {io : AgentIo} {url : String} {identity : Principal} {agent : Agent}
    (ha : getNewAgent io url identity = .ok agent) :
    agent = { url := url, principal := identity, verifyQuerySignatures := isMainnet url,
              fetchedRootKey := !isMainnet url } := by
  unfold getNewAgent at ha
  split at ha
  · cases ha
  · rename_i a hbuild
    obtain rfl := build_ok hbuild
    by_cases hm : isMainnet url = true
    · rw [if_pos hm] at ha
      cases ha
      rw [hm]
      rfl
    · rw [if_neg hm] at ha
      split at ha <;> cases ha
      rw [Bool.not_eq_true] at hm
      rw [hm]
      rfl

theorem expect_ok {α : Type} {r : Except String α} {message : String} {a : α} (h : expect r message = .ok a) :
    r = .ok a := by
  rcases r with e | b
  · cases h
  · exact h

/-- What a life starts with, and the key file after it. -/
theorem boot_cases (lib : KeyLibrary KeyPair) (l : Life) (f : KeyFile) :
    (∃ e, l.boot lib f = (f, .error e)) ∨ (∃ f' e, loadKeyPair lib l.keyIo f = (f', .error e) ∧
      l.boot lib f = (f', .error e)) ∨
    ∃ f' keyPair, loadKeyPair lib l.keyIo f = (f', .ok keyPair) ∧ l.boot lib f =
      (f', expect (getNewAgent l.agentIo l.icNetworkUrl (lib.sender keyPair)) "could not get new agent") := by
  unfold Life.boot
  split
  · rename_i e hdir
    exact Or.inl ⟨e, rfl⟩
  · split
    · rename_i f' e hload
      exact Or.inr (Or.inl ⟨f', e, hload, rfl⟩)
    · rename_i f' keyPair hload
      exact Or.inr (Or.inr ⟨f', keyPair, hload, rfl⟩)

theorem boot_file (lib : KeyLibrary KeyPair) (l : Life) : (l.boot lib (.file content)).1 = .file content := by
  have hfile : (loadKeyPair lib l.keyIo (.file content)).1 = .file content := loadKeyPair_file lib l.keyIo
  obtain ⟨e, hb⟩ | ⟨f', e, hload, hb⟩ | ⟨f', keyPair, hload, hb⟩ := boot_cases lib l (.file content)
  · rw [hb]
  · rw [hb]
    rw [hload] at hfile
    exact hfile
  · rw [hb]
    rw [hload] at hfile
    exact hfile

/-- The principal of a key file. -/
def KeyFile.Gives (f : KeyFile) (lib : KeyLibrary KeyPair) (p : Principal) : Prop :=
  ∃ content keyPair, f = .file content ∧ lib.fromPkcs8 content = .ok keyPair ∧ p = lib.sender keyPair

/-- A life that gets to its agent has the principal of the key file it leaves. -/
theorem boot_ok {agent : Agent} (hagent : (l.boot lib f).2 = .ok agent) :
    (l.boot lib f).1.Gives lib agent.principal := by
  obtain ⟨e, hb⟩ | ⟨f', e, hload, hb⟩ | ⟨f', keyPair, hload, hb⟩ := boot_cases lib l f
  · rw [hb] at hagent
    cases hagent
  · rw [hb] at hagent
    cases hagent
  · rw [hb] at hagent ⊢
    obtain ⟨content, hfile, hparse⟩ := loadKeyPair_ok hload
    have ha := getNewAgent_ok (expect_ok hagent)
    exact ⟨content, keyPair, hfile, hparse, by rw [ha]⟩

theorem KeyFile.Gives.unique {p q : Principal} (hp : f.Gives lib p) (hq : f.Gives lib q) : p = q := by
  obtain ⟨content, keyPair, rfl, hparse, rfl⟩ := hp
  obtain ⟨content', keyPair', hfile, hparse', rfl⟩ := hq
  cases hfile
  rw [hparse] at hparse'
  cases hparse'
  rfl

theorem KeyFile.Gives.boot {p : Principal} (hf : f.Gives lib p) (l : Life) : (l.boot lib f).1.Gives lib p := by
  obtain ⟨content, keyPair, rfl, hparse, rfl⟩ := hf
  exact ⟨content, keyPair, boot_file lib l, hparse, rfl⟩

/-! ### Every life -/

/-- The file at the end gives the principal of every life so far. -/
theorem gives_all (hr : LTS.Run (Life.live lib) f h f') :
    ∀ x ∈ h, ∀ agent, (x.2.boot lib x.1).2 = .ok agent → f'.Gives lib agent.principal := by
  induction hr with
  | nil => exact fun x hx => absurd hx List.not_mem_nil
  | @snoc h t t' l hr hl ih =>
    obtain rfl : (l.boot lib t).1 = t' := Option.some.inj hl
    intro x hx agent hagent
    rcases List.mem_append.mp hx with hx | hx
    · exact (ih x hx agent hagent).boot l
    · rw [List.mem_singleton] at hx
      subst hx
      exact boot_ok hagent

/-- The key file of a life is that of all lives after it. -/
theorem file_stays (hr : LTS.Run (Life.live lib) f h f') (hf : f = .file content) :
    (∀ x ∈ h, x.1 = .file content) ∧ f' = .file content := by
  induction hr with
  | nil => exact ⟨fun x hx => absurd hx List.not_mem_nil, hf⟩
  | @snoc h t t' l hr hl ih =>
    obtain ⟨hall, rfl⟩ := ih
    obtain rfl : (l.boot lib (.file content)).1 = t' := Option.some.inj hl
    refine ⟨fun x hx => ?_, boot_file lib l⟩
    rcases List.mem_append.mp hx with hx | hx
    · exact hall x hx
    · rw [List.mem_singleton] at hx
      rw [hx]

/-- The handshake messages that go out in a life carry the principal of its agent. -/
theorem handshakes_of_life {x : KeyFile × Life} {i : ClientId} {m : GatewayHandshakeMessage}
    (hm : Gateway.SocketMessage.handshake m ∈ (x.2.history lib cfg x.1).flatMap (Gateway.sentOn i)) :
    ∃ agent, (x.2.boot lib x.1).2 = .ok agent ∧ m = ⟨agent.principal⟩ := by
  unfold Life.history at hm
  split at hm
  · simp at hm
  · rename_i agent hagent
    split at hm
    · simp at hm
    · rename_i g hg
      refine ⟨agent, hagent, ?_⟩
      obtain ⟨g', hrun⟩ := LTS.trace_run (Gateway.step cfg) x.2.events g
      obtain rfl := Gateway.start_cases hg
      have hsent := Gateway.sent_up_to hrun i
      generalize List.flatMap (Gateway.sentOn i) _ = out at hm hsent
      generalize List.flatMap (sentBy i) _ = ms at hsent
      cases hsent with
      | nothing waiting => cases hm
      | greeted past =>
        rcases List.mem_cons.mp hm with hm | hm
        · cases hm
          rfl
        · obtain ⟨y, -, hy⟩ := List.mem_map.mp hm
          cases hy

/-- A key file that is no key pair starts no gateway, and stays. -/
theorem no_history {e : String} (hparse : lib.fromPkcs8 content = .error e) (l : Life) :
    l.history lib cfg (.file content) = [] := by
  unfold Life.history
  split
  · rfl
  · rename_i agent hagent
    obtain ⟨content', keyPair, hfile, hok, -⟩ := boot_ok hagent
    rw [boot_file] at hfile
    cases hfile
    rw [hparse] at hok
    cases hok

/-- **One principal, over all lives.** However often the gateway is started on the same key file, and
whatever fails in between, all handshake messages of all its lives carry the same principal. And where the
file is no key pair, as a write that fails in its midst leaves it, no later life sends one. -/
theorem one_principal (hr : LTS.Run (Life.live lib) f h f') :
    (∀ x ∈ h, ∀ y ∈ h, ∀ i j m n,
      Gateway.SocketMessage.handshake m ∈ (x.2.history lib cfg x.1).flatMap (Gateway.sentOn i) →
      Gateway.SocketMessage.handshake n ∈ (y.2.history lib cfg y.1).flatMap (Gateway.sentOn j) → m = n) ∧
    ∀ h₁ x h₂ content e, h = h₁ ++ x :: h₂ → x.1 = .file content → lib.fromPkcs8 content = .error e →
      ∀ y ∈ x :: h₂, y.2.history lib cfg y.1 = [] := by
  refine ⟨fun x hx y hy i j m n hm hn => ?_, ?_⟩
  · obtain ⟨agent, hagent, rfl⟩ := handshakes_of_life hm
    obtain ⟨agent', hagent', rfl⟩ := handshakes_of_life hn
    have hgives := gives_all hr
    rw [(hgives x hx agent hagent).unique (hgives y hy agent' hagent')]
  · rintro h₁ ⟨t, l⟩ h₂ content e rfl ht hparse y hy
    obtain ⟨-, t', hl, hr₂⟩ := hr.at_event
    have hfile : ∀ z ∈ (t, l) :: h₂, z.1 = .file content := by
      have hkept := file_stays (LTS.run_cons hl hr₂) ht
      exact hkept.1
    obtain ⟨s, l'⟩ := y
    obtain rfl : s = .file content := hfile _ hy
    exact no_history hparse l'

/-- The PKCS#8 document of the key pair with the seed zero. -/
def zeroDocument : Bytes :=
  [48, 83, 2, 1, 1, 48, 5, 6, 3, 43, 101, 112, 4, 34, 4, 32] ++ List.replicate 32 0 ++ [161, 35, 3, 33, 0] ++
    [59, 106, 39, 188, 206, 182, 164, 45, 98, 163, 168, 208, 42, 111, 13, 115, 101, 50, 21, 119, 29, 226, 67, 166,
      58, 192, 72, 161, 139, 89, 218, 41]

/-- That key pair and its principal. -/
def zeroLibrary : KeyLibrary Unit :=
  { fromPkcs8 := fun content => if content = zeroDocument then .ok () else .error "InvalidEncoding"
    sender := fun _ => [248, 152, 76, 85, 124, 243, 110, 62, 250, 165, 78, 34, 56, 168, 191, 112, 96, 151, 72, 20, 209,
      19, 204, 68, 226, 19, 76, 35, 2] }

/-- The gateway is started, and one client connects. -/
def oneClient : Life :=
  { dataDir := .ok (), keyIo := { generatePkcs8 := .ok zeroDocument, write := .ok (), read := .ok () }
    icNetworkUrl := "https://icp-api.io", agentIo := { build := .ok (), fetchRootKey := .ok () }
    listenerIo := Gateway.secureIo, info := Gateway.secureInfo, events := Gateway.admits }

set_option maxRecDepth 20000 in
/-- A client that comes back after a restart gets the principal it knows. -/
theorem one_principal_restart : ∃ m n,
    (oneClient.history zeroLibrary .simple .absent).flatMap (Gateway.sentOn 0) = [.handshake m] ∧
      (oneClient.history zeroLibrary .simple (.file zeroDocument)).flatMap (Gateway.sentOn 0) = [.handshake n] ∧
      m = n := by
  have hr : LTS.Run (Life.live zeroLibrary) .absent [(.absent, oneClient), (.file zeroDocument, oneClient)]
      (.file zeroDocument) := LTS.run_cons rfl (LTS.run_cons rfl .nil)
  obtain ⟨m, hm⟩ : ∃ m, (oneClient.history zeroLibrary .simple .absent).flatMap (Gateway.sentOn 0) =
      [.handshake m] := ⟨_, rfl⟩
  obtain ⟨n, hn⟩ : ∃ n, (oneClient.history zeroLibrary .simple (.file zeroDocument)).flatMap (Gateway.sentOn 0) =
      [.handshake n] := ⟨_, rfl⟩
  have hone := (@one_principal Unit zeroLibrary .simple _ _ _ hr).1
  refine ⟨m, n, hm, hn, hone (.absent, oneClient) (by simp) (.file zeroDocument, oneClient) (by simp) 0 0 m n ?_ ?_⟩
  · rw [hm]
    exact List.mem_singleton_self _
  · rw [hn]
    exact List.mem_singleton_self _

end IcWsGateway
