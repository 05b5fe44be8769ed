import MeshDesk.Proxy.CircuitManager
import MeshDesk.Proxy.DisjointPaths
import MeshDesk.Proxy.PathSelector

/-! Where the two paths of a circuit come from, and the calls that take for granted that both are there.
A nil path that is dereferenced is a panic, here `none`. -/
namespace MeshDesk.Proxy
open Lib Circuit

/-! ### Selection -/

structure SelectionConfig where
  pathCount : ℤ
  selectionStrategy : String
  minCandidates : ℤ
  maxCandidates : ℤ
  chunkAssignment : String
  deriving DecidableEq, Repr

def SelectionConfig.withDefaults (cfg : SelectionConfig) : SelectionConfig where
  pathCount := if cfg.pathCount ≤ 0 then 2 else cfg.pathCount
  selectionStrategy := if cfg.selectionStrategy = "" then "auto" else cfg.selectionStrategy
  minCandidates := if cfg.minCandidates ≤ 0 then 2 else cfg.minCandidates
  maxCandidates := if cfg.maxCandidates ≤ 0 then 10 else cfg.maxCandidates
  chunkAssignment := if cfg.chunkAssignment = "" then "round-robin" else cfg.chunkAssignment

/-- The selector of a manager: it probes with a dial function of its own, eight relays at once. -/
def SelectionConfig.probeConfig (cfg : SelectionConfig) : PathSelectorConfig :=
  ⟨8, cfg.minCandidates, cfg.maxCandidates, true⟩

inductive PathSelectionError where
  | graph (e : PathError)
  | tooShort
  | relayKey (text : String)
  | probe (e : SelectError)
  deriving DecidableEq, Repr

def PathSelectionError.text : PathSelectionError → String
  | .graph e => e.text
  | .tooShort => "invalid graph path: too short"
  | .relayKey text => "generate relay key: " ++ text
  | .probe e => "probe-based path selection failed: " ++ e.text

/-- What a selection meets: how the graph search resolves what is open, what the generator of random keys
returns for a relay of a path, and the probes. -/
structure SelectionMeeting where
  choices : ℕ → Choices
  relayKey : ℕ → ℕ → Except String Bytes
  probes : Meeting

def drawKeys (key : ℕ → Except String Bytes) : ℕ → Except String (List Bytes)
  | 0 => .ok []
  | n + 1 => do
    let first ← key n
    let rest ← drawKeys key n
    .ok (first :: rest)

def graphPathToProxyPath (key : ℕ → Except String Bytes) (graphPath : List GoString) :
    Except PathSelectionError Path :=
  if graphPath.length < 2 then .error .tooShort
  else
    match drawKeys key (relaysOf graphPath).length with
    | .error text => .error (.relayKey text)
    | .ok keys => .ok ⟨relaysOf graphPath, keys⟩

def graphPathsToProxyPaths (key : ℕ → ℕ → Except String Bytes) :
    List (List GoString) → Except PathSelectionError (List Path)
  | [] => .ok []
  | p :: ps => do
    let path ← graphPathToProxyPath (key ps.length) p
    let paths ← graphPathsToProxyPaths key ps
    .ok (path :: paths)

/-- The last check of a graph search looks at the first two paths only. -/
def checkOverlap : List Path → Except PathSelectionError (List Path)
  | p :: q :: rest => if hasOverlap p q then .error (.graph .pathOverlap) else .ok (p :: q :: rest)
  | paths => .ok paths

section Select
variable (cfg : SelectionConfig) (matrix : MeshLatencyMatrix) (probe : PathSelector) (env : SelectionMeeting)
  (entryID exitID : GoString) (candidates : List CandidateRelay)

/-- Whether the graph search is used. A strategy that is not known probes. -/
def SelectionConfig.useBFS : Bool :=
  cfg.selectionStrategy = "bfs" ||
    (cfg.selectionStrategy = "auto" && decide (cfg.minCandidates ≤ matrix.relayCountWithRTT entryID))

def selectByProbe : Except PathSelectionError (List Path) × PathSelector :=
  if candidates.length < cfg.minCandidates then (.error (.graph .noPaths), probe)
  else
    match probe.selectPaths env.probes candidates with
    | (.error e, probe) => (.error (.probe e), probe)
    | (.ok (p, q), probe) => (.ok [p, q], probe)

def selectPaths : Except PathSelectionError (List Path) × PathSelector :=
  if cfg.useBFS matrix entryID then
    match matrix.kShortestDisjointPaths entryID exitID cfg.pathCount env.choices with
    | .ok paths => (graphPathsToProxyPaths env.relayKey paths >>= checkOverlap, probe)
    | .error e =>
      if cfg.selectionStrategy ≠ "auto" then (.error (.graph e), probe)
      else selectByProbe cfg probe env candidates
  else selectByProbe cfg probe env candidates

end Select

/-! ### Use -/

variable (p : CircuitPath)

def CircuitPath.healthy : Bool := p.health ≠ .unhealthy

def CircuitPath.missKeepalive : CircuitPath :=
  let missed := p.missedKeepalives + 1
  { p with
    missedKeepalives := missed
    health := if 4 ≤ missed then .unhealthy else if 2 ≤ missed then .degraded else p.health }

def CircuitPath.recordRTT : CircuitPath := { p with missedKeepalives := 0, health := .healthy }

def CircuitPath.recordChunk (byteCount : ℕ) : CircuitPath :=
  { p with totalChunks := p.totalChunks + 1, totalBytes := p.totalBytes + byteCount }

/-- The second path is not looked at if the first one is healthy. -/
def Circuit.bothPathsUnhealthy (c : Circuit) : Option Bool := do
  let p0 ← c.paths .path1
  if p0.healthy then some false
  else
    let p1 ← c.paths .path2
    some (!p1.healthy)

inductive ChunkAssignmentStrategy where
  | roundRobin
  | weighted
  | fastestOnly
  deriving DecidableEq, Repr

def newChunkAssignmentStrategy (name : String) : ChunkAssignmentStrategy :=
  if name = "weighted" then .weighted
  else if name = "fastest-only" then .fastestOnly
  else .roundRobin

/-- The weighted choice between two paths that are both usable; `draw` is a random number from 0 to 1. -/
def weightedChoice (rttA rttB : Duration) (callCount : ℤ) (draw : ℚ) : ℤ :=
  if rttA = 0 ∧ rttB = 0 then callCount.tmod 2
  else
    let rttA' := if rttA = 0 then rttB else rttA
    let rttB' := if rttB = 0 then rttA' else rttB
    if draw < (rttB' : ℚ) / (rttA' + rttB' : ℤ) then 0 else 1

def fastestChoice (rttA rttB : Duration) (callCount : ℤ) : ℤ :=
  if rttA = 0 ∧ rttB = 0 then callCount.tmod 2
  else if rttA = 0 then 1
  else if rttB = 0 then 0
  else if rttA ≤ rttB then 0
  else 1

/-- All strategies begin with the health of both paths. They differ in what they do if it does not decide. -/
def ChunkAssignmentStrategy.assignPath (s : ChunkAssignmentStrategy) (paths : PathIndex → Option CircuitPath)
    (lastRTT : PathIndex → Duration) (callCount : ℤ) (draw : ℚ) : Option ℤ := do
  let p0 ← paths .path1
  let p1 ← paths .path2
  if !p0.healthy && p1.healthy then some 1
  else if !p1.healthy && p0.healthy then some 0
  else
    match s with
    | .roundRobin => some (callCount.tmod 2)
    | .weighted =>
      if !p0.healthy && !p1.healthy then some (callCount.tmod 2)
      else some (weightedChoice (lastRTT .path1) (lastRTT .path2) callCount draw)
    | .fastestOnly => some (fastestChoice (lastRTT .path1) (lastRTT .path2) callCount)

def Circuit.updatePath (c : Circuit) (i : PathIndex) (f : CircuitPath → CircuitPath) : Circuit :=
  { c with paths := fun j => if j = i then (c.paths j).map f else c.paths j }

/-- The manager with what its circuits are used for. `lastRTT` and `nextPathIndex` are fields of the paths and
circuits. -/
structure EntryNode where
  pool : Pool CircuitManager Task
  matrix : MeshLatencyMatrix
  probe : PathSelector
  strategy : ChunkAssignmentStrategy
  lastRTT : CircuitIDType → PathIndex → Duration
  nextPathIndex : CircuitIDType → ℤ
  panicked : Bool

def newEntryNode (cfg : CircuitManagerConfig) (sel : SelectionConfig) : EntryNode where
  pool := ⟨newCircuitManager cfg, []⟩
  matrix := newMeshLatencyMatrix
  probe := newPathSelector sel.withDefaults.probeConfig
  strategy := newChunkAssignmentStrategy sel.withDefaults.chunkAssignment
  lastRTT _ _ := 0
  nextPathIndex _ := 0
  panicked := false

structure Creation where
  entryID : GoString
  candidates : List CandidateRelay
  env : SelectionMeeting
  drawn : Except String (CircuitIDType × Bytes × Bytes)

/-- What happens at an entry node: calls of the manager and their sections, gossip, and the use of circuits.
The calls that take a path's index refuse any other than 0 and 1. -/
inductive EntryTurn where
  | call (k : ManagerCall)
  | exec (i : ℕ) (now : Time) (creation : Creation)
  | addNode (info : NodeInfo)
  | updateLatencyMatrix (edges : List LatencyEdge)
  | assignChunkPath (cid : CircuitIDType) (draw : ℚ)
  | missKeepalive (cid : CircuitIDType) (i : PathIndex)
  | handleKeepaliveResponse (cid : CircuitIDType) (i : PathIndex) (rtt : Duration) (now : Time)
  | recordChunkDispatch (cid : CircuitIDType) (i : PathIndex) (byteCount : ℕ) (now : Time)

namespace EntryNode
variable (n : EntryNode)

def created (sel : SelectionConfig) (exitID : GoString) (cr : Creation) : Except String Generated × PathSelector :=
  let r := selectPaths sel n.matrix n.probe cr.env cr.entryID exitID cr.candidates
  match r.1 with
  | .error e => (.error ("path selection: " ++ e.text), r.2)
  | .ok paths => (cr.drawn.map (fun d => ⟨d.1, d.2.1, d.2.2, paths⟩), r.2)

def exec (sel : SelectionConfig) (i : ℕ) (now : Time) (cr : Creation) : EntryNode :=
  match n.pool.ready[i]? with
  | some (.store exitID) =>
    let r := n.created sel exitID cr
    { n with pool := managerSections.step n.pool (.exec i ⟨now, r.1⟩), probe := r.2 }
  | _ => { n with pool := managerSections.step n.pool (.exec i ⟨now, .error ""⟩) }

variable (cid : CircuitIDType)

def circuit : Option Circuit := n.pool.state.objects.lookup cid

def setCircuit (cid : CircuitIDType) (c : Circuit) : EntryNode :=
  { n with pool := { n.pool with state := n.pool.state.setCircuit cid c } }

def assignChunkPath (draw : ℚ) (c : Circuit) : EntryNode :=
  match n.strategy.assignPath c.paths (n.lastRTT cid) (n.nextPathIndex cid) draw with
  | none => { n with panicked := true }
  | some _ => { n with nextPathIndex := Function.update n.nextPathIndex cid (n.nextPathIndex cid + 1) }

/-- A missing path is an error; what comes after it looks at both. -/
def missKeepalive (cid : CircuitIDType) (i : PathIndex) (c : Circuit) : EntryNode :=
  if (c.paths i).isNone then n
  else
    let c := c.updatePath i CircuitPath.missKeepalive
    let n := n.setCircuit cid c
    match c.bothPathsUnhealthy with
    | none => { n with panicked := true }
    | some false => n
    | some true =>
      { n with pool := managerSections.step n.pool (.call (.teardownCircuit cid "both paths unhealthy")) }

def handleKeepaliveResponse (i : PathIndex) (rtt : Duration) (now : Time) (c : Circuit) : EntryNode :=
  if (c.paths i).isNone then n
  else
    { n.setCircuit cid { c.updatePath i CircuitPath.recordRTT with lastActivity := now } with
      lastRTT := Function.update n.lastRTT cid (Function.update (n.lastRTT cid) i (max rtt 0)) }

def recordChunkDispatch (i : PathIndex) (byteCount : ℕ) (now : Time) (c : Circuit) : EntryNode :=
  if (c.paths i).isNone then n
  else n.setCircuit cid { c.updatePath i (CircuitPath.recordChunk · byteCount) with lastActivity := now }

/-- One turn. A call that uses a circuit may have looked it up before the circuit was removed. -/
def step (sel : SelectionConfig) : EntryTurn → EntryNode
  | .call k => { n with pool := managerSections.step n.pool (.call k) }
  | .exec i now cr => n.exec sel i now cr
  | .addNode info => { n with matrix := n.matrix.addNode info }
  | .updateLatencyMatrix edges => { n with matrix := n.matrix.mergeEdges edges }
  | .assignChunkPath cid draw => (n.circuit cid).elim n (n.assignChunkPath cid draw)
  | .missKeepalive cid i => (n.circuit cid).elim n (n.missKeepalive cid i)
  | .handleKeepaliveResponse cid i rtt now => (n.circuit cid).elim n (n.handleKeepaliveResponse cid i rtt now)
  | .recordChunkDispatch cid i byteCount now => (n.circuit cid).elim n (n.recordChunkDispatch cid i byteCount now)

end EntryNode

def entryRun (cfg : CircuitManagerConfig) (sel : SelectionConfig) (turns : List EntryTurn) : EntryNode :=
  turns.foldl (fun n turn => n.step sel.withDefaults turn) (newEntryNode cfg sel)

/-! ### Both paths are there -/

theorem graphPathsToProxyPaths_length {key : ℕ → ℕ → Except String Bytes} {ps : List (List GoString)}
    {paths : List Path} (h : graphPathsToProxyPaths key ps = .ok paths) : paths.length = ps.length := by
  induction ps generalizing paths with
  | nil =>
    obtain rfl := Except.ok.inj h
    rfl
  | cons p ps ih =>
    obtain ⟨path, -, h⟩ := bind_eq_ok.mp h
    obtain ⟨rest, hrest, h⟩ := bind_eq_ok.mp h
    obtain rfl := Except.ok.inj h
    rw [List.length_cons, List.length_cons, ih hrest]

theorem checkOverlap_eq_ok {ps paths : List Path} (h : checkOverlap ps = .ok paths) : paths = ps := by
  unfold checkOverlap at h
  split at h
  · split_ifs at h
    exact (Except.ok.inj h).symm
  · exact (Except.ok.inj h).symm

def SelectionConfig.AsksForTwo (cfg : SelectionConfig) : Prop :=
  cfg.pathCount ≠ 1 ∨ cfg.selectionStrategy ∉ ["", "auto", "bfs"]

instance (cfg : SelectionConfig) : Decidable cfg.AsksForTwo := inferInstanceAs (Decidable (_ ∨ _))

section Select
variable {sel : SelectionConfig} {matrix : MeshLatencyMatrix} {probe : PathSelector} {env : SelectionMeeting}
  {entryID exitID : GoString} {candidates : List CandidateRelay} {paths : List Path}

theorem selectByProbe_length (h : (selectByProbe sel probe env candidates).1 = .ok paths) : paths.length = 2 := by
  unfold selectByProbe at h
  split_ifs at h
  split at h
  · cases h
  · obtain rfl := Except.ok.inj h
    rfl

theorem SelectionConfig.useBFS_withDefaults (h : sel.withDefaults.useBFS matrix entryID = true) :
    sel.selectionStrategy ∈ ["", "auto", "bfs"] := by
  by_contra hnot
  simp only [List.mem_cons, List.not_mem_nil, or_false, not_or] at hnot
  simp [useBFS, withDefaults, hnot.1, hnot.2.1, hnot.2.2] at h

theorem selectPaths_length (hsel : sel.AsksForTwo)
    (h : (selectPaths sel.withDefaults matrix probe env entryID exitID candidates).1 = .ok paths) :
    2 ≤ paths.length := by
  unfold selectPaths at h
  by_cases hbfs : sel.withDefaults.useBFS matrix entryID = true
  · rw [if_pos hbfs] at h
    have hcount : 2 ≤ sel.withDefaults.pathCount := by
      have hne : sel.pathCount ≠ 1 := hsel.resolve_right (not_not.mpr (SelectionConfig.useBFS_withDefaults hbfs))
      change 2 ≤ if sel.pathCount ≤ 0 then 2 else sel.pathCount
      split_ifs
      · exact le_rfl
      · omega
    cases hps : matrix.kShortestDisjointPaths entryID exitID sel.withDefaults.pathCount env.choices with
    | ok ps =>
      rw [hps] at h
      obtain ⟨-, -, hlen⟩ := MeshLatencyMatrix.kShortestDisjointPaths_eq_ok hps
      obtain ⟨qs, hqs, h⟩ := bind_eq_ok.mp h
      obtain rfl := checkOverlap_eq_ok h
      rw [graphPathsToProxyPaths_length hqs]
      omega
    | error e =>
      rw [hps] at h
      split_ifs at h
      exact (selectByProbe_length h).ge
  · rw [if_neg hbfs] at h
    exact (selectByProbe_length h).ge

end Select

def CircuitManager.HasPaths (m : CircuitManager) : Prop :=
  ∀ cid c, m.objects.lookup cid = some c → ∀ i, (c.paths i).isSome

namespace CircuitManager
variable {m : CircuitManager}

theorem HasPaths.insert {m' : CircuitManager} (h : m.HasPaths) {cid : CircuitIDType} {c : Circuit}
    (hm' : m'.objects = m.objects.insert cid c) (hc : ∀ i, (c.paths i).isSome) : m'.HasPaths := by
  intro k d hk
  rw [hm'] at hk
  obtain ⟨-, rfl⟩ | ⟨-, hold⟩ := Map.lookup_of_insert hk
  · exact hc
  · exact h k d hold

theorem circuitPaths_isSome {paths : List Path} (h : 2 ≤ paths.length) (i : PathIndex) :
    (circuitPaths paths i).isSome := by
  match paths, h with
  | p :: q :: rest, _ => cases i <;> rfl

theorem Circuit.handle_paths (c : Circuit) (now : Time) (cid : CircuitIDType) (h : Handler)
    (hc : ∀ i, (c.paths i).isSome) (i : PathIndex) : ((c.handle now cid h).1.paths i).isSome := by
  cases h with
  | ack msg =>
    unfold handle handleCircuitAck
    dsimp only
    split_ifs
    · exact hc i
    · exact hc i
    · rw [Option.isSome_map]
      exact hc i
  | setupTimeout =>
    unfold handle handleSetupTimeout
    split_ifs <;> exact hc i
  | teardown reason =>
    unfold handle teardownCircuit beginTeardown
    split_ifs <;> exact hc i
  | exitTeardown reason =>
    unfold handle handleTeardown beginTeardown
    split_ifs <;> exact hc i
  | close reason => exact hc i

theorem HasPaths.exec (h : m.HasPaths) {sur : Surroundings}
    (hgen : ∀ g, sur.generated = .ok g → 2 ≤ g.paths.length) (t : Task) : (m.exec sur t).1.HasPaths := by
  cases t with
  | checkLimits | find | emit | scanIdle | scanAll | done => exact h
  | store exitID =>
    unfold CircuitManager.exec store
    cases hg : sur.generated with
    | error text => exact h
    | ok g =>
      dsimp only
      split_ifs
      · exact h
      · exact h.insert rfl (circuitPaths_isSome (hgen g hg))
  | handle cid hd =>
    unfold CircuitManager.exec
    dsimp only
    cases hc : m.objects.lookup cid with
    | none => exact h
    | some c => exact h.insert rfl (Circuit.handle_paths c sur.now cid hd (h cid c hc))
  | zeroKeys cid reason result =>
    unfold CircuitManager.exec
    dsimp only
    cases hc : m.objects.lookup cid with
    | none => exact h
    | some c =>
      refine h.insert rfl fun i => ?_
      rw [Circuit.zeroKeys, Option.isSome_map]
      exact h cid c hc i
  | remove cid reason result =>
    intro k c hk
    exact h k c (m.removeCircuit_objects cid ▸ hk)

end CircuitManager

theorem Circuit.updatePath_isSome {c : Circuit} (hc : ∀ i, (c.paths i).isSome) (i : PathIndex)
    (f : CircuitPath → CircuitPath) (j : PathIndex) : ((c.updatePath i f).paths j).isSome := by
  unfold updatePath
  dsimp only
  split_ifs
  · rw [Option.isSome_map]
    exact hc j
  · exact hc j

theorem Circuit.bothPathsUnhealthy_isSome {c : Circuit} (hc : ∀ i, (c.paths i).isSome) :
    c.bothPathsUnhealthy.isSome := by
  obtain ⟨p0, h0⟩ := Option.isSome_iff_exists.mp (hc .path1)
  obtain ⟨p1, h1⟩ := Option.isSome_iff_exists.mp (hc .path2)
  unfold bothPathsUnhealthy
  rw [h0, h1]
  dsimp only [Option.bind_eq_bind, Option.bind_some]
  split_ifs <;> rfl

theorem ChunkAssignmentStrategy.assignPath_isSome (s : ChunkAssignmentStrategy) {c : Circuit}
    (hc : ∀ i, (c.paths i).isSome) (lastRTT : PathIndex → Duration) (callCount : ℤ) (draw : ℚ) :
    (s.assignPath c.paths lastRTT callCount draw).isSome := by
  obtain ⟨p0, h0⟩ := Option.isSome_iff_exists.mp (hc .path1)
  obtain ⟨p1, h1⟩ := Option.isSome_iff_exists.mp (hc .path2)
  unfold ChunkAssignmentStrategy.assignPath
  rw [h0, h1]
  dsimp only [Option.bind_eq_bind, Option.bind_some]
  cases s <;> split_ifs <;> rfl

/-! ### Runs -/

structure EntryNode.Sound (n : EntryNode) : Prop where
  paths : n.pool.state.HasPaths
  running : n.panicked = false

namespace EntryNode
variable {n : EntryNode} {sel : SelectionConfig}

theorem created_paths (hsel : sel.AsksForTwo) {exitID : GoString} {cr : Creation} {g : Generated}
    (h : (n.created sel.withDefaults exitID cr).1 = .ok g) : 2 ≤ g.paths.length := by
  unfold created at h
  dsimp only at h
  split at h
  · cases h
  · next paths hpaths =>
    obtain ⟨d, -, rfl⟩ := map_eq_ok.mp h
    exact selectPaths_length hsel hpaths

theorem poolStep_hasPaths {p : Pool CircuitManager Task} (h : p.state.HasPaths) {sur : Surroundings}
    (hgen : ∀ g, sur.generated = .ok g → 2 ≤ g.paths.length) (i : ℕ) :
    (managerSections.step p (.exec i sur)).state.HasPaths := by
  cases ht : p.ready[i]? with
  | none =>
    rw [managerSections.step_exec_none ht]
    exact h
  | some t =>
    rw [managerSections.step_exec_some ht]
    exact h.exec hgen t

theorem Sound.setCircuit (h : n.Sound) (cid : CircuitIDType) {c : Circuit} (hc : ∀ i, (c.paths i).isSome) :
    (n.setCircuit cid c).Sound := ⟨h.paths.insert rfl hc, h.running⟩

theorem Sound.use (h : n.Sound) {cid : CircuitIDType} {f : Circuit → EntryNode}
    (hf : ∀ c : Circuit, (∀ i, (c.paths i).isSome) → (f c).Sound) : ((n.circuit cid).elim n f).Sound := by
  cases hc : n.circuit cid with
  | none => exact h
  | some c => exact hf c (h.paths cid c hc)

section Calls
variable {c : Circuit} (hc : ∀ i, (c.paths i).isSome)
include hc

theorem Sound.assignChunkPath (h : n.Sound) (cid : CircuitIDType) (draw : ℚ) : (n.assignChunkPath cid draw c).Sound := by
  have hassigned := n.strategy.assignPath_isSome hc (n.lastRTT cid) (n.nextPathIndex cid) draw
  obtain ⟨idx, hidx⟩ := Option.isSome_iff_exists.mp hassigned
  rw [EntryNode.assignChunkPath, hidx]
  exact ⟨h.paths, h.running⟩

theorem Sound.missKeepalive (h : n.Sound) (cid : CircuitIDType) (i : PathIndex) : (n.missKeepalive cid i c).Sound := by
  have hpaths := updatePath_isSome hc i CircuitPath.missKeepalive
  obtain ⟨both, hboth⟩ := Option.isSome_iff_exists.mp (bothPathsUnhealthy_isSome hpaths)
  have hset := h.setCircuit cid hpaths
  unfold EntryNode.missKeepalive
  split_ifs
  · exact h
  · dsimp only
    rw [hboth]
    cases both with
    | false => exact hset
    | true => exact ⟨hset.paths, hset.running⟩

theorem Sound.handleKeepaliveResponse (h : n.Sound) (cid : CircuitIDType) (i : PathIndex) (rtt : Duration) (now : Time) :
    (n.handleKeepaliveResponse cid i rtt now c).Sound := by
  have hpaths := updatePath_isSome hc i CircuitPath.recordRTT
  unfold EntryNode.handleKeepaliveResponse
  split_ifs
  · exact h
  · exact ⟨h.paths.insert rfl hpaths, h.running⟩

theorem Sound.recordChunkDispatch (h : n.Sound) (cid : CircuitIDType) (i : PathIndex) (byteCount : ℕ) (now : Time) :
    (n.recordChunkDispatch cid i byteCount now c).Sound := by
  have hpaths := updatePath_isSome hc i (CircuitPath.recordChunk · byteCount)
  unfold EntryNode.recordChunkDispatch
  split_ifs
  · exact h
  · exact h.setCircuit cid hpaths

end Calls

theorem Sound.step (h : n.Sound) (hsel : sel.AsksForTwo) (turn : EntryTurn) : (n.step sel.withDefaults turn).Sound := by
  cases turn with
  | call | addNode | updateLatencyMatrix => exact ⟨h.paths, h.running⟩
  | exec i now cr =>
    unfold EntryNode.step EntryNode.exec
    dsimp only
    split
    · exact ⟨poolStep_hasPaths h.paths (fun g hg => created_paths hsel hg) i, h.running⟩
    · exact ⟨poolStep_hasPaths h.paths (fun g hg => (by cases hg)) i, h.running⟩
  | assignChunkPath cid draw => exact h.use fun _ hc => h.assignChunkPath hc cid draw
  | missKeepalive cid i => exact h.use fun _ hc => h.missKeepalive hc cid i
  | handleKeepaliveResponse cid i rtt now => exact h.use fun _ hc => h.handleKeepaliveResponse hc cid i rtt now
  | recordChunkDispatch cid i byteCount now => exact h.use fun _ hc => h.recordChunkDispatch hc cid i byteCount now

end EntryNode

/-- If more than one path is asked for or the graph search is not used, every circuit that was created has
both paths, and no call ever dereferences a missing one. -/
theorem entryRun_paths (cfg : CircuitManagerConfig) (sel : SelectionConfig) (turns : List EntryTurn)
    (hsel : sel.AsksForTwo) :
    (entryRun cfg sel turns).panicked = false ∧
      ∀ cid c, (entryRun cfg sel turns).circuit cid = some c → ∀ i, (c.paths i).isSome := by
  have hstart : (newEntryNode cfg sel).Sound := ⟨nofun, rfl⟩
  have hsound : (entryRun cfg sel turns).Sound :=
    List.foldlRecOn (motive := EntryNode.Sound) turns _ hstart fun _ hn turn _ => hn.step hsel turn
  exact ⟨hsound.running, hsound.paths⟩

def starCreation : Creation where
  entryID := [1]
  candidates := []
  env := ⟨fun _ => .first, fun _ _ => .ok [], .steady⟩
  drawn := .ok ([7], [], [])

def starTurns : List EntryTurn :=
  [.updateLatencyMatrix [⟨[1], [2], 1⟩, ⟨[2], [4], 1⟩, ⟨[1], [3], 2⟩, ⟨[3], [4], 0⟩], .call (.createCircuit [4]),
    .exec 0 0 starCreation, .exec 0 0 starCreation]

theorem entryRun_paths_star :
    ((entryRun ⟨0, 1, 1⟩ ⟨2, "bfs", 0, 0, ""⟩ starTurns).circuit [7]).isSome ∧
      (entryRun ⟨0, 1, 1⟩ ⟨2, "bfs", 0, 0, ""⟩ (starTurns ++ [.assignChunkPath [7] 0])).panicked = false :=
  ⟨by with_unfolding_all decide, (entryRun_paths ⟨0, 1, 1⟩ ⟨2, "bfs", 0, 0, ""⟩ _ (by decide)).1⟩

/-- With a path count of one the circuit is created with one path. The first chunk that is assigned panics, and
so does the missed keepalive that makes the only path unhealthy. -/
theorem entryRun_one_path :
    let run := fun turns => entryRun ⟨0, 1, 1⟩ ⟨1, "bfs", 0, 0, ""⟩ (starTurns ++ turns)
    ((run []).circuit [7]).any (fun c => (c.paths .path1).isSome && (c.paths .path2).isNone) = true ∧
      (run [.assignChunkPath [7] 0]).panicked = true ∧
      (run (List.replicate 4 (.missKeepalive [7] .path1))).panicked = true := by
  exact ⟨by with_unfolding_all decide, by with_unfolding_all decide, by with_unfolding_all decide⟩

end MeshDesk.Proxy
