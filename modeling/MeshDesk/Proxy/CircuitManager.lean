import MeshDesk.Lib.Interleaving
import MeshDesk.Proxy.Dispatcher

/-! The circuit manager as a set of critical sections. Every call is a chain of sections, each under
`cm.mu` or under the lock of one circuit; between them other calls may run. -/
namespace MeshDesk.Proxy
open Lib

abbrev CircuitIDType := Bytes

inductive PathHealthState where
  | healthy
  | degraded
  | unhealthy
  deriving DecidableEq, Repr

structure CircuitPath where
  hops : List GoString
  relayKeys : List Bytes
  totalChunks : ℕ
  totalBytes : ℕ
  health : PathHealthState
  missedKeepalives : ℕ
  deriving DecidableEq, Repr

structure Circuit where
  state : CircuitState
  lastActivity : Time
  exit : GoString
  e2eKey : Bytes
  paddingSeed : Bytes
  paths : PathIndex → Option CircuitPath
  idleTimeout : Duration

def circuitStateName : CircuitState → String
  | .creating => "creating"
  | .active => "active"
  | .teardown => "teardown"
  | .closed => "closed"

inductive CircuitEventType where
  | created
  | established
  | teardownInitiated
  | closed
  deriving DecidableEq, Repr

structure CircuitEvent where
  type : CircuitEventType
  circuitID : CircuitIDType
  data : Option String
  deriving DecidableEq, Repr

structure CircuitStats where
  totalCreated : ℕ
  totalClosed : ℕ
  active : ℤ
  tearingDown : ℤ
  totalChunksDispatched : ℕ
  totalBytesDispatched : ℕ
  deriving DecidableEq, Repr

structure CircuitManagerConfig where
  idleTimeout : Duration
  maxCircuitsPerExit : ℤ
  maxCircuitsTotal : ℤ
  deriving DecidableEq, Repr

inductive ManagerError where
  | tooManyCircuits
  | notCreated (text : String)
  | circuitNotFound
  | invalidCircuitState (state : CircuitState)
  | rejected (reason : String)
  deriving DecidableEq, Repr

def ManagerError.text : ManagerError → String
  | .tooManyCircuits => "maximum circuit limit reached"
  | .notCreated text => text
  | .circuitNotFound => "circuit not found"
  | .invalidCircuitState state => "invalid circuit state transition: circuit in state " ++ circuitStateName state
  | .rejected reason => "exit rejected circuit: " ++ reason

inductive CallResult where
  | created (cid : CircuitIDType)
  | ok
  | failed (e : ManagerError)
  deriving DecidableEq, Repr

structure CircuitAck where
  accepted : Bool
  reason : String
  deriving DecidableEq, Repr

/-- The calls that look a circuit up and then work on it under its own lock. -/
inductive Handler where
  | ack (msg : CircuitAck)
  | setupTimeout
  | teardown (reason : String)
  | exitTeardown (reason : String)
  | close (reason : String)
  deriving DecidableEq, Repr

inductive Task where
  | checkLimits (exitID : GoString)
  | store (exitID : GoString)
  | find (cid : CircuitIDType) (h : Handler)
  | handle (cid : CircuitIDType) (h : Handler)
  | zeroKeys (cid : CircuitIDType) (reason : String) (result : CallResult)
  | remove (cid : CircuitIDType) (reason : String) (result : CallResult)
  | emit (event : CircuitEvent) (next : Task)
  | scanIdle
  | scanAll
  | done (result : CallResult)
  deriving DecidableEq, Repr

def zeroBytes (bs : Bytes) : Bytes := bs.map (fun _ => 0)

def CircuitPath.zeroKeys (p : CircuitPath) : CircuitPath :=
  { p with relayKeys := p.relayKeys.map zeroBytes }

namespace Circuit

def zeroKeys (c : Circuit) : Circuit :=
  { c with
    e2eKey := zeroBytes c.e2eKey
    paddingSeed := zeroBytes c.paddingSeed
    paths := fun i => (c.paths i).map CircuitPath.zeroKeys }

variable (c : Circuit) (now : Time) (cid : CircuitIDType) (reason : String)

def isIdle : Bool := c.idleTimeout < Time.sub now c.lastActivity

/-- The source formats the state of a refused acknowledgement from a second read. -/
def handleCircuitAck (ack : CircuitAck) : Circuit × Task :=
  if c.state ≠ .creating then (c, .done (.failed (.invalidCircuitState c.state)))
  else if ack.accepted = false then
    ({ c with state := .closed }, .zeroKeys cid ack.reason (.failed (.rejected ack.reason)))
  else
    ({ c with
        state := .active
        lastActivity := now
        paths := fun i => (c.paths i).map (fun p => { p with health := .healthy, missedKeepalives := 0 }) },
      .emit ⟨.established, cid, none⟩ (.done .ok))

def handleSetupTimeout : Circuit × Task :=
  if c.state ≠ .creating then (c, .done .ok)
  else ({ c with state := .closed }, .zeroKeys cid "setup timeout" .ok)

/-- The common part of both teardown calls: they differ in the reason they close the circuit with, and
in the flush that `TeardownCircuit` waits for before it closes. -/
def beginTeardown (closeReason : String) : Circuit × Task :=
  if c.state = .closed ∨ c.state = .teardown then (c, .done .ok)
  else ({ c with state := .teardown },
    .emit ⟨.teardownInitiated, cid, some reason⟩ (.find cid (.close closeReason)))

def teardownCircuit : Circuit × Task :=
  c.beginTeardown cid reason ("teardown: " ++ reason)

def handleTeardown : Circuit × Task :=
  c.beginTeardown cid reason ("exit teardown: " ++ reason)

def closeCircuit : Circuit × Task :=
  ({ c with state := .closed }, .zeroKeys cid reason .ok)

def handle : Handler → Circuit × Task
  | .ack msg => c.handleCircuitAck now cid msg
  | .setupTimeout => c.handleSetupTimeout cid
  | .teardown reason => c.teardownCircuit cid reason
  | .exitTeardown reason => c.handleTeardown cid reason
  | .close reason => c.closeCircuit cid reason

end Circuit

/-- The counters at a removal. The two gauges depend on the state the circuit is in by then. -/
def CircuitStats.close (s : CircuitStats) (c : Circuit) : CircuitStats :=
  let dispatched (f : CircuitPath → ℕ) := (c.paths .path1).elim 0 f + (c.paths .path2).elim 0 f
  { totalCreated := s.totalCreated
    totalClosed := s.totalClosed + 1
    active := if c.state = .active then s.active - 1 else s.active
    tearingDown := if c.state = .teardown then s.tearingDown - 1 else s.tearingDown
    totalChunksDispatched := s.totalChunksDispatched + dispatched (·.totalChunks)
    totalBytesDispatched := s.totalBytesDispatched + dispatched (·.totalBytes) }

/-- `objects` holds every circuit that was ever stored, also after it was removed: calls keep pointers
to them. `circuits` is the set of identifiers in the source's map of that name. -/
structure CircuitManager where
  cfg : CircuitManagerConfig
  objects : Map CircuitIDType Circuit
  circuits : Map CircuitIDType Unit
  circuitsByExit : Map GoString (List CircuitIDType)
  stats : CircuitStats
  events : List CircuitEvent

def newCircuitManager (cfg : CircuitManagerConfig) : CircuitManager :=
  ⟨cfg, ∅, ∅, ∅, ⟨0, 0, 0, 0, 0, 0⟩, []⟩

structure Generated where
  cid : CircuitIDType
  e2eKey : Bytes
  paddingSeed : Bytes
  paths : List Path

/-- What a section takes from outside: the time, and for a creation its outcome. -/
structure Surroundings where
  now : Time
  generated : Except String Generated

def newCircuitPath (p : Path) : CircuitPath := ⟨p.relays, p.relayKeys, 0, 0, .healthy, 0⟩

/-- Only the first two of the selected paths are kept; a missing one stays nil. -/
def circuitPaths (paths : List Path) : PathIndex → Option CircuitPath
  | .path1 => paths[0]?.map newCircuitPath
  | .path2 => paths[1]?.map newCircuitPath

namespace CircuitManager

variable (m : CircuitManager) (cid : CircuitIDType)

def tracked : Bool := (m.circuits.lookup cid).isSome

def exitList (exit : GoString) : List CircuitIDType :=
  (m.circuitsByExit.lookup exit).getD []

def newCircuit (now : Time) (exitID : GoString) (g : Generated) : Circuit :=
  ⟨.creating, now, exitID, g.e2eKey, g.paddingSeed, circuitPaths g.paths, m.cfg.idleTimeout⟩

def checkLimits (exitID : GoString) : Task :=
  if m.cfg.maxCircuitsTotal ≤ m.circuits.size then .done (.failed .tooManyCircuits)
  else if m.cfg.maxCircuitsPerExit ≤ (m.exitList exitID).length then .done (.failed .tooManyCircuits)
  else .store exitID

def insertCircuit (c : Circuit) : CircuitManager :=
  { m with
    objects := m.objects.insert cid c
    circuits := m.circuits.insert cid ()
    circuitsByExit := m.circuitsByExit.insert c.exit (m.exitList c.exit ++ [cid])
    stats := { m.stats with totalCreated := m.stats.totalCreated + 1, active := m.stats.active + 1 } }

/-- Generated identifiers are distinct, so a draw of one that was used before is no outcome. -/
def store (m : CircuitManager) (sur : Surroundings) (exitID : GoString) : CircuitManager × Task :=
  match sur.generated with
  | .error text => (m, .done (.failed (.notCreated text)))
  | .ok g =>
    if (m.objects.lookup g.cid).isSome then (m, .store exitID)
    else (m.insertCircuit g.cid (m.newCircuit sur.now exitID g),
      .emit ⟨.created, g.cid, none⟩ (.done (.created g.cid)))

def setCircuit (c : Circuit) : CircuitManager :=
  { m with objects := m.objects.insert cid c }

def dropFromExit (exit : GoString) (cid : CircuitIDType) : Map GoString (List CircuitIDType) :=
  let rest := (m.exitList exit).erase cid
  if rest = [] then m.circuitsByExit.erase exit else m.circuitsByExit.insert exit rest

def removeCircuit : CircuitManager :=
  if m.tracked cid then
    match m.objects.lookup cid with
    | none => m
    | some c =>
      { m with
        circuits := m.circuits.erase cid
        circuitsByExit := m.dropFromExit c.exit cid
        stats := m.stats.close c }
  else m

@[simp] theorem removeCircuit_objects : (m.removeCircuit cid).objects = m.objects := by
  unfold removeCircuit
  split
  · split <;> rfl
  · rfl

theorem removeCircuit_events : (m.removeCircuit cid).events = m.events := by
  unfold removeCircuit
  split
  · split <;> rfl
  · rfl

def idleCircuits (now : Time) : List CircuitIDType :=
  m.circuits.keys.filter (fun cid =>
    (m.objects.lookup cid).any (fun c => c.state = .active && c.isIdle now))

def exec (sur : Surroundings) : Task → CircuitManager × List Task
  | .checkLimits exitID => (m, [m.checkLimits exitID])
  | .store exitID => ((m.store sur exitID).1, [(m.store sur exitID).2])
  | .find cid h => (m, [if m.tracked cid then .handle cid h else .done (.failed .circuitNotFound)])
  | .handle cid h =>
    match m.objects.lookup cid with
    | none => (m, [])
    | some c => (m.setCircuit cid (c.handle sur.now cid h).1, [(c.handle sur.now cid h).2])
  | .zeroKeys cid reason result =>
    match m.objects.lookup cid with
    | none => (m, [])
    | some c => (m.setCircuit cid c.zeroKeys, [.remove cid reason result])
  | .remove cid reason result =>
    (m.removeCircuit cid, [.emit ⟨.closed, cid, some reason⟩ (.done result)])
  | .emit event next => ({ m with events := m.events ++ [event] }, [next])
  | .scanIdle => (m, (m.idleCircuits sur.now).map (fun cid => .find cid (.teardown "idle timeout")))
  | .scanAll => (m, m.circuits.keys.map (fun cid => .find cid (.close "shutdown")))
  | .done _ => (m, [])

end CircuitManager

inductive ManagerCall where
  | createCircuit (exitID : GoString)
  | handleCircuitAck (cid : CircuitIDType) (ack : CircuitAck)
  | handleSetupTimeout (cid : CircuitIDType)
  | teardownCircuit (cid : CircuitIDType) (reason : String)
  | handleTeardown (cid : CircuitIDType) (reason : String)
  | checkIdleTimeouts
  | shutdown
  deriving DecidableEq, Repr

def ManagerCall.start : ManagerCall → Task
  | .createCircuit exitID => .checkLimits exitID
  | .handleCircuitAck cid ack => .find cid (.ack ack)
  | .handleSetupTimeout cid => .find cid .setupTimeout
  | .teardownCircuit cid reason => .find cid (.teardown reason)
  | .handleTeardown cid reason => .find cid (.exitTeardown reason)
  | .checkIdleTimeouts => .scanIdle
  | .shutdown => .scanAll

def managerSections : Sections CircuitManager Surroundings ManagerCall Task :=
  ⟨ManagerCall.start, CircuitManager.exec⟩

def managerRun (cfg : CircuitManagerConfig) (turns : List (Turn Surroundings ManagerCall)) :
    Pool CircuitManager Task :=
  managerSections.run ⟨newCircuitManager cfg, []⟩ turns

end MeshDesk.Proxy
