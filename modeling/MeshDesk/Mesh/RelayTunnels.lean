import MeshDesk.Lib.Interleaving
import MeshDesk.Mesh.RelayDialer

/-! The tunnels of a relay. Every stream that arrives is handled by a goroutine of its own, and a bridge runs
until one of its directions ends; their critical sections interleave, and tunnels are found by the IDs that
the requests carry. -/
namespace MeshDesk.Mesh
open Lib (Map)
open Proxy (Time Duration)

def defaultMaxRelayTunnels : ℕ := 256

def defaultRelayIdleTimeout : Duration := 30 * Proxy.second

def staleHalfOpenTimeout : Duration := 30 * Proxy.second

/-- A stream that a peer has opened, one opened on the session with a peer, or one to a relay that has
accepted a request for a peer. -/
inductive StreamKind
  | accepted (peer : String)
  | opened (peer : String)
  | relayed (relay peer : String)
  deriving DecidableEq, Repr

def StreamKind.leadsTo : StreamKind → String
  | .accepted peer | .opened peer | .relayed _ peer => peer

structure RelayStream where
  kind : StreamKind
  tunnel : Option ℕ
  deriving DecidableEq, Repr

/-- Streams are numbered in the order in which they come up. `requester` is the peer on whose stream the
request came. -/
structure RelayTunnel where
  id : String
  requester : String
  initiatorKey : String
  targetKey : String
  initiatorConn : ℕ
  targetConn : Option ℕ := none
  createdAt : Time
  lastActivity : Time
  started : Bool := false
  done : Bool := false
  deriving DecidableEq, Repr

def RelayTunnel.ofRequest (req : MeshRelayRequest) (requester : String) (conn : ℕ) (now : Time) : RelayTunnel where
  id := req.tunnelID
  requester := requester
  initiatorKey := req.initiatorKey
  targetKey := req.targetKey
  initiatorConn := conn
  createdAt := now
  lastActivity := now

def RelayTunnel.conns (t : RelayTunnel) : List ℕ := t.initiatorConn :: t.targetConn.toList

/-- A stream that was closed, and the tunnel on whose account; none for a stream that was turned away. -/
structure Closing where
  cause : Option ℕ
  stream : ℕ
  deriving DecidableEq, Repr

structure Bridge where
  tunnel : ℕ
  initiator : ℕ
  target : ℕ
  deriving DecidableEq, Repr

/-- The handler's table of tunnels by ID, all tunnels and streams so far, and what was bridged, closed and
answered. -/
structure RelayTable where
  maxTunnels : ℕ := defaultMaxRelayTunnels
  idleTimeout : Duration := defaultRelayIdleTimeout
  tunnels : Map String ℕ := ∅
  objects : List RelayTunnel := []
  streams : List RelayStream := []
  closed : Bool := false
  bridges : List Bridge := []
  closings : List Closing := []
  responses : List (ℕ × Option String) := []

inductive RelayMessage
  | request (req : MeshRelayRequest)
  | response (tunnelID : String) (accept : Bool)
  | dial (dial : MeshRelayDial)
  | teardown (tunnelID : String)
  | heartbeat (tunnelID : String)
  | unreadable

inductive RelayCall
  | stream (peer : String) (msg : RelayMessage)
  | activity (tunnel : ℕ)
  | cleanupIdleTunnels
  | close

inductive RelaySection
  | handleStream (peer : String) (msg : RelayMessage)
  | capacity (conn : ℕ) (req : MeshRelayRequest)
  | evictStaleHalfOpen (conn : ℕ) (req : MeshRelayRequest)
  | evictOldest (conn : ℕ) (req : MeshRelayRequest)
  | register (conn : ℕ) (req : MeshRelayRequest)
  | findSession (tunnel : ℕ) (req : MeshRelayRequest)
  | openTarget (tunnel : ℕ)
  | awaitTarget (tunnel target : ℕ)
  | setTarget (tunnel target : ℕ) (answer : Bool)
  | multiHopRelay (tunnel : ℕ) (req : MeshRelayRequest)
  | relink (tunnel target : ℕ)
  | startBridge (tunnel : ℕ)
  | readConns (tunnel : ℕ)
  | bridgeEnd (tunnel initiator target : ℕ)
  | abandon (tunnel : ℕ) (reason : Option String)
  | closeInitiator (tunnel : ℕ)
  | removeTunnel (tunnel : ℕ)
  | closeTunnel (cause tunnel : ℕ)
  | handleDialBack (conn : ℕ) (tunnelID : String) (accept : Bool)
  | handleTeardown (conn : ℕ) (tunnelID : String)
  | activity (tunnel : ℕ)
  | cleanupIdleTunnels
  | close
  | closeAll

/-- The time, an order of the table, whether there is a session to the target, whether a stream fails,
whether the target accepts, and the relay that accepts a request passed on. -/
structure RelayInput where
  now : Time := 0
  order : List String := []
  session : Bool := false
  fault : Option StreamFault := none
  accepts : Bool := false
  nextHop : Option String := none

namespace RelayTable

variable (s : RelayTable) (conn : ℕ) (tunnelID : String) (now : Time) (r : ℕ)

def close (cause : Option ℕ) (conns : List ℕ) : RelayTable :=
  { s with closings := s.closings ++ conns.map (⟨cause, ·⟩) }

def sendResponse (reason : Option String) : RelayTable :=
  { s with responses := s.responses ++ [(conn, reason)] }

def addStream (stream : RelayStream) : RelayTable := { s with streams := s.streams ++ [stream] }

def takeStream (tunnel : ℕ) : RelayTable :=
  { s with streams := s.streams.modify conn ({ · with tunnel := some tunnel }) }

variable (t : RelayTunnel)

def list : RelayTable :=
  { s with objects := s.objects ++ [t], tunnels := s.tunnels.insert t.id s.objects.length }

def setTunnel (tunnel : ℕ) (f : RelayTunnel → RelayTunnel) : RelayTable :=
  { s with objects := s.objects.modify tunnel f }

def delete : RelayTable := { s with tunnels := s.tunnels.erase tunnelID }

/-- The tunnel's `closeOnce`, on account of a tunnel. -/
def closeOnce (cause tunnel : ℕ) (conns : RelayTunnel → List ℕ) : RelayTable :=
  match s.objects[tunnel]? with
  | none => s
  | some t => if t.done then s else (s.setTunnel tunnel ({ · with done := true })).close (some cause) (conns t)

def tunnelOf : Option RelayTunnel :=
  (s.tunnels.lookup tunnelID).bind (s.objects[·]?)

def evict (conns : RelayTunnel → List ℕ) : RelayTable :=
  match s.tunnels.lookup tunnelID with
  | none => s
  | some r => (s.delete tunnelID).closeOnce r r conns

def evictStaleHalfOpen : ℕ × RelayTable :=
  let stale := s.tunnels.keys.filter fun id =>
    (s.tunnelOf id).any fun t => t.targetConn.isNone ∧ t.createdAt < now - staleHalfOpenTimeout
  (stale.length, stale.foldl (fun s id => s.evict id fun t => [t.initiatorConn]) s)

def evictOldest (order : List String) (n : ℕ) : ℕ × RelayTable :=
  let aged := order.filterMap fun id => (s.tunnelOf id).map fun t => (id, t.createdAt)
  let candidates := (aged.insertionSort fun a b => a.2 ≤ b.2).take n
  (candidates.length, candidates.foldl (fun s c => s.evict c.1 RelayTunnel.conns) s)

/-- An idle tunnel goes without its `closeOnce`. -/
def reap : RelayTable :=
  match s.tunnels.lookup tunnelID with
  | none => s
  | some r => (s.close (some r) ((s.objects[r]?).elim [] RelayTunnel.conns)).delete tunnelID

def cleanupIdleTunnels : RelayTable :=
  let idle := s.tunnels.keys.filter fun id => (s.tunnelOf id).any (·.lastActivity < now - s.idleTimeout)
  idle.foldl reap s

def handleStream (peer : String) (msg : RelayMessage) : RelayTable × List RelaySection :=
  let conn := s.streams.length
  let s' := s.addStream ⟨.accepted peer, none⟩
  if s.closed then (s'.close none [conn], [])
  else
    match msg with
    | .request req => (s', [.capacity conn req])
    | .response tunnelID accept => (s', [.handleDialBack conn tunnelID accept])
    | .dial _ => (s'.sendResponse conn none, [])
    | .teardown tunnelID => (s', [.handleTeardown conn tunnelID])
    | .heartbeat _ | .unreadable => (s'.close none [conn], [])

def register (conn : ℕ) (req : MeshRelayRequest) : RelayTable × List RelaySection :=
  match s.tunnels.lookup req.tunnelID with
  | some _ => ((s.sendResponse conn (some relayRejectDuplicateTunnel)).close none [conn], [])
  | none =>
    let r := s.objects.length
    let requester := (s.streams[conn]?).elim "" (·.kind.leadsTo)
    ((s.takeStream conn r).list (.ofRequest req requester conn now), [.findSession r req])

def openTarget (fault : Option StreamFault) (r : ℕ) (t : RelayTunnel) : RelayTable × List RelaySection :=
  let conn := s.streams.length
  let s' := s.addStream ⟨.opened t.targetKey, some r⟩
  match fault with
  | none => (s', [.awaitTarget r conn])
  | some .openStream => (s, [.abandon r (some relayRejectNoSessionToTarget)])
  | some _ => (s'.close (some r) [conn], [.abandon r (some relayRejectNoSessionToTarget)])

def multiHopRelay (nextHop : Option String) (r : ℕ) (t : RelayTunnel) (req : MeshRelayRequest) :
    RelayTable × List RelaySection :=
  if req.path.length + 1 > maxHops then (s, [.abandon r (some "max_relay_hops_exceeded")])
  else
    match nextHop with
    | none => (s, [.abandon r (some relayRejectNoSessionToTarget)])
    | some relay => (s.addStream ⟨.relayed relay t.targetKey, some r⟩, [.relink r s.streams.length])

/-- The bridge to the next relay; the tunnel is looked up again. -/
def relink (conn : ℕ) : RelayTable × List RelaySection :=
  match s.tunnels.lookup t.id with
  | none => (s.close (some r) [conn], [.abandon r none])
  | some r' =>
    ((s.setTunnel r' ({ · with targetConn := some conn })).sendResponse t.initiatorConn none, [.startBridge r'])

def startBridge : RelayTable × List RelaySection :=
  if t.started then (s, []) else (s.setTunnel r ({ · with started := true }), [.readConns r])

def readConns : RelayTable × List RelaySection :=
  match t.targetConn with
  | none => (s, [.removeTunnel r])
  | some target =>
    ({ s with bridges := s.bridges ++ [⟨r, t.initiatorConn, target⟩] }, [.bridgeEnd r t.initiatorConn target])

def removeTunnel : RelayTable × List RelaySection :=
  match s.tunnels.lookup t.id with
  | none => (s, [])
  | some r' => (s.delete t.id, [.closeTunnel r r'])

def handleDialBack (accept : Bool) : RelayTable × List RelaySection :=
  match s.tunnels.lookup tunnelID with
  | none => (s.close none [conn], [])
  | some r =>
    if accept then (s.takeStream conn r, [.setTarget r conn false])
    else (s.close none [conn], [.removeTunnel r])

def handleTeardown : RelayTable × List RelaySection :=
  match s.tunnels.lookup tunnelID with
  | none => (s.close none [conn], [])
  | some r => ((s.delete tunnelID).close none [conn], [.closeTunnel r r])

def onTunnel (f : RelayTunnel → RelayTable × List RelaySection) : RelayTable × List RelaySection :=
  (s.objects[r]?).elim (s, []) f

def exec (input : RelayInput) : RelaySection → RelayTable × List RelaySection
  | .handleStream peer msg => s.handleStream peer msg
  | .capacity conn req =>
    (s, [if s.tunnels.size ≥ s.maxTunnels then .evictStaleHalfOpen conn req else .register conn req])
  | .evictStaleHalfOpen conn req =>
    let (evicted, s) := s.evictStaleHalfOpen input.now
    (s, [if evicted = 0 then .evictOldest conn req else .register conn req])
  | .evictOldest conn req =>
    let (evicted, s) := s.evictOldest input.order 4
    if evicted = 0 then ((s.sendResponse conn (some relayRejectAtCapacity)).close none [conn], [])
    else (s, [.register conn req])
  | .register conn req => s.register input.now conn req
  | .findSession r req => (s, [if input.session then .openTarget r else .multiHopRelay r req])
  | .openTarget r => s.onTunnel r (s.openTarget input.fault r)
  | .awaitTarget r conn =>
    if input.accepts then (s, [.setTarget r conn true])
    else (s.close (some r) [conn], [.abandon r (some relayRejectTargetRejected)])
  | .setTarget r conn answer => s.onTunnel r fun t =>
    let s := s.setTunnel r ({ · with targetConn := some conn })
    (if answer then s.sendResponse t.initiatorConn none else s, [.startBridge r])
  | .multiHopRelay r req => s.onTunnel r fun t => s.multiHopRelay input.nextHop r t req
  | .relink r conn => s.onTunnel r fun t => s.relink r t conn
  | .startBridge r => s.onTunnel r (s.startBridge r)
  | .readConns r => s.onTunnel r (s.readConns r)
  | .bridgeEnd r initiator target => (s.closeOnce r r fun _ => [initiator, target], [.removeTunnel r])
  | .abandon r reason => s.onTunnel r fun t =>
    (if reason.isSome then s.sendResponse t.initiatorConn reason else s, [.removeTunnel r, .closeInitiator r])
  | .closeInitiator r => s.onTunnel r fun t => (s.close (some r) [t.initiatorConn], [])
  | .removeTunnel r => s.onTunnel r (s.removeTunnel r)
  | .closeTunnel cause r => (s.closeOnce cause r RelayTunnel.conns, [])
  | .handleDialBack conn tunnelID accept => s.handleDialBack conn tunnelID accept
  | .handleTeardown conn tunnelID => s.handleTeardown conn tunnelID
  | .activity r => (s.setTunnel r fun t => if t.started then { t with lastActivity := input.now } else t, [])
  | .cleanupIdleTunnels => (s.cleanupIdleTunnels input.now, [])
  | .close => ({ s with closed := true }, [.closeAll])
  | .closeAll => ({ s with tunnels := ∅ }, s.tunnels.entries.map fun e => .closeTunnel e.2 e.2)

end RelayTable

def relaySections : Lib.Sections RelayTable RelayInput RelayCall RelaySection where
  start
    | .stream peer msg => .handleStream peer msg
    | .activity r => .activity r
    | .cleanupIdleTunnels => .cleanupIdleTunnels
    | .close => .close
  exec := RelayTable.exec

end MeshDesk.Mesh
