import MeshDesk.Lib.Interleaving

/-! The sessions of one peer and the goroutines that watch them and reconnect. Sessions and trackers are
numbered as they are created. Each lock section and each wait of `handleConnection`, the dials,
`watchSession` and `reconnectLoop` is a section of its own. -/
namespace MeshDesk.Mesh
open Lib

/-- Durations in nanoseconds. `maxAttempts` 0 means no limit. -/
structure ReconnectConfig where
  initialDelay : ℕ
  maxDelay : ℕ
  maxAttempts : ℕ
  deriving DecidableEq, Repr

def defaultReconnectConfig : ReconnectConfig where
  initialDelay := 2000000000
  maxDelay := 60000000000
  maxAttempts := 0

namespace ReconnectConfig
variable (cfg : ReconnectConfig)

def backoff (delay : ℕ) : ℕ := if cfg.maxDelay < delay * 3 / 2 then cfg.maxDelay else delay * 3 / 2

end ReconnectConfig

/-- The entries of the node's maps for one peer. -/
structure PeerSessions where
  sessions : Option ℕ
  clientSessions : Option ℕ
  created : ℕ
  closed : List ℕ
  reconnectState : Option ℕ
  trackers : ℕ
  cancelled : List ℕ
  shuttingDown : Bool
  deriving DecidableEq, Repr

def newPeerSessions : PeerSessions := ⟨none, none, 0, [], none, 0, [], false⟩

/-- Where a watcher is. `removing` says whether `startSessionWatcher` is called after the tracker is
removed. -/
inductive WatchPoint where
  | begin
  | waiting (sess : ℕ)
  | lost (sess : ℕ)
  | cleaning (sess : ℕ)
  | delaying (attempt delay : ℕ)
  | checking (attempt delay : ℕ)
  | trying (attempt delay : ℕ)
  | removing (rearm : Bool)
  deriving DecidableEq, Repr

/-- What is left of a goroutine. `inboundReplaced` and `closing` hold the session that was replaced;
`closing` also says whether the dial opens a stream before it starts the watcher. -/
inductive WatchSection where
  | inbound
  | inboundReplaced (old : ℕ)
  | outbound (udp : Bool)
  | closing (old : ℕ) (opens : Bool)
  | opening
  | startWatcher
  | die (sess : ℕ)
  | cleanupDead
  | stopWatcher
  | watch (tracker : ℕ) (point : WatchPoint)
  deriving DecidableEq, Repr

/-- Calls from outside: a handshake that completes, inbound or outbound (over the UDP data plane or
not), a session that dies, and the two clean-ups of the node. -/
inductive WatchCall where
  | inbound
  | outbound (udp : Bool)
  | die (sess : ℕ)
  | cleanupDeadSessions
  | stopReconnectWatcher
  deriving DecidableEq, Repr

def WatchCall.start : WatchCall → WatchSection
  | .inbound => .inbound
  | .outbound udp => .outbound udp
  | .die sess => .die sess
  | .cleanupDeadSessions => .cleanupDead
  | .stopReconnectWatcher => .stopWatcher

namespace PeerSessions
variable (s : PeerSessions)

def isClosed (sess : ℕ) : Bool := s.closed.contains sess

def Live (sess : ℕ) : Prop := sess < s.created ∧ s.isClosed sess = false

def getWatchableSession : Option ℕ := s.clientSessions.or s.sessions

def hasActiveSession : Bool :=
  s.clientSessions.any (fun sess => !s.isClosed sess) || s.sessions.any (fun sess => !s.isClosed sess)

def kill (sess : ℕ) : PeerSessions := { s with closed := sess :: s.closed }

def cleanupDeadSession (dead : ℕ) : PeerSessions :=
  { s with
    sessions := if s.sessions = some dead then none else s.sessions
    clientSessions := if s.clientSessions = some dead then none else s.clientSessions }

def cleanupDeadSessions : PeerSessions :=
  { s with
    sessions := s.sessions.filter (fun sess => !s.isClosed sess)
    clientSessions := s.clientSessions.filter (fun sess => !s.isClosed sess) }

/-- A tracker that exists is left alone. -/
def startSessionWatcher : PeerSessions × List WatchSection :=
  if s.reconnectState.isSome then (s, [])
  else ({ s with reconnectState := some s.trackers, trackers := s.trackers + 1 }, [.watch s.trackers .begin])

def removeReconnectTracker : PeerSessions := { s with reconnectState := none }

def stopReconnectWatcher : PeerSessions :=
  match s.reconnectState with
  | none => s
  | some tracker => { s with reconnectState := none, cancelled := tracker :: s.cancelled }

/-- `handleConnection` stores the session; only `sessions` changes. -/
def registerInbound : PeerSessions × List WatchSection :=
  ({ s with sessions := some s.created, created := s.created + 1 },
    match s.sessions with
    | none => [.startWatcher]
    | some old => [.inboundReplaced old])

/-- `Dial`, `DialUDPPeer` and `DialPeerByEndpoint` store the session in both maps. `DialUDPPeer` starts
the watcher before it opens a stream, the others after. -/
def registerOutbound (udp : Bool) : PeerSessions × List WatchSection :=
  ({ s with sessions := some s.created, clientSessions := some s.created, created := s.created + 1 },
    match s.sessions with
    | none => if udp then [.startWatcher] else [.opening]
    | some old => [.closing old (!udp)])

end PeerSessions

/-- The head of the loop of `reconnectLoop`: count the attempt and give up after the last one. -/
def nextAttempt (cfg : ReconnectConfig) (attempt delay : ℕ) : WatchPoint :=
  if 0 < cfg.maxAttempts ∧ cfg.maxAttempts < attempt + 1 then .removing false else .delaying (attempt + 1) delay

/-- A turn of a watcher. The input decides what is open: which of two ready channels a select takes,
whether the timer has gone off, and the result of `tryReconnect`. Its dials are outbound calls like
any others. -/
def watchSession (cfg : ReconnectConfig) (s : PeerSessions) (input : Bool) (tracker : ℕ) :
    WatchPoint → PeerSessions × List WatchSection
  | .begin =>
    match s.getWatchableSession with
    | none => (s, [.watch tracker (.removing false)])
    | some sess => (s, [.watch tracker (.waiting sess)])
  | .waiting sess =>
    if s.isClosed sess = true ∧ (input = true ∨ s.cancelled.contains tracker = false) then
      (s, [.watch tracker (.lost sess)])
    else if s.cancelled.contains tracker then (s, [.watch tracker (.removing false)])
    else (s, [.watch tracker (.waiting sess)])
  | .lost sess =>
    if s.shuttingDown then (s, [.watch tracker (.removing false)]) else (s, [.watch tracker (.cleaning sess)])
  | .cleaning sess => (s.cleanupDeadSession sess, [.watch tracker (nextAttempt cfg 0 cfg.initialDelay)])
  | .delaying attempt delay =>
    if input then (s, [.watch tracker (.checking attempt delay)])
    else if s.cancelled.contains tracker then (s, [.watch tracker (.removing false)])
    else (s, [.watch tracker (.delaying attempt delay)])
  | .checking attempt delay =>
    if s.hasActiveSession then (s, [.watch tracker (.removing false)])
    else (s, [.watch tracker (.trying attempt delay)])
  | .trying attempt delay =>
    if input then (s, [.watch tracker (.removing true)])
    else (s, [.watch tracker (nextAttempt cfg attempt (cfg.backoff delay))])
  | .removing rearm => (s.removeReconnectTracker, if rearm then [.startWatcher] else [])

/-- A turn of a goroutine. In `opening` the input is the result of opening a stream: a dial that fails
there returns without starting the watcher. -/
def WatchSection.exec (s : PeerSessions) (input : Bool) : WatchSection → PeerSessions × List WatchSection
  | .inbound => s.registerInbound
  | .inboundReplaced old => (s, if s.clientSessions = some old then [.startWatcher] else [.closing old false])
  | .outbound udp => s.registerOutbound udp
  | .closing old opens => (s.kill old, if opens then [.opening] else [.startWatcher])
  | .opening => (s, if input then [.startWatcher] else [])
  | .startWatcher => s.startSessionWatcher
  | .die sess => (if sess < s.created then s.kill sess else s, [])
  | .cleanupDead => (s.cleanupDeadSessions, [])
  | .stopWatcher => (s.stopReconnectWatcher, [])
  | .watch tracker point => watchSession defaultReconnectConfig s input tracker point

def watchSections : Sections PeerSessions Bool WatchCall WatchSection where
  start := WatchCall.start
  exec := WatchSection.exec

namespace WatchSection

def starts : WatchSection → Bool
  | .inboundReplaced _ | .closing _ _ | .opening | .startWatcher => true
  | _ => false

def closes : WatchSection → Option ℕ
  | .inboundReplaced old | .closing old _ => some old
  | _ => none

/-- A step of a watcher, or of a goroutine that is about to start one, can be taken. A watcher that waits
for a live session cannot move; a new session, a death or a clean-up is not a watcher's step. -/
def watcherStep (s : PeerSessions) : WatchSection → Bool
  | .watch tracker (.waiting sess) => s.isClosed sess || s.cancelled.contains tracker
  | .watch _ _ => true
  | u => u.starts

end WatchSection

def Quiet (p : Pool PeerSessions WatchSection) : Prop := ∀ u ∈ p.ready, u.watcherStep p.state = false

instance (p : Pool PeerSessions WatchSection) : Decidable (Quiet p) := inferInstanceAs (Decidable (∀ _ ∈ _, _))

end MeshDesk.Mesh
