import MeshDesk.Lib.Interleaving
import MeshDesk.Smux.Frame
import MeshDesk.Smux.Stream

/-! A session as its goroutines see it. Streams are objects that calls keep references to; the map `streams` finds
them by identifier. The reader goroutine and the `Close` of a stream are single threads, whose next section is part of
the state; any number of `OpenStream` and `AcceptStream` calls may be under way. -/
namespace MeshDesk.Smux
open Lib
open Proxy (Bytes)

/-- Where the `Close` of a stream is. `closeOnce` lets one call through. -/
inductive ClosePc where
  | notStarted
  | sendFin
  | removeStream
  | releaseSlot
  | closed
  deriving DecidableEq, Repr

/-- A stream object. `wasReset` records that `handleRst` has run on it to its end. -/
structure StreamObj where
  id : UInt32
  openedHere : Bool
  st : Stream
  closePc : ClosePc
  wasReset : Bool

def StreamObj.live (o : StreamObj) : Bool := decide (o.closePc ≠ .closed) && !o.wasReset

/-- Where the reader goroutine is. References are indices into `objects`. -/
inductive ReaderPc where
  | idle
  | data (ref : ℕ) (payload : Bytes)
  | synBacklog (id : UInt32)
  | synRefuse (id : UInt32)
  | synAcquire (id : UInt32)
  | synCreate (id : UInt32)
  | synAck (ref : ℕ) (id : UInt32)
  | synAccept (ref : ℕ)
  | finMark (ref : ℕ) (id : UInt32)
  | finCheck (ref : ℕ) (id : UInt32)
  | finRemove (id : UInt32)
  | rstMark (ref : ℕ) (id : UInt32)
  | rstRemove (ref : ℕ) (id : UInt32)
  | rstRelease (ref : ℕ)
  | clearStreams (stop : Bool)
  | stopped
  deriving DecidableEq, Repr

structure Session where
  cfg : Config
  clientMode : Bool
  closed : Bool
  objects : List StreamObj
  streams : Map UInt32 ℕ
  nextStreamID : UInt32
  slots : ℕ
  acceptCh : List ℕ
  written : List Frame
  reader : ReaderPc

/-- `Client` counts its streams from 1, `Server` from 2. -/
def newSession (cfg : Config) (clientMode : Bool) : Session :=
  ⟨validateConfig cfg, clientMode, false, [], ∅, if clientMode then 1 else 2, 0, [], [], .idle⟩

inductive SessionError where
  | sessionClosed
  | streamsExhausted
  | maxStreams
  | canceled
  deriving DecidableEq, Repr

def SessionError.text : SessionError → String
  | .sessionClosed => "smux: session closed"
  | .streamsExhausted => "smux: no more stream IDs available"
  | .maxStreams => "smux: max streams reached"
  | .canceled => "context canceled"

inductive StreamResult where
  | stream (ref : ℕ)
  | failed (e : SessionError)
  deriving DecidableEq, Repr

inductive SessionTask where
  | openCheck
  | openAcquire
  | openCanceled
  | openAllocate
  | openReleaseSlot
  | openSyn (ref : ℕ) (id : UInt32)
  | openRemove (id : UInt32)
  | acceptCheck
  | accept
  | readNext (f : Option Frame)
  | readOn
  | closeStream (ref : ℕ)
  | closeSession
  | clearStreams
  | done (result : StreamResult)
  deriving DecidableEq, Repr

/-- The case a `select` takes where several may be ready: the channel operation it is there for, the
caller's context, or the end of the session. A case that is not ready is not taken. -/
inductive Pick where
  | proceed
  | context
  | done
  deriving DecidableEq, Repr

namespace Session

variable (s : Session)

def numStreams : ℕ := s.streams.size

/-- A slot can be taken from `streamSlotCh`; without a limit there is none to take. -/
def slotFree : Bool := decide (s.cfg.maxStreams ≤ 0) || decide ((s.slots : ℤ) < s.cfg.maxStreams)

def takeSlot : Session := if 0 < s.cfg.maxStreams then { s with slots := s.slots + 1 } else s

def releaseSlot : Session := if 0 < s.cfg.maxStreams then { s with slots := s.slots - 1 } else s

def removeStream (id : UInt32) : Session := { s with streams := s.streams.erase id }

def write (f : Frame) : Session := { s with written := s.written ++ [f] }

def updateObject (ref : ℕ) (f : StreamObj → StreamObj) : Session :=
  { s with objects := s.objects.modify ref f }

/-- Create a stream and put it into the map, over whatever the map holds for the identifier. -/
def register (id : UInt32) (openedHere : Bool) : Session :=
  { s with
    objects := s.objects ++ [⟨id, openedHere, newStream s.cfg.writeBufferSize, .notStarted, false⟩]
    streams := s.streams.insert id s.objects.length }

/-- Signal the end of the session to every stream in the map and empty the map. -/
def clearStreams : Session :=
  { s with
    objects := s.objects.mapIdx (fun ref o =>
      if s.streams.lookup o.id = some ref then { o with st := o.st.onFin } else o)
    streams := ∅ }

/-- `dispatch`, up to the first lock that is released: control frames act on the session, the others
look their stream up. -/
def dispatch (f : Frame) : Session :=
  if f.version ≠ protocolVersion then
    { s.write (newGoAwayFrame goAwayProtocolError) with
      closed := true, reader := if s.closed then .stopped else .clearStreams true }
  else if f.streamID = 0 then
    if f.type = .syn then
      if s.clientMode then s else s.write (newSynFrame 0 true)
    else if f.type = .goAway then
      if s.closed then s else { s with closed := true, reader := .clearStreams false }
    else s
  else if f.type = .data then
    match s.streams.lookup f.streamID with
    | some ref => { s with reader := .data ref f.payload }
    | none => s
  else if f.type = .syn then
    if f.flags &&& flagAck ≠ 0 then s
    else if (s.streams.lookup f.streamID).isSome then s
    else { s with reader := .synBacklog f.streamID }
  else if f.type = .fin then
    match s.streams.lookup f.streamID with
    | some ref => { s with reader := .finMark ref f.streamID }
    | none => s
  else if f.type = .rst then
    match s.streams.lookup f.streamID with
    | some ref => { s with reader := .rstMark ref f.streamID }
    | none => s
  else s

def readNext (f : Option Frame) : Session :=
  if s.reader = .idle then
    match f with
    | some f => s.dispatch f
    | none => { s with closed := true, reader := if s.closed then .stopped else .clearStreams true }
  else s

def readOn (pick : Pick) : Session :=
  match s.reader with
  | .idle => s
  | .data ref payload =>
    { s.updateObject ref (fun o => { o with st := o.st.onData payload }) with reader := .idle }
  | .synBacklog id =>
    if s.cfg.acceptBacklog ≤ s.acceptCh.length then { s with reader := .synRefuse id }
    else { s with reader := .synAcquire id }
  | .synRefuse id => { s.write (newRstFrame id rstRefused) with reader := .idle }
  | .synAcquire id =>
    if pick = .done ∧ s.closed ∧ 0 < s.cfg.maxStreams then { s with reader := .idle }
    else if s.slotFree then { s.takeSlot with reader := .synCreate id }
    else s
  | .synCreate id => { s.register id false with reader := .synAck s.objects.length id }
  | .synAck ref id =>
    if pick = .done ∧ s.closed then { s with reader := .idle }
    else { s.write (newSynFrame id true) with reader := .synAccept ref }
  | .synAccept ref =>
    if pick = .done ∧ s.closed then { s with reader := .idle }
    else { s with acceptCh := s.acceptCh ++ [ref], reader := .idle }
  | .finMark ref id =>
    { s.updateObject ref (fun o => { o with st := o.st.onFin }) with reader := .finCheck ref id }
  | .finCheck ref id =>
    if (s.objects[ref]?).any (·.st.localClosed) then { s with reader := .finRemove id }
    else { s with reader := .idle }
  | .finRemove id => { s.removeStream id with reader := .idle }
  | .rstMark ref id =>
    { s.updateObject ref (fun o => { o with st := o.st.onRst }) with reader := .rstRemove ref id }
  | .rstRemove ref id => { s.removeStream id with reader := .rstRelease ref }
  | .rstRelease ref =>
    { s.releaseSlot.updateObject ref (fun o => { o with wasReset := true }) with reader := .idle }
  | .clearStreams stop => { s.clearStreams with reader := if stop then .stopped else .idle }
  | .stopped => s

def closeStream (ref : ℕ) : Session :=
  match s.objects[ref]? with
  | none => s
  | some o =>
    match o.closePc with
    | .notStarted =>
      s.updateObject ref (fun o => { o with st := { o.st with localClosed := true }, closePc := .sendFin })
    | .sendFin => (s.write (newFinFrame o.id)).updateObject ref (fun o => { o with closePc := .removeStream })
    | .removeStream => (s.removeStream o.id).updateObject ref (fun o => { o with closePc := .releaseSlot })
    | .releaseSlot => s.releaseSlot.updateObject ref (fun o => { o with closePc := .closed })
    | .closed => s

def exec (pick : Pick) : SessionTask → Session × List SessionTask
  | .openCheck => (s, [if s.closed then .done (.failed .sessionClosed) else .openAcquire])
  | .openAcquire =>
    if s.cfg.maxStreams ≤ 0 then (s, [.openAllocate])
    else if pick = .context then (s, [.openCanceled])
    else if pick = .done ∧ s.closed then (s, [.done (.failed .sessionClosed)])
    else if s.slotFree then (s.takeSlot, [.openAllocate])
    else (s, [.openAcquire])
  | .openCanceled => (s, [.done (.failed (if s.closed then .sessionClosed else .maxStreams))])
  | .openAllocate =>
    if maxStreamID ≤ s.nextStreamID then
      (s, [if 0 < s.cfg.maxStreams then .openReleaseSlot else .done (.failed .streamsExhausted)])
    else ({ s.register s.nextStreamID true with nextStreamID := s.nextStreamID + 2 },
      [.openSyn s.objects.length s.nextStreamID])
  | .openReleaseSlot =>
    if s.slots = 0 then (s, [.openReleaseSlot]) else (s.releaseSlot, [.done (.failed .streamsExhausted)])
  | .openSyn ref id =>
    if pick = .done ∧ s.closed then (s, [.openRemove id])
    else (s.write (newSynFrame id false), [.done (.stream ref)])
  | .openRemove id => (s.removeStream id, [.done (.failed .sessionClosed)])
  | .acceptCheck => (s, [if s.closed then .done (.failed .sessionClosed) else .accept])
  | .accept =>
    if pick = .context then (s, [.done (.failed .canceled)])
    else if pick = .done ∧ s.closed then (s, [.done (.failed .sessionClosed)])
    else
      match s.acceptCh with
      | [] => (s, [.accept])
      | ref :: rest => ({ s with acceptCh := rest }, [.done (.stream ref)])
  | .readNext f => (s.readNext f, [])
  | .readOn => (s.readOn pick, [])
  | .closeStream ref => (s.closeStream ref, [])
  | .closeSession => if s.closed then (s, []) else ({ s with closed := true }, [.clearStreams])
  | .clearStreams => ({ s with written := s.written ++ [newGoAwayFrame goAwayNormal] }.clearStreams, [])
  | .done _ => (s, [])

end Session

/-- What may happen next to a session: a call, the reader's next frame or section, the next section
of a stream's `Close`. -/
inductive SessionCall where
  | openStream
  | acceptStream
  | readNext (f : Option Frame)
  | readOn
  | closeStream (ref : ℕ)
  | close
  deriving DecidableEq, Repr

def SessionCall.start : SessionCall → SessionTask
  | .openStream => .openCheck
  | .acceptStream => .acceptCheck
  | .readNext f => .readNext f
  | .readOn => .readOn
  | .closeStream ref => .closeStream ref
  | .close => .closeSession

def sessionSections : Sections Session Pick SessionCall SessionTask := ⟨SessionCall.start, Session.exec⟩

def sessionRun (cfg : Config) (clientMode : Bool) (turns : List (Turn Pick SessionCall)) :
    Pool Session SessionTask :=
  sessionSections.run ⟨newSession cfg clientMode, []⟩ turns

namespace Session
variable (s : Session)

theorem exists_takeSlot_eq : ∃ n, s.takeSlot = { s with slots := n } := by
  unfold takeSlot
  split_ifs
  · exact ⟨s.slots + 1, rfl⟩
  · exact ⟨s.slots, rfl⟩

theorem exists_releaseSlot_eq : ∃ n, s.releaseSlot = { s with slots := n } := by
  unfold releaseSlot
  split_ifs
  · exact ⟨s.slots - 1, rfl⟩
  · exact ⟨s.slots, rfl⟩

@[simp] theorem releaseSlot_cfg : s.releaseSlot.cfg = s.cfg := by
  obtain ⟨n, hn⟩ := s.exists_releaseSlot_eq
  rw [hn]

@[simp] theorem takeSlot_cfg : s.takeSlot.cfg = s.cfg := by
  obtain ⟨n, hn⟩ := s.exists_takeSlot_eq
  rw [hn]

theorem closeStream_cfg (ref : ℕ) : (s.closeStream ref).cfg = s.cfg := by
  unfold closeStream
  split
  · rfl
  · split <;> first | rfl | simp [updateObject]

end Session

end MeshDesk.Smux
