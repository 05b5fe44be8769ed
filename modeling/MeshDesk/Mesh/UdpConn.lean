import MeshDesk.Mesh.UdpFrame

/-! `udpStreamConn`: a byte stream over datagrams with sequence numbers, cumulative acknowledgements and
retransmission. A step is what one goroutine does under one lock. The clock appears where the code compares times: in
a write, and in the choice of the frames that are due. -/
namespace MeshDesk.Mesh
open Lib
open Proxy (Bytes)

def udpPayloadProbeInterval : ℤ := 60

def ackRecvCap : ℕ := 4096

inductive UdpError where
  | closed
  | writeTimeout (unacked : ℕ)
  | socket
  | eof
  deriving DecidableEq, Repr

def UdpError.text : UdpError → String
  | .closed => "udp stream: closed"
  | .writeTimeout unacked => s!"udp stream: write timeout ({unacked} frames unacked)"
  | .socket => "socket error"
  | .eof => "EOF"

/-- A `Write` under way: what is left, the bytes framed so far, and whether it waits for the window. -/
structure Writing where
  rest : Bytes
  total : ℕ
  waiting : Bool
  deriving DecidableEq, Repr

/-- `held` is an acknowledgement that `recvLoop` has taken off `ackRecv` while it waits for `sendMu`.
`stuck` says that a goroutine holding `sendMu` waits for it: `retransmitLocked` has called `Close`.
`ackFiring` counts delayed-ACK timers that went off and have not run yet. -/
structure UdpConn where
  nextSeq : UInt32
  baseSeq : UInt32
  inflight : Map UInt32 Bytes
  ackRecv : List UInt32
  held : Option UInt32
  closed : Bool
  stuck : Bool
  payloadSize : ℕ
  lastProbeAt : Option ℤ
  probePending : Bool
  writing : Option Writing
  recvBuf : Map UInt32 Bytes
  recvNext : UInt32
  readBuf : Bytes
  ackPending : UInt32
  ackCount : ℕ
  ackTimer : Bool
  ackFiring : ℕ
  finRecv : Bool
  done : Bool

def newUDPStreamConn : UdpConn where
  nextSeq := 0
  baseSeq := 0
  inflight := ∅
  ackRecv := []
  held := none
  closed := false
  stuck := false
  payloadSize := udpMaxPayload
  lastProbeAt := none
  probePending := false
  writing := none
  recvBuf := ∅
  recvNext := 0
  readBuf := []
  ackPending := 0
  ackCount := 0
  ackTimer := false
  ackFiring := 0
  finRecv := false
  done := false

/-- What a step shows to the outside: datagrams sent, a payload put into a new frame, the result of a
`Write` or a `Read` that returns. -/
structure UdpOutput where
  sent : List Bytes
  framed : List Bytes
  wrote : Option (ℕ × Option UdpError)
  read : Option (Except UdpError Bytes)

def UdpOutput.quiet : UdpOutput := ⟨[], [], none, none⟩

def UdpOutput.sends (sent : List Bytes) : UdpOutput := ⟨sent, [], none, none⟩

def ackFrame (seq : UInt32) : UdpFrame := ⟨udpFrameTypeAck, 0, seq, []⟩

def finFrame (seq : UInt32) : UdpFrame := ⟨udpFrameTypeFin, 0, seq, []⟩

def probeFrame : UdpFrame := ⟨udpFrameTypeData, probeSeq, 0, [0x50, 0x4A]⟩

/-- Walk the boundary forward over buffered frames. Each iteration moves to another key of the buffer,
so its size bounds them. -/
def walkAck (recvBuf : Map UInt32 Bytes) : ℕ → UInt32 → UInt32
  | 0, ackPending => ackPending
  | fuel + 1, ackPending =>
    if (recvBuf.lookup (nextSeqAfter ackPending)).isSome then walkAck recvBuf fuel (nextSeqAfter ackPending)
    else ackPending

namespace UdpConn

variable (sc : UdpConn) (seq : UInt32)

def sendFree : Bool := sc.writing.isNone && !sc.stuck

/-! ### Sending -/

/-- The chunk size for the next frame, and whether the frame is a probe for a larger one. -/
def chunkSize (rest : Bytes) (now : ℤ) : ℕ × Bool :=
  let size := if rest.length < udpPayloadLarge then udpMaxPayload else sc.payloadSize
  let due := sc.lastProbeAt.all (fun last => decide (udpPayloadProbeInterval ≤ now - last))
  if size < udpPayloadLarge ∧ sc.probePending = false ∧ udpPayloadLarge ≤ rest.length ∧ due = true then
    (udpPayloadLarge, true)
  else (size, false)

/-- One iteration of the loop of `Write` up to the wait for the window. The frame is in `inflight` also
when the socket refuses it. -/
def frameChunk (w : Writing) (now : ℤ) (socketOk : Bool) : UdpConn × UdpOutput :=
  let chunk := w.rest.take (sc.chunkSize w.rest now).1
  let probes := (sc.chunkSize w.rest now).2
  let frame := (UdpFrame.mk udpFrameTypeData sc.nextSeq sc.baseSeq chunk).encode
  let sc := { sc with
    nextSeq := nextSeqAfter sc.nextSeq
    inflight := sc.inflight.insert sc.nextSeq frame
    probePending := probes || sc.probePending
    lastProbeAt := if probes then some now else sc.lastProbeAt }
  if socketOk then
    ({ sc with writing := some ⟨w.rest.drop chunk.length, w.total + chunk.length, true⟩ },
      ⟨[frame], [chunk], none, none⟩)
  else ({ sc with writing := none }, ⟨[], [chunk], some (w.total, some .socket), none⟩)

def isLarge (frame : Bytes) : Bool := decide (udpFrameHeaderLen + udpMaxPayload < frame.length)

/-- Remove the acknowledged frames and move the base. An acknowledged probe settles the large payload. -/
def ackLocked (ack : UInt32) : UdpConn :=
  let upgraded := sc.probePending &&
    sc.inflight.entries.any (fun e => !seqBefore ack e.1 && isLarge e.2)
  { sc with
    payloadSize := if upgraded then udpPayloadLarge else sc.payloadSize
    probePending := if upgraded then false else sc.probePending
    inflight := sc.inflight.filterKeys (fun seq => seqBefore ack seq)
    baseSeq := if seqBefore ack sc.baseSeq then sc.baseSeq else nextSeqAfter ack }

/-- Resend the frames that are due, in the order the map gives them. A probe that is due makes it call
`Close`, which waits for the lock that is held unless it has been called before. -/
def retransmitLocked (sc : UdpConn) : List UInt32 → UdpConn × List Bytes
  | [] => (sc, [])
  | seq :: due =>
    match sc.inflight.lookup seq with
    | none => sc.retransmitLocked due
    | some frame =>
      if sc.probePending && isLarge frame then ({ sc with stuck := !sc.closed }, [])
      else ((sc.retransmitLocked due).1, frame :: (sc.retransmitLocked due).2)

inductive WindowEvent where
  | ack
  | done
  | rto (due : List UInt32)
  | timeout
  deriving DecidableEq, Repr

def windowWait (w : Writing) (event : WindowEvent) : UdpConn × UdpOutput :=
  if sc.inflight.size < udpWindowSize then ({ sc with writing := some { w with waiting := false } }, .quiet)
  else
    match event with
    | .timeout =>
      ({ sc with writing := none }, ⟨[], [], some (w.total, some (.writeTimeout sc.inflight.size)), none⟩)
    | .done =>
      if sc.done then ({ sc with writing := none }, ⟨[], [], some (w.total, some .closed), none⟩)
      else (sc, .quiet)
    | .ack =>
      match sc.ackRecv with
      | [] => (sc, .quiet)
      | ack :: rest => ({ sc with ackRecv := rest }.ackLocked ack, .quiet)
    | .rto due => ((sc.retransmitLocked due).1, .sends (sc.retransmitLocked due).2)

def writeOn (now : ℤ) (socketOk : Bool) (event : WindowEvent) : UdpConn × UdpOutput :=
  if sc.stuck then (sc, .quiet)
  else
    match sc.writing with
    | none => (sc, .quiet)
    | some w =>
      if w.waiting then sc.windowWait w event
      else if w.rest = [] then ({ sc with writing := none }, ⟨[], [], some (w.total, none), none⟩)
      else sc.frameChunk w now socketOk

def write (p : Bytes) : UdpConn × UdpOutput :=
  if sc.sendFree then
    if sc.closed then (sc, ⟨[], [], some (0, some .closed), none⟩)
    else ({ sc with writing := some ⟨p, 0, false⟩ }, .quiet)
  else (sc, .quiet)

def close : UdpConn × UdpOutput :=
  if sc.sendFree && !sc.closed then
    ({ sc with closed := true, done := true }, .sends [(finFrame sc.baseSeq).encode])
  else (sc, .quiet)

def takeAck : UdpConn :=
  match sc.held, sc.ackRecv with
  | none, ack :: rest => { sc with held := some ack, ackRecv := rest }
  | _, _ => sc

def advanceBase : UdpConn :=
  match sc.held with
  | some ack => if sc.sendFree then { sc with held := none }.ackLocked ack else sc
  | none => sc

def retransmit (due : List UInt32) : UdpConn × UdpOutput :=
  if sc.sendFree then ((sc.retransmitLocked due).1, .sends (sc.retransmitLocked due).2) else (sc, .quiet)

/-! ### Receiving -/

def countFrame : UdpConn × Option UInt32 :=
  if 2 ≤ sc.ackCount + 1 then ({ sc with ackCount := 0 }, some sc.ackPending)
  else ({ sc with ackCount := sc.ackCount + 1 }, none)

def buffer (payload : Bytes) : UdpConn :=
  if seqBefore seq sc.recvNext || (sc.recvBuf.lookup seq).isSome then sc
  else { sc with recvBuf := sc.recvBuf.insert seq payload }

def advanceAck : UdpConn :=
  let extended :=
    if seq = sc.ackPending ∨ seq = nextSeqAfter sc.ackPending then
      if seqBefore sc.ackPending seq then seq else sc.ackPending
    else sc.ackPending
  { sc with ackPending := walkAck sc.recvBuf sc.recvBuf.size extended }

def sendAcks (ack : Option UInt32) : List Bytes := ack.toList.map (fun seq => (ackFrame seq).encode)

def receiveData (payload : Bytes) : UdpConn × List Bytes :=
  let counted := ((sc.buffer seq payload).advanceAck seq).countFrame
  ({ counted.1 with ackTimer := counted.1.ackTimer || counted.2.isNone }, sendAcks counted.2)

def receiveProbe : UdpConn × List Bytes := (sc.countFrame.1, sendAcks sc.countFrame.2)

def handlePacket (data : Bytes) : UdpConn × List Bytes :=
  if data.length < udpFrameHeaderLen then (sc, [])
  else if frameType data = udpFrameTypeRawData then
    if data.length - udpFrameHeaderLen < framePlen data then (sc, [])
    else ({ sc with readBuf := sc.readBuf ++ framePayload data }, [])
  else if frameType data = udpFrameTypeData then
    if frameSeq data = probeSeq then sc.receiveProbe
    else if data.length - udpFrameHeaderLen < framePlen data then (sc, [])
    else sc.receiveData (frameSeq data) (framePayload data)
  else if frameType data = udpFrameTypeAck then
    (if sc.ackRecv.length < ackRecvCap then { sc with ackRecv := sc.ackRecv ++ [frameAck data] } else sc, [])
  else if frameType data = udpFrameTypeFin then ({ sc with finRecv := true }, [])
  else (sc, [])

def ackExpire : UdpConn :=
  if sc.ackTimer then { sc with ackTimer := false, ackFiring := sc.ackFiring + 1 } else sc

def ackFire : UdpConn × UdpOutput :=
  if sc.ackFiring = 0 then (sc, .quiet)
  else if sc.done then ({ sc with ackFiring := sc.ackFiring - 1 }, .quiet)
  else ({ sc with ackFiring := sc.ackFiring - 1, ackCount := 0 }, .sends [(ackFrame sc.ackPending).encode])

inductive ReadPick where
  | ready
  | done
  | fin
  deriving DecidableEq, Repr

/-- Hand the next frame in order to a buffer of `n` bytes. A frame that does not fit is kept in
`readBuf`, and its entry in `recvBuf` stays. -/
def readFrame (n : ℕ) (data : Bytes) : UdpConn :=
  let sc := { sc with recvNext := nextSeqAfter sc.recvNext,
                      recvBuf := if n < data.length then sc.recvBuf else sc.recvBuf.erase sc.recvNext }
  if n < data.length then { sc with readBuf := data.drop n } else sc

def readOnce (n : ℕ) (pick : ReadPick) : UdpConn × UdpOutput :=
  if sc.readBuf ≠ [] then
    ({ sc with readBuf := sc.readBuf.drop n }, ⟨[], [], none, some (.ok (sc.readBuf.take n))⟩)
  else
    match sc.recvBuf.lookup sc.recvNext with
    | some data =>
      (sc.readFrame n data, ⟨[], [], none, if data = [] then none else some (.ok (data.take n))⟩)
    | none =>
      match pick with
      | .ready => (sc, .quiet)
      | .done => (sc, ⟨[], [], none, if sc.done then some (.error .closed) else none⟩)
      | .fin => (sc, ⟨[], [], none, if sc.finRecv then some (.error .eof) else none⟩)

end UdpConn
end MeshDesk.Mesh
