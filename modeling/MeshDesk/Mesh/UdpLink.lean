import MeshDesk.Mesh.UdpConn

/-! Two connected endpoints and the network between them. Every datagram ever sent may arrive any number of times, in
any order, or never. The histories record what was sent, the payloads of the frames in the order of their numbers, the
bytes that `Read` returned, and the data frames that arrived. -/
namespace MeshDesk.Mesh
open Lib
open Proxy (Bytes)

structure Endpoint where
  conn : UdpConn
  sent : List Bytes
  framed : List Bytes
  got : Bytes
  received : List UInt32

def newEndpoint : Endpoint := ⟨newUDPStreamConn, [], [], [], []⟩

inductive UdpStep where
  | deliver (i : ℕ)
  | write (p : Bytes)
  | writeOn (now : ℤ) (socketOk : Bool) (event : UdpConn.WindowEvent)
  | takeAck
  | advanceBase
  | retransmit (due : List UInt32)
  | ackExpire
  | ackFire
  | read (n : ℕ) (pick : UdpConn.ReadPick)
  | probe
  | close
  deriving DecidableEq, Repr

def arrivedSeq (data : Bytes) : List UInt32 :=
  if udpFrameHeaderLen ≤ data.length ∧ frameType data = udpFrameTypeData ∧ frameSeq data ≠ probeSeq ∧
      framePlen data ≤ data.length - udpFrameHeaderLen then [frameSeq data]
  else []

def UdpOutput.bytes (out : UdpOutput) : Bytes :=
  match out.read with
  | some (.ok bs) => bs
  | _ => []

namespace Endpoint

def after (e : Endpoint) (r : UdpConn × UdpOutput) : Endpoint :=
  { e with
    conn := r.1
    sent := e.sent ++ r.2.sent
    framed := e.framed ++ r.2.framed
    got := e.got ++ r.2.bytes }

def step (e : Endpoint) (peerSent : List Bytes) : UdpStep → Endpoint
  | .deliver i =>
    match peerSent[i]? with
    | none => e
    | some data =>
      { e.after ((e.conn.handlePacket data).1, .sends (e.conn.handlePacket data).2) with
        received := e.received ++ arrivedSeq data }
  | .write p => e.after (e.conn.write p)
  | .writeOn now socketOk event => e.after (e.conn.writeOn now socketOk event)
  | .takeAck => e.after (e.conn.takeAck, .quiet)
  | .advanceBase => e.after (e.conn.advanceBase, .quiet)
  | .retransmit due => e.after (e.conn.retransmit due)
  | .ackExpire => e.after (e.conn.ackExpire, .quiet)
  | .ackFire => e.after e.conn.ackFire
  | .read n pick => e.after (e.conn.readOnce n pick)
  | .probe => e.after (e.conn, if e.conn.done then .quiet else .sends [probeFrame.encode])
  | .close => e.after e.conn.close

end Endpoint

inductive Side where
  | left
  | right
  deriving DecidableEq, Repr

structure UdpPair where
  left : Endpoint
  right : Endpoint

namespace UdpPair

def step (p : UdpPair) : Side × UdpStep → UdpPair
  | (.left, s) => { p with left := p.left.step p.right.sent s }
  | (.right, s) => { p with right := p.right.step p.left.sent s }

def run (p : UdpPair) (steps : List (Side × UdpStep)) : UdpPair := steps.foldl step p

end UdpPair

def newUdpPair : UdpPair := ⟨newEndpoint, newEndpoint⟩

/-! ### What a connection sends -/

inductive Genuine (framed : List Bytes) : Bytes → Prop
  | data {seq : UInt32} {payload : Bytes} (ack : UInt32) (hframed : framed[seq.toNat]? = some payload)
      (hlen : payload.length ≤ udpPayloadLarge) : Genuine framed (UdpFrame.mk udpFrameTypeData seq ack payload).encode
  | ack (seq : UInt32) : Genuine framed (ackFrame seq).encode
  | fin (seq : UInt32) : Genuine framed (finFrame seq).encode
  | probe : Genuine framed probeFrame.encode

theorem Genuine.mono {framed : List Bytes} {d : Bytes} (h : Genuine framed d) (more : List Bytes) :
    Genuine (framed ++ more) d := by
  cases h with
  | data ack hframed hlen =>
    refine .data ack ?_ hlen
    rw [List.getElem?_append_left (List.getElem?_eq_some_iff.mp hframed).1]
    exact hframed
  | ack seq => exact .ack seq
  | fin seq => exact .fin seq
  | probe => exact .probe

/-- The sending half: numbers follow the frames, and what is kept or was sent is genuine. -/
structure Sends (conn : UdpConn) (framed sent : List Bytes) : Prop where
  next : conn.nextSeq.toNat = framed.length
  size : conn.payloadSize ≤ udpPayloadLarge
  inflight : ∀ seq frame, conn.inflight.lookup seq = some frame → ∃ ack payload, framed[seq.toNat]? = some payload ∧
    payload.length ≤ udpPayloadLarge ∧ frame = (UdpFrame.mk udpFrameTypeData seq ack payload).encode
  sent : ∀ d ∈ sent, Genuine framed d

/-- The receiving half against the frames of the peer: what is buffered is theirs, and what was read
and is about to be read are the first of them. -/
structure Receives (conn : UdpConn) (framed : List Bytes) (got : Bytes) : Prop where
  buffered : ∀ seq payload, conn.recvBuf.lookup seq = some payload → framed[seq.toNat]? = some payload
  next : conn.recvNext.toNat ≤ framed.length
  delivered : got ++ conn.readBuf = (framed.take conn.recvNext.toNat).flatten

theorem sends_new : Sends newUDPStreamConn [] [] where
  next := rfl
  size := by decide
  inflight := fun seq frame h => by
    rw [newUDPStreamConn, AList.lookup_empty] at h
    cases h
  sent := nofun

theorem receives_new : Receives newUDPStreamConn [] [] where
  buffered := fun seq payload h => by
    rw [newUDPStreamConn, AList.lookup_empty] at h
    cases h
  next := le_refl 0
  delivered := rfl

theorem Receives.mono {conn : UdpConn} {framed : List Bytes} {got : Bytes} (h : Receives conn framed got)
    (more : List Bytes) : Receives conn (framed ++ more) got where
  buffered := fun seq payload hl => by
    have hget := h.buffered seq payload hl
    rw [List.getElem?_append_left (List.getElem?_eq_some_iff.mp hget).1]
    exact hget
  next := by
    rw [List.length_append]
    exact h.next.trans (Nat.le_add_right _ _)
  delivered := by
    rw [List.take_append_of_le_length h.next]
    exact h.delivered

end MeshDesk.Mesh
