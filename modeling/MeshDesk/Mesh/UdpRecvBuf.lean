import MeshDesk.Lib.Runs
import MeshDesk.Mesh.UdpDelivery

/-! What `recvBuf` holds. `Read` removes the frame it hands on only if the frame fits the reader's buffer; the rest
of a larger one goes to `readBuf`, and the whole frame stays where it is. -/
namespace MeshDesk.Mesh
open Lib
open Proxy (Bytes)

namespace Endpoint

variable (e : Endpoint) (x : List Bytes × UdpStep)

def stepAny : Endpoint := e.step x.1 x.2

def runAny (steps : List (List Bytes × UdpStep)) : Endpoint := steps.foldl stepAny e

theorem stepAny_conn :
    (∃ recvBuf readBuf ackPending ackCount ackTimer ackRecv finRecv, (e.stepAny x).conn = { e.conn with
      recvBuf := recvBuf, readBuf := readBuf, ackPending := ackPending, ackCount := ackCount, ackTimer := ackTimer,
      ackRecv := ackRecv, finRecv := finRecv }) ∨ ∃ r, (e.stepAny x).conn = r.1 ∧ e.conn.Effect x.2 r := by
  obtain ⟨i, d, hs, hd⟩ | ⟨r, heq, he⟩ := e.step_effect x.1 x.2
  · obtain ⟨_, _, _, _, _, _, _, hpacket, -⟩ := e.conn.handlePacket_fst d
    rw [stepAny, hs, e.step_deliver_some x.1 hd]
    exact .inl ⟨_, _, _, _, _, _, _, hpacket⟩
  · rw [stepAny, heq]
    exact .inr ⟨r, rfl, he⟩

theorem runAny_keeps {P : UdpConn → Prop}
    (hrecv : ∀ {sc : UdpConn}, P sc → ∀ recvBuf readBuf ackPending ackCount ackTimer ackRecv finRecv, P { sc with
      recvBuf := recvBuf, readBuf := readBuf, ackPending := ackPending, ackCount := ackCount, ackTimer := ackTimer,
      ackRecv := ackRecv, finRecv := finRecv })
    (heffect : ∀ {sc : UdpConn}, P sc → ∀ s r, sc.Effect s r → P r.1) {e : Endpoint}
    (steps : List (List Bytes × UdpStep)) (h : P e.conn) : P (e.runAny steps).conn := by
  induction steps generalizing e with
  | nil => exact h
  | cons x steps ih =>
    refine ih ?_
    obtain ⟨_, _, _, _, _, _, _, heq⟩ | ⟨r, heq, he⟩ := e.stepAny_conn x
    · exact heq ▸ hrecv h _ _ _ _ _ _ _
    · exact heq ▸ heffect h x.2 r he

/-- A data frame that arrives has a number of the space, and a `Read` has room for the frame it takes. -/
def Fits : Prop :=
  match x.2 with
  | .deliver i => ∀ d ∈ x.1[i]?, ∀ seq ∈ arrivedSeq d, seq < udpMaxSeq
  | .read n _ => e.conn.readBuf = [] → ∀ data ∈ e.conn.recvBuf.lookup e.conn.recvNext, data.length ≤ n
  | _ => True

instance (e : Endpoint) (x : List Bytes × UdpStep) : Decidable (e.Fits x) := by
  have hseqs (d : Bytes) : Decidable (∀ seq ∈ arrivedSeq d, seq < udpMaxSeq) := List.decidableBAll _ _
  obtain ⟨peerSent, _ | _⟩ := x <;> dsimp only [Fits] <;> infer_instance

end Endpoint

/-- Every frame in the buffer is at or after the next one to be read. -/
structure UdpConn.Ahead (sc : UdpConn) : Prop where
  next : sc.recvNext.toNat < 2 ^ 30
  keys : ∀ seq payload, sc.recvBuf.lookup seq = some payload →
    seq.toNat < 2 ^ 30 ∧ seqBefore seq sc.recvNext = false

namespace UdpConn.Ahead
variable {sc : UdpConn}

theorem handlePacket (h : sc.Ahead) {d : Bytes} (hd : ∀ seq ∈ arrivedSeq d, seq < udpMaxSeq) :
    (sc.handlePacket d).1.Ahead := by
  obtain ⟨recvBuf, _, _, _, _, _, _, heq, hbuf, -⟩ := sc.handlePacket_fst d
  rw [heq]
  refine ⟨h.next, fun seq payload hl => ?_⟩
  obtain rfl | ⟨harrived, hahead, rfl⟩ := hbuf
  · exact h.keys seq payload hl
  · obtain ⟨rfl, -⟩ | ⟨-, hold⟩ := Map.lookup_of_insert hl
    · have hlt := hd (frameSeq d) (harrived ▸ List.mem_cons_self)
      exact ⟨UInt32.lt_iff_toNat_lt.mp hlt, hahead⟩
    · exact h.keys seq payload hold

theorem readOnce (h : sc.Ahead) {n : ℕ} (pick : ReadPick)
    (hn : sc.readBuf = [] → ∀ data ∈ sc.recvBuf.lookup sc.recvNext, data.length ≤ n) :
    (sc.readOnce n pick).1.Ahead := by
  unfold UdpConn.readOnce
  by_cases hbuf : sc.readBuf ≠ []
  · rw [if_pos hbuf]
    exact ⟨h.next, h.keys⟩
  rw [if_neg hbuf]
  cases hl : sc.recvBuf.lookup sc.recvNext with
  | none => cases pick <;> exact h
  | some data =>
    have hfits : ¬ n < data.length := Nat.not_lt.mpr (hn (not_not.mp hbuf) data hl)
    have hnext := nextSeqAfter_toNat_mod sc.recvNext
    unfold readFrame
    simp only [hfits, if_false]
    refine ⟨by change (nextSeqAfter sc.recvNext).toNat < _; omega, fun seq payload hs => ?_⟩
    -- the frame that is handed on is removed; all others come after it
    obtain ⟨hne, hold⟩ := Map.lookup_of_erase hs
    obtain ⟨hlt, hahead⟩ := h.keys seq payload hold
    exact ⟨hlt, seqBefore_next hlt h.next hne hahead⟩

theorem stepAny {e : Endpoint} (h : e.conn.Ahead) {x : List Bytes × UdpStep} (hx : e.Fits x) :
    (e.stepAny x).conn.Ahead := by
  obtain ⟨peerSent, s⟩ := x
  obtain ⟨i, d, rfl, hd⟩ | ⟨r, heq, he⟩ := e.step_effect peerSent s
  · rw [Endpoint.stepAny, e.step_deliver_some peerSent hd]
    exact h.handlePacket (hx d hd)
  · rw [Endpoint.stepAny, heq]
    cases he with
    | frame now socketOk => cases socketOk <;> exact ⟨h.next, h.keys⟩
    | read n pick => exact h.readOnce pick hx
    | _ => exact ⟨h.next, h.keys⟩

end UdpConn.Ahead

/-- Whatever is received and read: no frame that was handed on is left in the buffer, if every `Read` has room for
the frame it takes and all numbers are of the space. -/
theorem recvBuf_undelivered (steps : List (List Bytes × UdpStep))
    (hsteps : Meets Endpoint.stepAny Endpoint.Fits newEndpoint steps) {seq : UInt32} {payload : Bytes}
    (hl : (newEndpoint.runAny steps).conn.recvBuf.lookup seq = some payload) :
    seqBefore seq (newEndpoint.runAny steps).conn.recvNext = false := by
  have hnew : newEndpoint.conn.Ahead := by
    refine ⟨by decide, fun seq payload hl => ?_⟩
    cases hl
  have hahead : (newEndpoint.runAny steps).conn.Ahead :=
    hsteps.invariant (fun e x hx h => UdpConn.Ahead.stepAny h hx) hnew
  exact (hahead.keys seq payload hl).2

def dataFrame (seq : UInt32) (payload : Bytes) : Bytes := (UdpFrame.mk udpFrameTypeData seq 0 payload).encode

/-- Frames 2 and 0 arrive, and frame 0 is read with a buffer of two bytes. -/
def readWhole : List (List Bytes × UdpStep) :=
  [([dataFrame 2 [5]], .deliver 0), ([dataFrame 0 [1, 2]], .deliver 0), ([], .read 2 .ready)]

theorem recvBuf_undelivered_readWhole :
    (newEndpoint.runAny readWhole).conn.recvNext = 1 ∧
      (newEndpoint.runAny readWhole).conn.recvBuf.lookup 2 = some [5] ∧
      seqBefore 2 (newEndpoint.runAny readWhole).conn.recvNext = false := by
  have hl : (newEndpoint.runAny readWhole).conn.recvBuf.lookup 2 = some [5] := by decide
  exact ⟨by decide, hl, recvBuf_undelivered readWhole (by decide) hl⟩

/-- With a buffer of one byte the same frame stays in the buffer after it was handed on, also when the rest of it
has been read. -/
theorem recvBuf_keeps_delivered :
    let e := newEndpoint.runAny [([dataFrame 0 [1, 2]], .deliver 0), ([], .read 1 .ready), ([], .read 1 .ready)]
    e.got = [1, 2] ∧ e.conn.readBuf = [] ∧ e.conn.recvNext = 1 ∧ e.conn.recvBuf.lookup 0 = some [1, 2] ∧
      seqBefore 0 e.conn.recvNext = true := by
  decide

end MeshDesk.Mesh
