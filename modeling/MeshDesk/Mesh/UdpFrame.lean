import MeshDesk.Lib.Bytes
import MeshDesk.Proxy.Chunk

/-! Frames and sequence numbers of the ARQ layer over UDP. -/
namespace MeshDesk.Mesh
open Lib
open Proxy (Bytes)

def udpFrameTypeData : UInt8 := 0x01

def udpFrameTypeAck : UInt8 := 0x02

def udpFrameTypeFin : UInt8 := 0x03

def udpFrameTypeRawData : UInt8 := 0x04

def udpFrameHeaderLen : ℕ := 11

def udpMaxPayload : ℕ := 40

def udpPayloadLarge : ℕ := 1200

def udpWindowSize : ℕ := 128

def udpMaxSeq : UInt32 := 0x40000000

/-- The sequence number of probes; no data frame has it. -/
def probeSeq : UInt32 := 0xFFFFFFFF

def meshInternalMarker : UInt8 := 0x4D

def tunUDPMarker : UInt8 := 0x54

/-! ### Sequence numbers -/

def nextSeqAfter (seq : UInt32) : UInt32 := (seq + 1) % udpMaxSeq

/-- Go's remainder takes the sign of the dividend. -/
def seqBefore (a b : UInt32) : Bool :=
  let diff := ((b.toNat : ℤ) - a.toNat).tmod udpMaxSeq.toNat
  let diff := if diff < 0 then diff + udpMaxSeq.toNat else diff
  decide (diff ≠ 0) && decide (diff < udpMaxSeq.toNat / 2)

theorem udpMaxSeq_toNat : udpMaxSeq.toNat = 2 ^ 30 := rfl

theorem nextSeqAfter_toNat_mod (seq : UInt32) : (nextSeqAfter seq).toNat = (seq.toNat + 1) % 2 ^ 30 := by
  have h1 : UInt32.toNat 1 = 1 := rfl
  rw [nextSeqAfter, UInt32.toNat_mod, UInt32.toNat_add, udpMaxSeq_toNat, h1]
  omega

theorem nextSeqAfter_toNat {seq : UInt32} (h : seq.toNat + 1 < 2 ^ 30) :
    (nextSeqAfter seq).toNat = seq.toNat + 1 := by
  rw [nextSeqAfter_toNat_mod, Nat.mod_eq_of_lt h]

theorem tmod_of_abs_lt {x : ℤ} {m : ℕ} (hlo : -m < x) (hhi : x < m) : x.tmod m = x := by
  by_cases hx : 0 ≤ x
  · exact Int.tmod_eq_of_lt hx hhi
  · have hneg : (-x).tmod m = -x := Int.tmod_eq_of_lt (by omega) (by omega)
    rw [Int.neg_tmod] at hneg
    omega

theorem seqBefore_iff_of_lt {a b : UInt32} (ha : a.toNat < 2 ^ 30) (hb : b.toNat < 2 ^ 30) :
    seqBefore a b = true ↔ a.toNat < b.toNat ∧ b.toNat < a.toNat + 2 ^ 29 ∨ b.toNat + 2 ^ 29 < a.toNat := by
  have hmod : ((b.toNat : ℤ) - a.toNat).tmod ((2 ^ 30 : ℕ) : ℤ) = (b.toNat : ℤ) - a.toNat :=
    tmod_of_abs_lt (by omega) (by omega)
  rw [seqBefore, udpMaxSeq_toNat, hmod]
  simp only [Bool.and_eq_true, decide_eq_true_eq]
  split_ifs with hneg <;> omega

theorem seqBefore_iff {a b : UInt32} (ha : a.toNat < 2 ^ 29) (hb : b.toNat < 2 ^ 29) :
    seqBefore a b = true ↔ a.toNat < b.toNat := by
  rw [seqBefore_iff_of_lt (by omega) (by omega)]
  omega

theorem seqBefore_next {a b : UInt32} (ha : a.toNat < 2 ^ 30) (hb : b.toNat < 2 ^ 30) (hne : a ≠ b)
    (h : seqBefore a b = false) : seqBefore a (nextSeqAfter b) = false := by
  have hnext := nextSeqAfter_toNat_mod b
  have hne' : a.toNat ≠ b.toNat := fun heq => hne (UInt32.toNat_inj.mp heq)
  rw [Bool.eq_false_iff, ne_eq, seqBefore_iff_of_lt ha (by omega)]
  rw [Bool.eq_false_iff, ne_eq, seqBefore_iff_of_lt ha hb] at h
  omega

/-! ### Frames -/

/-- The fields of a frame. The length field is that of the payload, cut to 16 bits. -/
structure UdpFrame where
  type : UInt8
  seq : UInt32
  ack : UInt32
  payload : Bytes
  deriving DecidableEq, Repr

def UdpFrame.encode (f : UdpFrame) : Bytes :=
  [f.type] ++ (toBE 4 f.seq.toNat ++ (toBE 4 f.ack.toNat ++ (toBE 2 f.payload.length ++ f.payload)))

variable (data : Bytes)

def frameType : UInt8 := data.headD 0

def frameSeq : UInt32 := UInt32.ofNat (ofBE ((data.drop 1).take 4))

def frameAck : UInt32 := UInt32.ofNat (ofBE ((data.drop 5).take 4))

def framePlen : ℕ := ofBE ((data.drop 9).take 2)

def framePayload : Bytes := (data.drop udpFrameHeaderLen).take (framePlen data)

section Encode
variable (f : UdpFrame)

theorem encode_length : f.encode.length = udpFrameHeaderLen + f.payload.length := by
  simp [UdpFrame.encode, udpFrameHeaderLen]
  omega

theorem frameType_encode : frameType f.encode = f.type := rfl

theorem frameSeq_encode : frameSeq f.encode = f.seq := by
  have hdrop : (f.encode.drop 1).take 4 = toBE 4 f.seq.toNat := List.take_left' (toBE_length 4 _)
  rw [frameSeq, hdrop, ofBE_toBE_of_lt f.seq.toNat_lt, UInt32.ofNat_toNat]

theorem encode_drop_seq : f.encode.drop 5 = toBE 4 f.ack.toNat ++ (toBE 2 f.payload.length ++ f.payload) := by
  have hsplit : f.encode = ([f.type] ++ toBE 4 f.seq.toNat) ++
      (toBE 4 f.ack.toNat ++ (toBE 2 f.payload.length ++ f.payload)) := by simp [UdpFrame.encode]
  rw [hsplit]
  exact List.drop_left' (by simp)

theorem encode_drop_ack : f.encode.drop 9 = toBE 2 f.payload.length ++ f.payload := by
  rw [show 9 = 5 + 4 from rfl, ← List.drop_drop, encode_drop_seq]
  exact List.drop_left' (toBE_length 4 _)

theorem encode_drop_header : f.encode.drop udpFrameHeaderLen = f.payload := by
  rw [show udpFrameHeaderLen = 9 + 2 from rfl, ← List.drop_drop, encode_drop_ack]
  exact List.drop_left' (toBE_length 2 _)

theorem frameAck_encode : frameAck f.encode = f.ack := by
  rw [frameAck, encode_drop_seq, List.take_left' (toBE_length 4 _), ofBE_toBE_of_lt f.ack.toNat_lt,
    UInt32.ofNat_toNat]

theorem framePlen_encode (h : f.payload.length < 65536) : framePlen f.encode = f.payload.length := by
  rw [framePlen, encode_drop_ack, List.take_left' (toBE_length 2 _), ofBE_toBE_of_lt h]

theorem framePayload_encode (h : f.payload.length < 65536) : framePayload f.encode = f.payload := by
  rw [framePayload, framePlen_encode f h, encode_drop_header, List.take_length]

end Encode
end MeshDesk.Mesh
