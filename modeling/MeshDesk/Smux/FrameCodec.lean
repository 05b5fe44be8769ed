import MeshDesk.Lib.Connections
import MeshDesk.Proxy.Wire
import MeshDesk.Smux.Frame

/-! The wire format of frames: a header of 12 bytes with the length of the payload, and the payload. A frame is
read with two full reads, and refused where it announces more than the reader accepts. -/
namespace MeshDesk.Smux
open Lib List
open Proxy (Bytes readErrorText)

def headerSize : ℕ := 12

namespace Frame

/-- The length goes out as a 32-bit number. -/
def encodeHeader (f : Frame) : Bytes :=
  [f.version, f.type.byte] ++ (toBE 2 f.flags.toNat ++ (toBE 4 f.streamID.toNat ++ toBE 4 f.payload.length))

theorem encodeHeader_length (f : Frame) : f.encodeHeader.length = headerSize := by
  simp [encodeHeader, headerSize]

end Frame

def writeFrame (f : Frame) : Bytes := f.encodeHeader ++ f.payload

inductive FrameError where
  | read (e : ReadError)
  | tooLong (length : ℕ) (maxPayload : ℤ)
  deriving DecidableEq, Repr

namespace FrameError

def text : FrameError → String
  | .read e => readErrorText e
  | .tooLong length maxPayload => s!"smux: frame length {length} exceeds max {maxPayload}"

def short : FrameError → Bool
  | .read _ => true
  | .tooLong _ _ => false

end FrameError

def toUint32 (n : ℤ) : ℕ := (n % 2 ^ 32).toNat

def decodeFrame (hdr payload : Bytes) : Frame :=
  ⟨hdr.getD 0 0, ⟨hdr.getD 1 0⟩, UInt16.ofNat (ofBE (sliceAt hdr 2 2)), UInt32.ofNat (ofBE (sliceAt hdr 4 4)),
    payload⟩

def frameLength (hdr : Bytes) : ℕ := ofBE (sliceAt hdr 8 4)

variable (maxPayload : ℤ)

/-- The frame fits the limit of the reader; there is none where `maxPayload` is not positive. -/
def Accepted (length : ℕ) : Prop := 0 < maxPayload → length ≤ toUint32 maxPayload

instance (maxPayload : ℤ) (length : ℕ) : Decidable (Accepted maxPayload length) :=
  inferInstanceAs (Decidable (_ → _))

def readFrame (s : Bytes) : Except FrameError (Frame × Bytes) := do
  let (hdr, s) ← (readFull headerSize s).mapError .read
  ensure (Accepted maxPayload (frameLength hdr)) (.tooLong (frameLength hdr) maxPayload)
  let (payload, s) ← (readFull (frameLength hdr) s).mapError .read
  return (decodeFrame hdr payload, s)

def readFrameFrom : ConnParser FrameError Unit UInt8 Frame := do
  let hdr ← ConnParser.readN .read () headerSize
  ConnParser.ensure (Accepted maxPayload (frameLength hdr)) (.tooLong (frameLength hdr) maxPayload)
  let payload ← ConnParser.readN .read () (frameLength hdr)
  return decodeFrame hdr payload

theorem readFrameFrom_agrees :
    ConnParser.Agrees FrameError.short (readFrame maxPayload) (readFrameFrom maxPayload) := by
  refine (ConnParser.Agrees.readN () headerSize fun _ => rfl).bind fun hdr => ?_
  refine ConnParser.Agrees.guard rfl ?_
  refine (ConnParser.Agrees.readN () (frameLength hdr) fun _ => rfl).bind fun payload => ?_
  exact .pure _

section Headers
variable (f : Frame)

theorem frameLength_encodeHeader (hlen : f.payload.length < 2 ^ 32) :
    frameLength f.encodeHeader = f.payload.length := by
  have hslice : sliceAt f.encodeHeader 8 4 = toBE 4 f.payload.length := by
    simp [sliceAt, Frame.encodeHeader, drop_append, take_of_length_le]
  rw [frameLength, hslice, ofBE_toBE_of_lt hlen]

theorem decodeFrame_encodeHeader : decodeFrame f.encodeHeader f.payload = f := by
  have hflags : sliceAt f.encodeHeader 2 2 = toBE 2 f.flags.toNat := by
    simp [sliceAt, Frame.encodeHeader]
  have hstream : sliceAt f.encodeHeader 4 4 = toBE 4 f.streamID.toNat := by
    simp [sliceAt, Frame.encodeHeader]
  have hversion : f.encodeHeader.getD 0 0 = f.version := rfl
  have htype : f.encodeHeader.getD 1 0 = f.type.byte := rfl
  rw [decodeFrame, hflags, hstream, hversion, htype, ofBE_toBE_of_lt f.flags.toNat_lt,
    ofBE_toBE_of_lt f.streamID.toNat_lt, UInt16.ofNat_toNat, UInt32.ofNat_toNat]

theorem toBE_flags {bs : Bytes} (hlen : bs.length = 2) : toBE 2 (UInt16.ofNat (ofBE bs)).toNat = bs := by
  have hlt := ofBE_lt bs
  rw [hlen] at hlt
  rw [UInt16.toNat_ofNat_of_lt' hlt, ← toBE_of_ofBE hlen rfl]

theorem toBE_streamID {bs : Bytes} (hlen : bs.length = 4) : toBE 4 (UInt32.ofNat (ofBE bs)).toNat = bs := by
  have hlt := ofBE_lt bs
  rw [hlen] at hlt
  rw [UInt32.toNat_ofNat_of_lt' hlt, ← toBE_of_ofBE hlen rfl]

theorem encodeHeader_decodeFrame {hdr payload : Bytes} (hlen : hdr.length = headerSize)
    (hpayload : payload.length = frameLength hdr) : (decodeFrame hdr payload).encodeHeader = hdr := by
  match hdr, hlen with
  | version :: type :: fields, hlen =>
    have hfields : fields.length = 10 := by
      simp only [headerSize, length_cons] at hlen
      omega
    have hlength : toBE 4 (frameLength (version :: type :: fields)) = (fields.drop 2).drop 4 := by
      have hslice : sliceAt (version :: type :: fields) 8 4 = (fields.drop 2).drop 4 := by
        simp only [sliceAt, drop_succ_cons, drop_drop]
        exact take_of_length_le (by rw [length_drop]; omega)
      rw [frameLength, hslice]
      refine (toBE_of_ofBE ?_ rfl).symm
      rw [length_drop, length_drop]
      omega
    have hflags : (sliceAt (version :: type :: fields) 2 2).length = 2 := by
      simp only [sliceAt, drop_succ_cons, length_take, length_drop]
      omega
    have hstream : (sliceAt (version :: type :: fields) 4 4).length = 4 := by
      simp only [sliceAt, drop_succ_cons, length_take, length_drop]
      omega
    change [version, type] ++ (toBE 2 (UInt16.ofNat _).toNat ++ (toBE 4 (UInt32.ofNat _).toNat ++
      toBE 4 payload.length)) = _
    rw [toBE_flags hflags, toBE_streamID hstream, hpayload, hlength]
    simp only [sliceAt, drop_succ_cons, drop_zero, take_append_drop, cons_append, nil_append]

end Headers

/-! ### The codec -/

structure Frame.Readable (maxPayload : ℤ) (f : Frame) : Prop where
  bounded : f.payload.length < 2 ^ 32
  accepted : Accepted maxPayload f.payload.length

theorem readFrame_writeFrame {maxPayload : ℤ} {f : Frame} (h : f.Readable maxPayload) (rest : Bytes) :
    readFrame maxPayload (writeFrame f ++ rest) = .ok (f, rest) := by
  unfold readFrame
  rw [writeFrame, append_assoc, readFull_append f.encodeHeader_length]
  have hlength := frameLength_encodeHeader f h.bounded
  simp only [Except.mapError, bind, Except.bind, hlength, ensure_of h.accepted, readFull_append rfl,
    decodeFrame_encodeHeader, pure, Except.pure]

theorem readFrame_sound {maxPayload : ℤ} {s rest : Bytes} {f : Frame} (h : readFrame maxPayload s = .ok (f, rest)) :
    f.Readable maxPayload ∧ s = writeFrame f ++ rest := by
  have hread : ∀ {n : ℕ} {s a rest : Bytes}, (readFull n s).mapError FrameError.read = .ok (a, rest) →
      a.length = n ∧ s = a ++ rest := by
    intro n s a rest hr
    exact readFull_ok (mapError_eq_ok.mp hr)
  unfold readFrame at h
  simp only [bind, bind_eq_ok, ensure_eq_ok, Prod.exists, exists_const] at h
  obtain ⟨hdr, s₁, hhdr, haccepted, payload, s₂, hpayload, hret⟩ := h
  obtain ⟨hlen, rfl⟩ := hread hhdr
  obtain ⟨hplen, rfl⟩ := hread hpayload
  obtain ⟨rfl, rfl⟩ := Prod.mk.inj (Except.ok.inj hret)
  have hbounded : frameLength hdr < 2 ^ 32 := by
    refine lt_of_lt_of_le (ofBE_lt _) ?_
    exact Nat.pow_le_pow_right (by decide) (length_take_le _ _)
  refine ⟨⟨?_, ?_⟩, ?_⟩
  · exact hplen ▸ hbounded
  · exact hplen ▸ haccepted
  · rw [writeFrame, encodeHeader_decodeFrame hlen hplen, append_assoc]
    rfl

def frameCodec (maxPayload : ℤ) : FrameCodec UInt8 Frame FrameError where
  parse := readFrame maxPayload
  print := writeFrame
  valid := Frame.Readable maxPayload
  parse_print _ rest h := readFrame_writeFrame h rest
  parse_sound _ _ _ h := readFrame_sound h
  print_ne_nil f _ := by
    rw [writeFrame, Frame.encodeHeader]
    exact List.cons_ne_nil _ _

def readFrames (maxPayload : ℤ) (c : Conn UInt8) : List Frame × Option (IncomingError FrameError Unit) :=
  (readFrameFrom maxPayload).untilError ((Conn.bytes c).length + 1) c

theorem readFrames_writeFrame {maxPayload : ℤ} {fs : List Frame} (hfs : ∀ f ∈ fs, f.Readable maxPayload)
    {pieces : List Bytes} (hpieces : pieces.flatten = fs.flatMap writeFrame) :
    readFrames maxPayload (Conn.ofPieces pieces) = (fs, some (.failed (.read .eof))) := by
  have hagrees : ConnParser.Agrees FrameError.short (frameCodec maxPayload).parse (readFrameFrom maxPayload) :=
    readFrameFrom_agrees maxPayload
  have hall : (frameCodec maxPayload).parseAll ((fs.flatMap writeFrame).length + 1) (fs.flatMap writeFrame) =
      (fs, some (.read .eof)) := by
    have h := (frameCodec maxPayload).parseAll_print fs [] (.read .eof) ((fs.flatMap writeFrame).length + 1) hfs rfl
    rw [append_nil] at h
    exact h (Nat.lt_succ_self _)
  rw [readFrames, hagrees.untilError _ (Conn.later_ofPieces pieces), Conn.bytes_ofPieces, hpieces, hall]
  rfl

end MeshDesk.Smux
