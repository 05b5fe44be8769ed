import MeshDesk.Crypto.Integrity
import MeshDesk.Lib.BufReader
import MeshDesk.Smux.Multiplexing

/-! A session over a `SecureConn`. The writer puts every frame into one record; the reader goes through a
buffered reader, whose buffer is what `Read` decrypts a record into. -/
namespace MeshDesk.Smux
open Lib Crypto
open Proxy (Bytes Aead)
open List

def bufReaderSize : ℕ := 32 * 1024

/-! ### Reading -/

/-- `Read` of a `SecureConn` over what arrives there. A record that does not fit is cut and reported. -/
def secureRead (A : Aead) : ReadCall (SecureConn × List ConnItem) SecureError UInt8 := fun size s =>
  (match (s.1.read A size s.2).1 with
    | .ok p => (p, none)
    | .error (.shortBuffer copied) => (copied, some (.shortBuffer copied))
    | .error e => ([], some e),
    (s.1.read A size s.2).2)

abbrev SecureReader := BufReader (SecureConn × List ConnItem) SecureError UInt8

def unexpectedEOF : SecureError → SecureError
  | .read .eof => .read .unexpectedEOF
  | e => e

def readFullSecure (A : Aead) (fuel n : ℕ) (b : SecureReader) : Option (Except SecureError Bytes × SecureReader) :=
  b.readFull (secureRead A) bufReaderSize unexpectedEOF fuel n []

inductive SecureFrameError where
  | read (e : SecureError)
  | tooLong (length : ℕ) (maxPayload : ℤ)
  deriving DecidableEq, Repr

/-- `readFrame` on the session's reader; `none` if a full read takes more than `fuel` reads. -/
def readFrameSecure (A : Aead) (maxPayload : ℤ) (fuel : ℕ) (b : SecureReader) :
    Option (Except SecureFrameError Frame × SecureReader) :=
  match readFullSecure A fuel headerSize b with
  | none => none
  | some (.error e, b) => some (.error (.read e), b)
  | some (.ok hdr, b) =>
    if Accepted maxPayload (frameLength hdr) then
      match readFullSecure A fuel (frameLength hdr) b with
      | none => none
      | some (.error e, b) => some (.error (.read e), b)
      | some (.ok payload, b) => some (.ok (decodeFrame hdr payload), b)
    else some (.error (.tooLong (frameLength hdr) maxPayload), b)

def readFramesSecure (A : Aead) (maxPayload : ℤ) (fuel : ℕ) : ℕ → SecureReader → List Frame × Option SecureFrameError
  | 0, _ => ([], none)
  | n + 1, b =>
    match readFrameSecure A maxPayload fuel b with
    | none => ([], none)
    | some (.error e, _) => ([], some e)
    | some (.ok f, b) =>
      (f :: (readFramesSecure A maxPayload fuel n b).1, (readFramesSecure A maxPayload fuel n b).2)

/-! ### Writing -/

def secureWire (A : Aead) (sc : SecureConn) (p : Bytes) : List ConnItem :=
  (sc.sealCall p).toOption.toList.flatMap (fun c => (c.record A).items)

/-- The writer's loop over a transport that takes everything: the error of the first `writeFrame` that
fails, and what has gone out. -/
def sendFrames (A : Aead) (sc : SecureConn) : List Frame → Option SecureError × List ConnItem
  | [] => (none, [])
  | f :: fs =>
    match (sc.write (writeFrame f) none).1 with
    | .error e => (some e, [])
    | .ok _ =>
      ((sendFrames A (sc.write (writeFrame f) none).2 fs).1,
        secureWire A sc (writeFrame f) ++ (sendFrames A (sc.write (writeFrame f) none).2 fs).2)

/-- The ends of one direction: the same key, the same counter, both open. -/
structure Paired (w r : SecureConn) : Prop where
  key : r.recvKey = w.sendKey
  nonce : r.recvNonce = w.sendNonce
  writing : w.closed = false
  reading : r.closed = false

section Record
variable {A : Aead} {w r : SecureConn} {p : Bytes}

theorem sealCall_of_le (hw : w.closed = false) (hp : p.length ≤ maxMessageSize) :
    w.sealCall p = .ok ⟨w.sendKey, nonceFromUint64 w.sendNonce, p⟩ := by
  unfold SecureConn.sealCall
  rw [if_neg (Nat.not_lt.mpr hp), hw]
  rfl

theorem write_of_le (hw : w.closed = false) (hp : p.length ≤ maxMessageSize) :
    w.write p none = (.ok p.length, { w with sendNonce := w.sendNonce + 1 }) := by
  unfold SecureConn.write
  rw [sealCall_of_le hw hp]

theorem write_of_lt (hp : maxMessageSize < p.length) : w.write p none = (.error .messageTooLarge, w) := by
  unfold SecureConn.write SecureConn.sealCall
  rw [if_pos hp]

theorem Paired.next (h : Paired w r) :
    Paired { w with sendNonce := w.sendNonce + 1 } { r with recvNonce := r.recvNonce + 1 } where
  key := h.key
  nonce := by rw [h.nonce]
  writing := h.writing
  reading := h.reading

theorem secureRead_wire (h : Paired w r) (hp : p.length ≤ maxMessageSize) (size : ℕ) (rest : List ConnItem) :
    secureRead A size (r, secureWire A w p ++ rest) =
      ((p.take size, if size < p.length then some (.shortBuffer (p.take size)) else none),
        ({ r with recvNonce := r.recvNonce + 1 }, rest)) := by
  have hsealed : (A.sealBytes w.sendKey (nonceFromUint64 w.sendNonce) p []).length < 65536 := by
    rw [A.seal_length]
    unfold maxMessageSize tagSize at hp
    omega
  have hread := (SecureConn.readRecord_items
    (r := SealCall.record A ⟨w.sendKey, nonceFromUint64 w.sendNonce, p⟩) h.reading
    (by simp [SealCall.record, nonceFromUint64, nonceSize])
    ((nonceToUint64_nonceFromUint64 _).trans h.nonce.symm) hsealed rest).2
  have hwire : secureWire A w p = (SealCall.record A ⟨w.sendKey, nonceFromUint64 w.sendNonce, p⟩).items := by
    unfold secureWire
    rw [sealCall_of_le h.writing hp]
    exact append_nil _
  have hopened : SecureConn.openInto A r.recvKey size
      (SealCall.record A ⟨w.sendKey, nonceFromUint64 w.sendNonce, p⟩) =
        if size < p.length then .error (.shortBuffer (p.take size)) else .ok p := by
    unfold SecureConn.openInto SealCall.record
    rw [h.key, A.open_seal]
  unfold secureRead SecureConn.read
  rw [hwire, hread]
  dsimp only
  rw [hopened]
  split_ifs with hsize
  · rfl
  · rw [take_of_length_le (Nat.not_lt.mp hsize)]

theorem secureRead_nil (hr : r.closed = false) (size : ℕ) :
    secureRead A size (r, []) = (([], some (.read .eof)), (r, [])) := by
  unfold secureRead SecureConn.read SecureConn.readRecord SecureConn.readNonce
  rw [hr]
  rfl

end Record

section OneFrame
variable {A : Aead} {w r : SecureConn} {maxPayload : ℤ} {f : Frame}

theorem writeFrame_length (f : Frame) : (writeFrame f).length = headerSize + f.payload.length := by
  rw [writeFrame, length_append, f.encodeHeader_length]

theorem take_writeFrame (f : Frame) {n : ℕ} (hn : headerSize ≤ n) :
    (writeFrame f).take n = f.encodeHeader ++ f.payload.take (n - headerSize) := by
  rw [writeFrame, take_append, f.encodeHeader_length,
    take_of_length_le (f.encodeHeader_length.le.trans hn)]

theorem readFullSecure_header (h : Paired w r) (hp : headerSize + f.payload.length ≤ maxMessageSize)
    (rest : List ConnItem) (fuel : ℕ) :
    readFullSecure A (fuel + 1) headerSize (.new (r, secureWire A w (writeFrame f) ++ rest)) =
      some (.ok f.encodeHeader, ⟨({ r with recvNonce := r.recvNonce + 1 }, rest),
        f.payload.take (bufReaderSize - headerSize),
        if bufReaderSize < headerSize + f.payload.length then
          some (.shortBuffer ((writeFrame f).take bufReaderSize)) else none⟩) := by
  have hlen := writeFrame_length f
  have hcall := secureRead_wire (A := A) h (hlen ▸ hp) bufReaderSize rest
  have hheader : headerSize ≤ bufReaderSize := by decide
  have hfill : headerSize ≤ ((writeFrame f).take bufReaderSize).length := by
    rw [take_writeFrame f hheader, length_append, f.encodeHeader_length]
    omega
  unfold readFullSecure BufReader.new
  rw [BufReader.readFull_fill (by decide) (by decide) hfill hcall, hlen, take_writeFrame f hheader,
    take_left' f.encodeHeader_length, drop_left' f.encodeHeader_length]

theorem readFrameSecure_of_le (h : Paired w r) (hf : f.Readable maxPayload)
    (hsize : headerSize + f.payload.length ≤ bufReaderSize) (rest : List ConnItem) (fuel : ℕ) :
    readFrameSecure A maxPayload (fuel + 1) (.new (r, secureWire A w (writeFrame f) ++ rest)) =
      some (.ok f, .new ({ r with recvNonce := r.recvNonce + 1 }, rest)) := by
  have hmax : bufReaderSize ≤ maxMessageSize := by decide
  unfold readFrameSecure
  rw [readFullSecure_header h (hsize.trans hmax), if_neg (Nat.not_lt.mpr hsize)]
  dsimp only
  rw [frameLength_encodeHeader f hf.bounded, if_pos hf.accepted,
    take_of_length_le (show f.payload.length ≤ bufReaderSize - headerSize by omega), readFullSecure,
    BufReader.readFull_buffered (le_refl _)]
  dsimp only
  rw [take_length, drop_length, decodeFrame_encodeHeader]
  rfl

/-- A frame that does not fit the buffer is lost: the reader has its header and the start of its payload when it
meets the error of `Read`. -/
theorem readFrameSecure_of_lt (h : Paired w r) (hf : f.Readable maxPayload)
    (hsize : bufReaderSize < headerSize + f.payload.length)
    (hp : headerSize + f.payload.length ≤ maxMessageSize) (rest : List ConnItem) (fuel : ℕ) :
    readFrameSecure A maxPayload (fuel + 2) (.new (r, secureWire A w (writeFrame f) ++ rest)) =
      some (.error (.read (.shortBuffer ((writeFrame f).take bufReaderSize))),
        .new ({ r with recvNonce := r.recvNonce + 1 }, rest)) := by
  have hheader : headerSize < bufReaderSize := by decide
  have hlen : (f.payload.take (bufReaderSize - headerSize)).length = bufReaderSize - headerSize :=
    length_take_of_le (by omega)
  have hne : f.payload.take (bufReaderSize - headerSize) ≠ [] := by
    intro hnil
    rw [hnil, length_nil] at hlen
    omega
  unfold readFrameSecure
  rw [readFullSecure_header h hp, if_pos hsize]
  dsimp only
  rw [frameLength_encodeHeader f hf.bounded, if_pos hf.accepted, readFullSecure,
    BufReader.readFull_pending hne (by rw [hlen]; omega)]
  rfl

end OneFrame

/-! ### Runs -/

variable {A : Aead} {w : SecureConn} {fs : List Frame}

theorem sendFrames_of_le {f : Frame} (hw : w.closed = false)
    (hf : headerSize + f.payload.length ≤ maxMessageSize) :
    sendFrames A w (f :: fs) = ((sendFrames A { w with sendNonce := w.sendNonce + 1 } fs).1,
      secureWire A w (writeFrame f) ++ (sendFrames A { w with sendNonce := w.sendNonce + 1 } fs).2) := by
  rw [sendFrames, write_of_le hw ((writeFrame_length f).le.trans hf)]

theorem sendFrames_of_lt {f : Frame}
    (hf : maxMessageSize < headerSize + f.payload.length) :
    sendFrames A w (f :: fs) = (some .messageTooLarge, []) := by
  rw [sendFrames, write_of_lt (hf.trans_eq (writeFrame_length f).symm)]

theorem readFramesSecure_sendFrames {r : SecureConn} {maxPayload : ℤ} (h : Paired w r)
    (hfs : ∀ f ∈ fs, f.Readable maxPayload ∧ headerSize + f.payload.length ≤ bufReaderSize) (fuel : ℕ) :
    (sendFrames A w fs).1 = none ∧
      readFramesSecure A maxPayload (fuel + 1) (fs.length + 1) (.new (r, (sendFrames A w fs).2)) =
        (fs, some (.read (.read .eof))) := by
  induction fs generalizing w r with
  | nil =>
    refine ⟨rfl, ?_⟩
    have hframe : readFrameSecure A maxPayload (fuel + 1) (.new (r, [])) =
        some (.error (.read (.read .eof)), ⟨(r, []), [], none⟩) := by
      unfold readFrameSecure readFullSecure BufReader.new
      rw [BufReader.readFull_fill_error (by decide) (by decide) (secureRead_nil h.reading bufReaderSize)]
    unfold readFramesSecure sendFrames
    rw [hframe]
  | cons f fs ih =>
    obtain ⟨hread, hsize⟩ := hfs f mem_cons_self
    have hmax : bufReaderSize ≤ maxMessageSize := by decide
    obtain ⟨hok, hrest⟩ := ih h.next (forall_mem_cons.mp hfs).2
    rw [sendFrames_of_le h.writing (hsize.trans hmax)]
    refine ⟨hok, ?_⟩
    rw [length_cons, readFramesSecure, readFrameSecure_of_le h hread hsize]
    dsimp only
    rw [hrest]

/-- Every frame that a session emits is written without an error and read back by the peer, for as long as a
frame with its header fits the buffer of the reader. -/
theorem secureSession_read (A : Aead) (w r : SecureConn) (h : Paired w r) (size : ℤ) (turns : List MuxTurn) (fuel : ℕ)
    (hsize : ∀ f ∈ (muxRun size turns).emitted, headerSize + f.payload.length ≤ bufReaderSize) :
    (sendFrames A w (muxRun size turns).emitted).1 = none ∧
      readFramesSecure A (validateMaxFrameSize size) (fuel + 1) ((muxRun size turns).emitted.length + 1)
          (.new (r, (sendFrames A w (muxRun size turns).emitted).2)) =
        ((muxRun size turns).emitted, some (.read (.read .eof))) := by
  refine readFramesSecure_sendFrames h (fun f hf => ⟨?_, hsize f hf⟩) fuel
  exact Frame.readable_of_le ((muxRun_ordered size turns).bounded f (mem_append_left _ hf))

theorem secureSession_read_twoWriters :
    (muxRun 64 twoWriters).emitted.length = 3 ∧ (sendFrames zeroTag freshConn (muxRun 64 twoWriters).emitted).1 = none ∧
      readFramesSecure zeroTag (validateMaxFrameSize 64) 1 4
          (.new (freshConn, (sendFrames zeroTag freshConn (muxRun 64 twoWriters).emitted).2)) =
        ((muxRun 64 twoWriters).emitted, some (.read (.read .eof))) := by
  have hlength : (muxRun 64 twoWriters).emitted.length = 3 := by decide
  have h := secureSession_read zeroTag freshConn freshConn ⟨rfl, rfl, rfl, rfl⟩ 64 twoWriters 0 (by decide)
  exact ⟨hlength, h⟩

def oneWrite (b : Bytes) : List MuxTurn := [.write 1 b, .writeOn 1 .proceed, .writeOn 1 .proceed, .emit]

theorem muxRun_oneWrite {b : Bytes} (hpos : 0 < b.length) (hlen : b.length ≤ 65535) :
    (muxRun 65535 (oneWrite b)).emitted = [newDataFrame 1 b] := by
  have hb : b ≠ [] := ne_nil_of_length_pos hpos
  have hchunk : chunkSize 65535 b = b.length := if_neg (by omega)
  simp [muxRun, oneWrite, validateMaxFrameSize, Mux.step, Mux.writeOn, Mux.new, Mux.setWriter, Mux.push, hb, hchunk,
    writeChSize]

/-- With frames of up to 65535 bytes: one with a payload of 32757 bytes is sent, and the peer's reader fails in the
middle of it; one with a payload of 65508 bytes is not sent. -/
theorem secureSession_loses_frames :
    (∀ b : Bytes, b.length = 32757 →
      (muxRun 65535 (oneWrite b)).emitted = [newDataFrame 1 b] ∧
      (sendFrames zeroTag freshConn (muxRun 65535 (oneWrite b)).emitted).1 = none ∧
      ∀ fuel, readFramesSecure zeroTag (validateMaxFrameSize 65535) (fuel + 2) 2
          (.new (freshConn, (sendFrames zeroTag freshConn (muxRun 65535 (oneWrite b)).emitted).2)) =
        ([], some (.read (.shortBuffer ((writeFrame (newDataFrame 1 b)).take bufReaderSize))))) ∧
    ∀ b : Bytes, b.length = 65508 →
      sendFrames zeroTag freshConn (muxRun 65535 (oneWrite b)).emitted = (some .messageTooLarge, []) := by
  have hpaired : Paired freshConn freshConn := ⟨rfl, rfl, rfl, rfl⟩
  refine ⟨fun b hb => ?_, fun b hb => ?_⟩
  · have hpayload : (newDataFrame 1 b).payload.length = 32757 := hb
    have hfits : headerSize + (newDataFrame 1 b).payload.length ≤ maxMessageSize := hpayload ▸ by decide
    have hsize : bufReaderSize < headerSize + (newDataFrame 1 b).payload.length := hpayload ▸ by decide
    rw [muxRun_oneWrite (by omega) (by omega), sendFrames_of_le hpaired.writing hfits]
    refine ⟨rfl, rfl, fun fuel => ?_⟩
    rw [readFramesSecure, readFrameSecure_of_lt hpaired (Frame.readable_of_le (hpayload ▸ by decide)) hsize hfits]
  · have hpayload : (newDataFrame 1 b).payload.length = 65508 := hb
    rw [muxRun_oneWrite (by omega) (by omega), sendFrames_of_lt (hpayload ▸ by decide)]

end MeshDesk.Smux
