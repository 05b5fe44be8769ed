import MeshDesk.Smux.FrameCodec
import MeshDesk.Smux.Session

/-! The writers of a session. Every stream writes for itself; the frames meet in `writeCh`, from which one goroutine
puts them on the connection. Streams are told apart by their identifiers, and the `Write` calls of one stream do not
overlap. -/
namespace MeshDesk.Smux
open Lib List
open Proxy (Bytes)

def validateMaxFrameSize (size : ℤ) : ℤ :=
  let size := if size < 64 then 16384 else size
  if 65535 < size then 65535 else size

theorem validateMaxFrameSize_bounds (size : ℤ) :
    64 ≤ validateMaxFrameSize size ∧ validateMaxFrameSize size ≤ 65535 := by
  unfold validateMaxFrameSize
  dsimp only
  split_ifs <;> omega

inductive WriteError where
  | streamClosed
  | sessionClosed
  deriving DecidableEq, Repr

def WriteError.text : WriteError → String
  | .streamClosed => "smux: stream closed"
  | .sessionClosed => "smux: session closed"

/-- A `Write` that has returned: what it was to write and what it answered. -/
structure WriteReturn where
  arg : Bytes
  n : ℕ
  err : Option WriteError
  deriving DecidableEq, Repr

/-- Where a `Write` is: before its second check, or in the loop with what is left of its argument. -/
inductive WritePc where
  | checkSession (b : Bytes)
  | loop (arg b : Bytes) (total : ℕ)
  deriving DecidableEq, Repr

structure StreamWriter where
  localClosed : Bool
  pc : Option WritePc
  returned : List WriteReturn
  deriving DecidableEq, Repr

namespace StreamWriter

def finish (w : StreamWriter) (r : WriteReturn) : StreamWriter :=
  { w with pc := none, returned := w.returned ++ [r] }

def pushed (w : StreamWriter) : Bytes :=
  match w.pc with
  | some (.loop arg _ total) => arg.take total
  | _ => []

/-- The bytes written on the stream: as many of each argument as its `Write` has counted. -/
def written (w : StreamWriter) : Bytes := w.returned.flatMap (fun r => r.arg.take r.n) ++ w.pushed

end StreamWriter

inductive ControlFrame where
  | syn (streamID : UInt32) (ack : Bool)
  | fin (streamID : UInt32)
  | rst (streamID code : UInt32)
  | ping (opaqueCode : UInt32)
  | goAway (code : UInt32)
  deriving DecidableEq, Repr

namespace ControlFrame

def frame : ControlFrame → Frame
  | .syn streamID ack => newSynFrame streamID ack
  | .fin streamID => newFinFrame streamID
  | .rst streamID code => newRstFrame streamID code
  | .ping opaqueCode => newPingFrame opaqueCode
  | .goAway code => newGoAwayFrame code

theorem frame_type (f : ControlFrame) : f.frame.type ≠ .data := by
  cases f <;> exact nofun

theorem frame_payload_length (f : ControlFrame) : f.frame.payload.length ≤ 4 := by
  cases f <;> exact Nat.le_of_ble_eq_true rfl

end ControlFrame

/-- The writing side of a session. `emitted` are the frames that the writer has taken out of `writeCh`, and
`conn` is what it has written. -/
structure Mux where
  closed : Bool
  writers : UInt32 → StreamWriter
  writeCh : List Frame
  emitted : List Frame
  conn : Bytes

def Mux.new : Mux := ⟨false, fun _ => ⟨false, none, []⟩, [], [], []⟩

/-- What happens next: a `Write` is called or goes on, a stream or the session is closed, the session sends a
frame, the writer takes one. -/
inductive MuxTurn where
  | write (id : UInt32) (b : Bytes)
  | writeOn (id : UInt32) (pick : Pick)
  | closeStream (id : UInt32)
  | close
  | control (f : ControlFrame)
  | emit
  deriving DecidableEq, Repr

def chunkSize (maxFrame : ℤ) (b : Bytes) : ℕ := if maxFrame < b.length then maxFrame.toNat else b.length

namespace Mux
variable (maxFrame : ℤ)

def setWriter (x : Mux) (id : UInt32) (w : StreamWriter) : Mux :=
  { x with writers := Function.update x.writers id w }

def push (x : Mux) (f : Frame) : Mux := { x with writeCh := x.writeCh ++ [f] }

/-- The next section of a `Write`. A full channel makes the sender wait. -/
def writeOn (x : Mux) (id : UInt32) (pick : Pick) : Mux :=
  match (x.writers id).pc with
  | none => x
  | some (.checkSession b) =>
    if x.closed then x.setWriter id ((x.writers id).finish ⟨b, 0, some .sessionClosed⟩)
    else x.setWriter id { x.writers id with pc := some (.loop b b 0) }
  | some (.loop arg b total) =>
    if b = [] then x.setWriter id ((x.writers id).finish ⟨arg, total, none⟩)
    else if pick = .done ∧ x.closed then
      x.setWriter id ((x.writers id).finish ⟨arg, total, some .sessionClosed⟩)
    else if x.writeCh.length < writeChSize then
      let n := chunkSize maxFrame b
      (x.push (newDataFrame id (b.take n))).setWriter id
        { x.writers id with pc := some (.loop arg (b.drop n) (total + n)) }
    else x

def step (x : Mux) : MuxTurn → Mux
  | .write id b =>
    match (x.writers id).pc with
    | some _ => x
    | none =>
      if (x.writers id).localClosed then x.setWriter id ((x.writers id).finish ⟨b, 0, some .streamClosed⟩)
      else x.setWriter id { x.writers id with pc := some (.checkSession b) }
  | .writeOn id pick => x.writeOn maxFrame id pick
  | .closeStream id => x.setWriter id { x.writers id with localClosed := true }
  | .close => { x with closed := true }
  | .control f => if x.writeCh.length < writeChSize then x.push f.frame else x
  | .emit =>
    match x.writeCh with
    | [] => x
    | f :: rest => { x with writeCh := rest, emitted := x.emitted ++ [f], conn := x.conn ++ writeFrame f }

end Mux

def muxRun (size : ℤ) (turns : List MuxTurn) : Mux := turns.foldl (Mux.step (validateMaxFrameSize size)) Mux.new

variable (id : UInt32)

def payloads (fs : List Frame) : Bytes :=
  fs.flatMap fun f => if f.type = .data ∧ f.streamID = id then f.payload else []

theorem payloads_append (fs gs : List Frame) : payloads id (fs ++ gs) = payloads id fs ++ payloads id gs :=
  flatMap_append

theorem payloads_newDataFrame_self (b : Bytes) : payloads id [newDataFrame id b] = b := by
  simp [payloads, newDataFrame]

theorem payloads_newDataFrame_of_ne {id id' : UInt32} (h : id ≠ id') (b : Bytes) :
    payloads id' [newDataFrame id b] = [] := by
  simp [payloads, newDataFrame, h]

theorem payloads_control (f : ControlFrame) : payloads id [f.frame] = [] := by
  simp [payloads, f.frame_type]

theorem chunkSize_le {maxFrame : ℤ} (hpos : 0 ≤ maxFrame) (b : Bytes) : (chunkSize maxFrame b : ℤ) ≤ maxFrame := by
  unfold chunkSize
  split_ifs with h
  · rw [Int.toNat_of_nonneg hpos]
  · exact Int.not_lt.mp h

theorem chunkSize_le_length (maxFrame : ℤ) (b : Bytes) : chunkSize maxFrame b ≤ b.length := by
  unfold chunkSize
  split_ifs with h <;> omega

/-! ### One stream -/

/-- A stream's `Write` calls: the current one has sent what it has counted, one that returned no error has
written its whole argument, and only closing makes one fail. -/
structure StreamWriter.Sound (closed : Bool) (w : StreamWriter) : Prop where
  loop : ∀ arg b total, w.pc = some (.loop arg b total) → b = arg.drop total ∧ total ≤ arg.length
  complete : ∀ r ∈ w.returned, r.err = none → r.n = r.arg.length
  failed : ∀ r ∈ w.returned, r.err ≠ none → w.localClosed = true ∨ closed = true

namespace StreamWriter
variable {closed : Bool} {w : StreamWriter}

theorem Sound.setPc (h : w.Sound closed) {pc : WritePc}
    (hpc : ∀ arg b total, pc = .loop arg b total → b = arg.drop total ∧ total ≤ arg.length) :
    StreamWriter.Sound closed { w with pc := some pc } :=
  ⟨fun arg b total heq => hpc arg b total (Option.some.inj heq), h.complete, h.failed⟩

theorem Sound.finish (h : w.Sound closed) {r : WriteReturn} (hcomplete : r.err = none → r.n = r.arg.length)
    (hfailed : r.err ≠ none → w.localClosed = true ∨ closed = true) : (w.finish r).Sound closed where
  loop _ _ _ hpc := by cases hpc
  complete := forall_mem_append.mpr ⟨h.complete, forall_mem_singleton.mpr hcomplete⟩
  failed := forall_mem_append.mpr ⟨h.failed, forall_mem_singleton.mpr hfailed⟩

theorem written_finish {r : WriteReturn} (hn : r.arg.take r.n = w.pushed) : (w.finish r).written = w.written := by
  rw [written, written, finish, flatMap_append, flatMap_singleton, hn]
  exact append_nil _

theorem Sound.written_eq (h : w.Sound closed) (hopen : closed = false) (hlocal : w.localClosed = false)
    (hidle : w.pc = none) : w.written = w.returned.flatMap WriteReturn.arg := by
  have hall : ∀ r ∈ w.returned, r.arg.take r.n = r.arg := by
    intro r hr
    by_cases herr : r.err = none
    · exact take_of_length_le (h.complete r hr herr).ge
    · obtain hl | hc := h.failed r hr herr
      · rw [hlocal] at hl
        cases hl
      · rw [hopen] at hc
        cases hc
  rw [written, pushed, hidle, append_nil]
  exact flatMap_congr hall

end StreamWriter

/-! ### The whole session -/

/-- What has been queued is, stream by stream, what has been written. -/
structure Mux.Ordered (maxFrame : ℤ) (x : Mux) : Prop where
  bounded : ∀ f ∈ x.emitted ++ x.writeCh, (f.payload.length : ℤ) ≤ maxFrame
  wire : x.conn = x.emitted.flatMap writeFrame
  sound : ∀ id, (x.writers id).Sound x.closed
  bytes : ∀ id, payloads id (x.emitted ++ x.writeCh) = (x.writers id).written

namespace Mux
variable {maxFrame : ℤ} {x : Mux}

theorem Ordered.new (maxFrame : ℤ) : Ordered maxFrame Mux.new where
  bounded f hf := by cases hf
  wire := rfl
  sound id := ⟨nofun, nofun, nofun⟩
  bytes id := rfl

theorem writers_setWriter_self (x : Mux) (id : UInt32) (w : StreamWriter) : (x.setWriter id w).writers id = w := by
  simp only [Mux.setWriter, Function.update_self]

theorem writers_setWriter_of_ne (x : Mux) {id id' : UInt32} (h : id' ≠ id) (w : StreamWriter) :
    (x.setWriter id w).writers id' = x.writers id' := by
  simp only [Mux.setWriter, Function.update_of_ne h]

theorem sound_setWriter (h : ∀ id, (x.writers id).Sound x.closed) {id : UInt32} {w : StreamWriter}
    (hw : w.Sound x.closed) (id' : UInt32) : ((x.setWriter id w).writers id').Sound x.closed := by
  by_cases heq : id' = id
  · rw [heq, x.writers_setWriter_self]
    exact hw
  · rw [x.writers_setWriter_of_ne heq]
    exact h id'

section
variable (h : Ordered maxFrame x)
include h

theorem Ordered.setWriter {id : UInt32} {w : StreamWriter} (hw : w.Sound x.closed)
    (hwritten : w.written = (x.writers id).written) : Ordered maxFrame (x.setWriter id w) where
  bounded := h.bounded
  wire := h.wire
  sound := sound_setWriter h.sound hw
  bytes id' := by
    by_cases heq : id' = id
    · subst heq
      rw [x.writers_setWriter_self, hwritten]
      exact h.bytes id'
    · rw [x.writers_setWriter_of_ne heq]
      exact h.bytes id'

theorem Ordered.send {id : UInt32} {w : StreamWriter} {b : Bytes} (hw : w.Sound x.closed)
    (hb : (b.length : ℤ) ≤ maxFrame) (hwritten : w.written = (x.writers id).written ++ b) :
    Ordered maxFrame ((x.push (newDataFrame id b)).setWriter id w) where
  bounded f hf := by
    change f ∈ x.emitted ++ (x.writeCh ++ [newDataFrame id b]) at hf
    rw [← append_assoc, mem_append, mem_singleton] at hf
    obtain hf | rfl := hf
    · exact h.bounded f hf
    · exact hb
  wire := h.wire
  sound := sound_setWriter h.sound hw
  bytes id' := by
    change payloads id' (x.emitted ++ (x.writeCh ++ [newDataFrame id b])) = _
    rw [← append_assoc, payloads_append, h.bytes id']
    by_cases heq : id' = id
    · subst heq
      rw [writers_setWriter_self, payloads_newDataFrame_self, hwritten]
    · rw [writers_setWriter_of_ne _ heq, payloads_newDataFrame_of_ne (Ne.symm heq)]
      exact append_nil _

theorem Ordered.control (hmax : 4 ≤ maxFrame) (f : ControlFrame) :
    Ordered maxFrame (x.push f.frame) where
  bounded f' hf' := by
    change f' ∈ x.emitted ++ (x.writeCh ++ [f.frame]) at hf'
    rw [← append_assoc, mem_append, mem_singleton] at hf'
    obtain hf' | rfl := hf'
    · exact h.bounded f' hf'
    · have := f.frame_payload_length
      omega
  wire := h.wire
  sound := h.sound
  bytes id := by
    change payloads id (x.emitted ++ (x.writeCh ++ [f.frame])) = _
    rw [← append_assoc, payloads_append, payloads_control, append_nil]
    exact h.bytes id

theorem Ordered.emit {f : Frame} {rest : List Frame} (hch : x.writeCh = f :: rest) :
    Ordered maxFrame { x with writeCh := rest, emitted := x.emitted ++ [f], conn := x.conn ++ writeFrame f } := by
  have hqueue : x.emitted ++ [f] ++ rest = x.emitted ++ x.writeCh := by
    rw [hch, append_assoc, singleton_append]
  refine ⟨?_, ?_, h.sound, fun id => ?_⟩
  · rw [hqueue]
    exact h.bounded
  · rw [flatMap_append, flatMap_singleton, h.wire]
  · rw [hqueue]
    exact h.bytes id

theorem Ordered.writeOn (hmax : 0 ≤ maxFrame) (id : UInt32) (pick : Pick) :
    Ordered maxFrame (x.writeOn maxFrame id pick) := by
  have hw := h.sound id
  unfold Mux.writeOn
  split
  · exact h
  · next b hpc =>
    have hpushed : (x.writers id).pushed = [] := by rw [StreamWriter.pushed, hpc]
    split_ifs with hclosed
    · refine h.setWriter (hw.finish nofun fun _ => .inr hclosed) ?_
      exact StreamWriter.written_finish (hpushed ▸ take_zero)
    · refine h.setWriter (hw.setPc fun arg b' total heq => ?_) ?_
      · cases heq
        exact ⟨rfl, Nat.zero_le _⟩
      · rw [StreamWriter.written, StreamWriter.written, hpushed]
        rfl
  · next arg b total hpc =>
    have hpushed : (x.writers id).pushed = arg.take total := by rw [StreamWriter.pushed, hpc]
    obtain ⟨hb, htotal⟩ := hw.loop arg b total hpc
    split_ifs with hnil hdone hroom
    · refine h.setWriter (hw.finish (fun _ => ?_) fun herr => absurd rfl herr)
        (StreamWriter.written_finish hpushed.symm)
      rw [hnil] at hb
      exact le_antisymm htotal (drop_eq_nil_iff.mp hb.symm)
    · refine h.setWriter (hw.finish nofun fun _ => .inr hdone.2) ?_
      exact StreamWriter.written_finish hpushed.symm
    · refine h.send (hw.setPc fun arg' b' total' heq => ?_) ?_ ?_
      · cases heq
        refine ⟨?_, ?_⟩
        · rw [hb, drop_drop]
        · have := chunkSize_le_length maxFrame b
          rw [hb, length_drop] at this
          rw [hb]
          omega
      · refine le_trans ?_ (chunkSize_le hmax b)
        exact Int.ofNat_le.mpr (length_take_le _ _)
      · rw [StreamWriter.written, StreamWriter.written, hpushed, append_assoc]
        refine congrArg (_ ++ ·) ?_
        change arg.take (total + chunkSize maxFrame b) = _
        rw [take_add, ← hb]
    · exact h

theorem Ordered.step (hmax : 4 ≤ maxFrame) (turn : MuxTurn) :
    Ordered maxFrame (x.step maxFrame turn) := by
  cases turn with
  | write id b =>
    unfold Mux.step
    dsimp only
    split
    · exact h
    · next hpc =>
      have hpushed : (x.writers id).pushed = [] := by rw [StreamWriter.pushed, hpc]
      split_ifs with hlocal
      · refine h.setWriter ((h.sound id).finish nofun fun _ => .inl hlocal) ?_
        exact StreamWriter.written_finish (hpushed ▸ take_zero)
      · refine h.setWriter ((h.sound id).setPc nofun) ?_
        exact congrArg (_ ++ ·) hpushed.symm
  | writeOn id pick => exact h.writeOn (by omega) id pick
  | closeStream id =>
    have hw := h.sound id
    exact h.setWriter ⟨hw.loop, hw.complete, fun _ _ _ => .inl rfl⟩ rfl
  | close =>
    exact ⟨h.bounded, h.wire, fun id => ⟨(h.sound id).loop, (h.sound id).complete, fun _ _ _ => .inr rfl⟩, h.bytes⟩
  | control f =>
    unfold Mux.step
    split_ifs
    · exact h.control hmax f
    · exact h
  | emit =>
    unfold Mux.step
    dsimp only
    split
    · exact h
    · next f rest hch => exact h.emit hch

end

end Mux

theorem muxRun_ordered (size : ℤ) (turns : List MuxTurn) :
    Mux.Ordered (validateMaxFrameSize size) (muxRun size turns) := by
  have hmax : 4 ≤ validateMaxFrameSize size := by
    have := (validateMaxFrameSize_bounds size).1
    omega
  exact foldlRecOn (motive := Mux.Ordered (validateMaxFrameSize size)) turns _ (Mux.Ordered.new _)
    fun x h turn _ => h.step hmax turn

theorem Frame.readable_of_le {size : ℤ} {f : Frame} (h : (f.payload.length : ℤ) ≤ validateMaxFrameSize size) :
    f.Readable (validateMaxFrameSize size) := by
  have hbounds := validateMaxFrameSize_bounds size
  refine ⟨by omega, fun _ => ?_⟩
  rw [toUint32, Int.emod_eq_of_lt (by omega) (by omega)]
  omega

/-- However the writes interleave and the transport cuts the bytes, the peer reads the emitted frames in order; and
the DATA payloads of a stream, with those still queued, are what was written on it, which is the arguments of its
`Write` calls where nothing was closed. -/
theorem muxRun_read (size : ℤ) (turns : List MuxTurn) (pieces : List Bytes)
    (hpieces : pieces.flatten = (muxRun size turns).conn) :
    readFrames (validateMaxFrameSize size) (Conn.ofPieces pieces) =
        ((muxRun size turns).emitted, some (.failed (.read .eof))) ∧
      ∀ id : UInt32,
        payloads id ((muxRun size turns).emitted ++ (muxRun size turns).writeCh) =
            ((muxRun size turns).writers id).written ∧
          ((muxRun size turns).closed = false → ((muxRun size turns).writers id).localClosed = false →
            ((muxRun size turns).writers id).pc = none →
            ((muxRun size turns).writers id).written =
              ((muxRun size turns).writers id).returned.flatMap WriteReturn.arg) := by
  have h := muxRun_ordered size turns
  refine ⟨?_, fun id => ⟨h.bytes id, (h.sound id).written_eq⟩⟩
  refine readFrames_writeFrame (fun f hf => ?_) (hpieces.trans h.wire)
  exact Frame.readable_of_le (h.bounded f (mem_append_left _ hf))

/-- Two streams write at the same time; the first one's bytes take two frames. -/
def twoWriters : List MuxTurn :=
  [.write 1 (List.replicate 66 5), .writeOn 1 .proceed, .write 3 [7], .writeOn 3 .proceed, .writeOn 1 .proceed,
    .writeOn 3 .proceed, .writeOn 1 .proceed, .writeOn 1 .proceed, .writeOn 3 .proceed, .emit, .emit, .emit]

theorem muxRun_read_twoWriters :
    payloads 1 (muxRun 64 twoWriters).emitted = List.replicate 66 5 ∧
      readFrames (validateMaxFrameSize 64)
          (Conn.ofPieces [(muxRun 64 twoWriters).conn.take 5, (muxRun 64 twoWriters).conn.drop 5]) =
        ((muxRun 64 twoWriters).emitted, some (.failed (.read .eof))) ∧
      ((muxRun 64 twoWriters).writers 1).written =
        ((muxRun 64 twoWriters).writers 1).returned.flatMap WriteReturn.arg := by
  have h := muxRun_read 64 twoWriters [(muxRun 64 twoWriters).conn.take 5, (muxRun 64 twoWriters).conn.drop 5]
    (by simp)
  exact ⟨by decide, h.1, (h.2 1).2 (by decide) (by decide) (by decide)⟩

end MeshDesk.Smux
