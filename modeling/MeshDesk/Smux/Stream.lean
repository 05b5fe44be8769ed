import Mathlib.Data.List.Infix
import MeshDesk.Proxy.Chunk

/-! The read side of a multiplexed stream: frames dispatched by the session fill its buffer, reads
empty it. -/
namespace MeshDesk.Smux
open Proxy (Bytes)
open List

inductive StreamError where
  | streamReset
  | eof
  | closedPipe
  deriving DecidableEq, Repr

def StreamError.text : StreamError → String
  | .streamReset => "smux: stream reset by peer"
  | .eof => "EOF"
  | .closedPipe => "io: read/write on closed pipe"

/-- The buffer never holds more than its limit. -/
structure Stream where
  readBuf : Bytes
  localClosed : Bool
  remoteClosed : Bool
  resetErr : Option StreamError
  maxReadBuf : ℕ
  fits : readBuf.length ≤ maxReadBuf

def newStream (writeBufferSize : ℤ) : Stream :=
  { readBuf := []
    localClosed := false
    remoteClosed := false
    resetErr := none
    maxReadBuf := if writeBufferSize ≤ 0 then 262144 else writeBufferSize.toNat
    fits := Nat.zero_le _ }

inductive ReadResult where
  | data (bs : Bytes)
  | failed (e : StreamError)
  | blocked
  deriving DecidableEq, Repr

def ReadResult.bytes : ReadResult → Bytes
  | .data bs => bs
  | .failed _ => []
  | .blocked => []

namespace Stream

variable (st : Stream)

def read (sessionClosed : Bool) (n : ℕ) : ReadResult × Stream :=
  if st.readBuf ≠ [] then
    (.data (st.readBuf.take n),
      { st with
        readBuf := st.readBuf.drop n
        fits := by
          rw [List.length_drop]
          exact (Nat.sub_le _ _).trans st.fits })
  else
    match st.resetErr with
    | some e => (.failed e, st)
    | none =>
      if st.remoteClosed then (.failed .eof, st)
      else if st.localClosed then (.failed .closedPipe, st)
      else if sessionClosed then (.failed .eof, st)
      else (.blocked, st)

/-- A frame that does not fit is dropped and marks the stream as reset; the stream stays in the
session's map. -/
def onData (payload : Bytes) : Stream :=
  if h : st.readBuf.length + payload.length ≤ st.maxReadBuf then
    { st with
      readBuf := st.readBuf ++ payload
      fits := by rwa [List.length_append] }
  else { st with resetErr := some .streamReset, remoteClosed := true }

def onFin : Stream := { st with remoteClosed := true }

def onRst : Stream := { st with resetErr := some .streamReset, remoteClosed := true }

theorem read_spec (sessionClosed : Bool) (n : ℕ) :
    (st.read sessionClosed n).1.bytes ++ (st.read sessionClosed n).2.readBuf = st.readBuf ∧
      (st.read sessionClosed n).2.resetErr = st.resetErr := by
  unfold read
  split_ifs with hne
  · exact ⟨take_append_drop n st.readBuf, rfl⟩
  all_goals
    cases hreset : st.resetErr with
    | none | some => exact ⟨rfl, hreset⟩

end Stream

/-- A stream as its session sees it: the object, which its reader keeps, and whether it is still in
the map `streams`. -/
structure Slot where
  st : Stream
  registered : Bool
  sessionClosed : Bool

def newSlot (writeBufferSize : ℤ) : Slot := ⟨newStream writeBufferSize, true, false⟩

/-- Frames for the stream, reads, and the steps of a local close and of a session's end. -/
inductive StreamOp where
  | data (payload : Bytes)
  | fin
  | rst
  | read (n : ℕ)
  | closeLocal
  | streamClosed
  | closeSession
  deriving DecidableEq, Repr

namespace Slot

variable (s : Slot)

def handleData (payload : Bytes) : Slot :=
  if s.registered then { s with st := s.st.onData payload } else s

def handleFin : Slot :=
  if s.registered then { s with st := s.st.onFin, registered := !s.st.localClosed } else s

def handleRst : Slot :=
  if s.registered then { s with st := s.st.onRst, registered := false } else s

/-- `Close` and `abort` of the session give every registered stream its end. -/
def closeSession : Slot :=
  if s.registered then ⟨s.st.onFin, false, true⟩ else { s with sessionClosed := true }

def step : StreamOp → Bytes × Slot
  | .data payload => ([], s.handleData payload)
  | .fin => ([], s.handleFin)
  | .rst => ([], s.handleRst)
  | .read n => ((s.st.read s.sessionClosed n).1.bytes, { s with st := (s.st.read s.sessionClosed n).2 })
  | .closeLocal => ([], { s with st := { s.st with localClosed := true } })
  | .streamClosed => ([], { s with registered := false })
  | .closeSession => ([], s.closeSession)

def returned : Slot → List StreamOp → Bytes
  | _, [] => []
  | s, op :: ops => (s.step op).1 ++ returned (s.step op).2 ops

end Slot

def StreamOp.payload : StreamOp → Bytes
  | .data payload => payload
  | _ => []

def sentBytes (ops : List StreamOp) : Bytes := ops.flatMap StreamOp.payload

namespace Slot

/-- `got` has been returned and `sent` sent so far: what was returned and what is buffered is a
beginning of what was sent, and all of it unless a frame was dropped. -/
structure InOrder (got sent : Bytes) (s : Slot) : Prop where
  initial : got ++ s.st.readBuf <+: sent
  complete : s.registered = true → s.st.resetErr = none → got ++ s.st.readBuf = sent

theorem inOrder_new (writeBufferSize : ℤ) : InOrder [] [] (newSlot writeBufferSize) :=
  ⟨prefix_rfl, fun _ _ => rfl⟩

/-- A frame that the stream would still take does not follow one that it has dropped. -/
def NoLateData (s : Slot) : StreamOp → Prop
  | .data payload => s.registered = true → s.st.resetErr.isSome → payload ≠ [] →
      s.st.maxReadBuf < s.st.readBuf.length + payload.length
  | _ => True

instance (s : Slot) (op : StreamOp) : Decidable (s.NoLateData op) :=
  match op with
  | .data _ => inferInstanceAs (Decidable (_ → _ → _ → _))
  | .fin => isTrue trivial
  | .rst => isTrue trivial
  | .read _ => isTrue trivial
  | .closeLocal => isTrue trivial
  | .streamClosed => isTrue trivial
  | .closeSession => isTrue trivial

variable {s : Slot} {got sent : Bytes}

theorem InOrder.data (h : InOrder got sent s) {payload : Bytes} (hlate : s.NoLateData (.data payload)) :
    InOrder got (sent ++ payload) (s.handleData payload) := by
  have hlonger : got ++ s.st.readBuf <+: sent ++ payload := h.initial.trans (prefix_append sent payload)
  unfold handleData
  split_ifs with hreg
  · unfold Stream.onData
    split_ifs with hfit
    · cases hreset : s.st.resetErr with
      | none =>
        have heq : got ++ (s.st.readBuf ++ payload) = sent ++ payload := by
          rw [← append_assoc, h.complete hreg hreset]
        exact ⟨heq ▸ prefix_rfl, fun _ _ => heq⟩
      | some e =>
        -- only an empty frame gets here
        have hnil : payload = [] := by
          by_contra hne
          exact absurd (hlate hreg (by rw [hreset]; rfl) hne) (by omega)
        subst hnil
        exact ⟨by simpa using hlonger, nofun⟩
    · exact ⟨hlonger, nofun⟩
  · exact ⟨hlonger, fun hr => absurd hr hreg⟩

theorem InOrder.read (h : InOrder got sent s) (n : ℕ) :
    InOrder (got ++ (s.step (.read n)).1) sent (s.step (.read n)).2 := by
  obtain ⟨hbuf, hreset⟩ := s.st.read_spec s.sessionClosed n
  have heq : got ++ (s.step (.read n)).1 ++ (s.step (.read n)).2.st.readBuf = got ++ s.st.readBuf := by
    rw [append_assoc]
    exact congrArg (got ++ ·) hbuf
  refine ⟨?_, fun hr hn => ?_⟩
  · rw [heq]
    exact h.initial
  · rw [heq]
    exact h.complete hr (hreset.symm.trans hn)

theorem InOrder.quiet {s' : Slot} (h : InOrder got sent s) (hbuf : s'.st.readBuf = s.st.readBuf)
    (hback : s'.registered = true → s'.st.resetErr = none → s.registered = true ∧ s.st.resetErr = none) :
    InOrder got sent s' := by
  refine ⟨hbuf ▸ h.initial, fun hr hn => ?_⟩
  obtain ⟨hr', hn'⟩ := hback hr hn
  exact hbuf ▸ h.complete hr' hn'

theorem InOrder.step (h : InOrder got sent s) {op : StreamOp} (hlate : s.NoLateData op) :
    InOrder (got ++ (s.step op).1) (sent ++ op.payload) (s.step op).2 := by
  cases op with
  | data payload =>
    rw [Slot.step, append_nil]
    exact h.data hlate
  | read n =>
    simp only [StreamOp.payload, append_nil]
    exact h.read n
  | fin =>
    simp only [Slot.step, StreamOp.payload, append_nil, handleFin]
    split_ifs with hreg
    · exact h.quiet rfl (fun _ hn => ⟨hreg, hn⟩)
    · exact h
  | rst =>
    simp only [Slot.step, StreamOp.payload, append_nil, handleRst]
    split_ifs with hreg
    · exact h.quiet rfl nofun
    · exact h
  | closeLocal =>
    simp only [Slot.step, StreamOp.payload, append_nil]
    exact h.quiet rfl (fun hr hn => ⟨hr, hn⟩)
  | streamClosed =>
    simp only [Slot.step, StreamOp.payload, append_nil]
    exact h.quiet rfl nofun
  | closeSession =>
    simp only [Slot.step, StreamOp.payload, append_nil, closeSession]
    split_ifs with hreg
    · exact h.quiet rfl nofun
    · exact h.quiet rfl (fun hr hn => ⟨hr, hn⟩)

def NeverLate : Slot → List StreamOp → Prop
  | _, [] => True
  | s, op :: ops => s.NoLateData op ∧ NeverLate (s.step op).2 ops

theorem InOrder.run {ops : List StreamOp} (h : InOrder got sent s) (hlate : NeverLate s ops) :
    got ++ returned s ops <+: sent ++ sentBytes ops := by
  induction ops generalizing s got sent with
  | nil =>
    rw [returned, sentBytes, flatMap_nil, append_nil, append_nil]
    exact (prefix_append got s.st.readBuf).trans h.initial
  | cons op ops ih =>
    have htail := ih (h.step hlate.1) hlate.2
    rw [returned, sentBytes, flatMap_cons, ← append_assoc, ← append_assoc]
    exact htail

/-- What the reader gets is a beginning of what the remote sent, unless the stream takes a frame
after it has dropped one. -/
theorem returned_isPrefix (writeBufferSize : ℤ) (ops : List StreamOp)
    (hlate : NeverLate (newSlot writeBufferSize) ops) : returned (newSlot writeBufferSize) ops <+: sentBytes ops :=
  (inOrder_new writeBufferSize).run hlate

/-- The second frame exceeds the buffer of four bytes, and only the first is read. -/
theorem returned_overflow_isPrefix :
    returned (newSlot 4) [.data [1, 2, 3], .data [4, 5], .read 8, .read 8] <+:
      sentBytes [.data [1, 2, 3], .data [4, 5], .read 8, .read 8] :=
  returned_isPrefix 4 [.data [1, 2, 3], .data [4, 5], .read 8, .read 8]
    ⟨by decide, by decide, by decide, by decide, trivial⟩

/-- After the overflow, reading makes room for a later frame: bytes 4 and 5 are skipped. -/
theorem returned_skips :
    returned (newSlot 4) [.data [1, 2, 3], .data [4, 5], .read 3, .data [6], .read 4] = [1, 2, 3, 6] ∧
      ¬ returned (newSlot 4) [.data [1, 2, 3], .data [4, 5], .read 3, .data [6], .read 4] <+:
        sentBytes [.data [1, 2, 3], .data [4, 5], .read 3, .data [6], .read 4] := by
  decide

end Slot
end MeshDesk.Smux
