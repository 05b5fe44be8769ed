import MeshDesk.Proxy.Wire

/-! One path connection of an entry session. The dispatcher's callback writes serialized chunks to
it, the keepalive callback writes bare keepalive messages to the same connection, and the other end
reads wire chunks. -/
namespace MeshDesk.Proxy
open Lib List

inductive PathSend where
  | chunk (wc : WireChunk)
  | keepalive (msg : KeepaliveMsg)
  deriving DecidableEq, Repr

namespace PathSend

/-- The bytes a send writes. A message that does not encode writes nothing. -/
def bytes : PathSend → Bytes
  | .chunk wc => (serializeWireChunk wc).toOption.getD []
  | .keepalive msg => msg.encode.toOption.getD []

def sentChunk : PathSend → Option WireChunk
  | .chunk wc => (serializeWireChunk wc).toOption.map (fun _ => wc)
  | .keepalive _ => none

def WritesKeepalive : PathSend → Prop
  | .chunk _ => False
  | .keepalive msg => msg.circuitID.length = circuitIDSize

instance : DecidablePred WritesKeepalive
  | .chunk _ => inferInstanceAs (Decidable False)
  | .keepalive msg => inferInstanceAs (Decidable (msg.circuitID.length = circuitIDSize))

end PathSend

def readWireChunks (s : Bytes) : List WireChunk × Option WireError := wireCodec.parseAll (s.length + 1) s

theorem KeepaliveMsg.encode_length {msg : KeepaliveMsg} (h : msg.circuitID.length = circuitIDSize) :
    (PathSend.keepalive msg).bytes.length = 24 := by
  have he : msg.encode = .ok (msg.circuitID ++ toBE 8 msg.timestamp.toUInt64.toNat) := if_neg (not_not.mpr h)
  rw [PathSend.bytes, he]
  simp [Except.toOption, h, circuitIDSize]

theorem PathSend.bytes_eq (x : PathSend) :
    (x.WritesKeepalive ∧ x.bytes.length = 24 ∧ x.sentChunk = none) ∨
      (¬ x.WritesKeepalive ∧ x.bytes = x.sentChunk.toList.flatMap WireChunk.layout ∧
        ∀ wc ∈ x.sentChunk, wc.Sendable) := by
  cases x with
  | chunk wc =>
    refine .inr ⟨id, ?_⟩
    cases hs : serializeWireChunk wc with
    | error e => simp [bytes, sentChunk, hs, Except.toOption]
    | ok bs =>
      obtain ⟨hsend, rfl⟩ := serializeWireChunk_ok hs
      simpa [bytes, sentChunk, hs, Except.toOption] using hsend
  | keepalive msg =>
    by_cases h : msg.circuitID.length = circuitIDSize
    · exact .inl ⟨h, KeepaliveMsg.encode_length h, rfl⟩
    · have he : msg.encode = .error .keepaliveCircuitID := if_pos h
      exact .inr ⟨h, by simp [bytes, sentChunk, he, Except.toOption], by simp [sentChunk]⟩

theorem sentChunk_sendable {sends : List PathSend} {wc : WireChunk} (h : wc ∈ sends.filterMap PathSend.sentChunk) :
    wc.Sendable := by
  obtain ⟨x, -, hx⟩ := mem_filterMap.mp h
  rcases x.bytes_eq with ⟨-, -, hnone⟩ | ⟨-, -, hsend⟩
  · rw [hnone] at hx
    cases hx
  · exact hsend wc hx

theorem bytes_length (sends : List PathSend) :
    (sends.flatMap PathSend.bytes).length =
      ((sends.filterMap PathSend.sentChunk).flatMap WireChunk.layout).length +
        24 * (sends.countP (fun x => decide x.WritesKeepalive)) := by
  induction sends with
  | nil => rfl
  | cons x sends ih =>
    rw [flatMap_cons, length_append, ih, countP_cons]
    rcases x.bytes_eq with ⟨hk, hlen, hnone⟩ | ⟨hk, hcat, -⟩
    · simp only [filterMap_cons, hnone, hlen, hk, decide_true, if_true]
      omega
    · rw [hcat]
      cases hs : x.sentChunk with
      | none => simp [hs, hk]
      | some wc =>
        simp [hs, hk]
        omega

theorem bytes_of_no_keepalive {sends : List PathSend} (h : ∀ x ∈ sends, ¬ x.WritesKeepalive) :
    sends.flatMap PathSend.bytes = (sends.filterMap PathSend.sentChunk).flatMap WireChunk.layout := by
  induction sends with
  | nil => rfl
  | cons x sends ih =>
    have htail := ih (forall_mem_cons.mp h).2
    rcases x.bytes_eq with ⟨hk, -, -⟩ | ⟨-, hcat, -⟩
    · exact absurd hk (h x mem_cons_self)
    · rw [flatMap_cons, hcat, htail]
      cases hs : x.sentChunk with
      | none | some => simp [hs]

/-- The reader gets exactly the chunks sent and a clean end of the stream if and only if no
keepalive was written to the connection. -/
theorem readWireChunks_sends_iff (sends : List PathSend) :
    readWireChunks (sends.flatMap PathSend.bytes) =
        (sends.filterMap PathSend.sentChunk, some (.readHeaderLength .eof)) ↔
      ∀ x ∈ sends, ¬ x.WritesKeepalive := by
  constructor
  · intro h
    obtain ⟨rest, hcat, hrest⟩ := wireCodec.parseAll_sound h
    have hnil : rest = [] := readWireChunk_eof hrest
    have hlen := bytes_length sends
    rw [hcat, hnil, append_nil] at hlen
    have hlen' : ((sends.filterMap PathSend.sentChunk).flatMap wireCodec.print).length =
        ((sends.filterMap PathSend.sentChunk).flatMap WireChunk.layout).length := rfl
    have hzero : sends.countP (fun x => decide x.WritesKeepalive) = 0 := by omega
    intro x hx
    simpa using countP_eq_zero.mp hzero x hx
  · intro h
    have hcat := bytes_of_no_keepalive h
    have hread := wireCodec.parseAll_print (sends.filterMap PathSend.sentChunk) [] (.readHeaderLength .eof)
      ((sends.flatMap PathSend.bytes).length + 1) (fun wc hwc => sentChunk_sendable hwc) readWireChunk_nil
      (by rw [append_nil, hcat]; exact Nat.lt_succ_self _)
    rw [append_nil] at hread
    rw [readWireChunks, ← hread, hcat]
    rfl

def zeroChunk : WireChunk := ⟨List.replicate 64 0, List.replicate 12 0, [0]⟩

set_option maxRecDepth 4000 in
/-- After a keepalive the reader takes the circuit ID for a header length and stops. -/
theorem readWireChunks_keepalive :
    readWireChunks ([PathSend.chunk zeroChunk, .keepalive ⟨List.replicate 16 0, 0⟩, .chunk zeroChunk].flatMap
        PathSend.bytes) = ([zeroChunk], some (.headerLength 0)) ∧
      readWireChunks ([PathSend.chunk zeroChunk, .keepalive ⟨List.replicate 16 0, 0⟩, .chunk zeroChunk].flatMap
        PathSend.bytes) ≠
        ([PathSend.chunk zeroChunk, .keepalive ⟨List.replicate 16 0, 0⟩, .chunk zeroChunk].filterMap
          PathSend.sentChunk, some (.readHeaderLength .eof)) := by
  decide

end MeshDesk.Proxy
