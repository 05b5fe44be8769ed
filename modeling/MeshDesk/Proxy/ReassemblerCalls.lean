import MeshDesk.Proxy.Reassembler

/-! What one call on the reassembler can do. `Processed` lists the outcomes of
`processChunk` with their guards; a call reads and writes the chunk's own stream only. -/
namespace MeshDesk.Proxy
open Lib

/-- The chunk lies outside the range given by its own total or by the stream's. -/
def ExitStreamState.OutOfRange (st : ExitStreamState) (c : Chunk) : Prop :=
  (0 < c.total ∧ c.total ≤ c.sequence) ∨ (st.totalSet = true ∧ st.total ≤ c.sequence)

namespace ExitStreamState
variable {st : ExitStreamState}

theorem deliverLoop_of_none (h : st.chunks.lookup st.nextExpected = none) (fuel : ℕ) (t : ℤ) (acc : Bytes) :
    deliverLoop fuel t st acc = (acc, t, st) := by
  cases fuel <;> simp [deliverLoop, h]

theorem deliverLoop_of_some {v : Bytes} (h : st.chunks.lookup st.nextExpected = some v) (fuel : ℕ) (t : ℤ)
    (acc : Bytes) : deliverLoop (fuel + 1) t st acc = deliverLoop fuel (t - v.length) (st.takeNext v) (acc ++ v) := by
  simp [deliverLoop, h]

theorem noteTotal_bytes (st : ExitStreamState) (n : UInt32) : (st.noteTotal n).bytes = st.bytes := by
  unfold noteTotal
  split_ifs <;> rfl

theorem noteTotal_chunks (st : ExitStreamState) (n : UInt32) : (st.noteTotal n).chunks = st.chunks := by
  unfold noteTotal
  split_ifs <;> rfl

end ExitStreamState

namespace ExitReassembler

inductive Processed (clamp : ℤ → ℤ) (r : ExitReassembler) (st : ExitStreamState) (c : Chunk) :
    ProcessResult → Prop
  | completed (h : st.completed = true) : Processed clamp r st c ⟨[], false, none, r.totalBytes, st⟩
  | padding (h : c.type = .padding) : Processed clamp r st c ⟨[], false, none, r.totalBytes, st⟩
  | outOfRange (hd : c.isData) (h : st.OutOfRange c) :
      Processed clamp r st c ⟨[], false, none, r.totalBytes, st⟩
  | duplicate (hd : c.isData) (h : (st.chunks.lookup c.sequence).isSome) :
      Processed clamp r st c ⟨[], false, none, r.totalBytes, st⟩
  | rejected (e : ReassemblyError) (hk : c.isData ∨ c.payload ≠ [])
      (h : r.checkBounds st c.payload = some e) :
      Processed clamp r st c ⟨[], false, some e, r.totalBytes, st⟩
  | ended (ht : c.type = .streamEnd)
      (h : c.payload = [] ∨ (st.chunks.lookup c.sequence).isSome ∨ c.sequence < st.nextExpected) :
      Processed clamp r st c (endStream clamp r.totalBytes st)
  | endedWith (ht : c.type = .streamEnd) (hp : c.payload ≠ [])
      (hl : st.chunks.lookup c.sequence = none) (hs : ¬ c.sequence < st.nextExpected)
      (hb : r.checkBounds st c.payload = none) :
      Processed clamp r st c
        (endStream clamp (r.totalBytes + c.payload.length) (st.store c.sequence c.payload))
  | stored (hc : st.completed = false) (hd : c.isData) (hr : ¬ st.OutOfRange c)
      (hl : st.chunks.lookup c.sequence = none) (hb : r.checkBounds st c.payload = none) :
      Processed clamp r st c (storeData r.totalBytes st c)

variable (clamp : ℤ → ℤ) (r : ExitReassembler)

theorem processChunk_processed (st : ExitStreamState) (c : Chunk) :
    Processed clamp r st c (r.processChunk clamp st c) := by
  unfold processChunk
  split_ifs with hc hp he hs h1 h2 hd
  · exact .completed hc
  · exact .padding hp
  · obtain ⟨hne, hl, hn⟩ := hs
    split
    · next e hb => exact .rejected e (.inr hne) hb
    · next hb => exact .endedWith he hne hl hn hb
  · refine .ended he ?_
    by_contra hno
    simp only [not_or, Option.not_isSome_iff_eq_none] at hno
    exact hs hno
  · exact .outOfRange ⟨hp, he⟩ (.inl h1)
  · exact .outOfRange ⟨hp, he⟩ (.inr h2)
  · exact .duplicate ⟨hp, he⟩ hd
  · split
    · next e hb => exact .rejected e (.inl ⟨hp, he⟩) hb
    · next hb =>
      refine .stored (by simpa using hc) ⟨hp, he⟩ ?_ (by simpa using hd) hb
      rintro (h | h)
      · exact h1 h
      · exact h2 h

theorem storeData_eq (t : ℤ) (st : ExitStreamState) (c : Chunk) :
    storeData t st c =
      let d := ((st.store c.sequence c.payload).noteTotal c.total).deliverContiguous (t + c.payload.length)
      let done := d.2.2.totalSet && decide (d.2.2.total ≤ d.2.2.nextExpected)
      ⟨d.1, done, none, d.2.1, { d.2.2 with completed := d.2.2.completed || done }⟩ := by
  unfold storeData
  dsimp only
  split_ifs with h
  · simp [h.1, h.2]
  · have hf : ∀ d : ExitStreamState, ¬ (d.totalSet = true ∧ d.total ≤ d.nextExpected) →
        (d.totalSet && decide (d.total ≤ d.nextExpected)) = false := by
      intro d hd
      simpa using hd
    simp [hf _ h]

variable {c : Chunk} {now : Time}

theorem processChunk_of_err {st : ExitStreamState} {e : ReassemblyError}
    (h : (r.processChunk clamp st c).err = some e) :
    r.processChunk clamp st c = ⟨[], false, some e, r.totalBytes, st⟩ := by
  have hp := processChunk_processed clamp r st c
  generalize r.processChunk clamp st c = p at hp h
  cases hp with
  | rejected e' => cases h; rfl
  | stored => rw [storeData_eq] at h; cases h
  | _ => cases h

variable (s : UInt32)

def entry (now : Time) : ExitStreamState :=
  (r.streams.lookup s).getD (newExitStreamState now)

def Live : Prop :=
  s ∉ r.completedStreams ∧ ∀ st, r.streams.lookup s = some st → st.completed = false

def settle (done : Bool) (t : ℤ) (st : ExitStreamState) : ExitReassembler :=
  if done then (r.writeBack s t st).complete clamp s else r.writeBack s t st

theorem getOrCreateStream_snd (now : Time) : (r.getOrCreateStream s now).2 = r.entry s now := by
  unfold getOrCreateStream entry
  split <;> next h => simp [h]

theorem processChunk_getOrCreateStream (now : Time) :
    processChunk clamp (r.getOrCreateStream s now).1 = processChunk clamp r := by
  unfold getOrCreateStream
  split <;> rfl

theorem writeBack_getOrCreateStream (now : Time) (t : ℤ) (st : ExitStreamState) :
    (r.getOrCreateStream s now).1.writeBack s t st = r.writeBack s t st := by
  unfold getOrCreateStream writeBack
  split
  · rfl
  · simp [AList.insert_insert]

variable {r}

theorem Live.entry {s : UInt32} (h : r.Live s) (now : Time) : (r.entry s now).completed = false := by
  unfold ExitReassembler.entry
  cases hs : r.streams.lookup s with
  | none => rfl
  | some st => exact h.2 st hs

theorem add_of_not_live (h : ¬ r.Live c.streamID) :
    r.addStreamingWith clamp now c = (⟨[], false, none⟩, r) ∧ r.addWith clamp now c = (⟨[], false, none⟩, r) := by
  unfold addStreamingWith addWith
  split_ifs with hc
  · exact ⟨rfl, rfl⟩
  · obtain ⟨st, hs, hcomp⟩ : ∃ st, r.streams.lookup c.streamID = some st ∧ st.completed = true := by
      simpa [Live, hc] using h
    simp [getOrCreateStream, hs, hcomp]

theorem addStreamingWith_of_live (h : r.Live c.streamID) :
    r.addStreamingWith clamp now c =
      let p := r.processChunk clamp (r.entry c.streamID now) c
      (⟨p.delivered, p.done, p.err⟩, r.settle clamp c.streamID p.done p.totalBytes p.st) := by
  unfold addStreamingWith
  simp only [if_neg h.1, getOrCreateStream_snd, h.entry now, processChunk_getOrCreateStream,
    writeBack_getOrCreateStream, Bool.false_eq_true, if_false, settle]
  split
  · next e he => rw [processChunk_of_err clamp r he]; rfl
  · next he => split_ifs with hd <;> simp [he, hd]

theorem addWith_of_live (h : r.Live c.streamID) :
    r.addWith clamp now c =
      let p := r.processChunk clamp (r.entry c.streamID now) c
      let acc := p.st.accumulated ++ p.delivered
      (⟨if p.done then acc else [], p.done, p.err⟩,
        r.settle clamp c.streamID p.done p.totalBytes { p.st with accumulated := acc }) := by
  unfold addWith
  simp only [if_neg h.1, getOrCreateStream_snd, h.entry now, processChunk_getOrCreateStream,
    writeBack_getOrCreateStream, Bool.false_eq_true, if_false, settle]
  split
  · next e he => rw [processChunk_of_err clamp r he]; simp
  · next he => split_ifs with hd <;> simp [he, hd]

section Settle
variable (s : UInt32) (done : Bool) (t : ℤ) (st : ExitStreamState)

theorem settle_false : r.settle clamp s false t st = r.writeBack s t st := rfl

theorem settle_true : r.settle clamp s true t st =
    { r with
      totalBytes := clamp (t - st.bytes)
      streams := (r.streams.insert s st).erase s
      completedStreams := insert s r.completedStreams } := by
  simp [settle, complete, cleanupStream, writeBack, AList.lookup_insert]

@[simp] theorem settle_cfg : (r.settle clamp s done t st).cfg = r.cfg := by
  cases done <;> simp [settle_true, settle_false, writeBack]

@[simp] theorem settle_lookup_self : (r.settle clamp s done t st).streams.lookup s =
    if done then none else some st := by
  cases done <;> simp [settle_true, settle_false, writeBack, AList.lookup_insert]

theorem settle_lookup_of_ne {s' : UInt32} (h : s' ≠ s) :
    (r.settle clamp s done t st).streams.lookup s' = r.streams.lookup s' := by
  cases done <;> simp [settle_true, settle_false, writeBack, AList.lookup_insert_ne h,
    AList.lookup_erase_ne h]

@[simp] theorem settle_completedStreams : (r.settle clamp s done t st).completedStreams =
    if done then insert s r.completedStreams else r.completedStreams := by
  cases done <;> simp [settle_true, settle_false, writeBack]

end Settle

section Frame
variable {s : UInt32} {c : Chunk}

theorem entry_of_lookup {st : ExitStreamState} (h : r.streams.lookup s = some st) (now : Time) :
    r.entry s now = st := by
  rw [entry, h]
  rfl

theorem entry_congr {r' : ExitReassembler} (h : r'.streams.lookup s = r.streams.lookup s) (now : Time) :
    r'.entry s now = r.entry s now := by
  rw [entry, entry, h]

theorem settle_entry (clamp : ℤ → ℤ) (s : UInt32) (t : ℤ) (st : ExitStreamState) (now : Time) :
    (r.settle clamp s false t st).entry s now = st :=
  entry_of_lookup (settle_lookup_self ..) now

/-- What a call on stream `s` can leave behind: the same reassembler, or one with that stream settled. -/
inductive Called (clamp : ℤ → ℤ) (r : ExitReassembler) (s : UInt32) : ExitReassembler → Prop
  | ignored : Called clamp r s r
  | settled (hl : r.Live s) (done : Bool) (t : ℤ) (st : ExitStreamState) :
      Called clamp r s (r.settle clamp s done t st)

theorem add_called (r : ExitReassembler) (clamp : ℤ → ℤ) (now : Time) (c : Chunk) :
    Called clamp r c.streamID (r.addStreamingWith clamp now c).2 ∧
      Called clamp r c.streamID (r.addWith clamp now c).2 := by
  by_cases hl : r.Live c.streamID
  · rw [addStreamingWith_of_live clamp hl, addWith_of_live clamp hl]
    exact ⟨.settled hl _ _ _, .settled hl _ _ _⟩
  · obtain ⟨hstreaming, hadd⟩ := add_of_not_live clamp hl
    rw [hstreaming, hadd]
    exact ⟨.ignored, .ignored⟩

namespace Called
variable {clamp : ℤ → ℤ} {r' : ExitReassembler} {q : UInt32}

theorem cfg (h : Called clamp r q r') : r'.cfg = r.cfg := by
  cases h with
  | ignored => rfl
  | settled hl done t st => exact settle_cfg ..

theorem lookup_of_ne (h : Called clamp r q r') (hs : q ≠ s) :
    r'.streams.lookup s = r.streams.lookup s ∧ (s ∈ r'.completedStreams ↔ s ∈ r.completedStreams) := by
  cases h with
  | ignored => exact ⟨rfl, Iff.rfl⟩
  | settled hl done t st =>
    refine ⟨settle_lookup_of_ne clamp _ _ _ _ hs.symm, ?_⟩
    rw [settle_completedStreams]
    split_ifs
    · simp [hs.symm]
    · rfl

theorem completed_mono (h : Called clamp r q r') (hc : s ∈ r.completedStreams) : s ∈ r'.completedStreams := by
  cases h with
  | ignored => exact hc
  | settled hl done t st =>
    rw [settle_completedStreams]
    split_ifs
    · exact Finset.mem_insert_of_mem hc
    · exact hc

end Called

theorem live_of_entry (hc : s ∉ r.completedStreams) (he : (r.entry s 0).completed = false) : r.Live s := by
  refine ⟨hc, fun st hst => ?_⟩
  rwa [entry_of_lookup hst] at he

end Frame
end ExitReassembler
end MeshDesk.Proxy
