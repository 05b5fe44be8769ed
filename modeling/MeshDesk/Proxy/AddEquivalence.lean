import MeshDesk.Proxy.Delivery

/-! `Add` and `AddStreaming` on the same chunks. The two reassemblers go through the same states, except that
one of them keeps the delivered bytes and each has its own clock. -/
namespace MeshDesk.Proxy
open Lib ExitReassembler ExitStreamState Function

namespace ExitStreamState

/-- The state with other accumulated bytes and another start. No decision depends on the two. -/
def relabel (st : ExitStreamState) (acc : Bytes) (start : Time) : ExitStreamState :=
  { st with accumulated := acc, firstChunkAt := start }

section Relabel
variable (st : ExitStreamState) (acc : Bytes) (start : Time)

@[simp] theorem relabel_chunks : (st.relabel acc start).chunks = st.chunks := rfl
@[simp] theorem relabel_nextExpected : (st.relabel acc start).nextExpected = st.nextExpected := rfl
@[simp] theorem relabel_total : (st.relabel acc start).total = st.total := rfl
@[simp] theorem relabel_totalSet : (st.relabel acc start).totalSet = st.totalSet := rfl
@[simp] theorem relabel_completed : (st.relabel acc start).completed = st.completed := rfl
@[simp] theorem relabel_bytes : (st.relabel acc start).bytes = st.bytes := rfl

@[simp] theorem store_relabel (seq : UInt32) (payload : Bytes) :
    (st.relabel acc start).store seq payload = (st.store seq payload).relabel acc start := rfl

theorem deliverLoop_relabel (fuel : ℕ) (t : ℤ) (result : Bytes) :
    deliverLoop fuel t (st.relabel acc start) result =
      ((deliverLoop fuel t st result).1, (deliverLoop fuel t st result).2.1,
        (deliverLoop fuel t st result).2.2.relabel acc start) := by
  induction fuel generalizing st t result with
  | zero => rfl
  | succ fuel ih =>
    cases hl : st.chunks.lookup st.nextExpected with
    | none =>
      have hl' : (st.relabel acc start).chunks.lookup (st.relabel acc start).nextExpected = none := hl
      rw [deliverLoop_of_none hl, deliverLoop_of_none hl']
    | some payload =>
      have hl' : (st.relabel acc start).chunks.lookup (st.relabel acc start).nextExpected = some payload := hl
      rw [deliverLoop_of_some hl, deliverLoop_of_some hl']
      exact ih (st.takeNext payload) _ _

theorem noteTotal_relabel (n : UInt32) : (st.relabel acc start).noteTotal n = (st.noteTotal n).relabel acc start := by
  unfold noteTotal
  rw [relabel_totalSet]
  split_ifs <;> rfl

theorem flushRemaining_relabel (clamp : ℤ → ℤ) (t : ℤ) :
    (st.relabel acc start).flushRemaining clamp t =
      ((st.flushRemaining clamp t).1, (st.flushRemaining clamp t).2.1,
        (st.flushRemaining clamp t).2.2.relabel acc start) := by
  unfold flushRemaining
  rw [relabel_chunks]
  split_ifs <;> rfl

end Relabel
end ExitStreamState

def ProcessResult.relabel (p : ProcessResult) (acc : Bytes) (start : Time) : ProcessResult :=
  { p with st := p.st.relabel acc start }

namespace ExitReassembler
variable (clamp : ℤ → ℤ) (st : ExitStreamState) (acc : Bytes) (start : Time)

theorem storeData_relabel (t : ℤ) (c : Chunk) :
    storeData t (st.relabel acc start) c = (storeData t st c).relabel acc start := by
  rw [storeData_eq, storeData_eq, store_relabel, noteTotal_relabel,
    deliverContiguous, deliverLoop_relabel]
  rfl

theorem endStream_relabel (t : ℤ) :
    endStream clamp t (st.relabel acc start) = (endStream clamp t st).relabel acc start := by
  have hflush := flushRemaining_relabel { st with completed := true } acc start clamp t
  change (let d := flushRemaining clamp t (relabel { st with completed := true } acc start)
    ProcessResult.mk d.1 true none d.2.1 d.2.2) = _
  rw [hflush]
  rfl

/-- A chunk is processed in the same way whatever was accumulated and whenever the stream began. -/
theorem processChunk_relabel (r : ExitReassembler) (c : Chunk) :
    r.processChunk clamp (st.relabel acc start) c = (r.processChunk clamp st c).relabel acc start := by
  have hbounds : r.checkBounds (st.relabel acc start) c.payload = r.checkBounds st c.payload := rfl
  unfold processChunk
  simp only [hbounds, relabel_chunks, relabel_nextExpected,
    relabel_total, relabel_totalSet, relabel_completed,
    store_relabel, endStream_relabel, storeData_relabel]
  cases r.checkBounds st c.payload with
  | none | some =>
    split_ifs <;> rfl

theorem processChunk_of_eq {r r' : ExitReassembler} (hcfg : r'.cfg = r.cfg) (htotal : r'.totalBytes = r.totalBytes)
    (c : Chunk) : r'.processChunk clamp st c = r.processChunk clamp st c := by
  unfold processChunk checkBounds
  rw [hcfg, htotal]

end ExitReassembler

/-! ### The two runs -/

/-- The reassembler behind `Add` has what the other one has, and in addition all bytes that were delivered of
the streams in progress. -/
structure Mirrors (out : UInt32 → Bytes) (buffering streaming : ExitReassembler) : Prop where
  cfg : buffering.cfg = streaming.cfg
  totalBytes : buffering.totalBytes = streaming.totalBytes
  completedStreams : buffering.completedStreams = streaming.completedStreams
  lookup : ∀ s, ∃ start,
    buffering.streams.lookup s = (streaming.streams.lookup s).map (fun st => st.relabel (out s) start)
  fresh : ∀ s, streaming.streams.lookup s = none → s ∉ streaming.completedStreams → out s = []

theorem Mirrors.new (cfg : ChunkerConfig) : Mirrors (fun _ => []) (newExitReassembler cfg) (newExitReassembler cfg) :=
  ⟨rfl, rfl, rfl, fun _ => ⟨0, rfl⟩, fun _ _ _ => rfl⟩

namespace Mirrors
variable {out : UInt32 → Bytes} {a r : ExitReassembler} {s : UInt32}

theorem live (h : Mirrors out a r) (s : UInt32) : a.Live s ↔ r.Live s := by
  obtain ⟨start, hlookup⟩ := h.lookup s
  unfold Live
  rw [h.completedStreams, hlookup]
  cases r.streams.lookup s with
  | none | some => simp

theorem entry (h : Mirrors out a r) (hl : r.Live s) (now now' : Time) :
    ∃ start, a.entry s now = (r.entry s now').relabel (out s) start := by
  obtain ⟨start, hlookup⟩ := h.lookup s
  unfold ExitReassembler.entry
  rw [hlookup]
  cases hs : r.streams.lookup s with
  | none =>
    rw [h.fresh s hs hl.1]
    exact ⟨now, rfl⟩
  | some st => exact ⟨start, rfl⟩

theorem settle (h : Mirrors out a r) (s : UInt32) (done : Bool) (t : ℤ) (st : ExitStreamState) (acc : Bytes)
    (start : Time) :
    Mirrors (update out s acc) (a.settle clampNonneg s done t (st.relabel acc start))
      (r.settle clampNonneg s done t st) where
  cfg := by rw [settle_cfg, settle_cfg, h.cfg]
  totalBytes := by
    cases done <;> simp [settle_true, settle_false, writeBack]
  completedStreams := by
    rw [settle_completedStreams, settle_completedStreams, h.completedStreams]
  lookup s' := by
    obtain rfl | hne := eq_or_ne s' s
    · refine ⟨start, ?_⟩
      rw [settle_lookup_self, settle_lookup_self, update_self]
      cases done <;> rfl
    · obtain ⟨start', hlookup⟩ := h.lookup s'
      refine ⟨start', ?_⟩
      rw [settle_lookup_of_ne _ _ _ _ _ hne, settle_lookup_of_ne _ _ _ _ _ hne,
        update_of_ne hne, hlookup]
  fresh s' hnone hcomp := by
    rw [settle_completedStreams] at hcomp
    obtain rfl | hne := eq_or_ne s' s
    · rw [settle_lookup_self] at hnone
      cases done with
      | false => cases hnone
      | true => exact absurd (Finset.mem_insert_self s' _) hcomp
    · rw [settle_lookup_of_ne _ _ _ _ _ hne] at hnone
      rw [update_of_ne hne]
      refine h.fresh s' hnone fun hmem => hcomp ?_
      cases done with
      | false => exact hmem
      | true => exact Finset.mem_insert_of_mem hmem

theorem call (h : Mirrors out a r) (now now' : Time) (c : Chunk) :
    Mirrors (update out c.streamID (out c.streamID ++ (r.addStreaming now' c).1.data)) (a.add now c).2
        (r.addStreaming now' c).2 ∧
      (a.add now c).1.done = (r.addStreaming now' c).1.done ∧ (a.add now c).1.err = (r.addStreaming now' c).1.err ∧
      ((a.add now c).1.done = true → (a.add now c).1.data = out c.streamID ++ (r.addStreaming now' c).1.data) := by
  unfold add addStreaming
  by_cases hl : r.Live c.streamID
  · obtain ⟨start, hentry⟩ := h.entry hl now now'
    rw [addWith_of_live _ ((h.live _).mpr hl), addStreamingWith_of_live _ hl, hentry,
      processChunk_relabel, processChunk_of_eq _ _ h.cfg h.totalBytes]
    set p := r.processChunk clampNonneg (r.entry c.streamID now') c
    dsimp only [ProcessResult.relabel]
    have hsettle := h.settle c.streamID p.done p.totalBytes p.st (out c.streamID ++ p.delivered) start
    refine ⟨hsettle, rfl, rfl, fun hdone => ?_⟩
    rw [if_pos hdone]
    rfl
  · rw [(add_of_not_live _ (mt (h.live _).mp hl)).2, (add_of_not_live _ hl).1]
    refine ⟨?_, rfl, rfl, nofun⟩
    rw [List.append_nil, update_eq_self]
    exact h

end Mirrors

structure TimedChunk where
  chunk : Chunk
  added : Time
  streamed : Time

def TimedChunk.addCall (x : TimedChunk) : Time × Chunk := (x.added, x.chunk)

def TimedChunk.streamCall (x : TimedChunk) : Time × Chunk := (x.streamed, x.chunk)

namespace ExitReassembler

variable (r : ExitReassembler) (calls : List (Time × Chunk))

def bufferAll : ExitReassembler :=
  calls.foldl (fun r call => (r.add call.1 call.2).2) r

theorem deliveredTo_concat (s : UInt32) (r : ExitReassembler) (calls : List (Time × Chunk)) (now : Time) (c : Chunk) :
    deliveredTo s r (calls ++ [(now, c)]) =
      deliveredTo s r calls ++ if c.streamID = s then ((r.addAll calls).addStreaming now c).1.data else [] := by
  rw [deliveredTo_append, deliveredTo, deliveredTo, List.append_nil]

theorem mirrors_run (cfg : ChunkerConfig) (calls : List TimedChunk) :
    Mirrors (fun s => deliveredTo s (newExitReassembler cfg) (calls.map TimedChunk.streamCall))
      ((newExitReassembler cfg).bufferAll (calls.map TimedChunk.addCall))
      ((newExitReassembler cfg).addAll (calls.map TimedChunk.streamCall)) := by
  induction calls using List.reverseRecOn with
  | nil => exact .new cfg
  | append_singleton calls x ih =>
    have hstep := (ih.call x.added x.streamed x.chunk).1
    have hout : (fun s => deliveredTo s (newExitReassembler cfg) ((calls ++ [x]).map TimedChunk.streamCall)) =
        update (fun s => deliveredTo s (newExitReassembler cfg) (calls.map TimedChunk.streamCall))
          x.chunk.streamID (deliveredTo x.chunk.streamID (newExitReassembler cfg) (calls.map TimedChunk.streamCall) ++
            (((newExitReassembler cfg).addAll (calls.map TimedChunk.streamCall)).addStreaming x.streamed x.chunk).1.data) := by
      funext s
      rw [List.map_append, List.map_singleton, TimedChunk.streamCall, deliveredTo_concat]
      obtain rfl | hne := eq_or_ne s x.chunk.streamID
      · rw [if_pos rfl, update_self]
      · rw [if_neg hne.symm, List.append_nil, update_of_ne hne]
    rw [hout]
    simp only [bufferAll, addAll, List.map_append, List.foldl_append]
    exact hstep

/-- For every sequence of chunks, the next calls of `Add` and of `AddStreaming` return the same flag and the
same error. The call that completes a stream returns from `Add` what all calls of `AddStreaming` have delivered
of it. -/
theorem add_eq_addStreaming (cfg : ChunkerConfig) (calls : List TimedChunk) (x : TimedChunk) :
    let buffered := (((newExitReassembler cfg).bufferAll (calls.map TimedChunk.addCall)).add x.added x.chunk).1
    let streamed := (((newExitReassembler cfg).addAll (calls.map TimedChunk.streamCall)).addStreaming x.streamed x.chunk).1
    buffered.done = streamed.done ∧ buffered.err = streamed.err ∧
      (buffered.done = true → buffered.data =
        deliveredTo x.chunk.streamID (newExitReassembler cfg) ((calls ++ [x]).map TimedChunk.streamCall)) := by
  intro buffered streamed
  obtain ⟨-, hdone, herr, hdata⟩ := (mirrors_run cfg calls).call x.added x.streamed x.chunk
  refine ⟨hdone, herr, fun hd => ?_⟩
  rw [hdata hd, List.map_append, List.map_singleton, TimedChunk.streamCall, deliveredTo_concat, if_pos rfl]

end ExitReassembler
end MeshDesk.Proxy
