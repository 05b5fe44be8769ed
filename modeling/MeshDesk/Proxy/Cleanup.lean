import MeshDesk.Proxy.ExitCalls

/-! The periodic cleanup of the exit. Stream timers play no part in the handling of chunks, so a
cleanup shows only through what it purges and through the circuits it removes. -/
namespace MeshDesk.Proxy
open Lib List

theorem Time.sub_mono {t t' u : Time} (h : t ≤ t') : Time.sub t u ≤ Time.sub t' u :=
  max_le_max_left _ (min_le_min_left _ (Int.sub_le_sub_right h u))

namespace ExitCircuit

/-- `c'` is `c` up to its stream timers. -/
def TimersOnly (c c' : ExitCircuit) : Prop := ∃ timers, c' = { c with streamTimers := timers }

theorem TimersOnly.refl (c : ExitCircuit) : TimersOnly c c := ⟨_, rfl⟩

variable {c c' : ExitCircuit} {cfg : CircuitConfig} {now : Time}

theorem TimersOnly.trans {a b : ExitCircuit} (h : TimersOnly a b) (h' : TimersOnly b c) : TimersOnly a c := by
  obtain ⟨_, rfl⟩ := h
  obtain ⟨_, rfl⟩ := h'
  exact ⟨_, rfl⟩

theorem TimersOnly.symm {a b : ExitCircuit} (h : TimersOnly a b) : TimersOnly b a := by
  obtain ⟨_, rfl⟩ := h
  exact ⟨a.streamTimers, rfl⟩

/-- Two calls with the same result that leave the same circuit up to its stream timers. -/
def SameOut {α : Type} (x y : α × ExitCircuit) : Prop := y.1 = x.1 ∧ TimersOnly x.2 y.2

section
variable (h : TimersOnly c c')
include h

theorem TimersOnly.touch (now : Time) (path : PathIndex) (s : UInt32) :
    TimersOnly (c.touch now path s) (c'.touch now path s) := by
  obtain ⟨_, rfl⟩ := h
  exact ⟨_, rfl⟩

theorem TimersOnly.markGap (now : Time) (seq : UInt32) :
    TimersOnly (markGap now c seq) (markGap now c' seq) := by
  obtain ⟨timers, rfl⟩ := h
  unfold ExitCircuit.markGap
  split_ifs <;> exact ⟨_, rfl⟩

theorem TimersOnly.markGaps (now : Time) (seq : UInt32) :
    TimersOnly (c.markGaps now seq) (c'.markGaps now seq) := by
  have hbase : c'.ackBase = c.ackBase := by
    obtain ⟨_, rfl⟩ := h
    rfl
  unfold ExitCircuit.markGaps
  rw [hbase]
  induction seqRange c.ackBase seq using reverseRecOn with
  | nil => exact h
  | append_singleton seqs q ih =>
    rw [foldl_append, foldl_append]
    exact ih.markGap now q

theorem TimersOnly.maybeGenerateNACK (cfg : CircuitConfig) (now : Time) (s : UInt32) :
    SameOut (c.maybeGenerateNACK cfg now s) (c'.maybeGenerateNACK cfg now s) := by
  obtain ⟨timers, rfl⟩ := h
  unfold ExitCircuit.maybeGenerateNACK missing
  split_ifs <;> exact ⟨rfl, _, rfl⟩

theorem TimersOnly.finish (cfg : CircuitConfig) (now : Time)
    (chunk : Chunk) (done : Bool) (delivered : Bytes) :
    SameOut (c.finish cfg now chunk done delivered) (c'.finish cfg now chunk done delivered) := by
  have hclear : TimersOnly (c.advance chunk done).clearGaps (c'.advance chunk done).clearGaps := by
    obtain ⟨_, rfl⟩ := h
    exact ⟨_, rfl⟩
  obtain ⟨hres, hc⟩ := hclear.maybeGenerateNACK cfg now chunk.streamID
  unfold ExitCircuit.finish
  generalize (c.advance chunk done).clearGaps.maybeGenerateNACK cfg now chunk.streamID = x at hres hc
  generalize (c'.advance chunk done).clearGaps.maybeGenerateNACK cfg now chunk.streamID = y at hres hc
  obtain ⟨res, d⟩ := x
  obtain ⟨res', d'⟩ := y
  subst hres
  cases res' with
  | error | ok => exact ⟨rfl, hc⟩

theorem TimersOnly.accept (cfg : CircuitConfig) (now : Time)
    (write : WriteOutcome) (chunk : Chunk) :
    SameOut (c.accept cfg now write chunk) (c'.accept cfg now write chunk) := by
  have hr : c'.reassembler = c.reassembler := by
    obtain ⟨_, rfl⟩ := h
    rfl
  have hfed : TimersOnly { c with reassembler := (c.reassembler.addStreaming now chunk).2 }
      { c' with reassembler := (c.reassembler.addStreaming now chunk).2 } := by
    obtain ⟨_, rfl⟩ := h
    exact ⟨_, rfl⟩
  unfold ExitCircuit.accept
  rw [hr]
  dsimp only
  cases (c.reassembler.addStreaming now chunk).1.err with
  | some e => exact ⟨rfl, hfed⟩
  | none =>
    split_ifs
    · exact hfed.finish cfg now chunk _ _
    · cases write with
      | ok => exact hfed.finish cfg now chunk _ _
      | failed n => exact ⟨rfl, hfed⟩

theorem TimersOnly.handleChunk (cfg : CircuitConfig) (now : Time)
    (path : PathIndex) (write : WriteOutcome) (chunk : Chunk) :
    SameOut (c.handleChunk cfg now path write chunk) (c'.handleChunk cfg now path write chunk) := by
  have htouch := h.touch now path chunk.streamID
  have hbase : (c'.touch now path chunk.streamID).ackBase = (c.touch now path chunk.streamID).ackBase := by
    obtain ⟨_, rfl⟩ := h
    rfl
  have hstate : c'.state = c.state ∧ c'.circuitIDBytes = c.circuitIDBytes := by
    obtain ⟨_, rfl⟩ := h
    exact ⟨rfl, rfl⟩
  unfold ExitCircuit.handleChunk
  dsimp only
  rw [hbase, hstate.1, hstate.2]
  split_ifs
  · exact ⟨rfl, h⟩
  · exact ⟨rfl, htouch⟩
  · exact (htouch.markGaps now chunk.sequence).accept cfg now write chunk

end

def NothingExpired (cfg : CircuitConfig) (c : ExitCircuit) (now : Time) : Prop :=
  ∀ e ∈ c.streamTimers.entries, cfg.streamTimeout < Time.sub now e.2 → c.reassembler.streams.lookup e.1 = none

instance (cfg : CircuitConfig) (c : ExitCircuit) (now : Time) : Decidable (c.NothingExpired cfg now) :=
  inferInstanceAs (Decidable (∀ e ∈ _, _ → _))

theorem expireTimer_timersOnly {e : Sigma fun _ : UInt32 => Time}
    (h : cfg.streamTimeout < Time.sub now e.2 → c.reassembler.streams.lookup e.1 = none) :
    TimersOnly c (expireTimer cfg now c e) := by
  unfold expireTimer
  split_ifs with hexp hcomp
  · exact ⟨_, rfl⟩
  · have hpurge : c.reassembler.purgeStream clampNonneg e.1 = c.reassembler := by
      rw [ExitReassembler.purgeStream, ExitReassembler.cleanupStream, h hexp]
    rw [hpurge]
    exact ⟨_, rfl⟩
  · exact .refl c

theorem foldl_expireTimer_timersOnly {es : List (Sigma fun _ : UInt32 => Time)}
    (h : ∀ e ∈ es, cfg.streamTimeout < Time.sub now e.2 → c.reassembler.streams.lookup e.1 = none) :
    TimersOnly c (es.foldl (expireTimer cfg now) c) := by
  induction es generalizing c with
  | nil => exact .refl c
  | cons e es ih =>
    have hone := expireTimer_timersOnly (h e mem_cons_self)
    refine hone.trans (ih (fun e' he' => ?_))
    have hr : (expireTimer cfg now c e).reassembler = c.reassembler := by
      obtain ⟨_, heq⟩ := hone
      rw [heq]
    rw [hr]
    exact h e' (mem_cons_of_mem _ he')

theorem NothingExpired.cleanup (h : c.NothingExpired cfg now)
    (horphan : Time.sub now c.lastActivity ≤ cfg.effectiveOrphanTimeout) :
    ∃ c', c.cleanup cfg now = some c' ∧ TimersOnly c c' := by
  unfold ExitCircuit.cleanup
  rw [if_neg (not_lt.mpr horphan)]
  exact ⟨_, rfl, foldl_expireTimer_timersOnly h⟩

end ExitCircuit

inductive CircuitOp where
  | chunk (ev : ChunkEvent)
  | cleanup (now : Time)

namespace CircuitOp

def time : CircuitOp → Time
  | chunk ev => ev.now
  | cleanup now => now

def isChunk : CircuitOp → Bool
  | chunk _ => true
  | cleanup _ => false

/-- The chunks of a run with their results. A circuit that has been removed is not found any more. -/
def runAll (cfg : CircuitConfig) : Option ExitCircuit → List CircuitOp → List (ChunkEvent × HandleResult)
  | _, [] => []
  | none, chunk ev :: ops => (ev, ⟨none, some .circuitNotFound, [], []⟩) :: runAll cfg none ops
  | some c, chunk ev :: ops =>
    (ev, (c.handleChunk cfg ev.now ev.path ev.write ev.chunk).1) ::
      runAll cfg (some (c.handleChunk cfg ev.now ev.path ev.write ev.chunk).2) ops
  | c, cleanup now :: ops => runAll cfg (c.bind (fun c => c.cleanup cfg now)) ops

/-- Each chunk comes within the orphan timeout of the activity before it. -/
def Paced (cfg : CircuitConfig) : Time → List CircuitOp → Prop
  | _, [] => True
  | last, chunk ev :: ops => Time.sub ev.now last ≤ cfg.effectiveOrphanTimeout ∧ Paced cfg ev.now ops
  | last, cleanup _ :: ops => Paced cfg last ops

def Undisturbed (cfg : CircuitConfig) : Option ExitCircuit → List CircuitOp → Prop
  | none, _ => True
  | some _, [] => True
  | some c, chunk ev :: ops =>
    Undisturbed cfg (some (c.handleChunk cfg ev.now ev.path ev.write ev.chunk).2) ops
  | some c, cleanup now :: ops => c.NothingExpired cfg now ∧ Undisturbed cfg (c.cleanup cfg now) ops

variable {cfg : CircuitConfig} {ops : List CircuitOp}

theorem runAll_of_no_chunk (h : ops.filter isChunk = []) (c : Option ExitCircuit) : runAll cfg c ops = [] := by
  induction ops generalizing c with
  | nil => rfl
  | cons op ops ih =>
    cases op with
    | chunk ev => simp [isChunk] at h
    | cleanup now =>
      exact ih (by simpa [isChunk] using h) _

theorem Paced.next {last : Time} (h : Paced cfg last ops)
    (hne : ops.filter isChunk ≠ []) : ∃ op ∈ ops, Time.sub op.time last ≤ cfg.effectiveOrphanTimeout := by
  induction ops with
  | nil => exact absurd rfl hne
  | cons op ops ih =>
    cases op with
    | chunk ev => exact ⟨_, mem_cons_self, h.1⟩
    | cleanup now =>
      obtain ⟨op, hop, hle⟩ := ih h (by simpa [isChunk] using hne)
      exact ⟨op, mem_cons_of_mem _ hop, hle⟩

theorem runAll_timersOnly {c c' : ExitCircuit}
    (h : c.TimersOnly c') (ha : c.state = .active) (hord : (ops.map time).Pairwise (· ≤ ·))
    (hpaced : Paced cfg c.lastActivity ops) (hkeep : Undisturbed cfg (some c) ops) :
    runAll cfg (some c) ops = runAll cfg (some c') (ops.filter isChunk) := by
  induction ops generalizing c c' with
  | nil => rfl
  | cons op ops ih =>
    rw [map_cons, pairwise_cons] at hord
    cases op with
    | chunk ev =>
      have hh := c.handleChunk_handled cfg ev.now ev.path ev.write ev.chunk
      obtain ⟨hres, hc⟩ := h.handleChunk cfg ev.now ev.path ev.write ev.chunk
      rw [filter_cons, if_pos (show (chunk ev).isChunk = true from rfl), runAll, runAll, hres]
      refine congrArg _ (ih hc (hh.frame.1.trans ha) hord.2 ?_ hkeep)
      rw [hh.lastActivity ha]
      exact hpaced.2
    | cleanup now =>
      rw [filter_cons, if_neg (by simp [isChunk]), runAll, Option.bind_some]
      by_cases hnone : ops.filter isChunk = []
      · rw [runAll_of_no_chunk hnone, hnone, runAll]
      · have hpaced' : Paced cfg c.lastActivity ops := hpaced
        obtain ⟨op, hop, hle⟩ := hpaced'.next hnone
        have hsoon := (Time.sub_mono (hord.1 _ (mem_map_of_mem hop))).trans hle
        obtain ⟨c₂, hc₂, htimers⟩ := hkeep.1.cleanup hsoon
        have hrest := hkeep.2
        rw [hc₂] at hrest ⊢
        refine ih (htimers.symm.trans h) ?_ hord.2 ?_ hrest
        · obtain ⟨_, rfl⟩ := htimers
          exact ha
        · obtain ⟨_, rfl⟩ := htimers
          exact hpaced

def writtenTo (s : UInt32) (trace : List (ChunkEvent × HandleResult)) : Bytes :=
  (trace.filter (fun x => decide (x.1.chunk.streamID = s))).flatMap (·.2.written)

/-- Cleanups that find no stream in progress with an expired timer change no byte of any stream. -/
theorem runAll_cleanup_transparent (cfg : CircuitConfig) (circuitID e2eKey : Bytes) (chunkerCfg : ChunkerConfig)
    (created : Time) (s : UInt32) (ops : List CircuitOp) (hord : (ops.map time).Pairwise (· ≤ ·))
    (hpaced : Paced cfg created ops)
    (hkeep : Undisturbed cfg (some (newExitCircuit circuitID e2eKey chunkerCfg created)) ops) :
    writtenTo s (runAll cfg (some (newExitCircuit circuitID e2eKey chunkerCfg created)) ops) =
      writtenTo s (runAll cfg (some (newExitCircuit circuitID e2eKey chunkerCfg created)) (ops.filter isChunk)) :=
  congrArg (writtenTo s) (runAll_timersOnly (.refl _) rfl hord hpaced hkeep)

/-- Three chunks within a minute, with a cleanup after each of the first two. -/
def shortRun : List CircuitOp :=
  [.chunk (ExitCircuit.dataEvent 0 1 0 [0x61]), .cleanup (20 * second),
    .chunk (ExitCircuit.dataEvent (25 * second) 1 1 [0x62]), .cleanup (45 * second),
    .chunk (ExitCircuit.dataEvent (50 * second) 1 2 [0x63])]

theorem runAll_shortRun_transparent :
    writtenTo 1 (runAll defaultCircuitConfig (some ExitCircuit.freshCircuit) shortRun) =
      writtenTo 1 (runAll defaultCircuitConfig (some ExitCircuit.freshCircuit) (shortRun.filter isChunk)) :=
  runAll_cleanup_transparent defaultCircuitConfig [] [] defaultChunkerConfig 0 1 shortRun (by decide)
    ⟨by decide, by decide, by decide, trivial⟩ ⟨by decide, by decide, trivial⟩

/-- Four chunks in order, never more than 25 seconds apart, and a cleanup after 61 seconds. -/
def longRun : List CircuitOp :=
  [.chunk (ExitCircuit.dataEvent 0 1 0 [0x61]), .chunk (ExitCircuit.dataEvent (25 * second) 1 1 [0x62]),
    .chunk (ExitCircuit.dataEvent (50 * second) 1 2 [0x63]), .cleanup (61 * second),
    .chunk (ExitCircuit.dataEvent (70 * second) 1 3 [0x64])]

/-- The cleanup purges the stream, and its next chunk is buffered as if it came out of order. -/
theorem runAll_longRun_purged :
    (longRun.map time).Pairwise (· ≤ ·) ∧ Paced defaultCircuitConfig 0 longRun ∧
      writtenTo 1 (runAll defaultCircuitConfig (some ExitCircuit.freshCircuit) longRun) = [0x61, 0x62, 0x63] ∧
      writtenTo 1 (runAll defaultCircuitConfig (some ExitCircuit.freshCircuit) (longRun.filter isChunk)) =
        [0x61, 0x62, 0x63, 0x64] := by
  refine ⟨by decide, ⟨by decide, by decide, by decide, by decide, trivial⟩, by decide, by decide⟩

end CircuitOp

theorem ExitNode.cleanupOrphans_lookup (e : ExitNode) (now : Time) (circuitID : Bytes) :
    (e.cleanupOrphans now).2.circuits.lookup circuitID =
      (e.circuits.lookup circuitID).bind (fun c => c.cleanup e.cfg.circuitCfg now) :=
  Map.lookup_filterMapVals _ _ _

end MeshDesk.Proxy
