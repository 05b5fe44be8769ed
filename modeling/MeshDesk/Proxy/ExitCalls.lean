import MeshDesk.Proxy.Exit

/-! What one call on a circuit of the exit can do, and runs of calls. -/
namespace MeshDesk.Proxy
open Lib

theorem mem_seqRange {a b q : UInt32} : q ∈ seqRange a b ↔ a ≤ q ∧ q < b := by
  rw [UInt32.le_iff_toNat_le, UInt32.lt_iff_toNat_lt]
  have hb := b.toNat_lt
  constructor
  · intro h
    obtain ⟨i, hi, rfl⟩ := List.mem_map.mp h
    rw [List.mem_range] at hi
    have hsum : (a + UInt32.ofNat i).toNat = a.toNat + i := by
      rw [UInt32.toNat_add, UInt32.toNat_ofNat']
      omega
    omega
  · rintro ⟨hle, hlt⟩
    refine List.mem_map.mpr ⟨q.toNat - a.toNat, List.mem_range.mpr (by omega), UInt32.toNat_inj.mp ?_⟩
    rw [UInt32.toNat_add, UInt32.toNat_ofNat']
    omega

namespace ExitCircuit

variable (c : ExitCircuit) (now : Time) (cfg : CircuitConfig)

/-- `c'` is `c` up to the bookkeeping of gaps and NACKs. -/
def GapsOnly (c' : ExitCircuit) : Prop :=
  ∃ detected seen seqs retries sent, c' =
    { c with
      gapDetected := detected
      gapFirstSeen := seen
      gapSeqs := seqs
      nackRetryCount := retries
      lastNACKSent := sent }

theorem GapsOnly.trans {a b c : ExitCircuit} (h : GapsOnly a b) (h' : GapsOnly b c) : GapsOnly a c := by
  obtain ⟨_, _, _, _, _, rfl⟩ := h
  obtain ⟨_, _, _, _, _, rfl⟩ := h'
  exact ⟨_, _, _, _, _, rfl⟩

def Marks (c' : ExitCircuit) : Prop :=
  ∃ detected seen seqs, c' = { c with gapDetected := detected, gapFirstSeen := seen, gapSeqs := seqs }

theorem Marks.trans {a b c : ExitCircuit} (h : a.Marks b) (h' : b.Marks c) : a.Marks c := by
  obtain ⟨_, _, _, rfl⟩ := h
  obtain ⟨_, _, _, rfl⟩ := h'
  exact ⟨_, _, _, rfl⟩

theorem markGap_marks (c : ExitCircuit) (seq : UInt32) :
    c.Marks (markGap now c seq) ∧ ∀ q, q ∈ (markGap now c seq).gapSeqs ↔ q ∈ c.gapSeqs ∨ q = seq := by
  unfold markGap
  by_cases h : (c.gapSeqs.lookup seq).getD false = true
  · rw [if_pos h]
    refine ⟨⟨_, _, _, rfl⟩, fun q => ⟨Or.inl, ?_⟩⟩
    rintro (hq | rfl)
    · exact hq
    · refine AList.lookup_isSome.mp (Option.isSome_iff_ne_none.mpr fun hnone => ?_)
      rw [hnone] at h
      cases h
  · rw [if_neg h]
    refine ⟨⟨_, _, _, rfl⟩, fun q => ?_⟩
    rw [or_comm]
    exact AList.mem_insert _

theorem markGaps_marks (seq : UInt32) : c.Marks (c.markGaps now seq) ∧
      ∀ q, q ∈ (c.markGaps now seq).gapSeqs ↔ q ∈ c.gapSeqs ∨ c.ackBase ≤ q ∧ q < seq := by
  have hfold : ∀ (seqs : List UInt32) (c : ExitCircuit), c.Marks (seqs.foldl (markGap now) c) ∧
      ∀ q, q ∈ (seqs.foldl (markGap now) c).gapSeqs ↔ q ∈ c.gapSeqs ∨ q ∈ seqs := by
    intro seqs
    induction seqs with
    | nil => exact fun c => ⟨⟨_, _, _, rfl⟩, fun q => by simp⟩
    | cons first seqs ih =>
      intro c
      have hfirst := markGap_marks now c first
      refine ⟨hfirst.1.trans (ih _).1, fun q => ?_⟩
      rw [List.foldl_cons, (ih _).2, hfirst.2, List.mem_cons, or_assoc]
  simp only [← mem_seqRange]
  exact hfold _ c

theorem markGaps_gapsOnly (seq : UInt32) : GapsOnly c (c.markGaps now seq) := by
  obtain ⟨_, _, _, hc⟩ := (markGaps_marks c now seq).1
  exact ⟨_, _, _, _, _, hc⟩

theorem clearGaps_gapsOnly : GapsOnly c c.clearGaps := ⟨_, _, _, _, _, rfl⟩

theorem maybeGenerateNACK_cases (c : ExitCircuit) (now : Time) (s : UInt32) :
    (∃ res, c.maybeGenerateNACK cfg now s = (res, c) ∧ (res = .ok none ∨ res = .error .nackRetriesExhausted)) ∨
      c.maybeGenerateNACK cfg now s = (.ok (some ⟨c.circuitIDBytes, s, c.missing cfg⟩),
        { c with
          nackRetryCount := (c.missing cfg).foldl
            (fun m seq => m.insert seq ((m.lookup seq).getD 0 + 1)) c.nackRetryCount
          lastNACKSent := some now }) := by
  unfold maybeGenerateNACK
  split_ifs
  · exact Or.inl ⟨_, rfl, Or.inl rfl⟩
  · exact Or.inl ⟨_, rfl, Or.inl rfl⟩
  · exact Or.inl ⟨_, rfl, Or.inl rfl⟩
  · exact Or.inl ⟨_, rfl, Or.inr rfl⟩
  · exact Or.inr rfl

def fed (path : PathIndex) (chunk : Chunk) : ExitCircuit :=
  { c.touch now path chunk.streamID with reassembler := (c.reassembler.addStreaming now chunk).2 }

/-- Everything `handleChunk` can do. -/
inductive Handled (cfg : CircuitConfig) (c : ExitCircuit) (now : Time) (path : PathIndex) (write : WriteOutcome)
    (chunk : Chunk) : HandleResult × ExitCircuit → Prop
  | inactive (h : c.state ≠ .active) :
      Handled cfg c now path write chunk (⟨none, some (.notActive c.circuitIDBytes c.state), [], []⟩, c)
  | window (ha : c.state = .active) (hw : cfg.BeyondWindow c.ackBase chunk.sequence) :
      Handled cfg c now path write chunk
        (⟨none, some (.window chunk.sequence c.ackBase cfg.maxWindow), [], []⟩, c.touch now path chunk.streamID)
  | rejected (ha : c.state = .active) (hw : ¬ cfg.BeyondWindow c.ackBase chunk.sequence) (e : ReassemblyError)
      (he : (c.reassembler.addStreaming now chunk).1.err = some e) (c' : ExitCircuit)
      (hc : GapsOnly (c.fed now path chunk) c') :
      Handled cfg c now path write chunk (⟨none, some (.reassemble e), [], []⟩, c')
  | writeFailed (ha : c.state = .active) (hw : ¬ cfg.BeyondWindow c.ackBase chunk.sequence)
      (he : (c.reassembler.addStreaming now chunk).1.err = none) (n : ℕ) (hn : write = .failed n) (c' : ExitCircuit)
      (hc : GapsOnly (c.fed now path chunk) c') :
      Handled cfg c now path write chunk
        (⟨none, some .write, (c.reassembler.addStreaming now chunk).1.data,
          (c.reassembler.addStreaming now chunk).1.data.take n⟩, c')
  | delivered (ha : c.state = .active) (hw : ¬ cfg.BeyondWindow c.ackBase chunk.sequence)
      (he : (c.reassembler.addStreaming now chunk).1.err = none) (nack : Option NACKMsg) (err : Option ExitError)
      (herr : err = none ∨ err = some .nackRetriesExhausted) (c' : ExitCircuit)
      (hc : GapsOnly ((c.fed now path chunk).advance chunk (c.reassembler.addStreaming now chunk).1.done) c') :
      Handled cfg c now path write chunk
        (⟨nack, err, (c.reassembler.addStreaming now chunk).1.data,
          (c.reassembler.addStreaming now chunk).1.data⟩, c')

theorem finish_spec (c : ExitCircuit) (now : Time) (chunk : Chunk) (done : Bool) (delivered : Bytes) :
    ∃ nack err c', c.finish cfg now chunk done delivered = (⟨nack, err, delivered, delivered⟩, c') ∧
      (err = none ∨ err = some .nackRetriesExhausted) ∧ GapsOnly (c.advance chunk done) c' := by
  have hclear := clearGaps_gapsOnly (c.advance chunk done)
  unfold finish
  rcases maybeGenerateNACK_cases cfg (c.advance chunk done).clearGaps now chunk.streamID with
    ⟨res, hres, rfl | rfl⟩ | hsent
  · rw [hres]
    exact ⟨none, none, _, rfl, .inl rfl, hclear⟩
  · rw [hres]
    exact ⟨none, _, _, rfl, .inr rfl, hclear⟩
  · rw [hsent]
    exact ⟨_, none, _, rfl, .inl rfl, hclear.trans ⟨_, _, _, _, _, rfl⟩⟩

theorem GapsOnly.advance {c c' : ExitCircuit} (h : GapsOnly c c') (chunk : Chunk) (done : Bool) :
    GapsOnly (c.advance chunk done) (c'.advance chunk done) := by
  obtain ⟨_, _, _, _, _, rfl⟩ := h
  exact ⟨_, _, _, _, _, rfl⟩

theorem accept_handled {cfg : CircuitConfig} {c c₀ : ExitCircuit} {now : Time} {path : PathIndex}
    {write : WriteOutcome} {chunk : Chunk} (ha : c.state = .active)
    (hw : ¬ cfg.BeyondWindow c.ackBase chunk.sequence) (hc₀ : GapsOnly (c.touch now path chunk.streamID) c₀) :
    Handled cfg c now path write chunk (c₀.accept cfg now write chunk) := by
  have hr : c₀.reassembler = c.reassembler := by
    obtain ⟨_, _, _, _, _, rfl⟩ := hc₀
    rfl
  have hfed : GapsOnly (c.fed now path chunk)
      { c₀ with reassembler := (c.reassembler.addStreaming now chunk).2 } := by
    obtain ⟨_, _, _, _, _, rfl⟩ := hc₀
    exact ⟨_, _, _, _, _, rfl⟩
  unfold accept
  rw [hr]
  dsimp only
  cases he : (c.reassembler.addStreaming now chunk).1.err with
  | some e => exact .rejected ha hw e he _ hfed
  | none =>
    obtain ⟨nack, err, c', hfin, herr, hc'⟩ := finish_spec cfg
      { c₀ with reassembler := (c.reassembler.addStreaming now chunk).2 } now chunk
      (c.reassembler.addStreaming now chunk).1.done (c.reassembler.addStreaming now chunk).1.data
    have hdel : Handled cfg c now path write chunk _ :=
      .delivered ha hw he nack err herr c' ((hfed.advance _ _).trans hc')
    split_ifs with hnil
    · rw [hnil] at hfin hdel
      rw [hfin]
      exact hdel
    · cases write with
      | ok =>
        rw [hfin]
        exact hdel
      | failed n => exact .writeFailed ha hw he n rfl _ hfed

/-- Between a circuit and its successor stands, besides the reassembler and the window base, only
the bookkeeping of gaps. -/
theorem handleChunk_handled (c : ExitCircuit) (now : Time) (path : PathIndex) (write : WriteOutcome) (chunk : Chunk) :
    Handled cfg c now path write chunk (c.handleChunk cfg now path write chunk) := by
  unfold handleChunk
  by_cases ha : c.state = .active
  · rw [if_neg (not_not.mpr ha)]
    by_cases hw : cfg.BeyondWindow c.ackBase chunk.sequence
    · have hw' : cfg.BeyondWindow (c.touch now path chunk.streamID).ackBase chunk.sequence := hw
      rw [if_pos hw']
      exact .window ha hw
    · have hw' : ¬ cfg.BeyondWindow (c.touch now path chunk.streamID).ackBase chunk.sequence := hw
      rw [if_neg hw']
      exact accept_handled ha hw (markGaps_gapsOnly _ now chunk.sequence)
  · rw [if_pos ha]
    exact .inactive ha

section Frames
variable {cfg : CircuitConfig} {c : ExitCircuit} {now : Time} {path : PathIndex} {write : WriteOutcome}
  {chunk : Chunk} {out : HandleResult × ExitCircuit}

theorem Handled.frame (h : Handled cfg c now path write chunk out) :
    out.2.state = c.state ∧ out.2.e2eKey = c.e2eKey ∧ out.2.circuitIDBytes = c.circuitIDBytes := by
  cases h with
  | inactive | window => exact ⟨rfl, rfl, rfl⟩
  | rejected _ _ _ _ _ hc | writeFailed _ _ _ _ _ _ hc | delivered _ _ _ _ _ _ _ hc =>
    obtain ⟨_, _, _, _, _, rfl⟩ := hc
    exact ⟨rfl, rfl, rfl⟩

theorem Handled.lastActivity (h : Handled cfg c now path write chunk out) (ha : c.state = .active) :
    out.2.lastActivity = now := by
  cases h with
  | inactive hn => exact absurd ha hn
  | window => rfl
  | rejected _ _ _ _ _ hc | writeFailed _ _ _ _ _ _ hc | delivered _ _ _ _ _ _ _ hc =>
    obtain ⟨_, _, _, _, _, rfl⟩ := hc
    rfl

end Frames

end ExitCircuit

def HandleResult.rejected (res : HandleResult) : Bool :=
  match res.err with
  | some (.window ..) => true
  | some (.reassemble _) => true
  | _ => false

structure ChunkEvent where
  now : Time
  path : PathIndex
  write : WriteOutcome
  chunk : Chunk

namespace ExitCircuit

theorem Handled.of_not_rejected {cfg : CircuitConfig} {c : ExitCircuit} {now : Time} {path : PathIndex}
    {chunk : Chunk} {out : HandleResult × ExitCircuit} (h : Handled cfg c now path .ok chunk out)
    (ha : c.state = .active) (hres : out.1.rejected = false) :
    ¬ cfg.BeyondWindow c.ackBase chunk.sequence ∧ (c.reassembler.addStreaming now chunk).1.err = none ∧
      out.1.written = (c.reassembler.addStreaming now chunk).1.data ∧
      out.2.reassembler = (c.reassembler.addStreaming now chunk).2 := by
  cases h with
  | inactive hn => exact absurd ha hn
  | window | rejected => cases hres
  | writeFailed _ _ _ _ hn => cases hn
  | delivered _ hw he _ _ _ _ hc =>
    obtain ⟨_, _, _, _, _, rfl⟩ := hc
    exact ⟨hw, he, rfl, rfl⟩

def handleAll (cfg : CircuitConfig) : ExitCircuit → List ChunkEvent → List (ChunkEvent × HandleResult)
  | _, [] => []
  | c, ev :: evs =>
    (ev, (c.handleChunk cfg ev.now ev.path ev.write ev.chunk).1) ::
      handleAll cfg (c.handleChunk cfg ev.now ev.path ev.write ev.chunk).2 evs

def dataEvent (now : Time) (s seq : UInt32) (payload : Bytes) : ChunkEvent :=
  ⟨now, .path1, .ok, ⟨s, seq, 0, .data, payload, 0⟩⟩

def freshCircuit : ExitCircuit := newExitCircuit [] [] defaultChunkerConfig 0

end ExitCircuit
end MeshDesk.Proxy
