import MeshDesk.Proxy.Accounting
import MeshDesk.Proxy.ExitCalls

/-! Streams that share a circuit. A call on one stream leaves the buffers of the others alone; what
the streams share is the byte counter of the reassembler and the window base of the circuit. -/
namespace MeshDesk.Proxy
open Lib

theorem ExitStreamState.deliverLoop_congr (fuel : ℕ) (t t' : ℤ) (st : ExitStreamState) (acc : Bytes) :
    (deliverLoop fuel t' st acc).1 = (deliverLoop fuel t st acc).1 ∧
      (deliverLoop fuel t' st acc).2.2 = (deliverLoop fuel t st acc).2.2 := by
  induction fuel generalizing t t' st acc with
  | zero => exact ⟨rfl, rfl⟩
  | succ fuel ih =>
    cases hl : st.chunks.lookup st.nextExpected with
    | none => simp [deliverLoop, hl]
    | some payload =>
      rw [deliverLoop_of_some hl, deliverLoop_of_some hl]
      exact ih _ _ _ _

namespace ExitReassembler
variable {r r' : ExitReassembler} {st : ExitStreamState} {c : Chunk} {s : UInt32}

theorem checkBounds_mono (hcfg : r'.cfg = r.cfg) (hle : r'.totalBytes ≤ r.totalBytes) {payload : Bytes}
    (h : r.checkBounds st payload = none) : r'.checkBounds st payload = none := by
  obtain ⟨hchunks, hbytes⟩ := checkBounds_eq_none h
  unfold checkBounds
  rw [hcfg, if_neg, if_neg]
  · rintro ⟨hpos, hlt⟩
    have := hbytes hpos
    omega
  · rintro ⟨hpos, hge⟩
    have := hchunks hpos
    omega

/-! The byte counter does not show in the results. -/

theorem storeData_congr (t t' : ℤ) (st : ExitStreamState) (c : Chunk) :
    ∃ u, storeData t' st c = { storeData t st c with totalBytes := u } := by
  rw [storeData_eq, storeData_eq]
  set st₁ := (st.store c.sequence c.payload).noteTotal c.total
  obtain ⟨hdel, hst⟩ := ExitStreamState.deliverLoop_congr st₁.chunks.size (t + c.payload.length)
    (t' + c.payload.length) st₁ []
  simp only [ExitStreamState.deliverContiguous, hdel, hst]
  exact ⟨_, rfl⟩

theorem endStream_congr (clamp : ℤ → ℤ) (t t' : ℤ) (st : ExitStreamState) :
    ∃ u, endStream clamp t' st = { endStream clamp t st with totalBytes := u } := by
  unfold endStream ExitStreamState.flushRemaining
  split_ifs <;> exact ⟨_, rfl⟩

theorem processChunk_congr (clamp : ℤ → ℤ) (hcfg : r'.cfg = r.cfg) (hle : r'.totalBytes ≤ r.totalBytes)
    (h : (r.processChunk clamp st c).err = none) :
    ∃ u, r'.processChunk clamp st c = { r.processChunk clamp st c with totalBytes := u } := by
  unfold processChunk at h ⊢
  cases hb : r.checkBounds st c.payload with
  | none =>
    rw [checkBounds_mono hcfg hle hb]
    split_ifs
    · exact ⟨_, rfl⟩
    · exact ⟨_, rfl⟩
    · exact endStream_congr clamp _ _ _
    · exact endStream_congr clamp _ _ _
    · exact ⟨_, rfl⟩
    · exact ⟨_, rfl⟩
    · exact ⟨_, rfl⟩
    · exact storeData_congr _ _ _ _
  | some e =>
    rw [hb] at h
    split_ifs at h ⊢
    · exact ⟨_, rfl⟩
    · exact ⟨_, rfl⟩
    · exact endStream_congr clamp _ _ _
    · exact ⟨_, rfl⟩
    · exact ⟨_, rfl⟩
    · exact ⟨_, rfl⟩

structure Agree (s : UInt32) (r r' : ExitReassembler) : Prop where
  cfg : r'.cfg = r.cfg
  lookup : r'.streams.lookup s = r.streams.lookup s
  completed : s ∈ r'.completedStreams ↔ s ∈ r.completedStreams

theorem Agree.live (h : Agree s r r') : r'.Live s ↔ r.Live s := by
  rw [Live, Live, h.lookup, h.completed]

theorem Agree.other (h : Agree s r r') (now : Time) (hs : c.streamID ≠ s) : Agree s (r.addStreaming now c).2 r' := by
  have hcall := (r.add_called clampNonneg now c).1
  obtain ⟨hl, hc⟩ := hcall.lookup_of_ne hs
  exact ⟨h.cfg.trans hcall.cfg.symm, h.lookup.trans hl.symm, h.completed.trans hc.symm⟩

theorem Agree.own (h : Agree s r r') (hle : r'.totalBytes ≤ r.totalBytes) (now : Time) (hs : c.streamID = s)
    (herr : (r.addStreaming now c).1.err = none) :
    (r'.addStreaming now c).1 = (r.addStreaming now c).1 ∧
      Agree s (r.addStreaming now c).2 (r'.addStreaming now c).2 := by
  subst hs
  unfold addStreaming at herr ⊢
  by_cases hl : r.Live c.streamID
  · have hentry := entry_congr h.lookup now
    rw [addStreamingWith_of_live clampNonneg hl] at herr ⊢
    rw [addStreamingWith_of_live clampNonneg (h.live.mpr hl), hentry]
    obtain ⟨u, hp⟩ := processChunk_congr clampNonneg h.cfg hle herr
    rw [hp]
    refine ⟨rfl, ?_, ?_, ?_⟩
    · rw [settle_cfg, settle_cfg, h.cfg]
    · rw [settle_lookup_self, settle_lookup_self]
    · rw [settle_completedStreams, settle_completedStreams]
      split_ifs
      · simp
      · exact h.completed
  · rw [(add_of_not_live clampNonneg hl).1, (add_of_not_live clampNonneg (mt h.live.mp hl)).1]
    exact ⟨rfl, h⟩

/-- A reassembler with one stream counts at most what one with more streams counts. -/
theorem Agree.total_le (h : Agree s r r') (ha : Accounted r) (ha' : Accounted r')
    (halone : ∀ s' ≠ s, r'.streams.lookup s' = none) : r'.totalBytes ≤ r.totalBytes := by
  rw [ha'.total, Map.total_eq_of_only _ halone, h.lookup]
  cases hl : r.streams.lookup s with
  | none => exact ha.total_nonneg
  | some st => exact ha.bytes_le hl

end ExitReassembler

def HandleResult.beyondWindow (res : HandleResult) : Bool :=
  match res.err with
  | some (.window ..) => true
  | _ => false

def HandleResult.overLimit (res : HandleResult) : Bool :=
  match res.err with
  | some (.reassemble _) => true
  | _ => false

namespace ExitCircuit

section Observe
variable {cfg : CircuitConfig} {c : ExitCircuit} {now : Time} {path : PathIndex} {write : WriteOutcome}
  {chunk : Chunk} {out : HandleResult × ExitCircuit}

theorem Handled.of_beyondWindow (h : Handled cfg c now path write chunk out) (ha : c.state = .active)
    (hw : cfg.BeyondWindow c.ackBase chunk.sequence) :
    out.1.delivered = [] ∧ out.1.beyondWindow = true ∧ out.2.reassembler = c.reassembler := by
  cases h with
  | inactive hn => exact absurd ha hn
  | window => exact ⟨rfl, rfl, rfl⟩
  | rejected _ hn | writeFailed _ hn | delivered _ hn => exact absurd hw hn

theorem Handled.of_not_beyondWindow (h : Handled cfg c now path write chunk out) (ha : c.state = .active)
    (hw : ¬ cfg.BeyondWindow c.ackBase chunk.sequence) :
    let added := c.reassembler.addStreaming now chunk
    out.1.beyondWindow = false ∧ out.2.reassembler = added.2 ∧ (out.1.overLimit = false ↔ added.1.err = none) ∧
      (added.1.err = none → out.1.delivered = added.1.data) := by
  cases h with
  | inactive hn => exact absurd ha hn
  | window _ hb => exact absurd hb hw
  | rejected _ _ e he _ hc =>
    obtain ⟨_, _, _, _, _, rfl⟩ := hc
    exact ⟨rfl, rfl, by simp [HandleResult.overLimit, he], fun hn => by rw [he] at hn; cases hn⟩
  | writeFailed _ _ he _ _ _ hc =>
    obtain ⟨_, _, _, _, _, rfl⟩ := hc
    exact ⟨rfl, rfl, by simp [HandleResult.overLimit, he], fun _ => rfl⟩
  | delivered _ _ he _ err herr _ hc =>
    obtain ⟨_, _, _, _, _, rfl⟩ := hc
    rcases herr with rfl | rfl <;> exact ⟨rfl, rfl, by simp [HandleResult.overLimit, he], fun _ => rfl⟩

end Observe

/-- `c'` is a circuit that carries only stream `s`, with the same state for it as `c`. -/
structure Isolated (s : UInt32) (c c' : ExitCircuit) : Prop where
  active : c.state = .active
  active' : c'.state = .active
  agree : c.reassembler.Agree s c'.reassembler
  accounted : c.reassembler.Accounted
  accounted' : c'.reassembler.Accounted
  alone : ∀ s' ≠ s, c'.reassembler.streams.lookup s' = none

theorem isolated_new (s : UInt32) (circuitID e2eKey : Bytes) (cfg : ChunkerConfig) (now : Time) :
    Isolated s (newExitCircuit circuitID e2eKey cfg now) (newExitCircuit circuitID e2eKey cfg now) :=
  ⟨rfl, rfl, ⟨rfl, rfl, Iff.rfl⟩, ExitReassembler.accounted_new cfg, ExitReassembler.accounted_new cfg, fun _ _ => rfl⟩

section Steps
variable {cfg : CircuitConfig} {s : UInt32} {c c' : ExitCircuit} {now : Time} {path : PathIndex}
  {write : WriteOutcome} {chunk : Chunk}

theorem accounted_addStreaming {r : ExitReassembler} (h : r.Accounted) (now : Time) (chunk : Chunk) :
    (r.addStreaming now chunk).2.Accounted := by
  obtain ⟨⟨hacc, heq⟩, -⟩ := h.add now chunk
  rw [ExitReassembler.addStreaming, heq]
  exact hacc

theorem Isolated.other (h : Isolated s c c') (cfg : CircuitConfig) (now : Time) (path : PathIndex)
    (write : WriteOutcome) (hs : chunk.streamID ≠ s) : Isolated s (c.handleChunk cfg now path write chunk).2 c' := by
  have hh := c.handleChunk_handled cfg now path write chunk
  have hactive := hh.frame.1.trans h.active
  by_cases hw : cfg.BeyondWindow c.ackBase chunk.sequence
  · obtain ⟨-, -, hr⟩ := hh.of_beyondWindow h.active hw
    exact ⟨hactive, h.active', hr ▸ h.agree, hr ▸ h.accounted, h.accounted', h.alone⟩
  · obtain ⟨-, hr, -, -⟩ := hh.of_not_beyondWindow h.active hw
    exact ⟨hactive, h.active', hr ▸ h.agree.other now hs, hr ▸ accounted_addStreaming h.accounted now chunk,
      h.accounted', h.alone⟩

theorem Isolated.own (h : Isolated s c c') (hs : chunk.streamID = s) (hbase : c'.ackBase = c.ackBase)
    (hlim : (c.handleChunk cfg now path write chunk).1.overLimit = false) :
    let out := c.handleChunk cfg now path write chunk
    let out' := c'.handleChunk cfg now path write chunk
    out'.1.delivered = out.1.delivered ∧ out'.1.beyondWindow = out.1.beyondWindow ∧ Isolated s out.2 out'.2 := by
  have hh := c.handleChunk_handled cfg now path write chunk
  have hh' := c'.handleChunk_handled cfg now path write chunk
  have hactive := hh.frame.1.trans h.active
  have hactive' := hh'.frame.1.trans h.active'
  by_cases hw : cfg.BeyondWindow c.ackBase chunk.sequence
  · obtain ⟨hdel, hbw, hr⟩ := hh.of_beyondWindow h.active hw
    obtain ⟨hdel', hbw', hr'⟩ := hh'.of_beyondWindow h.active' (hbase ▸ hw)
    refine ⟨hdel'.trans hdel.symm, hbw'.trans hbw.symm, hactive, hactive', ?_, ?_, ?_, ?_⟩
    · rw [hr, hr']
      exact h.agree
    · exact hr ▸ h.accounted
    · exact hr' ▸ h.accounted'
    · exact hr' ▸ h.alone
  · obtain ⟨hbw, hr, hover, hdel⟩ := hh.of_not_beyondWindow h.active hw
    obtain ⟨hbw', hr', -, hdel'⟩ := hh'.of_not_beyondWindow h.active' (hbase ▸ hw)
    have herr := hover.mp hlim
    obtain ⟨hadd, hagree⟩ := h.agree.own (h.agree.total_le h.accounted h.accounted' h.alone) now hs herr
    refine ⟨?_, hbw'.trans hbw.symm, hactive, hactive', ?_, ?_, ?_, ?_⟩
    · rw [hdel herr, hdel' (hadd ▸ herr), hadd]
    · rw [hr, hr']
      exact hagree
    · exact hr ▸ accounted_addStreaming h.accounted now chunk
    · exact hr' ▸ accounted_addStreaming h.accounted' now chunk
    · intro s' hs'
      rw [hr', ExitReassembler.addStreaming,
        ((ExitReassembler.add_called _ clampNonneg now _).1.lookup_of_ne (hs ▸ hs'.symm)).1]
      exact h.alone s' hs'

end Steps

/-- Before every chunk of stream `s`, the window base of `c` is that of `c'`, which handles only the
chunks of `s`. -/
def BasesAgree (cfg : CircuitConfig) (s : UInt32) : ExitCircuit → ExitCircuit → List ChunkEvent → Prop
  | _, _, [] => True
  | c, c', ev :: evs =>
    if ev.chunk.streamID = s then
      c'.ackBase = c.ackBase ∧
        BasesAgree cfg s (c.handleChunk cfg ev.now ev.path ev.write ev.chunk).2
          (c'.handleChunk cfg ev.now ev.path ev.write ev.chunk).2 evs
    else BasesAgree cfg s (c.handleChunk cfg ev.now ev.path ev.write ev.chunk).2 c' evs

/-- What a run shows of stream `s`: for each of its chunks, the bytes delivered and whether the window
refused it. -/
def observed (s : UInt32) (trace : List (ChunkEvent × HandleResult)) : List (Bytes × Bool) :=
  (trace.filter (fun x => decide (x.1.chunk.streamID = s))).map (fun x => (x.2.delivered, x.2.beyondWindow))

instance decidableBasesAgree (cfg : CircuitConfig) (s : UInt32) :
    ∀ c c' evs, Decidable (BasesAgree cfg s c c' evs)
  | _, _, [] => isTrue trivial
  | c, c', ev :: evs =>
    if hs : ev.chunk.streamID = s then
      have := decidableBasesAgree cfg s (c.handleChunk cfg ev.now ev.path ev.write ev.chunk).2
        (c'.handleChunk cfg ev.now ev.path ev.write ev.chunk).2 evs
      decidable_of_iff' (_ ∧ _) (iff_of_eq (if_pos hs))
    else
      have := decidableBasesAgree cfg s (c.handleChunk cfg ev.now ev.path ev.write ev.chunk).2 c' evs
      decidable_of_iff' _ (iff_of_eq (if_neg hs))

theorem observed_cons_of_eq {s : UInt32} {ev : ChunkEvent} (hs : ev.chunk.streamID = s) (res : HandleResult)
    (trace : List (ChunkEvent × HandleResult)) :
    observed s ((ev, res) :: trace) = (res.delivered, res.beyondWindow) :: observed s trace := by
  simp [observed, hs]

theorem observed_cons_of_ne {s : UInt32} {ev : ChunkEvent} (hs : ev.chunk.streamID ≠ s) (res : HandleResult)
    (trace : List (ChunkEvent × HandleResult)) : observed s ((ev, res) :: trace) = observed s trace := by
  simp [observed, hs]

theorem Isolated.observed_eq {cfg : CircuitConfig} {s : UInt32} {evs : List ChunkEvent} {c c' : ExitCircuit}
    (h : Isolated s c c') (hlim : ∀ x ∈ c.handleAll cfg evs, x.2.overLimit = false)
    (hbase : BasesAgree cfg s c c' evs) :
    observed s (c.handleAll cfg evs) =
      observed s (c'.handleAll cfg (evs.filter (fun ev => decide (ev.chunk.streamID = s)))) := by
  induction evs generalizing c c' with
  | nil => rfl
  | cons ev evs ih =>
    rw [handleAll] at hlim ⊢
    rw [BasesAgree] at hbase
    have hlim' := (List.forall_mem_cons.mp hlim).2
    split_ifs at hbase with hs
    · obtain ⟨hdel, hbw, hiso⟩ := h.own hs hbase.1 (hlim _ List.mem_cons_self)
      rw [List.filter_cons, if_pos (decide_eq_true hs), handleAll, observed_cons_of_eq hs, observed_cons_of_eq hs,
        hdel, hbw, ih hiso hlim' hbase.2]
    · rw [List.filter_cons, if_neg (by simp [hs]), observed_cons_of_ne hs]
      exact ih (h.other cfg ev.now ev.path ev.write hs) hlim' hbase

/-- A stream sees nothing of the others on its circuit as long as they leave the shared window base
where the stream's own chunks would have put it. -/
theorem handleAll_isolated (cfg : CircuitConfig) (circuitID e2eKey : Bytes) (chunkerCfg : ChunkerConfig)
    (created : Time) (s : UInt32) (evs : List ChunkEvent)
    (hlim : ∀ x ∈ (newExitCircuit circuitID e2eKey chunkerCfg created).handleAll cfg evs, x.2.overLimit = false)
    (hbase : BasesAgree cfg s (newExitCircuit circuitID e2eKey chunkerCfg created)
      (newExitCircuit circuitID e2eKey chunkerCfg created) evs) :
    observed s ((newExitCircuit circuitID e2eKey chunkerCfg created).handleAll cfg evs) =
      observed s ((newExitCircuit circuitID e2eKey chunkerCfg created).handleAll cfg
        (evs.filter (fun ev => decide (ev.chunk.streamID = s)))) :=
  (isolated_new s circuitID e2eKey chunkerCfg created).observed_eq hlim hbase

/-- Stream 2 stays behind stream 1. -/
theorem handleAll_isolated_behind :
    observed 1 (freshCircuit.handleAll defaultCircuitConfig
        [dataEvent 0 1 0 [0x61], dataEvent 1 2 0 [0x78], dataEvent 2 1 1 [0x62]]) =
      observed 1 (freshCircuit.handleAll defaultCircuitConfig
        [dataEvent 0 1 0 [0x61], dataEvent 2 1 1 [0x62]]) :=
  handleAll_isolated defaultCircuitConfig [] [] defaultChunkerConfig 0 1
    [dataEvent 0 1 0 [0x61], dataEvent 1 2 0 [0x78], dataEvent 2 1 1 [0x62]] (by decide) (by decide)

/-- With a window of one, the first chunk of stream 2 lets the second chunk of stream 1 in. -/
def overtakingEvents : List ChunkEvent :=
  [dataEvent 0 2 0 [0x78], dataEvent 1 1 1 [0x62], dataEvent 2 1 0 [0x61]]

theorem handleAll_not_isolated :
    (freshCircuit.handleAll { defaultCircuitConfig with maxReassemblyWindow := 1 } overtakingEvents).all
        (!·.2.overLimit) = true ∧
      observed 1 (freshCircuit.handleAll { defaultCircuitConfig with maxReassemblyWindow := 1 } overtakingEvents) =
        [([], false), ([0x61, 0x62], false)] ∧
      observed 1 (freshCircuit.handleAll { defaultCircuitConfig with maxReassemblyWindow := 1 }
          (overtakingEvents.filter (fun ev => decide (ev.chunk.streamID = 1)))) =
        [([], true), ([0x61], false)] := by
  decide

end ExitCircuit
end MeshDesk.Proxy
