import MeshDesk.Proxy.StreamBuffer
import MeshDesk.Proxy.Chunker

/-! Buffered mode: every chunk of the data carries their number as its total, and the
reassembler returns the whole stream once it has delivered that many. Order and duplicates do not
matter. -/
namespace MeshDesk.Proxy
open Lib List

theorem Chunk.isData_of_type {c : Chunk} (h : c.type = .data) : c.isData := by
  simp [isData, h, ChunkType.data, ChunkType.padding, ChunkType.streamEnd]

namespace ExitStreamState

structure InProgress (P : ℕ → Bytes) (N : ℕ) (R : Set ℕ) (m : ℕ) (st : ExitStreamState) : Prop where
  buffered : Buffered P R m st
  live : st.completed = false
  total : st.totalSet = true → st.total = UInt32.ofNat N
  accumulated : st.accumulated = segment P 0 m
  inRange : ∀ k ∈ R, k < N
  lt : m < N

variable {P : ℕ → Bytes} {N : ℕ} {R : Set ℕ} {m : ℕ} {st : ExitStreamState} {c : Chunk}

theorem inProgress_new (P : ℕ → Bytes) (now : Time) (hN : 0 < N) : InProgress P N ∅ 0 (newExitStreamState now) where
  buffered := buffered_new P now
  live := rfl
  total h := by cases h
  accumulated := rfl
  inRange k hk := absurd hk (Set.notMem_empty k)
  lt := hN

theorem noteTotal_total (h : st.totalSet = true → st.total = UInt32.ofNat N) (hpos : 0 < UInt32.ofNat N) :
    (st.noteTotal (UInt32.ofNat N)).totalSet = true ∧
      (st.noteTotal (UInt32.ofNat N)).total = UInt32.ofNat N := by
  unfold noteTotal
  split_ifs with hn
  · exact ⟨rfl, rfl⟩
  · have hset : st.totalSet = true := by simpa [hpos] using hn
    exact ⟨hset, h hset⟩

theorem noteTotal_frame (st : ExitStreamState) (n : UInt32) :
    (st.noteTotal n).nextExpected = st.nextExpected ∧ (st.noteTotal n).accumulated = st.accumulated ∧
      (st.noteTotal n).completed = st.completed := by
  unfold noteTotal
  split_ifs <;> exact ⟨rfl, rfl, rfl⟩

theorem ofNat_le_ofNat {a b : ℕ} (ha : a < 2 ^ 32) (hb : b < 2 ^ 32) : UInt32.ofNat a ≤ UInt32.ofNat b ↔ a ≤ b := by
  rw [UInt32.le_iff_toNat_le, UInt32.toNat_ofNat', UInt32.toNat_ofNat', Nat.mod_eq_of_lt ha,
    Nat.mod_eq_of_lt hb]

/-- The stream is complete, or it goes on with one more chunk stored. -/
def Advanced (P : ℕ → Bytes) (N : ℕ) (R : Set ℕ) (p : ProcessResult) : Prop :=
  let acc := p.st.accumulated ++ p.delivered
  (p.done = true ∧ acc = segment P 0 N) ∨
    (p.done = false ∧ ∃ m', InProgress P N R m' { p.st with accumulated := acc })

/-- Storing one more chunk of the stream. `N` itself is never stored, so the delivery loop stops there
at the latest. -/
theorem InProgress.storeData (h : InProgress P N R m st) (t : ℤ) (hN : N < 2 ^ 32)
    (ht : c.total = UInt32.ofNat N) (hq : c.sequence.toNat < N) (hP : c.payload = P c.sequence.toNat) :
    Advanced P N (insert c.sequence.toNat R) (ExitReassembler.storeData t st c) := by
  have hpos : 0 < UInt32.ofNat N := by
    rw [UInt32.lt_iff_toNat_lt, UInt32.toNat_ofNat_of_lt' hN]
    exact lt_of_le_of_lt (Nat.zero_le _) hq
  rw [ExitReassembler.storeData_eq, Advanced]
  set st₁ := (st.store c.sequence c.payload).noteTotal c.total with hst₁
  have hchunks : st₁.chunks = st.chunks.insert c.sequence (P c.sequence.toNat) := by
    rw [hst₁, noteTotal_chunks, hP]
    rfl
  obtain ⟨hnext, hacc₁, hcomp₁⟩ := noteTotal_frame (st.store c.sequence c.payload) c.total
  rw [← hst₁] at hnext hacc₁ hcomp₁
  have hall : ∀ k ∈ insert c.sequence.toNat R, k < N := by
    intro k hk
    rcases Set.mem_insert_iff.mp hk with rfl | hk
    · exact hq
    · exact h.inRange k hk
  have hgap : N ∉ insert c.sequence.toNat R := fun hk => lt_irrefl N (hall N hk)
  obtain ⟨m', hbuf, hdel, htk⟩ := h.buffered.deliver hnext hchunks (.inr ⟨N, hN, hgap⟩)
    (t + c.payload.length)
  set d := st₁.deliverContiguous (t + c.payload.length)
  have hle : m' ≤ N := hbuf.mex.le_of_notMem hgap
  obtain ⟨hset, htot⟩ : d.2.2.totalSet = true ∧ d.2.2.total = UInt32.ofNat N := by
    rw [htk.totalSet, htk.total, hst₁, ht]
    exact noteTotal_total h.total hpos
  have hacc : d.2.2.accumulated ++ d.1 = segment P 0 m' := by
    rw [htk.accumulated, hacc₁, hdel]
    exact h.accumulated ▸ segment_append P (Nat.zero_le m) htk.le
  have hcomp : d.2.2.completed = false := htk.completed.trans (hcomp₁.trans h.live)
  have hdone : decide (d.2.2.total ≤ d.2.2.nextExpected) = decide (N ≤ m') := by
    rw [htot, htk.next]
    exact decide_eq_decide.mpr (ofNat_le_ofNat hN (by omega))
  simp only [hset, hdone, hcomp, Bool.true_and, Bool.false_or]
  by_cases hfull : N ≤ m'
  · refine .inl ⟨by simpa using hfull, ?_⟩
    rw [hacc, le_antisymm hle hfull]
  · refine .inr ⟨by simpa using hfull, m', hbuf.congr rfl rfl, by simpa using hfull, fun _ => htot, hacc,
      hall, by omega⟩

theorem InProgress.processChunk (h : InProgress P N R m st) (clamp : ℤ → ℤ) (r : ExitReassembler) (hd : c.isData)
    (hN : N < 2 ^ 32) (ht : c.total = UInt32.ofNat N) (hq : c.sequence.toNat < N)
    (hP : c.payload = P c.sequence.toNat) (herr : (r.processChunk clamp st c).err = none) :
    Advanced P N (insert c.sequence.toNat R) (r.processChunk clamp st c) := by
  have hrange : ¬ UInt32.ofNat N ≤ c.sequence := by
    rw [UInt32.le_iff_toNat_le, UInt32.toNat_ofNat_of_lt' hN]
    omega
  have hp := ExitReassembler.processChunk_processed clamp r st c
  generalize r.processChunk clamp st c = p at hp herr
  cases hp with
  | completed hc => simp [h.live] at hc
  | padding he => exact absurd he hd.1
  | outOfRange _ hr =>
    rcases hr with ⟨-, hle⟩ | ⟨hset, hle⟩
    · exact absurd (ht ▸ hle) hrange
    · exact absurd (h.total hset ▸ hle) hrange
  | duplicate _ hs =>
    obtain ⟨v, hv⟩ := Option.isSome_iff_exists.mp hs
    have hmem := (h.buffered.sound _ v hv).1
    refine .inr ⟨rfl, m, ?_⟩
    simpa [Set.insert_eq_of_mem hmem] using h
  | rejected e => cases herr
  | ended he | endedWith he => exact absurd he hd.2
  | stored => exact h.storeData r.totalBytes hN ht hq hP

end ExitStreamState

namespace ExitReassembler
open ExitStreamState

def completions (s : UInt32) : ExitReassembler → List (Time × Chunk) → List Bytes
  | _, [] => []
  | r, (now, c) :: calls =>
    (if c.streamID = s ∧ (r.add now c).1.done = true then [(r.add now c).1.data] else []) ++
      completions s (r.add now c).2 calls

def WithinLimits (s : UInt32) : ExitReassembler → List (Time × Chunk) → Prop
  | _, [] => True
  | r, (now, c) :: calls =>
    (c.streamID = s → (r.add now c).1.err = none) ∧ WithinLimits s (r.add now c).2 calls

variable {P : ℕ → Bytes} {N : ℕ} {R : Set ℕ} {m : ℕ} {s : UInt32} {r : ExitReassembler} {c : Chunk}

theorem completions_of_completed (calls : List (Time × Chunk)) (h : s ∈ r.completedStreams) :
    completions s r calls = [] := by
  induction calls generalizing r with
  | nil => rfl
  | cons call calls ih =>
    obtain ⟨now, c⟩ := call
    rw [completions, add, ih ((r.add_called clampNonneg now c).2.completed_mono h), append_nil]
    refine if_neg (fun ⟨hs, hdone⟩ => ?_)
    have hnl : ¬ r.Live c.streamID := fun hl => hl.1 (hs ▸ h)
    rw [(add_of_not_live clampNonneg hnl).2] at hdone
    cases hdone

structure Collects (P : ℕ → Bytes) (N : ℕ) (R : Set ℕ) (m : ℕ) (s : UInt32) (r : ExitReassembler) :
    Prop where
  notCompleted : s ∉ r.completedStreams
  entry : ∀ now, InProgress P N R m (r.entry s now)

section
variable (h : Collects P N R m s r)
include h

theorem Collects.live : r.Live s :=
  live_of_entry h.notCompleted (h.entry 0).live

theorem Collects.of_lookup {r' : ExitReassembler}
    (hl : r'.streams.lookup s = r.streams.lookup s)
    (hc : s ∈ r'.completedStreams ↔ s ∈ r.completedStreams) : Collects P N R m s r' :=
  ⟨mt hc.mp h.notCompleted, fun now => entry_congr hl now ▸ h.entry now⟩

theorem Collects.add (now : Time) (hs : c.streamID = s) (hd : c.isData)
    (hN : N < 2 ^ 32) (ht : c.total = UInt32.ofNat N) (hq : c.sequence.toNat < N)
    (hP : c.payload = P c.sequence.toNat) (herr : (r.add now c).1.err = none) :
    let out := r.add now c
    (s ∈ out.2.completedStreams ∧ out.1.done = true ∧ out.1.data = segment P 0 N) ∨
      (out.1.done = false ∧ ∃ m', Collects P N (insert c.sequence.toNat R) m' s out.2) := by
  subst hs
  rw [ExitReassembler.add, addWith_of_live clampNonneg h.live] at herr ⊢
  have hstep := (h.entry now).processChunk clampNonneg r hd hN ht hq hP herr
  set p := r.processChunk clampNonneg (r.entry c.streamID now) c
  rcases hstep with ⟨hdone, hacc⟩ | ⟨hdone, m', hin⟩
  · left
    simp only [hdone, if_true, settle_completedStreams]
    exact ⟨Finset.mem_insert_self _ _, trivial, hacc⟩
  · right
    refine ⟨hdone, m', ?_, fun now' => ?_⟩
    · rw [settle_completedStreams, hdone]
      exact h.notCompleted
    · simp only [hdone, settle_entry]
      exact hin

theorem Collects.completions {calls : List (Time × Chunk)} (hN : N < 2 ^ 32)
    (hc : ∀ call ∈ calls, call.2.streamID = s → call.2.isData ∧ call.2.total = UInt32.ofNat N ∧
      call.2.sequence.toNat < N ∧ call.2.payload = P call.2.sequence.toNat)
    (hall : ∀ k < N, k ∈ R ∨ ∃ call ∈ calls, call.2.streamID = s ∧ call.2.sequence.toNat = k)
    (hw : WithinLimits s r calls) : completions s r calls = [segment P 0 N] := by
  induction calls generalizing r R m with
  | nil =>
    have hin := h.entry 0
    rcases hall m hin.lt with hm | ⟨call, hmem, -⟩
    · exact absurd hm hin.buffered.mex.gap
    · cases hmem
  | cons call calls ih =>
    obtain ⟨now, c⟩ := call
    obtain ⟨hwc, hwr⟩ := hw
    have hc' := (forall_mem_cons.mp hc).2
    rw [ExitReassembler.completions]
    by_cases hs : c.streamID = s
    · obtain ⟨hd, ht, hq, hP⟩ := hc (now, c) mem_cons_self hs
      rcases h.add now hs hd hN ht hq hP (hwc hs) with ⟨hcomp, hdone, hdata⟩ | ⟨hdone, m', hcol⟩
      · rw [completions_of_completed calls hcomp, if_pos ⟨hs, hdone⟩, hdata]
        rfl
      · rw [if_neg (by simp [hdone]), nil_append]
        refine ih hcol hc' (fun k hk => ?_) hwr
        rcases hall k hk with hkR | ⟨call, hmem, hcs, hck⟩
        · exact .inl (Set.mem_insert_of_mem _ hkR)
        · rcases mem_cons.mp hmem with rfl | hmem
          · exact .inl (hck ▸ Set.mem_insert _ _)
          · exact .inr ⟨call, hmem, hcs, hck⟩
    · rw [if_neg (fun hcon => hs hcon.1), nil_append]
      obtain ⟨hl, hcomp⟩ := (r.add_called clampNonneg now c).2.lookup_of_ne hs
      refine ih (h.of_lookup hl hcomp) hc' (fun k hk => ?_) hwr
      rcases hall k hk with hkR | ⟨call, hmem, hcs, hck⟩
      · exact .inl hkR
      · rcases mem_cons.mp hmem with rfl | hmem
        · exact absurd hcs hs
        · exact .inr ⟨call, hmem, hcs, hck⟩

end

/-- Whatever order and duplicates the chunks `cs` of stream `s` arrive in, and whatever other
streams arrive between them, `Add` completes the stream once and returns `data`. -/
def RoundTrips (s : UInt32) (cs : List Chunk) (data : Bytes) : Prop :=
  ∀ (cfg : ChunkerConfig) (calls : List (Time × Chunk)),
    (∀ c ∈ cs, c ∈ calls.map (·.2)) → (∀ c ∈ calls.map (·.2), c.streamID = s → c ∈ cs) →
      WithinLimits s (newExitReassembler cfg) calls → completions s (newExitReassembler cfg) calls = [data]

theorem collects_new (P : ℕ → Bytes) (s : UInt32) (cfg : ChunkerConfig) (hN : 0 < N) :
    Collects P N ∅ 0 s (newExitReassembler cfg) :=
  ⟨Finset.notMem_empty s, fun now => inProgress_new P now hN⟩

theorem roundTrips_of_total {cs : List Chunk} (hnum : Numbered s 0 cs) (hne : cs ≠ [])
    (hlen : cs.length < 2 ^ 32) (ht : ∀ c ∈ cs, c.total = UInt32.ofNat cs.length) :
    RoundTrips s cs (cs.flatMap (·.payload)) := by
  intro cfg calls hsub hown hw
  have hpos : 0 < cs.length := length_pos_iff.mpr hne
  -- A chunk's sequence number is its index.
  have hidx : ∀ i c, cs[i]? = some c → i < cs.length ∧ c.streamID = s ∧ c.type = .data ∧ c.sequence.toNat = i := by
    intro i c hi
    have hil : i < cs.length := (List.getElem?_eq_some_iff.mp hi).1
    obtain ⟨hs, hq, htype, -⟩ := hnum.get hi
    refine ⟨hil, hs, htype, ?_⟩
    rw [hq, UInt32.zero_add, UInt32.toNat_ofNat', Nat.mod_eq_of_lt (by omega)]
  have hseg : segment (fun k => (cs.map (·.payload)).getD k []) 0 cs.length = cs.flatMap (·.payload) := by
    have := segment_getD (cs.map (·.payload))
    rwa [length_map] at this
  rw [← hseg]
  refine (collects_new _ s cfg hpos).completions hlen (fun call hcall hs => ?_) (fun k hk => .inr ?_) hw
  · have hmem := hown call.2 (mem_map_of_mem hcall) hs
    obtain ⟨i, hi⟩ := mem_iff_getElem?.mp hmem
    obtain ⟨hil, -, htype, hq⟩ := hidx i call.2 hi
    refine ⟨Chunk.isData_of_type htype, ht _ hmem, by omega, ?_⟩
    simp [hq, hi]
  · obtain ⟨hil, hs, -, hq⟩ := hidx k cs[k] (List.getElem?_eq_getElem hk)
    obtain ⟨call, hcall, heq⟩ := mem_map.mp (hsub cs[k] (getElem_mem hk))
    exact ⟨call, hcall, heq ▸ hs, heq ▸ hq⟩

def unlimited : ChunkerConfig := { defaultChunkerConfig with maxReassemblyChunks := 0, maxReassemblyBytes := 0 }

theorem add_single {c : Chunk} (hq : c.sequence = 0) (ht : c.type = .data) (hT : c.total ≠ 1) :
    ((newExitReassembler unlimited).add 0 c).1 = ⟨[], false, none⟩ := by
  have hlive : (newExitReassembler unlimited).Live c.streamID :=
    ⟨Finset.notMem_empty _, fun st h => by cases h⟩
  have hd : c.isData := Chunk.isData_of_type ht
  have hentry : (newExitReassembler unlimited).entry c.streamID 0 = newExitStreamState 0 := rfl
  have hp := processChunk_processed clampNonneg (newExitReassembler unlimited) (newExitStreamState 0) c
  rw [add, addWith_of_live clampNonneg hlive, hentry]
  generalize processChunk clampNonneg (newExitReassembler unlimited) (newExitStreamState 0) c = p at hp
  cases hp with
  | rejected e _ hb => simp [checkBounds, unlimited, newExitReassembler] at hb
  | ended he | endedWith he => exact absurd he hd.2
  | stored =>
    rw [storeData_eq]
    set st₁ := ((newExitStreamState 0).store c.sequence c.payload).noteTotal c.total with hst₁
    have hchunks : st₁.chunks = (newExitStreamState 0).chunks.insert c.sequence c.payload :=
      noteTotal_chunks _ _
    have hnext : st₁.nextExpected = (newExitStreamState 0).nextExpected := (noteTotal_frame _ _).1
    obtain ⟨m', hbuf, -, htk⟩ := (buffered_new (fun _ => c.payload) 0).deliver hnext hchunks
      (.inl ⟨fun _ _ => rfl, Nat.zero_le _⟩) ((newExitReassembler unlimited).totalBytes + c.payload.length)
    have hone : IsMex (insert c.sequence.toNat ∅) 1 := by
      rw [hq]
      exact ⟨fun k hk => by simp; omega, by simp⟩
    obtain rfl : m' = 1 := hbuf.mex.eq hone
    have hdone : (st₁.totalSet && decide (st₁.total ≤ 1)) = false := by
      rw [hst₁, noteTotal]
      split_ifs with hpos
      · simp only [Bool.true_and, decide_eq_false_iff_not]
        intro hle
        have h₁ := UInt32.lt_iff_toNat_lt.mp hpos.1
        have h₂ := UInt32.le_iff_toNat_le.mp hle
        exact hT (UInt32.toNat_inj.mp (by simp at h₁ h₂ ⊢; omega))
      · rfl
    have hnone : UInt32.ofNat 1 = 1 := rfl
    simp only [htk.totalSet, htk.total, htk.next, hnone, hdone, Bool.false_eq_true, if_false]
  | _ => rfl

theorem not_roundTrips_single {c : Chunk} {data : Bytes} (hq : c.sequence = 0) (ht : c.type = .data)
    (hT : c.total ≠ 1) : ¬ RoundTrips c.streamID [c] data := by
  intro h
  have hres := add_single hq ht hT
  have hcomp := h unlimited [(0, c)] (by simp) (by simp) ⟨fun _ => by rw [hres], trivial⟩
  simp [completions, hres] at hcomp

/-- `Split` on a fresh chunker makes the round trip with either strategy, except that the fixed
chunker's rounded-up quotient must not overflow. -/
theorem split_roundTrips_iff (strategy : ChunkerStrategy) (cfg : ChunkerConfig)
    (quantile : Int64 → UInt64 → Int64) (src : PadSource) (id : UInt32) (data : Bytes) (hne : data ≠ [])
    (hlen : data.length ≤ maxAlloc)
    (hcount : (((strategy.new cfg quantile src).setStreamID id).split data).1.length < 2 ^ 32) :
    RoundTrips id (((strategy.new cfg quantile src).setStreamID id).split data).1 data ↔
      strategy = .bounded4k64k ∨
        data.length + (newFixedChunker cfg src).cfg.maxChunkSize.toInt - 1 < 2 ^ 63 := by
  obtain ⟨hnum, hcat⟩ := ((strategy.new cfg quantile src).setStreamID id).split_spec data
  have hcs : (((strategy.new cfg quantile src).setStreamID id).split data).1 ≠ [] := by
    intro hnil
    rw [hnil] at hcat
    exact hne hcat.symm
  cases strategy with
  | bounded4k64k =>
    refine ⟨fun _ => .inl rfl, fun _ => ?_⟩
    have htot := BoundedChunker.split_total { newBoundedChunker cfg quantile src with streamID := id, nextSeq := 0 }
      data rfl
    have := roundTrips_of_total hnum hcs hcount htot
    rwa [hcat] at this
  | fixed16k =>
    set c : FixedChunker := { newFixedChunker cfg src with streamID := id, nextSeq := 0 } with hc
    obtain ⟨htot, hlength⟩ := c.split_total data rfl
    by_cases h : data.length + c.cfg.maxChunkSize.toInt - 1 < 2 ^ 63
    · refine ⟨fun _ => .inr h, fun _ => ?_⟩
      have htot' : ∀ chunk ∈ (c.split data).1, chunk.total = UInt32.ofNat (c.split data).1.length := by
        intro chunk hchunk
        rw [htot chunk hchunk, c.computedTotal_eq data hlen h, hlength]
      have := roundTrips_of_total hnum hcs hcount htot'
      rwa [hcat] at this
    · refine ⟨fun hr => absurd hr ?_, fun hor => ?_⟩
      · -- The size exceeds the data, so there is one chunk, and its total is wrong.
        have hM : c.cfg.maxChunkSize.toInt = c.cfg.maxChunkSize.toNatClampNeg := by
          have := toNatClampNeg_pos c.maxPos
          rw [← Int64.toNat_toInt] at this ⊢
          omega
        have hpos : 0 < data.length := length_pos_iff.mpr hne
        unfold maxAlloc at hlen
        have hone : (c.split data).1.length = 1 := by
          rw [hlength]
          exact Nat.div_eq_of_lt_le (by omega) (by omega)
        obtain ⟨chunk, hsingle⟩ := length_eq_one_iff.mp hone
        have hchunk : (c.split data).1[0]? = some chunk := by rw [hsingle]; rfl
        obtain ⟨hs, hq, htype, -⟩ := hnum.get hchunk
        have hwrong : chunk.total ≠ 1 := by
          rw [htot chunk (by rw [hsingle]; exact mem_singleton_self _)]
          exact c.computedTotal_of_overflow data hlen (by omega)
        have hs' : chunk.streamID = id := hs
        change ¬ RoundTrips id (c.split data).1 data
        rw [hsingle, ← hs']
        exact not_roundTrips_single hq htype hwrong
      · rcases hor with hcon | hlt
        · cases hcon
        · exact absurd hlt h

theorem split_default_roundTrips :
    RoundTrips 3 (((ChunkerStrategy.fixed16k.new defaultChunkerConfig (fun _ n => n.toInt64) ⟨fun _ => none, 0⟩).setStreamID
      3).split [0x61, 0x62]).1 [0x61, 0x62] :=
  (split_roundTrips_iff .fixed16k defaultChunkerConfig (fun _ n => n.toInt64) ⟨fun _ => none, 0⟩ 3 [0x61, 0x62]
    (by decide) (by decide) (by decide)).mpr (.inr (by decide))

def hugeChunkConfig : ChunkerConfig := { defaultChunkerConfig with maxChunkSize := Int64.maxValue }

/-- Two bytes make one chunk, and its total says there are 2 ^ 32 - 1 of them. -/
theorem split_huge_not_roundTrips :
    (((ChunkerStrategy.fixed16k.new hugeChunkConfig (fun _ n => n.toInt64) ⟨fun _ => none, 0⟩).setStreamID
        3).split [0x61, 0x62]).1 = [⟨3, 0, 0xffffffff, .data, [0x61, 0x62], 1024⟩] ∧
      ¬ RoundTrips 3 (((ChunkerStrategy.fixed16k.new hugeChunkConfig (fun _ n => n.toInt64)
        ⟨fun _ => none, 0⟩).setStreamID 3).split [0x61, 0x62]).1 [0x61, 0x62] := by
  have hsplit : (((ChunkerStrategy.fixed16k.new hugeChunkConfig (fun _ n => n.toInt64) ⟨fun _ => none, 0⟩).setStreamID
      3).split [0x61, 0x62]).1 = [⟨3, 0, 0xffffffff, .data, [0x61, 0x62], 1024⟩] := by
    decide
  refine ⟨hsplit, ?_⟩
  exact not_roundTrips_single rfl rfl (by decide)

end ExitReassembler
end MeshDesk.Proxy
