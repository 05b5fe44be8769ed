import MeshDesk.Proxy.StreamBuffer

/-! Streaming delivery. A stream in streaming mode knows no total and ends with a stream-end
marker. Each call on it delivers the next contiguous run, and the marker delivers what is left. -/
namespace MeshDesk.Proxy
open Lib List

namespace ExitStreamState

/-- A stream in streaming mode whose buffer holds nothing it has delivered. -/
structure Open (P : ℕ → Bytes) (R : Set ℕ) (m : ℕ) (st : ExitStreamState) : Prop where
  buffered : Buffered P R m st
  noStale : st.NoStale m
  live : st.completed = false
  noTotal : st.totalSet = false

theorem open_new (P : ℕ → Bytes) (now : Time) : Open P ∅ 0 (newExitStreamState now) :=
  ⟨buffered_new P now, fun _ _ => rfl, rfl, rfl⟩

variable {P : ℕ → Bytes} {R : Set ℕ} {m : ℕ} {st : ExitStreamState} {c : Chunk}

theorem noteTotal_zero (st : ExitStreamState) : st.noteTotal 0 = st := if_neg (by simp)

theorem Open.not_outOfRange (h : Open P R m st) (ht : c.total = 0) : ¬ st.OutOfRange c := by
  rintro (⟨hpos, -⟩ | ⟨hset, -⟩)
  · simp [ht] at hpos
  · simp [h.noTotal] at hset

theorem Open.processChunk_data (h : Open P R m st) (clamp : ℤ → ℤ) (r : ExitReassembler) (hd : c.isData)
    (ht : c.total = 0) (hP : c.payload = P c.sequence.toNat) (hm : m ≤ c.sequence.toNat) :
    let p := r.processChunk clamp st c
    p.done = false ∧ ∃ m', Open P (if p.err = none then insert c.sequence.toNat R else R) m' p.st ∧
      p.delivered = segment P m m' ∧ m ≤ m' := by
  have hp := ExitReassembler.processChunk_processed clamp r st c
  generalize r.processChunk clamp st c = p at hp
  cases hp with
  | completed hc => simp [h.live] at hc
  | padding he => exact absurd he hd.1
  | outOfRange _ hr => exact absurd hr (h.not_outOfRange ht)
  | duplicate _ hs =>
    obtain ⟨v, hv⟩ := Option.isSome_iff_exists.mp hs
    have hmem := (h.buffered.sound _ v hv).1
    refine ⟨rfl, m, ?_, (segment_self P m).symm, le_rfl⟩
    simpa [Set.insert_eq_of_mem hmem] using h
  | rejected e => exact ⟨rfl, m, by simpa using h, (segment_self P m).symm, le_rfl⟩
  | ended he | endedWith he => exact absurd he hd.2
  | stored hc _ _ hl hb =>
    rw [ExitReassembler.storeData_eq, ht, noteTotal_zero]
    set st₁ := st.store c.sequence c.payload with hst₁
    have hchunks : st₁.chunks = st.chunks.insert c.sequence (P c.sequence.toNat) := by
      rw [hst₁, hP]
      rfl
    have hnext : st₁.nextExpected = st.nextExpected := rfl
    obtain ⟨m', hbuf, hdel, htk⟩ := h.buffered.deliver hnext hchunks (.inl ⟨h.noStale, hm⟩)
      (r.totalBytes + c.payload.length)
    have htot := htk.totalSet.trans h.noTotal
    have hlive := htk.completed.trans h.live
    have hfresh := h.noStale.deliver hm hchunks htk
    simp only [htot, hlive, Bool.false_and, Bool.or_self, if_true, true_and]
    exact ⟨m', ⟨hbuf.congr rfl rfl, hfresh, rfl, rfl⟩, hdel, htk.le⟩

theorem Open.mem_pending (h : Open P R m st) (k : ℕ) : k ∈ st.sortedSeqs.map UInt32.toNat ↔ k ∈ R ∧ m ≤ k := by
  rw [mem_map]
  constructor
  · rintro ⟨q, hq, rfl⟩
    obtain ⟨v, hv⟩ := Option.isSome_iff_exists.mp (mem_sortedSeqs.mp hq)
    refine ⟨(h.buffered.sound q v hv).1, ?_⟩
    by_contra hlt
    rw [h.noStale q (by omega)] at hv
    cases hv
  · rintro ⟨hk, hm⟩
    have hval : (UInt32.ofNat k).toNat = k := by
      rw [UInt32.toNat_ofNat_of_lt' (h.buffered.bound k hk)]
    have hl := h.buffered.kept (UInt32.ofNat k) (by rwa [hval]) (by rwa [hval])
    exact ⟨UInt32.ofNat k, mem_sortedSeqs.mpr (by rw [hl]; rfl), hval⟩

theorem pending_pairwise (st : ExitStreamState) : (st.sortedSeqs.map UInt32.toNat).Pairwise (· < ·) :=
  pairwise_map.mpr ((sortedSeqs_pairwise st).imp (fun h => UInt32.lt_iff_toNat_lt.mp h))

theorem Open.processChunk_end (h : Open P R m st) (clamp : ℤ → ℤ) (r : ExitReassembler)
    (he : c.type = .streamEnd) (hp : c.payload = []) :
    let p := r.processChunk clamp st c
    p.done = true ∧ p.err = none ∧ p.delivered = (st.sortedSeqs.map UInt32.toNat).flatMap P := by
  have hpr := ExitReassembler.processChunk_processed clamp r st c
  generalize r.processChunk clamp st c = p at hpr
  cases hpr with
  | completed hc => simp [h.live] at hc
  | padding ht => rw [he] at ht; cases ht
  | outOfRange hd | duplicate hd => exact absurd he hd.2
  | rejected e hk =>
    rcases hk with hd | hne
    · exact absurd he hd.2
    · exact absurd hp hne
  | ended =>
    have hb : Buffered P R m { st with completed := true } := h.buffered.congr rfl rfl
    exact ⟨rfl, rfl, hb.flush clamp r.totalBytes⟩
  | endedWith _ hne => exact absurd hp hne
  | stored _ hd => exact absurd he hd.2

end ExitStreamState

namespace ExitReassembler
open ExitStreamState

/-- Stream `s` is in streaming mode, with `R` stored and everything below `m` delivered. -/
structure Tracks (P : ℕ → Bytes) (R : Set ℕ) (m : ℕ) (s : UInt32) (r : ExitReassembler) : Prop where
  notCompleted : s ∉ r.completedStreams
  entry : ∀ now, Open P R m (r.entry s now)
  absent : r.streams.lookup s = none → m = 0

theorem tracks_new (P : ℕ → Bytes) (s : UInt32) (cfg : ChunkerConfig) : Tracks P ∅ 0 s (newExitReassembler cfg) :=
  ⟨Finset.notMem_empty s, fun now => open_new P now, fun _ => rfl⟩

variable {P : ℕ → Bytes} {R : Set ℕ} {m : ℕ} {s : UInt32} {r : ExitReassembler} {c : Chunk}

theorem Tracks.live (h : Tracks P R m s r) : r.Live s :=
  live_of_entry h.notCompleted (h.entry 0).live

theorem Tracks.of_lookup {r' : ExitReassembler} (h : Tracks P R m s r) (hl : r'.streams.lookup s = r.streams.lookup s)
    (hc : s ∈ r'.completedStreams ↔ s ∈ r.completedStreams) : Tracks P R m s r' :=
  ⟨mt hc.mp h.notCompleted, fun now => entry_congr hl now ▸ h.entry now, fun hn => h.absent (hl ▸ hn)⟩

theorem Tracks.of_some {r' : ExitReassembler} {st : ExitStreamState} (hc : s ∉ r'.completedStreams)
    (hl : r'.streams.lookup s = some st) (ho : Open P R m st) : Tracks P R m s r' where
  notCompleted := hc
  entry now := entry_of_lookup hl now ▸ ho
  absent hn := by
    rw [hl] at hn
    cases hn

theorem Tracks.padding (h : Tracks P R m s r) (clamp : ℤ → ℤ) (now : Time) (hs : c.streamID = s)
    (hp : c.type = .padding) :
    Tracks P R m s (r.addStreamingWith clamp now c).2 ∧
      (r.addStreamingWith clamp now c).1 = ⟨[], false, none⟩ := by
  subst hs
  have hproc : r.processChunk clamp (r.entry c.streamID now) c =
      ⟨[], false, none, r.totalBytes, r.entry c.streamID now⟩ := by
    simp [processChunk, hp]
  rw [addStreamingWith_of_live clamp h.live, hproc]
  exact ⟨.of_some h.notCompleted (settle_lookup_self ..) (h.entry now), rfl⟩

theorem Tracks.data (h : Tracks P R m s r) (clamp : ℤ → ℤ) (now : Time) (hs : c.streamID = s)
    (hd : c.isData) (ht : c.total = 0) (hP : c.payload = P c.sequence.toNat) (hm : m ≤ c.sequence.toNat) :
    let out := r.addStreamingWith clamp now c
    out.1.done = false ∧ ∃ m', Tracks P (if out.1.err = none then insert c.sequence.toNat R else R) m' s out.2 ∧
      out.1.data = segment P m m' ∧ m ≤ m' ∧ out.2.nextExpected s = some (UInt32.ofNat m') := by
  subst hs
  obtain ⟨hdone, m', ho, hdel, hle⟩ := (h.entry now).processChunk_data clamp r hd ht hP hm
  rw [addStreamingWith_of_live clamp h.live]
  set p := r.processChunk clamp (r.entry c.streamID now) c
  have hl : (r.settle clamp c.streamID p.done p.totalBytes p.st).streams.lookup c.streamID = some p.st := by
    rw [settle_lookup_self, hdone]
    rfl
  have hc : c.streamID ∉ (r.settle clamp c.streamID p.done p.totalBytes p.st).completedStreams := by
    rw [settle_completedStreams, hdone]
    exact h.notCompleted
  refine ⟨hdone, m', .of_some hc hl ho, hdel, hle, ?_⟩
  rw [ExitReassembler.nextExpected, hl, Option.map_some, ho.buffered.next]

theorem Tracks.streamEnd (h : Tracks P R m s r) (clamp : ℤ → ℤ) (now : Time) (hs : c.streamID = s)
    (he : c.type = .streamEnd) (hp : c.payload = []) :
    let out := r.addStreamingWith clamp now c
    s ∈ out.2.completedStreams ∧ out.2.streams.lookup s = none ∧
      ∃ L : List ℕ, L.Pairwise (· < ·) ∧ (∀ k, k ∈ L ↔ k ∈ R ∧ m ≤ k) ∧ out.1 = ⟨L.flatMap P, true, none⟩ := by
  subst hs
  have ho := h.entry now
  obtain ⟨hdone, herr, hdel⟩ := ho.processChunk_end clamp r he hp
  rw [addStreamingWith_of_live clamp h.live]
  set p := r.processChunk clamp (r.entry c.streamID now) c
  refine ⟨?_, ?_, _, pending_pairwise (r.entry c.streamID now), ho.mem_pending, ?_⟩
  · rw [settle_completedStreams, hdone]
    exact Finset.mem_insert_self _ _
  · rw [settle_lookup_self, hdone]
    rfl
  · simp only [hdone, herr, hdel]

def deliveredTo (s : UInt32) : ExitReassembler → List (Time × Chunk) → Bytes
  | _, [] => []
  | r, (now, c) :: calls =>
    (if c.streamID = s then (r.addStreaming now c).1.data else []) ++
      deliveredTo s (r.addStreaming now c).2 calls

/-- Chunks of a streaming sender: a sequence number determines the payload, data chunks carry
no total and stream ends no payload. -/
structure StreamingChunks (cs : List Chunk) : Prop where
  payload : ∀ c ∈ cs, ∀ d ∈ cs, c.isData → d.isData → c.streamID = d.streamID →
    c.sequence = d.sequence → c.payload = d.payload
  total : ∀ c ∈ cs, c.isData → c.total = 0
  ending : ∀ c ∈ cs, c.type = .streamEnd → c.payload = []

variable {cs : List Chunk}

theorem StreamingChunks.tail {c : Chunk} (h : StreamingChunks (c :: cs)) : StreamingChunks cs where
  payload a ha b hb := h.payload a (mem_cons_of_mem _ ha) b (mem_cons_of_mem _ hb)
  total a ha := h.total a (mem_cons_of_mem _ ha)
  ending a ha := h.ending a (mem_cons_of_mem _ ha)

/-- `out` is made of the payloads of received data chunks of `s`, in strictly increasing order. -/
def InOrderOnce (s : UInt32) (cs : List Chunk) (out : Bytes) : Prop :=
  ∃ picked : List Chunk, (∀ c ∈ picked, c ∈ cs ∧ c.isData ∧ c.streamID = s) ∧
    picked.Pairwise (fun c d => c.sequence < d.sequence) ∧ out = picked.flatMap (·.payload)

/-- A data chunk that reaches a stream in progress passes the test `alreadyDelivered` of the
stream-end branch, and some sequence number of the stream has not been received yet. -/
def FirstDelivery (r : ExitReassembler) (before : List Chunk) (c : Chunk) : Prop :=
  c.isData → ∀ st, r.streams.lookup c.streamID = some st →
    ¬ c.sequence < st.nextExpected ∧
      ∃ q, ∀ d ∈ before, d.isData → d.streamID = c.streamID → d.sequence ≠ q

def FirstDeliveries : ExitReassembler → List Chunk → List (Time × Chunk) → Prop
  | _, _, [] => True
  | r, before, (now, c) :: calls =>
    r.FirstDelivery before c ∧ FirstDeliveries (r.addStreaming now c).2 (before ++ [c]) calls

def received (s : UInt32) (cs : List Chunk) : Set ℕ :=
  {k | ∃ c ∈ cs, c.isData ∧ c.streamID = s ∧ c.sequence.toNat = k}

theorem received_mono {ds : List Chunk} (h : cs ⊆ ds) : received s cs ⊆ received s ds := by
  rintro k ⟨c, hc, hrest⟩
  exact ⟨c, h hc, hrest⟩

theorem Tracks.le_of_firstDelivery {before : List Chunk} (h : Tracks P R m s r) (hs : c.streamID = s)
    (hd : c.isData) (hR : R ⊆ received s before) (hf : r.FirstDelivery before c) : m ≤ c.sequence.toNat := by
  subst hs
  cases hl : r.streams.lookup c.streamID with
  | none =>
    rw [h.absent hl]
    exact Nat.zero_le _
  | some st =>
    obtain ⟨hnot, q, hq⟩ := hf hd st hl
    have ho := entry_of_lookup hl 0 ▸ h.entry 0
    have hqR : q.toNat ∉ R := by
      intro hmem
      obtain ⟨d, hdb, hdd, hds, hdq⟩ := hR hmem
      exact hq d hdb hdd hds (UInt32.toNat_inj.mp hdq)
    have hlt : m < 2 ^ 32 := lt_of_le_of_lt (ho.buffered.mex.le_of_notMem hqR) q.toNat_lt
    rw [ho.buffered.next, UInt32.lt_iff_toNat_lt, UInt32.toNat_ofNat_of_lt' hlt] at hnot
    omega

theorem deliveredTo_of_completed (calls : List (Time × Chunk)) (h : s ∈ r.completedStreams) :
    deliveredTo s r calls = [] := by
  induction calls generalizing r with
  | nil => rfl
  | cons call calls ih =>
    obtain ⟨now, c⟩ := call
    have hcompleted := (r.add_called clampNonneg now c).1.completed_mono h
    rw [deliveredTo, addStreaming, ih hcompleted, append_nil]
    split_ifs with hs
    · subst hs
      have hnl : ¬ r.Live c.streamID := fun hl => hl.1 h
      rw [(add_of_not_live clampNonneg hnl).1]
    · rfl

theorem Tracks.deliveredTo {before : List Chunk} {calls : List (Time × Chunk)} (h : Tracks P R m s r)
    (hR : R ⊆ received s before) (hc : StreamingChunks (calls.map (·.2)))
    (hP : ∀ call ∈ calls, call.2.isData → call.2.streamID = s → call.2.payload = P call.2.sequence.toNat)
    (hf : FirstDeliveries r before calls) :
    ∃ L : List ℕ, L.Pairwise (· < ·) ∧ (∀ k ∈ L, m ≤ k ∧ k ∈ received s (before ++ calls.map (·.2))) ∧
      deliveredTo s r calls = L.flatMap P := by
  induction calls generalizing r before R m with
  | nil => exact ⟨[], Pairwise.nil, by simp, rfl⟩
  | cons call calls ih =>
    obtain ⟨now, c⟩ := call
    obtain ⟨hfc, hfr⟩ := hf
    have hmem : c ∈ ((now, c) :: calls).map (·.2) := by simp
    have hc' : StreamingChunks (calls.map (·.2)) := hc.tail
    obtain ⟨hpayload, hP'⟩ := forall_mem_cons.mp hP
    have hbefore : received s before ⊆ received s (before ++ [c]) := received_mono (by simp)
    have happ : before ++ [c] ++ calls.map (·.2) = before ++ ((now, c) :: calls).map (·.2) := by simp
    rw [ExitReassembler.deliveredTo, addStreaming]
    split_ifs with hs
    · by_cases hpad : c.type = .padding
      · obtain ⟨ht, hres⟩ := h.padding clampNonneg now hs hpad
        obtain ⟨L, hL, hk, hd⟩ := ih ht (hR.trans hbefore) hc' hP' hfr
        exact ⟨L, hL, happ ▸ hk, by rw [hres, hd]; rfl⟩
      · by_cases hend : c.type = .streamEnd
        · obtain ⟨hcomp, -, L, hL, hk, hres⟩ := h.streamEnd clampNonneg now hs hend (hc.ending c hmem hend)
          rw [deliveredTo_of_completed calls hcomp, hres, append_nil]
          refine ⟨L, hL, fun k hkL => ?_, rfl⟩
          obtain ⟨hkR, hkm⟩ := (hk k).mp hkL
          exact ⟨hkm, received_mono (by simp) (hR hkR)⟩
        · have hdata : c.isData := ⟨hpad, hend⟩
          have hm := h.le_of_firstDelivery hs hdata hR hfc
          obtain ⟨-, m', ht, hdel, hle, -⟩ := h.data clampNonneg now hs hdata (hc.total c hmem hdata)
            (hpayload hdata hs) hm
          have hseq : c.sequence.toNat ∈ received s (before ++ [c]) := ⟨c, by simp, hdata, hs, rfl⟩
          have hR' : (if (r.addStreamingWith clampNonneg now c).1.err = none
              then insert c.sequence.toNat R else R) ⊆ received s (before ++ [c]) := by
            split_ifs
            · exact Set.insert_subset hseq (hR.trans hbefore)
            · exact hR.trans hbefore
          obtain ⟨L, hL, hk, hd⟩ := ih ht hR' hc' hP' hfr
          obtain ⟨hpair, hcat⟩ := segment_append_flatMap P hL (fun k hkL => (hk k hkL).1)
          refine ⟨_, hpair, fun k hkL => ?_, by rw [hdel, hd, hcat]⟩
          rcases mem_append.mp hkL with hlow | hhigh
          · obtain ⟨hge, hlt⟩ := mem_range'_segment.mp hlow
            have hin := hR' ((ht.entry now).buffered.mex.below k hlt)
            exact ⟨hge, happ ▸ received_mono (subset_append_left _ _) hin⟩
          · exact ⟨hle.trans (hk k hhigh).1, happ ▸ (hk k hhigh).2⟩
    · rw [nil_append]
      obtain ⟨hl, hcomp⟩ := (r.add_called clampNonneg now c).1.lookup_of_ne hs
      obtain ⟨L, hL, hk, hd⟩ := ih (h.of_lookup hl hcomp) (hR.trans hbefore) hc' hP' hfr
      exact ⟨L, hL, happ ▸ hk, hd⟩

def pick (s : UInt32) (cs : List Chunk) (k : ℕ) : Option Chunk :=
  cs.find? (fun c => c.isData ∧ c.streamID = s ∧ c.sequence.toNat = k)

theorem pick_spec {k : ℕ} (h : pick s cs k = some c) :
    c ∈ cs ∧ c.isData ∧ c.streamID = s ∧ c.sequence.toNat = k :=
  ⟨mem_of_find?_eq_some h, by simpa using find?_some h⟩

def payloadAt (s : UInt32) (cs : List Chunk) (k : ℕ) : Bytes := ((pick s cs k).map (·.payload)).getD []

theorem payloadAt_eq (hcs : StreamingChunks cs) (hc : c ∈ cs) (hd : c.isData)
    (hs : c.streamID = s) : c.payload = payloadAt s cs c.sequence.toNat := by
  cases hp : pick s cs c.sequence.toNat with
  | none =>
    have := find?_eq_none.mp hp c hc
    simp [hd, hs] at this
  | some d =>
    obtain ⟨hdm, hdd, hds, hdk⟩ := pick_spec hp
    rw [payloadAt, hp, Option.map_some, Option.getD_some]
    exact hcs.payload c hc d hdm hd hdd (hs.trans hds.symm) (UInt32.toNat_inj.mp hdk.symm)

theorem flatMap_payloadAt (s : UInt32) (cs : List Chunk) (L : List ℕ) :
    L.flatMap (payloadAt s cs) = (L.filterMap (pick s cs)).flatMap (·.payload) := by
  induction L with
  | nil => rfl
  | cons k L ih =>
    rw [flatMap_cons, ih, payloadAt]
    cases hp : pick s cs k with
    | none | some => simp [hp]

theorem inOrderOnce_of_numbers {L : List ℕ} (hL : L.Pairwise (· < ·)) :
    InOrderOnce s cs (L.flatMap (payloadAt s cs)) := by
  refine ⟨L.filterMap (pick s cs), fun c hc => ?_, ?_, flatMap_payloadAt s cs L⟩
  · obtain ⟨k, -, hk⟩ := mem_filterMap.mp hc
    obtain ⟨hm, hd, hs, -⟩ := pick_spec hk
    exact ⟨hm, hd, hs⟩
  · refine hL.filterMap _ (fun a b hab c hc d hd => ?_)
    have hca := (pick_spec hc).2.2.2
    have hdb := (pick_spec hd).2.2.2
    exact UInt32.lt_iff_toNat_lt.mpr (by omega)

/-- As long as no data chunk arrives again after its delivery, each stream's bytes are the
payloads of distinct sequence numbers in increasing order. -/
theorem deliveredTo_inOrderOnce (cfg : ChunkerConfig) (calls : List (Time × Chunk)) (s : UInt32)
    (hc : StreamingChunks (calls.map (·.2))) (hf : FirstDeliveries (newExitReassembler cfg) [] calls) :
    InOrderOnce s (calls.map (·.2)) (deliveredTo s (newExitReassembler cfg) calls) := by
  have ht := tracks_new (payloadAt s (calls.map (·.2))) s cfg
  obtain ⟨L, hL, -, hd⟩ := ht.deliveredTo (Set.empty_subset _) hc
    (fun call hcall hdata hs => payloadAt_eq hc (mem_map_of_mem hcall) hdata hs) hf
  rw [hd]
  exact inOrderOnce_of_numbers hL

def reorderedCalls : List (Time × Chunk) :=
  [(0, ⟨7, 1, 0, .data, [0x62], 0⟩), (1, ⟨7, 0, 0, .data, [0x61], 0⟩), (2, ⟨7, 2, 0, .streamEnd, [], 0⟩)]

theorem deliveredTo_reordered_inOrderOnce :
    InOrderOnce 7 (reorderedCalls.map (·.2))
        (deliveredTo 7 (newExitReassembler defaultChunkerConfig) reorderedCalls) ∧
      deliveredTo 7 (newExitReassembler defaultChunkerConfig) reorderedCalls = [0x61, 0x62] := by
  refine ⟨deliveredTo_inOrderOnce defaultChunkerConfig reorderedCalls 7 ⟨by decide, by decide, by decide⟩ ?_,
    by decide⟩
  refine ⟨nofun, fun _ st h => ?_, fun h => absurd h (by decide), trivial⟩
  have hst : st = ⟨AList.insert 1 [0x62] ∅, 0, 0, false, false, 1, [], 0⟩ := Option.some.inj h.symm
  rw [hst]
  exact ⟨by decide, 5, by decide⟩

/-- A chunk, the same chunk again after its delivery, then the end of the stream. -/
def retransmittedCalls : List (Time × Chunk) :=
  [(0, ⟨7, 0, 0, .data, [0x61], 0⟩), (1, ⟨7, 0, 0, .data, [0x61], 0⟩), (2, ⟨7, 1, 0, .streamEnd, [], 0⟩)]

/-- The second copy is buffered and flushed by the end marker. -/
theorem deliveredTo_retransmitted_twice :
    StreamingChunks (retransmittedCalls.map (·.2)) ∧
      deliveredTo 7 (newExitReassembler defaultChunkerConfig) retransmittedCalls = [0x61, 0x61] ∧
      ¬ InOrderOnce 7 (retransmittedCalls.map (·.2))
        (deliveredTo 7 (newExitReassembler defaultChunkerConfig) retransmittedCalls) := by
  have hout : deliveredTo 7 (newExitReassembler defaultChunkerConfig) retransmittedCalls = [0x61, 0x61] := by
    decide
  refine ⟨⟨by decide, by decide, by decide⟩, hout, ?_⟩
  rw [hout]
  intro ⟨picked, hmem, hpair, hcat⟩
  have hzero : ∀ c ∈ picked, c.sequence = 0 ∧ c.payload = [0x61] := by
    intro c hc
    obtain ⟨hin, hd, -⟩ := hmem c hc
    have hall : ∀ c ∈ retransmittedCalls.map (·.2), c.isData → c.sequence = 0 ∧ c.payload = [0x61] := by
      decide
    exact hall c hin hd
  match picked, hpair, hcat, hzero with
  | [], _, hcat, _ => cases hcat
  | [c], _, hcat, hzero => simp [(hzero c (by simp)).2] at hcat
  | c :: d :: _, hpair, _, hzero =>
    have hlt := rel_of_pairwise_cons hpair mem_cons_self
    rw [(hzero c (by simp)).1, (hzero d (by simp)).1] at hlt
    exact absurd hlt (by decide)

end ExitReassembler
end MeshDesk.Proxy
