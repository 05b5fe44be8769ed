import MeshDesk.Proxy.Dispatcher
import MeshDesk.Proxy.ExitCalls
import MeshDesk.Proxy.Streaming

/-! End-to-end delivery: what the target receives of the bytes a session has read, for every order
in which the two paths hand their chunks to the exit. -/
namespace MeshDesk.Proxy
open Lib List

namespace ExitReassembler
variable {P : ℕ → Bytes} {R : Set ℕ} {m : ℕ} {s : UInt32} {r : ExitReassembler} {calls calls' rest : List (Time × Chunk)}

def addAll (r : ExitReassembler) (calls : List (Time × Chunk)) : ExitReassembler :=
  calls.foldl (fun r call => (r.addStreaming call.1 call.2).2) r

def Unrejected : ExitReassembler → List (Time × Chunk) → Prop
  | _, [] => True
  | r, (now, c) :: calls => (r.addStreaming now c).1.err = none ∧ Unrejected (r.addStreaming now c).2 calls

theorem deliveredTo_append (s : UInt32) (r : ExitReassembler) (calls calls' : List (Time × Chunk)) :
    deliveredTo s r (calls ++ calls') = deliveredTo s r calls ++ deliveredTo s (r.addAll calls) calls' := by
  induction calls generalizing r with
  | nil => rfl
  | cons call calls ih =>
    obtain ⟨now, c⟩ := call
    rw [cons_append, deliveredTo, deliveredTo, ih, append_assoc]
    rfl

theorem unrejected_append :
    Unrejected r (calls ++ calls') ↔ Unrejected r calls ∧ Unrejected (r.addAll calls) calls' := by
  induction calls generalizing r with
  | nil => simp [Unrejected, addAll]
  | cons call calls ih =>
    obtain ⟨now, c⟩ := call
    rw [cons_append, Unrejected, Unrejected, ih, and_assoc]
    rfl

/-- The call carries block `P k` of stream `s`, where `k` is its sequence number. -/
def Carries (P : ℕ → Bytes) (s : UInt32) (call : Time × Chunk) : Prop :=
  call.2.streamID = s ∧ call.2.isData ∧ call.2.total = 0 ∧ call.2.payload = P call.2.sequence.toNat

def seqOf (call : Time × Chunk) : ℕ := call.2.sequence.toNat

theorem Tracks.data_run (h : Tracks P R m s r)
    (hd : ∀ call ∈ calls, Carries P s call) (hnodup : (calls.map seqOf).Nodup)
    (hR : ∀ call ∈ calls, seqOf call ∉ R) (hun : Unrejected r calls) :
    ∃ m', Tracks P (R ∪ {k | k ∈ calls.map seqOf}) m' s (r.addAll calls) ∧
      ExitReassembler.deliveredTo s r calls = segment P m m' ∧ m ≤ m' := by
  induction calls generalizing r R m with
  | nil =>
    refine ⟨m, ?_, (segment_self P m).symm, le_rfl⟩
    simpa [addAll] using h
  | cons call calls ih =>
    obtain ⟨now, c⟩ := call
    obtain ⟨⟨hs, hdata, ht, hP⟩, hd⟩ := forall_mem_cons.mp hd
    obtain ⟨hfresh, hR⟩ := forall_mem_cons.mp hR
    rw [Unrejected, addStreaming] at hun
    obtain ⟨herr, hun⟩ := hun
    rw [map_cons, nodup_cons] at hnodup
    have hm : m ≤ c.sequence.toNat := (h.entry now).buffered.mex.le_of_notMem hfresh
    obtain ⟨-, m₁, htr, hdel, hle, -⟩ := h.data clampNonneg now hs hdata ht hP hm
    rw [if_pos herr] at htr
    have hR' : ∀ call ∈ calls, seqOf call ∉ insert c.sequence.toNat R := by
      intro call hcall hmem
      rcases hmem with heq | hmem
      · exact hnodup.1 (mem_map.mpr ⟨call, hcall, heq⟩)
      · exact hR call hcall hmem
    obtain ⟨m', htr', hdel', hle'⟩ := ih htr hd hnodup.2 hR' hun
    refine ⟨m', ?_, ?_, hle.trans hle'⟩
    · have hset : R ∪ {k | k ∈ ((now, c) :: calls).map seqOf} =
          insert c.sequence.toNat R ∪ {k | k ∈ calls.map seqOf} := by
        ext k
        simp only [map_cons, mem_cons, Set.mem_union, Set.mem_ofPred_eq, Set.mem_insert_iff, seqOf]
        tauto
      rw [hset]
      exact htr'
    · rw [ExitReassembler.deliveredTo, if_pos hs, addStreaming, hdel, ← segment_append P hle hle']
      exact congrArg _ hdel'

theorem Tracks.run_streamEnd {now : Time} {c : Chunk} (h : Tracks P ∅ 0 s r)
    (hd : ∀ call ∈ calls, Carries P s call) (hnodup : (calls.map seqOf).Nodup)
    (hs : c.streamID = s) (he : c.type = .streamEnd) (hp : c.payload = [])
    (hun : Unrejected r (calls ++ (now, c) :: rest)) :
    ∃ L : List ℕ, L.Pairwise (· < ·) ∧ (∀ k, k ∈ L ↔ k ∈ calls.map seqOf) ∧
      ExitReassembler.deliveredTo s r (calls ++ (now, c) :: rest) = L.flatMap P := by
  obtain ⟨m', htr, hdel, -⟩ := h.data_run hd hnodup (fun _ _ => Set.notMem_empty _) (unrejected_append.mp hun).1
  rw [Set.empty_union] at htr
  obtain ⟨hcomp, -, L, hL, hk, hres⟩ := htr.streamEnd clampNonneg now hs he hp
  obtain ⟨hpair, hcat⟩ := segment_append_flatMap P hL (fun k hkL => ((hk k).mp hkL).2)
  refine ⟨_, hpair, fun k => ?_, ?_⟩
  · rw [mem_append, mem_range'_segment, hk]
    constructor
    · rintro (⟨-, hlt⟩ | ⟨hmem, -⟩)
      · exact (htr.entry now).buffered.mex.below k hlt
      · exact hmem
    · intro hmem
      by_cases hlt : k < m'
      · exact .inl ⟨Nat.zero_le k, hlt⟩
      · exact .inr ⟨hmem, Nat.not_lt.mp hlt⟩
  · rw [deliveredTo_append, hdel, ExitReassembler.deliveredTo, if_pos hs, addStreaming,
      deliveredTo_of_completed rest hcomp, hres, append_nil, hcat]

end ExitReassembler

namespace Streamed
variable {s : UInt32} {data : Bytes} {cs : List Chunk}

def block (cs : List Chunk) (k : ℕ) : Bytes := (cs.map (·.payload)).getD k []

section
variable (h : Streamed s 0 data cs)
include h

theorem segment_block : segment (block cs) 0 cs.length = data := by
  have hseg := segment_getD (cs.map (·.payload))
  rw [length_map, ← flatMap_def, h.payload] at hseg
  exact hseg

theorem map_sequence (hN : cs.length ≤ 2 ^ 32) :
    cs.map (·.sequence.toNat) = range cs.length := by
  refine ext_getElem (by simp) (fun i hi _ => ?_)
  rw [length_map] at hi
  obtain ⟨-, hseq, -, -⟩ := h.numbered.get (getElem?_eq_getElem hi)
  rw [getElem_map, getElem_range, hseq, UInt32.zero_add, UInt32.toNat_ofNat',
    Nat.mod_eq_of_lt (by omega)]

theorem payload_eq_block (hN : cs.length ≤ 2 ^ 32) {c : Chunk} (hc : c ∈ cs) :
    c.payload = block cs c.sequence.toNat := by
  obtain ⟨i, hi, rfl⟩ := getElem_of_mem hc
  have hseq : (cs.map (·.sequence.toNat))[i]? = some i := by
    rw [h.map_sequence hN, getElem?_range hi]
  rw [getElem?_map, getElem?_eq_getElem hi, Option.map_some] at hseq
  rw [Option.some.inj hseq, block, getD_eq_getElem?_getD, getElem?_map, getElem?_eq_getElem hi]
  rfl

theorem block_ne_nil {k : ℕ} (hk : k < cs.length) : block cs k ≠ [] := by
  rw [block, getD_eq_getElem?_getD, getElem?_map, getElem?_eq_getElem hk]
  exact (h.numbered.mem (getElem_mem hk)).2.2

end

end Streamed

namespace ExitReassembler

def EndsLast (calls : List (Time × Chunk)) : Prop :=
  calls.Pairwise (fun a b => ¬ (a.2.type = .streamEnd ∧ b.2.type = .data))

section Shuffled
variable {s : UInt32} {data : Bytes} {cs ends : List Chunk} {calls rest : List (Time × Chunk)} {e : Time × Chunk}

theorem endsLast_of_all_data (hd : ∀ call ∈ calls, call.2.type = .data) : EndsLast calls := by
  refine pairwise_of_forall_mem_list (fun a ha b _ hab => ?_)
  rw [hd a ha] at hab
  exact absurd hab.1 (by decide)

theorem endsLast_append_cons (hd : ∀ call ∈ calls, call.2.type = .data) (he : e.2.type = .streamEnd) :
    EndsLast (calls ++ e :: rest) ↔ ∀ call ∈ rest, call.2.type ≠ .data := by
  rw [EndsLast, pairwise_append, pairwise_cons]
  constructor
  · rintro ⟨-, ⟨hrest, -⟩, -⟩ call hcall hdata
    exact hrest call hcall ⟨he, hdata⟩
  · intro h
    refine ⟨endsLast_of_all_data hd, ⟨fun call hcall hb => h call hcall hb.2, ?_⟩, ?_⟩
    · exact pairwise_of_forall_mem_list (fun a _ b hb hab => h b hb hab.2)
    · intro a ha b _ hab
      exact absurd ((hd a ha).symm.trans hab.1) (by decide)

variable (hcs : Streamed s 0 data cs)
include hcs

theorem deliveredTo_of_all_data (cfg : ChunkerConfig) (hcarries : ∀ call ∈ calls, Carries (Streamed.block cs) s call)
    (hseqs : (calls.map seqOf).Perm (range cs.length)) (hun : Unrejected (newExitReassembler cfg) calls) :
    deliveredTo s (newExitReassembler cfg) calls = data := by
  have ht := tracks_new (Streamed.block cs) s cfg
  have hnodup := hseqs.symm.nodup nodup_range
  obtain ⟨m', htr, hdel, -⟩ := ht.data_run hcarries hnodup (fun _ _ => Set.notMem_empty _) hun
  have hmex : IsMex (∅ ∪ {k | k ∈ calls.map seqOf}) cs.length := by
    constructor
    · intro k hk
      exact .inr (hseqs.symm.subset (mem_range.mpr hk))
    · intro hmem
      have hlt := mem_range.mp (hseqs.subset (hmem.resolve_left (Set.notMem_empty _)))
      exact Nat.lt_irrefl _ hlt
  rw [(htr.entry 0).buffered.mex.eq hmex, hcs.segment_block] at hdel
  exact hdel

theorem deliveredTo_end_iff (cfg : ChunkerConfig) (hcarries : ∀ call ∈ calls, Carries (Streamed.block cs) s call)
    (hend : e.2.streamID = s ∧ e.2.type = .streamEnd ∧ e.2.payload = []) (hseqs : (calls.map seqOf ++
      (rest.filter (fun call => decide (call.2.type = .data))).map seqOf).Perm (range cs.length))
    (hun : Unrejected (newExitReassembler cfg) (calls ++ e :: rest)) :
    deliveredTo s (newExitReassembler cfg) (calls ++ e :: rest) = data ↔
      ∀ call ∈ rest, call.2.type ≠ .data := by
  have ht := tracks_new (Streamed.block cs) s cfg
  have hnodup := hseqs.symm.nodup nodup_range
  obtain ⟨L, hL, hmem, hdel⟩ :=
    ht.run_streamEnd hcarries hnodup.of_append_left hend.1 hend.2.1 hend.2.2 hun
  have hlt : ∀ k ∈ L, k < cs.length := fun k hk =>
    mem_range.mp (hseqs.subset (mem_append_left _ ((hmem k).mp hk)))
  rw [hdel, ← hcs.segment_block, flatMap_eq_segment_iff _ hL hlt (fun k hk => hcs.block_ne_nil hk)]
  constructor
  · intro hall call hcall hdata
    have hlate : seqOf call ∈ (rest.filter (fun call => decide (call.2.type = .data))).map seqOf :=
      mem_map_of_mem (mem_filter.mpr ⟨hcall, decide_eq_true hdata⟩)
    have hk := mem_range.mp (hseqs.subset (mem_append_right _ hlate))
    exact (disjoint_of_nodup_append hnodup) ((hmem _).mp (hall _ hk)) hlate
  · intro hrest k hk
    have hnone : rest.filter (fun call => decide (call.2.type = .data)) = [] :=
      filter_eq_nil_iff.mpr (fun call hcall hdata => hrest call hcall (of_decide_eq_true hdata))
    rw [hnone, map_nil, append_nil] at hseqs
    exact (hmem k).mpr (hseqs.symm.subset (mem_range.mpr hk))

variable (hN : cs.length ≤ 2 ^ 32) (hends : ∀ c ∈ ends, c.streamID = s ∧ c.type = .streamEnd ∧ c.payload = [])
  (hperm : (calls.map (·.2)).Perm (cs ++ ends))
include hN hends hperm

theorem data_sequences_perm :
    ((calls.filter (fun call => decide (call.2.type = .data))).map seqOf).Perm (range cs.length) := by
  have hall : cs.filter (fun c => decide (c.type = .data)) = cs :=
    filter_eq_self.mpr (fun c hc => decide_eq_true (hcs.numbered.mem hc).2.1)
  have hnone : ends.filter (fun c => decide (c.type = .data)) = [] := by
    refine filter_eq_nil_iff.mpr (fun c hc => ?_)
    rw [(hends c hc).2.1]
    decide
  have hfilter := (hperm.filter (fun c => decide (c.type = .data))).map (fun c => c.sequence.toNat)
  rw [filter_append, hall, hnone, append_nil, hcs.map_sequence hN, filter_map,
    map_map] at hfilter
  exact hfilter

theorem carries_of_data {call : Time × Chunk} (hcall : call ∈ calls) (hdata : call.2.type = .data) :
    Carries (Streamed.block cs) s call := by
  rcases mem_append.mp (hperm.subset (mem_map_of_mem hcall)) with hmem | hmem
  · have hd : call.2.isData := by
      rw [Chunk.isData, hdata]
      decide
    exact ⟨(hcs.numbered.mem hmem).1, hd, hcs.total _ hmem, hcs.payload_eq_block hN hmem⟩
  · have hend := (hends _ hmem).2.1
    rw [hdata] at hend
    exact absurd hend (by decide)

/-- Whatever the order in which the chunks of a stream and its end markers arrive, all bytes are
delivered exactly if no data chunk comes after an end marker. -/
theorem deliveredTo_shuffled_iff (cfg : ChunkerConfig) (hun : Unrejected (newExitReassembler cfg) calls) :
    deliveredTo s (newExitReassembler cfg) calls = data ↔ EndsLast calls := by
  have hseqs := data_sequences_perm hcs hN hends hperm
  obtain ⟨pre, post, rfl, hpre, hpost⟩ :=
    exists_split_first_not (fun call : Time × Chunk => call.2.type = .data) calls
  have hself : pre.filter (fun call => decide (call.2.type = .data)) = pre :=
    filter_eq_self.mpr (fun call hcall => decide_eq_true (hpre call hcall))
  rw [filter_append, hself, map_append] at hseqs
  have hcarries : ∀ call ∈ pre, Carries (Streamed.block cs) s call := fun call hcall =>
    carries_of_data hcs hN hends hperm (mem_append_left _ hcall) (hpre call hcall)
  cases post with
  | nil =>
    rw [filter_nil, map_nil, append_nil] at hseqs
    rw [append_nil] at hun ⊢
    have hdel := deliveredTo_of_all_data hcs cfg hcarries hseqs hun
    exact ⟨fun _ => endsLast_of_all_data hpre, fun _ => hdel⟩
  | cons e rest =>
    have hend : e.2.streamID = s ∧ e.2.type = .streamEnd ∧ e.2.payload = [] := by
      have hmem : e.2 ∈ (pre ++ e :: rest).map (·.2) := by simp
      rcases mem_append.mp (hperm.subset hmem) with hc | hc
      · exact absurd (hcs.numbered.mem hc).2.1 (hpost e rfl)
      · exact hends _ hc
    rw [filter_cons, if_neg (fun hdata => hpost e rfl (of_decide_eq_true hdata))] at hseqs
    rw [endsLast_append_cons hpre hend.2.1]
    exact deliveredTo_end_iff hcs cfg hcarries hend hseqs hun

end Shuffled
end ExitReassembler

theorem CircuitConfig.lt_of_not_beyondWindow {cfg : CircuitConfig} {base seq : UInt32}
    (h : ¬ cfg.BeyondWindow base seq) : seq.toNat < 2 ^ 32 - 1 := by
  have hlt := UInt32.lt_iff_toNat_lt.mp (UInt32.not_le.mp h)
  have hmax := (base + cfg.maxWindow.toUInt64.toUInt32).toNat_lt
  omega

theorem ExitCircuit.handleAll_unrejected {cfg : CircuitConfig} {s : UInt32} {evs : List ChunkEvent}
    (hw : ∀ ev ∈ evs, ev.write = .ok) (hs : ∀ ev ∈ evs, ev.chunk.streamID = s) {c : ExitCircuit}
    (ha : c.state = .active) (hres : ∀ x ∈ c.handleAll cfg evs, x.2.rejected = false) :
    c.reassembler.Unrejected (evs.map (fun ev => (ev.now, ev.chunk))) ∧
      (c.handleAll cfg evs).flatMap (·.2.written) =
        c.reassembler.deliveredTo s (evs.map (fun ev => (ev.now, ev.chunk))) ∧
      ∀ ev ∈ evs, ev.chunk.sequence.toNat < 2 ^ 32 - 1 := by
  induction evs generalizing c with
  | nil => exact ⟨trivial, rfl, by simp⟩
  | cons ev evs ih =>
    have hh := c.handleChunk_handled cfg ev.now ev.path ev.write ev.chunk
    rw [hw ev mem_cons_self] at hh
    rw [handleAll, hw ev mem_cons_self] at hres ⊢
    obtain ⟨hbw, herr, hwr, hre⟩ := hh.of_not_rejected ha (hres _ mem_cons_self)
    obtain ⟨hun, hcat, hlt⟩ := ih (forall_mem_cons.mp hw).2 (forall_mem_cons.mp hs).2
      (hh.frame.1.trans ha) (forall_mem_cons.mp hres).2
    rw [hre] at hun hcat
    refine ⟨⟨herr, hun⟩, ?_, forall_mem_cons.mpr ⟨CircuitConfig.lt_of_not_beyondWindow hbw, hlt⟩⟩
    rw [flatMap_cons, hcat, hwr, map_cons, ExitReassembler.deliveredTo, if_pos (hs ev mem_cons_self)]

/-- A wire chunk that a path hands to the exit. -/
structure Arrival where
  now : Time
  path : PathIndex
  wc : WireChunk

namespace Arrival

def event (A : Aead) (e2eKey circuitID : Bytes) (a : Arrival) : Option ChunkEvent :=
  (decodeChunk A a.wc e2eKey circuitID).toOption.map (fun chunk => ⟨a.now, a.path, .ok, chunk⟩)

theorem event_write {A : Aead} {e2eKey circuitID : Bytes} {arrivals : List Arrival} {ev : ChunkEvent}
    (h : ev ∈ arrivals.filterMap (event A e2eKey circuitID)) : ev.write = .ok := by
  obtain ⟨a, -, ha⟩ := mem_filterMap.mp h
  obtain ⟨chunk, -, rfl⟩ := Option.map_eq_some_iff.mp ha
  rfl

def HasType (A : Aead) (e2eKey circuitID : Bytes) (t : ChunkType) (a : Arrival) : Prop :=
  ∃ chunk, decodeChunk A a.wc e2eKey circuitID = .ok chunk ∧ chunk.type = t

end Arrival

/-- The results of handing arrivals for one circuit to the exit, when the target takes every write. -/
def ExitNode.receive (A : Aead) (circuitID : Bytes) : ExitNode → List Arrival → List HandleResult
  | _, [] => []
  | e, a :: arrivals =>
    let (res, e) := e.handleWireChunk A a.now circuitID a.wc a.path .ok
    res :: receive A circuitID e arrivals

theorem ExitNode.receive_eq_handleAll {A : Aead} {circuitID : Bytes} {arrivals : List Arrival} {e : ExitNode}
    {c : ExitCircuit} (hopen : e.closed = false) (hc : e.circuits.lookup circuitID = some c)
    (hdec : ∀ a ∈ arrivals, ∃ chunk, decodeChunk A a.wc c.e2eKey c.circuitIDBytes = .ok chunk) :
    e.receive A circuitID arrivals =
      (c.handleAll e.cfg.circuitCfg (arrivals.filterMap (Arrival.event A c.e2eKey c.circuitIDBytes))).map (·.2) := by
  induction arrivals generalizing e c with
  | nil => rfl
  | cons a arrivals ih =>
    obtain ⟨chunk, hchunk⟩ := hdec a mem_cons_self
    have hev : Arrival.event A c.e2eKey c.circuitIDBytes a = some ⟨a.now, a.path, .ok, chunk⟩ := by
      rw [Arrival.event, hchunk]
      rfl
    obtain ⟨-, hkey, hid⟩ := (c.handleChunk_handled e.cfg.circuitCfg a.now a.path .ok chunk).frame
    set out := c.handleChunk e.cfg.circuitCfg a.now a.path .ok chunk with hout
    have hstep : e.handleWireChunk A a.now circuitID a.wc a.path .ok =
        (out.1, { e with circuits := e.circuits.insert circuitID out.2 }) := by
      rw [handleWireChunk, hopen, hc]
      simp only [hchunk, Bool.false_eq_true, if_false, ← hout]
    have hrest : ∀ a ∈ arrivals, ∃ chunk, decodeChunk A a.wc out.2.e2eKey out.2.circuitIDBytes = .ok chunk := by
      rw [hkey, hid]
      exact (forall_mem_cons.mp hdec).2
    have ih := ih (e := { e with circuits := e.circuits.insert circuitID out.2 }) hopen (AList.lookup_insert _) hrest
    rw [hkey, hid] at ih
    rw [receive, hstep, filterMap_cons_some hev, ExitCircuit.handleAll, map_cons]
    exact congrArg _ ih

theorem SentAs.decode {env : RunEnv} {cfg : SessionConfig} {c : Chunk} {out : PathIndex × WireChunk}
    (h : SentAs env cfg c out) (hlen : c.payload.length < 2 ^ 32) :
    decodeChunk env.aead out.2 cfg.e2eKey cfg.circuitID = .ok c := by
  obtain ⟨nextHop, relayKey, src, -, henc⟩ := h
  exact decodeChunk_own henc hlen

/-- Each path hands over, in order, exactly what was sent on it. -/
def Lossless (sent : List (PathIndex × WireChunk)) (arrivals : List Arrival) : Prop :=
  ∀ p, (arrivals.filter (fun a => decide (a.path = p))).map (·.wc) =
    (sent.filter (fun out => decide (out.1 = p))).map (·.2)

theorem Lossless.perm {sent : List (PathIndex × WireChunk)} {arrivals : List Arrival} (h : Lossless sent arrivals) :
    (arrivals.map (·.wc)).Perm (sent.map (·.2)) := by
  have hflip : ∀ p : PathIndex, (!decide (p = .path1)) = decide (p = .path2) := by
    intro p
    cases p <;> rfl
  have ha := (filter_append_perm (fun a : Arrival => decide (a.path = .path1)) arrivals).map (·.wc)
  have hs := (filter_append_perm (fun out : PathIndex × WireChunk => decide (out.1 = .path1)) sent).map (·.2)
  simp only [map_append, hflip] at ha hs
  rw [h .path1, h .path2] at ha
  exact ha.symm.trans hs

section Session
variable {env : RunEnv} {cfg : SessionConfig} {cs : List Chunk} {sent : List (PathIndex × WireChunk)}
  {arrivals : List Arrival}

section
variable (hsent : List.Forall₂ (SentAs env cfg) cs sent) (hlen : ∀ c ∈ cs, c.payload.length < 2 ^ 32)
include hsent hlen

theorem sent_filterMap_decode :
    (sent.map (·.2)).filterMap (fun wc => (decodeChunk env.aead wc cfg.e2eKey cfg.circuitID).toOption) = cs := by
  induction hsent with
  | nil => rfl
  | @cons c out cs sent h _ ih =>
    have hdec := h.decode (hlen c mem_cons_self)
    rw [map_cons, filterMap_cons_some (by rw [hdec]; rfl),
      ih (forall_mem_cons.mp hlen).2]

theorem Lossless.events_perm (h : Lossless sent arrivals) :
    ((arrivals.filterMap (Arrival.event env.aead cfg.e2eKey cfg.circuitID)).map (·.chunk)).Perm cs := by
  have hperm := h.perm.filterMap (fun wc => (decodeChunk env.aead wc cfg.e2eKey cfg.circuitID).toOption)
  rw [sent_filterMap_decode hsent hlen, filterMap_map] at hperm
  rw [map_filterMap]
  refine (Perm.of_eq (congrArg (fun f => arrivals.filterMap f) ?_)).trans hperm
  funext a
  simp only [Arrival.event, Option.map_map, Function.comp_def, Option.map_id']

theorem Lossless.decodes (h : Lossless sent arrivals) {a : Arrival} (ha : a ∈ arrivals) :
    ∃ chunk, decodeChunk env.aead a.wc cfg.e2eKey cfg.circuitID = .ok chunk := by
  obtain ⟨out, hout, heq⟩ := mem_map.mp (h.perm.subset (mem_map_of_mem ha))
  obtain ⟨i, hi⟩ := get_of_mem hout
  have hlt : i < cs.length := by
    rw [hsent.length_eq]
    exact i.isLt
  have hget := hsent.get hlt i.isLt
  rw [hi] at hget
  rw [← heq]
  exact ⟨_, hget.decode (hlen _ (get_mem _ _))⟩

end

theorem endsLast_events (A : Aead) (e2eKey circuitID : Bytes) :
    ExitReassembler.EndsLast
        ((arrivals.filterMap (Arrival.event A e2eKey circuitID)).map (fun ev => (ev.now, ev.chunk))) ↔
      arrivals.Pairwise (fun a b => ¬ (a.HasType A e2eKey circuitID .streamEnd ∧
        b.HasType A e2eKey circuitID .data)) := by
  rw [ExitReassembler.EndsLast, pairwise_map, pairwise_filterMap]
  refine Pairwise.iff (fun a b => ?_)
  simp only [Arrival.event, Arrival.HasType]
  cases decodeChunk A a.wc e2eKey circuitID with
  | error e => simp [Except.toOption]
  | ok x =>
    cases decodeChunk A b.wc e2eKey circuitID with
    | error | ok => simp [Except.toOption]

end Session

theorem newDispatcher_run_sent {cfg : DispatcherConfig} {quantile : Int64 → UInt64 → Int64}
    {src : Option PadSource} {d : Dispatcher} (hd : newDispatcher cfg quantile src = .ok d) (env : RunEnv)
    (rand : RandSource) (reads : List ReadOutcome) (hdone : ((d.start rand).run env reads).2 = some .done) :
    ∃ cs ends, Forall₂ (SentAs env d.cfg) (cs ++ ends) ((d.start rand).run env reads).1.sent ∧
      Streamed 0 0 (bytesRead reads) cs ∧ (∀ c ∈ ends, c = RunState.endMarker 0 0 cs.length) := by
  obtain ⟨hseq, hstream⟩ : d.nextSeq = 0 ∧ d.streamID = 0 := newDispatcher_fresh hd
  obtain ⟨cs, ends, hext, hcs, hends⟩ := (RunState.run_spec env reads (d.start rand)).2 hdone
  obtain ⟨out, hout, hsent⟩ := hext.sent
  change Streamed d.streamID d.nextSeq _ cs at hcs
  change ∀ c ∈ ends, c = RunState.endMarker d.streamID d.nextSeq cs.length at hends
  rw [hseq, hstream] at hcs hends
  rw [hout]
  exact ⟨cs, ends, hsent, hcs, hends⟩

theorem Streamed.length_le_of_lt {s : UInt32} {data : Bytes} {cs : List Chunk} (h : Streamed s 0 data cs)
    (hlt : ∀ c ∈ cs, c.sequence.toNat < 2 ^ 32 - 1) : cs.length ≤ 2 ^ 32 := by
  by_contra hbig
  have hidx : 2 ^ 32 - 1 < cs.length := by omega
  obtain ⟨-, hnum, -, -⟩ := h.numbered.get (getElem?_eq_getElem hidx)
  have hsmall := hlt _ (getElem_mem hidx)
  rw [hnum] at hsmall
  exact absurd hsmall (by decide)

/-- The target receives exactly the bytes the session has read if and only if no data chunk reaches
the exit after an end marker: the marker on the faster path ends the stream for both. -/
theorem receive_written_iff (cfg : DispatcherConfig) (quantile : Int64 → UInt64 → Int64) (src : Option PadSource)
    (d : Dispatcher) (hd : newDispatcher cfg quantile src = .ok d) (env : RunEnv) (rand : RandSource)
    (reads : List ReadOutcome) (hdone : ((d.start rand).run env reads).2 = some .done)
    (e : ExitNode) (hopen : e.closed = false) (created : Time) (hcirc : e.circuits.lookup d.cfg.circuitID =
      some (newExitCircuit d.cfg.circuitID d.cfg.e2eKey e.cfg.chunkerCfg created))
    (arrivals : List Arrival) (hpaths : Lossless ((d.start rand).run env reads).1.sent arrivals)
    (hres : ∀ res ∈ e.receive env.aead d.cfg.circuitID arrivals, res.rejected = false) :
    (e.receive env.aead d.cfg.circuitID arrivals).flatMap (·.written) = bytesRead reads ↔
      arrivals.Pairwise (fun a b =>
        ¬ (a.HasType env.aead d.cfg.e2eKey d.cfg.circuitID .streamEnd ∧
          b.HasType env.aead d.cfg.e2eKey d.cfg.circuitID .data)) := by
  obtain ⟨cs, ends, hsent, hcs, hends⟩ := newDispatcher_run_sent hd env rand reads hdone
  have hlen : ∀ c ∈ cs ++ ends, c.payload.length < 2 ^ 32 := by
    intro c hc
    rcases mem_append.mp hc with hc | hc
    · exact lt_of_le_of_lt (hcs.size c hc) (by decide)
    · rw [hends c hc]
      exact Nat.two_pow_pos 32
  have hends' : ∀ c ∈ ends, c.streamID = 0 ∧ c.type = .streamEnd ∧ c.payload = [] := by
    intro c hc
    rw [hends c hc]
    exact ⟨rfl, rfl, rfl⟩
  have hperm := hpaths.events_perm hsent hlen
  have hrun := ExitNode.receive_eq_handleAll hopen hcirc
    (fun a ha => hpaths.decodes hsent hlen ha)
  change _ = map _ (ExitCircuit.handleAll _ _ (arrivals.filterMap
    (Arrival.event env.aead d.cfg.e2eKey d.cfg.circuitID))) at hrun
  set evs := arrivals.filterMap (Arrival.event env.aead d.cfg.e2eKey d.cfg.circuitID) with hevs
  have hs : ∀ ev ∈ evs, ev.chunk.streamID = 0 := by
    intro ev hev
    rcases mem_append.mp (hperm.subset (mem_map_of_mem hev)) with hc | hc
    · exact (hcs.numbered.mem hc).1
    · exact (hends' _ hc).1
  rw [hrun] at hres
  obtain ⟨hun, hcat, hlt⟩ := ExitCircuit.handleAll_unrejected (fun ev hev => Arrival.event_write hev) hs rfl
    (fun x hx => hres x.2 (mem_map_of_mem hx))
  have hN : cs.length ≤ 2 ^ 32 := by
    refine hcs.length_le_of_lt (fun c hc => ?_)
    obtain ⟨ev, hev, hchunk⟩ := mem_map.mp (hperm.symm.subset (mem_append_left _ hc))
    rw [← hchunk]
    exact hlt ev hev
  have hcalls : ((evs.map (fun ev => (ev.now, ev.chunk))).map (·.2)).Perm (cs ++ ends) := by
    rw [map_map]
    exact hperm
  rw [hrun, flatMap_map, hcat, ← endsLast_events]
  exact ExitReassembler.deliveredTo_shuffled_iff hcs hN hends' hcalls _ hun

def twoPathConfig : DispatcherConfig :=
  { chunkerStrategy := some .fixed16k
    chunkerCfg := { defaultChunkerConfig with maxChunkSize := 1, disablePadding := true }
    path1 := some ⟨[], []⟩
    path2 := some ⟨[], []⟩
    e2eKey := List.replicate 32 0
    circuitID := List.replicate 16 0
    exitAddr := [9]
    debugFixedChunks := false }

def twoPaths : Dispatcher :=
  { cfg := ⟨⟨[], []⟩, ⟨[], []⟩, List.replicate 32 0, List.replicate 16 0, [9], (rfl : 32 = 32),
      (rfl : 16 = 16), rfl⟩
    chunker := ChunkerStrategy.fixed16k.new twoPathConfig.chunkerCfg (fun _ _ => 0) ⟨fun _ => none, 0⟩
    streamID := 0
    nextSeq := 0
    callCount := 0
    stats := fun _ => ⟨0, 0⟩ }

def roundRobin : RunEnv := ⟨default, default, fun n => if n % 2 = 0 then .path1 else .path2, fun _ => true⟩

def twoBytes : List ReadOutcome := [.read [1, 2] (some .eof) (by decide)]

def twoPathSent : List (PathIndex × WireChunk) := ((twoPaths.start .zeros).run roundRobin twoBytes).1.sent

def arrivingInOrder (order : List ℕ) : List Arrival :=
  order.filterMap (fun i : ℕ => twoPathSent[i]?.map (fun out => ⟨(i : ℤ), out.1, out.2⟩))

def freshExit : ExitNode :=
  { cfg := ⟨defaultCircuitConfig, defaultChunkerConfig⟩
    circuits := (∅ : Map Bytes ExitCircuit).insert (List.replicate 16 0)
      (newExitCircuit (List.replicate 16 0) (List.replicate 32 0) defaultChunkerConfig 0)
    closed := false }

/-- The second chunk overtakes the first, and both markers come last. -/
theorem receive_written_reordered :
    (freshExit.receive default (List.replicate 16 0) (arrivingInOrder [1, 0, 2, 3])).flatMap (·.written) =
        bytesRead twoBytes ↔
      (arrivingInOrder [1, 0, 2, 3]).Pairwise (fun a b =>
        ¬ (a.HasType default (List.replicate 32 0) (List.replicate 16 0) .streamEnd ∧
          b.HasType default (List.replicate 32 0) (List.replicate 16 0) .data)) :=
  receive_written_iff twoPathConfig (fun _ _ => 0) (some ⟨fun _ => none, 0⟩) twoPaths rfl roundRobin .zeros twoBytes
    (by decide) freshExit rfl 0 rfl (arrivingInOrder [1, 0, 2, 3])
    (fun p => by cases p <;> decide) (by decide)

/-- The marker on the first path overtakes the chunk on the second, whose byte is lost. -/
theorem receive_end_overtakes :
    newDispatcher twoPathConfig (fun _ _ => 0) (some ⟨fun _ => none, 0⟩) = .ok twoPaths ∧
      Lossless twoPathSent (arrivingInOrder [0, 2, 1, 3]) ∧
      (freshExit.receive default (List.replicate 16 0) (arrivingInOrder [0, 2, 1, 3])).all (!·.rejected) = true ∧
      (freshExit.receive default (List.replicate 16 0) (arrivingInOrder [0, 2, 1, 3])).flatMap (·.written) = [1] ∧
      bytesRead twoBytes = [1, 2] := by
  refine ⟨rfl, fun p => ?_, by decide, by decide, rfl⟩
  cases p <;> decide

end MeshDesk.Proxy
