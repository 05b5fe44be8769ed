import MeshDesk.Proxy.ReassemblerCalls

/-! Byte accounting of the reassembler. Five places update the global counter; each keeps
the difference between it and the chunk's own stream counter, so the sum over the live
streams stays exact and a negative counter is never reached. -/
namespace MeshDesk.Proxy
open Lib ExitStreamState

def ExitStreamState.bufferedLength (st : ExitStreamState) : ℤ :=
  Map.total (fun payload : Bytes => (payload.length : ℤ)) st.chunks

structure StreamAccounted (cfg : ChunkerConfig) (st : ExitStreamState) : Prop where
  bytes : st.bytes = st.bufferedLength
  chunks : 0 < cfg.maxReassemblyChunks → (st.chunks.size : ℤ) ≤ cfg.maxReassemblyChunks

structure ExitReassembler.Accounted (r : ExitReassembler) : Prop where
  total : r.totalBytes = Map.total (·.bytes) r.streams
  stream : ∀ s st, r.streams.lookup s = some st → StreamAccounted r.cfg st
  limit : 0 < r.cfg.maxReassemblyBytes → r.totalBytes ≤ r.cfg.maxReassemblyBytes

/-- A result of processing a chunk moves both counters by the same amount. -/
structure Balanced (cfg : ChunkerConfig) (t : ℤ) (st : ExitStreamState) (p : ProcessResult) : Prop where
  diff : p.totalBytes - p.st.bytes = t - st.bytes
  stream : StreamAccounted cfg p.st
  limit : 0 < cfg.maxReassemblyBytes → p.totalBytes ≤ cfg.maxReassemblyBytes

theorem StreamAccounted.bytes_nonneg {cfg : ChunkerConfig} {st : ExitStreamState}
    (h : StreamAccounted cfg st) : 0 ≤ st.bytes := by
  rw [h.bytes]
  exact Map.total_nonneg _ _ (fun _ _ _ => Int.natCast_nonneg _)

theorem streamAccounted_new (cfg : ChunkerConfig) (now : Time) : StreamAccounted cfg (newExitStreamState now) :=
  ⟨rfl, fun h => le_of_lt h⟩

namespace ExitStreamState

theorem deliverLoop_accounts (fuel : ℕ) (t : ℤ) (st : ExitStreamState) (acc : Bytes)
    (h : st.bytes = st.bufferedLength) :
    let out := deliverLoop fuel t st acc
    out.2.1 - out.2.2.bytes = t - st.bytes ∧ out.2.2.bytes = out.2.2.bufferedLength ∧
      out.2.2.chunks.size ≤ st.chunks.size ∧ out.2.1 ≤ t := by
  induction fuel generalizing t st acc with
  | zero => exact ⟨rfl, h, le_rfl, le_rfl⟩
  | succ fuel ih =>
    cases hv : st.chunks.lookup st.nextExpected with
    | none =>
      rw [deliverLoop_of_none hv]
      exact ⟨rfl, h, le_rfl, le_rfl⟩
    | some v =>
      have hsz := Map.size_erase hv
      have hlen := Map.total_erase (fun payload : Bytes => (payload.length : ℤ)) hv
      have h' : (st.takeNext v).bytes = (st.takeNext v).bufferedLength := by
        simp only [bufferedLength, takeNext] at h ⊢
        rw [hlen, h]
      obtain ⟨hd, hb, hs, ht⟩ := ih (t - v.length) (st.takeNext v) (acc ++ v) h'
      rw [deliverLoop_of_some hv]
      have hbytes : (st.takeNext v).bytes = st.bytes - v.length := rfl
      have hsize : (st.takeNext v).chunks.size + 1 = st.chunks.size := hsz
      exact ⟨by rw [hd, hbytes]; ring, hb, by omega, by omega⟩

theorem store_accounted {cfg : ChunkerConfig} {st : ExitStreamState} {q : UInt32} (payload : Bytes)
    (h : StreamAccounted cfg st) (hl : st.chunks.lookup q = none)
    (hs : 0 < cfg.maxReassemblyChunks → (st.chunks.size : ℤ) < cfg.maxReassemblyChunks) :
    StreamAccounted cfg (st.store q payload) := by
  constructor
  · simp only [store, bufferedLength, Map.total_insert_of_none _ hl, h.bytes]
  · intro hpos
    simp only [store, Map.size_insert_of_none hl]
    have := hs hpos
    omega

end ExitStreamState

namespace ExitReassembler
variable {r : ExitReassembler} {st : ExitStreamState} {c : Chunk}

theorem checkBounds_eq_none {payload : Bytes} (h : r.checkBounds st payload = none) :
    (0 < r.cfg.maxReassemblyChunks → (st.chunks.size : ℤ) < r.cfg.maxReassemblyChunks) ∧
      (0 < r.cfg.maxReassemblyBytes → r.totalBytes + payload.length ≤ r.cfg.maxReassemblyBytes) := by
  unfold checkBounds at h
  split_ifs at h with h1 h2
  constructor
  · intro hp
    by_contra hn
    exact h1 ⟨hp, by omega⟩
  · intro hp
    by_contra hn
    exact h2 ⟨hp, by omega⟩

theorem endStream_balanced {t : ℤ} (hst : StreamAccounted r.cfg st)
    (hl : 0 < r.cfg.maxReassemblyBytes → t ≤ r.cfg.maxReassemblyBytes) : Balanced r.cfg t st (endStream id t st) := by
  unfold endStream flushRemaining
  have hnn := hst.bytes_nonneg
  by_cases hz : st.chunks.size = 0
  · simp only [hz, if_true]
    exact ⟨rfl, ⟨hst.bytes, by simpa using hst.chunks⟩, hl⟩
  · simp only [hz, if_false, id]
    refine ⟨by simp, ⟨rfl, fun hp => by simpa using le_of_lt hp⟩, fun hp => ?_⟩
    have := hl hp
    dsimp only
    omega

theorem storeData_balanced (hst : StreamAccounted r.cfg st)
    (hlk : st.chunks.lookup c.sequence = none) (hb : r.checkBounds st c.payload = none) :
    Balanced r.cfg r.totalBytes st (storeData r.totalBytes st c) := by
  obtain ⟨hch, hby⟩ := checkBounds_eq_none hb
  have hs := store_accounted c.payload hst hlk hch
  set st₁ := (st.store c.sequence c.payload).noteTotal c.total with hst₁
  have hbytes : st₁.bytes = st.bytes + c.payload.length := noteTotal_bytes _ _
  have hbuf : st₁.bytes = st₁.bufferedLength := by
    rw [hst₁, noteTotal_bytes, hs.bytes]
    simp only [bufferedLength, noteTotal_chunks]
  have hsize : st₁.chunks.size = (st.store c.sequence c.payload).chunks.size := by
    rw [hst₁, noteTotal_chunks]
  obtain ⟨hd, he, hz, ht⟩ := deliverLoop_accounts st₁.chunks.size
    (r.totalBytes + c.payload.length) st₁ [] hbuf
  rw [storeData_eq]
  refine ⟨hd.trans (by rw [hbytes]; ring), ⟨he, fun hp => ?_⟩, fun hp => ht.trans (hby hp)⟩
  have := hs.chunks hp
  exact le_trans (Int.ofNat_le.mpr (hsize ▸ hz)) this

theorem processChunk_balanced (h : Accounted r) (hst : StreamAccounted r.cfg st) :
    Balanced r.cfg r.totalBytes st (r.processChunk id st c) := by
  have hp := processChunk_processed id r st c
  generalize r.processChunk id st c = p at hp
  cases hp with
  | ended => exact endStream_balanced hst h.limit
  | endedWith _ _ hl _ hb =>
    obtain ⟨hch, hby⟩ := checkBounds_eq_none hb
    have hs := store_accounted c.payload hst hl hch
    have he := endStream_balanced hs hby
    refine ⟨he.diff.trans ?_, he.stream, he.limit⟩
    simp only [store]
    ring
  | stored _ _ _ hl hb => exact storeData_balanced hst hl hb
  | _ => exact ⟨rfl, hst, h.limit⟩

theorem clampNonneg_of_nonneg {n : ℤ} (h : 0 ≤ n) : clampNonneg n = n := if_neg (by omega)

theorem endStream_clamp {t : ℤ} (h : st.bytes ≤ t) : endStream clampNonneg t st = endStream id t st := by
  have : clampNonneg (t - st.bytes) = t - st.bytes := clampNonneg_of_nonneg (by omega)
  simp [endStream, flushRemaining, this]

theorem processChunk_clamp (h : st.bytes ≤ r.totalBytes) :
    r.processChunk clampNonneg st c = r.processChunk id st c := by
  have hs : (st.store c.sequence c.payload).bytes ≤ r.totalBytes + c.payload.length := by
    simp only [store]
    omega
  simp only [processChunk, endStream_clamp h, endStream_clamp hs]

theorem Accounted.bytes_nonneg (h : Accounted r) {s : UInt32} (hs : r.streams.lookup s = some st) : 0 ≤ st.bytes :=
  (h.stream s st hs).bytes_nonneg

theorem Accounted.bytes_le (h : Accounted r) {s : UInt32} (hs : r.streams.lookup s = some st) :
    st.bytes ≤ r.totalBytes := by
  rw [h.total]
  exact Map.le_total (·.bytes) (fun _ _ hk => h.bytes_nonneg hk) hs

theorem Accounted.total_nonneg (h : Accounted r) : 0 ≤ r.totalBytes := by
  rw [h.total]
  exact Map.total_nonneg _ _ (fun _ _ hk => h.bytes_nonneg hk)

theorem Accounted.entry (h : Accounted r) (s : UInt32) (now : Time) :
    StreamAccounted r.cfg (r.entry s now) ∧ (r.entry s now).bytes ≤ r.totalBytes := by
  unfold ExitReassembler.entry
  cases hs : r.streams.lookup s with
  | none => exact ⟨streamAccounted_new _ _, h.total_nonneg⟩
  | some st => exact ⟨h.stream s st hs, h.bytes_le hs⟩

theorem total_insert_entry (r : ExitReassembler) (s : UInt32) (now : Time) (st : ExitStreamState) :
    Map.total (·.bytes) (r.streams.insert s st) =
      Map.total (·.bytes) r.streams - (r.entry s now).bytes + st.bytes := by
  unfold entry
  cases hs : r.streams.lookup s with
  | none => simp [Map.total_insert_of_none _ hs, newExitStreamState]
  | some st₀ => simp [Map.total_insert_of_some _ hs]

section
variable (h : Accounted r)
include h

theorem Accounted.writeBack {s : UInt32} {now : Time} {t : ℤ}
    (hd : t - st.bytes = r.totalBytes - (r.entry s now).bytes) (hst : StreamAccounted r.cfg st)
    (hl : 0 < r.cfg.maxReassemblyBytes → t ≤ r.cfg.maxReassemblyBytes) : Accounted (r.writeBack s t st) where
  total := by
    have := total_insert_entry r s now st
    have := h.total
    simp only [ExitReassembler.writeBack]
    linarith
  stream s' st' hs' := by
    obtain ⟨rfl, rfl⟩ | ⟨-, hold⟩ := Map.lookup_of_insert hs'
    · exact hst
    · exact h.stream s' st' hold
  limit := hl

variable (s : UInt32) (now : Time)

theorem Accounted.cleanupStream : Accounted (r.cleanupStream id s) := by
  unfold ExitReassembler.cleanupStream
  cases hs : r.streams.lookup s with
  | none => exact h
  | some st =>
    refine ⟨?_, fun s' st' hs' => ?_, fun hp => ?_⟩
    · simp [Map.total_erase _ hs, h.total]
    · by_cases he : s' = s
      · subst he
        simp at hs'
      · simp only [AList.lookup_erase_ne he] at hs'
        exact h.stream s' st' hs'
    · have := h.limit hp
      have := h.bytes_nonneg hs
      simp only [id]
      omega

theorem cleanupStream_clamp : r.cleanupStream clampNonneg s = r.cleanupStream id s := by
  unfold cleanupStream
  cases hs : r.streams.lookup s with
  | none => rfl
  | some st =>
    have := h.bytes_le hs
    simp [clampNonneg_of_nonneg (show 0 ≤ r.totalBytes - st.bytes by omega)]

theorem Accounted.settle {s : UInt32} {now : Time} {t : ℤ} (st : ExitStreamState)
    (done : Bool) (hd : t - st.bytes = r.totalBytes - (r.entry s now).bytes) (hst : StreamAccounted r.cfg st)
    (hl : 0 < r.cfg.maxReassemblyBytes → t ≤ r.cfg.maxReassemblyBytes) :
    Accounted (r.settle id s done t st) ∧ r.settle clampNonneg s done t st = r.settle id s done t st := by
  have hw := h.writeBack hd hst hl
  cases done with
  | false => exact ⟨hw, rfl⟩
  | true =>
    -- `completedStreams` plays no part in the accounting.
    have hm : Accounted { r.writeBack s t st with completedStreams := insert s r.completedStreams } :=
      ⟨hw.total, hw.stream, hw.limit⟩
    exact ⟨hm.cleanupStream s, cleanupStream_clamp hm s⟩

theorem Accounted.add (c : Chunk) : (Accounted (r.addStreamingWith id now c).2 ∧
      r.addStreamingWith clampNonneg now c = r.addStreamingWith id now c) ∧
    Accounted (r.addWith id now c).2 ∧ r.addWith clampNonneg now c = r.addWith id now c := by
  by_cases hl : r.Live c.streamID
  · obtain ⟨hst, hle⟩ := h.entry c.streamID now
    have hb : Balanced r.cfg _ _ (r.processChunk id (r.entry c.streamID now) c) := processChunk_balanced h hst
    simp only [addStreamingWith_of_live _ hl, addWith_of_live _ hl, processChunk_clamp hle]
    set p := r.processChunk id (r.entry c.streamID now) c
    have hst' : StreamAccounted r.cfg { p.st with accumulated := p.st.accumulated ++ p.delivered } :=
      ⟨hb.stream.bytes, hb.stream.chunks⟩
    obtain ⟨ha, he⟩ := h.settle p.st p.done hb.diff hb.stream hb.limit
    obtain ⟨ha', he'⟩ := h.settle
      { p.st with accumulated := p.st.accumulated ++ p.delivered } p.done hb.diff hst' hb.limit
    exact ⟨⟨ha, by rw [he]⟩, ha', by rw [he']⟩
  · simp only [add_of_not_live _ hl]
    exact ⟨⟨h, trivial⟩, h, trivial⟩

theorem Accounted.foldl_cleanupStream (ids : List UInt32) :
    Accounted (ids.foldl (ExitReassembler.cleanupStream id) r) ∧
      ids.foldl (ExitReassembler.cleanupStream clampNonneg) r =
        ids.foldl (ExitReassembler.cleanupStream id) r := by
  induction ids generalizing r with
  | nil => exact ⟨h, rfl⟩
  | cons s ids ih =>
    rw [List.foldl_cons, List.foldl_cons, cleanupStream_clamp h]
    exact ih (h.cleanupStream s)

theorem Accounted.expireStream :
    Accounted (r.expireStream id s now).2 ∧ r.expireStream clampNonneg s now = r.expireStream id s now := by
  unfold ExitReassembler.expireStream
  rw [cleanupStream_clamp h]
  refine ⟨?_, rfl⟩
  split_ifs
  · exact h
  · cases r.streams.lookup s with
    | none => exact h
    | some st =>
      dsimp only
      split_ifs
      · exact h.cleanupStream s
      · exact h

theorem Accounted.expireStreams :
    Accounted (r.expireStreams id now).2 ∧ r.expireStreams clampNonneg now = r.expireStreams id now := by
  unfold ExitReassembler.expireStreams
  dsimp only
  obtain ⟨ha, he⟩ := h.foldl_cleanupStream
    ((r.streams.entries.filter (fun e => r.expired e.2 now)).map (·.1))
  rw [he]
  refine ⟨?_, rfl⟩
  split_ifs
  · exact h
  · exact ha

end

end ExitReassembler

inductive ReassemblerOp where
  | add (now : Time) (chunk : Chunk)
  | addStreaming (now : Time) (chunk : Chunk)
  | purgeStream (streamID : UInt32)
  | expireStream (streamID : UInt32) (now : Time)
  | expireStreams (now : Time)

namespace ExitReassembler

def apply (clamp : ℤ → ℤ) (r : ExitReassembler) : ReassemblerOp → ExitReassembler
  | .add now chunk => (r.addWith clamp now chunk).2
  | .addStreaming now chunk => (r.addStreamingWith clamp now chunk).2
  | .purgeStream streamID => r.purgeStream clamp streamID
  | .expireStream streamID now => (r.expireStream clamp streamID now).2
  | .expireStreams now => (r.expireStreams clamp now).2

def applyAll (clamp : ℤ → ℤ) (r : ExitReassembler) (ops : List ReassemblerOp) : ExitReassembler :=
  ops.foldl (apply clamp) r

theorem Accounted.apply {r : ExitReassembler} (h : Accounted r) (op : ReassemblerOp) :
    Accounted (r.apply id op) ∧ r.apply clampNonneg op = r.apply id op := by
  cases op with
  | add now c =>
    obtain ⟨-, ha, he⟩ := h.add now c
    exact ⟨ha, congrArg Prod.snd he⟩
  | addStreaming now c =>
    obtain ⟨⟨ha, he⟩, -⟩ := h.add now c
    exact ⟨ha, congrArg Prod.snd he⟩
  | purgeStream s => exact ⟨h.cleanupStream s, cleanupStream_clamp h s⟩
  | expireStream s now =>
    obtain ⟨ha, he⟩ := h.expireStream s now
    exact ⟨ha, congrArg Prod.snd he⟩
  | expireStreams now =>
    obtain ⟨ha, he⟩ := h.expireStreams now
    exact ⟨ha, congrArg Prod.snd he⟩

theorem Accounted.applyAll {r : ExitReassembler} (h : Accounted r) (ops : List ReassemblerOp) :
    Accounted (r.applyAll id ops) ∧ r.applyAll clampNonneg ops = r.applyAll id ops := by
  induction ops generalizing r with
  | nil => exact ⟨h, rfl⟩
  | cons op ops ih =>
    obtain ⟨ha, he⟩ := h.apply op
    obtain ⟨hr, heq⟩ := ih ha
    exact ⟨hr, by simpa [ExitReassembler.applyAll, he] using heq⟩

theorem accounted_new (cfg : ChunkerConfig) : Accounted (newExitReassembler cfg) :=
  ⟨rfl, nofun, fun h => le_of_lt h⟩

/-- Every run keeps the counters exact and within the limits, and taking the clamps out of
the program changes no state of any run. -/
theorem applyAll_accounted (cfg : ChunkerConfig) (ops : List ReassemblerOp) :
    Accounted ((newExitReassembler cfg).applyAll clampNonneg ops) ∧
      (newExitReassembler cfg).applyAll clampNonneg ops = (newExitReassembler cfg).applyAll id ops := by
  obtain ⟨ha, he⟩ := (accounted_new cfg).applyAll ops
  exact ⟨he ▸ ha, he⟩

end ExitReassembler
end MeshDesk.Proxy
