import MeshDesk.Lib.Segments
import MeshDesk.Proxy.Chunk

/-! The entry-side chunkers. Both strategies cut the data front to back and differ only in
how the next chunk size is chosen, so they share one loop. Randomness is a sequence of
outcomes of 8-byte reads, each of which may fail. -/
namespace MeshDesk.Proxy
open Lib List

/-- The padding CSPRNG: the outcome of every 8-byte read, and how many have been made. -/
structure PadSource where
  draws : ℕ → Option UInt64
  pos : ℕ

variable (cfg : ChunkerConfig) (src : PadSource)

def PadSource.read : Option UInt64 × PadSource :=
  (src.draws src.pos, { src with pos := src.pos + 1 })

/-- A padding length in `[min, max]`, or `min` when the read fails. -/
def randomPaddingLen (min max : Int64) : Int64 × PadSource :=
  let min := if min < 0 then 0 else min
  if max < min then (0, src)
  else if max = 0 then (0, src)
  else
    let rangeSize := max - min + 1
    let (draw, src) := src.read
    match draw with
    | none => (min, src)
    | some n => (min + (n % rangeSize.toUInt64).toInt64, src)

def paddingFor : UInt16 × PadSource :=
  if cfg.disablePadding = false ∧ 0 < cfg.paddingMax then
    let (n, src) := randomPaddingLen src cfg.paddingMin cfg.paddingMax
    (if 0 < n then n.toUInt64.toUInt16 else 0, src)
  else (0, src)

/-- The loop of `Split`. `nextSize` chooses the next payload size from the number of bytes
that remain; a size is positive, so the number of bytes is enough fuel. -/
def splitLoop (cfg : ChunkerConfig) (streamID total : UInt32) (nextSize : PadSource → ℕ → ℕ × PadSource) :
    ℕ → UInt32 → PadSource → Bytes → List Chunk × UInt32 × PadSource
  | 0, nextSeq, src, _ => ([], nextSeq, src)
  | fuel + 1, nextSeq, src, rest =>
    if rest = [] then ([], nextSeq, src)
    else
      let (size, src) := nextSize src rest.length
      let (paddingLen, src) := paddingFor cfg src
      let chunk : Chunk := ⟨streamID, nextSeq, total, .data, rest.take size, paddingLen⟩
      let (chunks, nextSeq, src) :=
        splitLoop cfg streamID total nextSize fuel (nextSeq + 1) src (rest.drop size)
      (chunk :: chunks, nextSeq, src)

structure ChunkerState where
  cfg : ChunkerConfig
  streamID : UInt32
  nextSeq : UInt32
  total : UInt32
  totalSet : Bool
  padSource : PadSource

structure FixedChunker extends ChunkerState where
  maxPos : 0 < cfg.maxChunkSize

/-- `quantile minSize n` is the rounded Pareto quantile of the draw `n`, computed in floating
point by the source; nothing is assumed about it. -/
structure BoundedChunker extends ChunkerState where
  minSize : Int64
  maxSize : Int64
  quantile : Int64 → UInt64 → Int64
  minPos : 0 < minSize
  minLe : minSize ≤ maxSize

def defaultFixedSize : Int64 := 16 * 1024
def defaultBoundedMin : Int64 := 4 * 1024
def defaultBoundedMax : Int64 := 64 * 1024

def newFixedChunker : FixedChunker :=
  let maxSize := if cfg.maxChunkSize ≤ 0 then defaultFixedSize else cfg.maxChunkSize
  { cfg := { cfg with
      maxChunkSize := maxSize
      minChunkSize := if cfg.minChunkSize ≤ 0 then maxSize else cfg.minChunkSize }
    streamID := 0
    nextSeq := 0
    total := 0
    totalSet := false
    padSource := src
    maxPos := by
      dsimp only [maxSize]
      split_ifs with h
      · decide
      · exact Int64.not_le.mp h }

def newBoundedChunker (quantile : Int64 → UInt64 → Int64) (src : PadSource) : BoundedChunker :=
  let minSize := if cfg.minChunkSize ≤ 0 then defaultBoundedMin else cfg.minChunkSize
  let maxSize := if cfg.maxChunkSize ≤ 0 then defaultBoundedMax else cfg.maxChunkSize
  { cfg := cfg
    streamID := 0
    nextSeq := 0
    total := 0
    totalSet := false
    padSource := src
    minSize := minSize
    maxSize := if maxSize < minSize then minSize else maxSize
    quantile := quantile
    minPos := by
      dsimp only [minSize]
      split_ifs with h
      · decide
      · exact Int64.not_le.mp h
    minLe := by
      split_ifs with h
      · exact Int64.le_refl _
      · exact Int64.not_lt.mp h }

namespace FixedChunker

/-- `end = offset + maxSize`, cut at the end of the data. -/
def nextSize (c : FixedChunker) (src : PadSource) (remaining : ℕ) : ℕ × PadSource :=
  (min c.cfg.maxChunkSize.toNatClampNeg remaining, src)

/-- `uint32((len(data) + maxSize - 1) / maxSize)` in 64-bit arithmetic. -/
def computedTotal (c : FixedChunker) (data : Bytes) : UInt32 :=
  ((Int64.ofNat data.length + c.cfg.maxChunkSize - 1) / c.cfg.maxChunkSize).toUInt64.toUInt32

def split (c : FixedChunker) (data : Bytes) : List Chunk × FixedChunker :=
  let total := if c.totalSet then c.total else c.computedTotal data
  let (chunks, nextSeq, src) :=
    splitLoop c.cfg c.streamID total c.nextSize data.length c.nextSeq c.padSource data
  (chunks, { c with nextSeq := nextSeq, padSource := src })

end FixedChunker

namespace BoundedChunker

variable (c : BoundedChunker)

def sampleParetoSize (src : PadSource) : Int64 × PadSource :=
  let (draw, src) := src.read
  match draw with
  | none => (c.minSize, src)
  | some n =>
    let result := c.quantile c.minSize n
    let result := if result < c.minSize then c.minSize else result
    (if c.maxSize < result then c.maxSize else result, src)

def nextSize (src : PadSource) (remaining : ℕ) : ℕ × PadSource :=
  let (size, src) := if c.cfg.debugFixedSizes then (c.maxSize, src) else c.sampleParetoSize src
  (max 1 (min size.toNatClampNeg remaining), src)

def split (data : Bytes) : List Chunk × BoundedChunker :=
  let total := if c.totalSet then c.total else 0
  let (chunks, nextSeq, src) :=
    splitLoop c.cfg c.streamID total c.nextSize data.length c.nextSeq c.padSource data
  -- The total is known once the loop has ended.
  let chunks := if c.totalSet then chunks
    else chunks.map (fun chunk => { chunk with total := UInt32.ofNat chunks.length })
  (chunks, { c with nextSeq := nextSeq, padSource := src })

end BoundedChunker

inductive Chunker where
  | fixed (c : FixedChunker)
  | bounded (c : BoundedChunker)

inductive ChunkerStrategy where
  | fixed16k
  | bounded4k64k
  deriving DecidableEq, Repr

def ChunkerStrategy.new (strategy : ChunkerStrategy) (cfg : ChunkerConfig)
    (quantile : Int64 → UInt64 → Int64) (src : PadSource) : Chunker :=
  match strategy with
  | .fixed16k => .fixed (newFixedChunker cfg src)
  | .bounded4k64k => .bounded (newBoundedChunker cfg quantile src)

namespace Chunker

def split : Chunker → Bytes → List Chunk × Chunker
  | .fixed c, data => ((c.split data).1, .fixed (c.split data).2)
  | .bounded c, data => ((c.split data).1, .bounded (c.split data).2)

def setStreamID (id : UInt32) : Chunker → Chunker
  | .fixed c => .fixed { c with streamID := id, nextSeq := 0 }
  | .bounded c => .bounded { c with streamID := id, nextSeq := 0 }

def setTotal (total : UInt32) : Chunker → Chunker
  | .fixed c => .fixed { c with total := total, totalSet := true }
  | .bounded c => .bounded { c with total := total, totalSet := true }

end Chunker
def Numbered (s : UInt32) : UInt32 → List Chunk → Prop
  | _, [] => True
  | q, c :: cs => (c.streamID = s ∧ c.sequence = q ∧ c.type = .data ∧ c.payload ≠ []) ∧ Numbered s (q + 1) cs

variable {s q : UInt32} {cs : List Chunk}

theorem Numbered.map_total (t : UInt32) (h : Numbered s q cs) :
    Numbered s q (cs.map (fun c => { c with total := t })) := by
  induction cs generalizing q with
  | nil => trivial
  | cons c cs ih => exact ⟨h.1, ih h.2⟩

theorem Numbered.append {cs' : List Chunk} (h : Numbered s q cs)
    (h' : Numbered s (q + UInt32.ofNat cs.length) cs') : Numbered s q (cs ++ cs') := by
  induction cs generalizing q with
  | nil => simpa using h'
  | cons c cs ih =>
    refine ⟨h.1, ih h.2 ?_⟩
    rw [length_cons, Nat.add_comm, UInt32.ofNat_add, ← UInt32.add_assoc] at h'
    exact h'

theorem Numbered.get (h : Numbered s q cs) {i : ℕ} {c : Chunk}
    (hi : cs[i]? = some c) : c.streamID = s ∧ c.sequence = q + UInt32.ofNat i ∧ c.type = .data ∧ c.payload ≠ [] := by
  induction cs generalizing q i with
  | nil => simp at hi
  | cons d cs ih =>
    cases i with
    | zero =>
      obtain rfl : d = c := by simpa using hi
      simpa using h.1
    | succ i =>
      have := ih h.2 (by simpa using hi)
      rw [UInt32.add_assoc] at this
      rwa [UInt32.ofNat_add, UInt32.add_comm (UInt32.ofNat i)]

section SplitLoop
variable {cfg : ChunkerConfig} {s total : UInt32} {nextSize : PadSource → ℕ → ℕ × PadSource}

theorem splitLoop_nil (fuel : ℕ) (q : UInt32) (src : PadSource) :
    (splitLoop cfg s total nextSize fuel q src []).1 = [] := by
  cases fuel <;> rfl

theorem splitLoop_cons {rest : Bytes} (h : rest ≠ []) (fuel : ℕ) (q : UInt32) (src : PadSource) :
    (splitLoop cfg s total nextSize (fuel + 1) q src rest).1 =
      let step := nextSize src rest.length
      ⟨s, q, total, .data, rest.take step.1, (paddingFor cfg step.2).1⟩ ::
        (splitLoop cfg s total nextSize fuel (q + 1) (paddingFor cfg step.2).2 (rest.drop step.1)).1 :=
  congrArg Prod.fst (if_neg h)

variable (cfg s total) in
theorem splitLoop_spec (hpos : ∀ src n, 0 < n → 0 < (nextSize src n).1) (fuel : ℕ) (q : UInt32)
    (src : PadSource) (rest : Bytes) (hf : rest.length ≤ fuel) :
    let cs := (splitLoop cfg s total nextSize fuel q src rest).1
    Numbered s q cs ∧ cs.flatMap (·.payload) = rest ∧ ∀ c ∈ cs, c.total = total := by
  induction fuel generalizing q src rest with
  | zero =>
    obtain rfl : rest = [] := length_eq_zero_iff.mp (Nat.le_zero.mp hf)
    exact ⟨trivial, rfl, forall_mem_nil _⟩
  | succ fuel ih =>
    by_cases hnil : rest = []
    · subst hnil
      rw [splitLoop_nil]
      exact ⟨trivial, rfl, by simp⟩
    · have hlen : 0 < rest.length := length_pos_iff.mpr hnil
      have hsize := hpos src rest.length hlen
      rw [splitLoop_cons hnil]
      set step := nextSize src rest.length
      have hdrop : (rest.drop step.1).length ≤ fuel := by
        rw [length_drop]
        omega
      obtain ⟨hnum, hcat, htot⟩ := ih (q + 1) (paddingFor cfg step.2).2 (rest.drop step.1) hdrop
      have hne : rest.take step.1 ≠ [] := by
        rw [Ne, take_eq_nil_iff, not_or]
        exact ⟨by omega, hnil⟩
      refine ⟨⟨⟨rfl, rfl, rfl, hne⟩, hnum⟩, ?_, ?_⟩
      · rw [flatMap_cons, hcat, take_append_drop]
      · exact forall_mem_cons.mpr ⟨rfl, htot⟩

theorem splitLoop_mem {fuel : ℕ} {q : UInt32} {src : PadSource} {rest : Bytes} {chunk : Chunk}
    (h : chunk ∈ (splitLoop cfg s total nextSize fuel q src rest).1) :
    ∃ (src' : PadSource) (rest' : Bytes), chunk.payload = rest'.take (nextSize src' rest'.length).1 ∧
      chunk.paddingLen = (paddingFor cfg (nextSize src' rest'.length).2).1 := by
  induction fuel generalizing q src rest with
  | zero => cases h
  | succ fuel ih =>
    by_cases hnil : rest = []
    · rw [hnil, splitLoop_nil] at h
      cases h
    · rw [splitLoop_cons hnil] at h
      rcases mem_cons.mp h with rfl | h
      · exact ⟨src, rest, rfl, rfl⟩
      · exact ih h

theorem splitLoop_length {M : ℕ} (hM : 0 < M) (hsize : ∀ src n, (nextSize src n).1 = min M n) (fuel : ℕ)
    (q : UInt32) (src : PadSource) (rest : Bytes) (hf : rest.length ≤ fuel) :
    (splitLoop cfg s total nextSize fuel q src rest).1.length = (rest.length + M - 1) / M := by
  have hzero : (M - 1) / M = 0 := Nat.div_eq_of_lt (by omega)
  induction fuel generalizing q src rest with
  | zero =>
    obtain rfl : rest = [] := length_eq_zero_iff.mp (Nat.le_zero.mp hf)
    rw [splitLoop_nil]
    simpa using hzero.symm
  | succ fuel ih =>
    by_cases hnil : rest = []
    · subst hnil
      rw [splitLoop_nil]
      simpa using hzero.symm
    · have hlen : 0 < rest.length := length_pos_iff.mpr hnil
      rw [splitLoop_cons hnil, length_cons, hsize, ih _ _ _ (by rw [length_drop]; omega),
        length_drop]
      by_cases hle : rest.length ≤ M
      · have h₁ : (rest.length + M - 1) / M = 1 := Nat.div_eq_of_lt_le (by omega) (by omega)
        rw [min_eq_right hle, Nat.sub_self, Nat.zero_add, hzero, h₁]
      · have hsum : rest.length + M - 1 = (rest.length - M + M - 1) + M := by omega
        rw [min_eq_left (by omega), hsum, Nat.add_div_right _ hM]

end SplitLoop

theorem toNatClampNeg_pos {n : Int64} (h : 0 < n) : 0 < n.toNatClampNeg := by
  have : (0 : Int64).toInt < n.toInt := Int64.lt_iff_toInt_lt.mp h
  exact Int.lt_toNat.mpr (by simpa using this)

variable (c : FixedChunker) (data : Bytes)

theorem FixedChunker.nextSize_pos (src : PadSource) (n : ℕ) (h : 0 < n) : 0 < (c.nextSize src n).1 :=
  lt_min (toNatClampNeg_pos c.maxPos) h

theorem toNatClampNeg_mono {a b : Int64} (h : a ≤ b) : a.toNatClampNeg ≤ b.toNatClampNeg := by
  exact Int.toNat_le_toNat (Int64.le_iff_toInt_le.mp h)

theorem BoundedChunker.sampleParetoSize_le (c : BoundedChunker) (src : PadSource) :
    (c.sampleParetoSize src).1 ≤ c.maxSize := by
  unfold sampleParetoSize
  dsimp only
  cases src.read.1 with
  | none => exact c.minLe
  | some n =>
    dsimp only
    by_cases h : c.maxSize < if c.quantile c.minSize n < c.minSize then c.minSize else c.quantile c.minSize n
    · rw [if_pos h]
      exact Int64.le_refl _
    · rw [if_neg h]
      exact Int64.not_lt.mp h

theorem BoundedChunker.nextSize_le (c : BoundedChunker) (src : PadSource) (n : ℕ) :
    (c.nextSize src n).1 ≤ c.maxSize.toNatClampNeg := by
  have hpos : 1 ≤ c.maxSize.toNatClampNeg := (toNatClampNeg_pos c.minPos).trans_le (toNatClampNeg_mono c.minLe)
  unfold nextSize
  refine max_le hpos ((min_le_left _ _).trans (toNatClampNeg_mono ?_))
  split_ifs
  · exact Int64.le_refl _
  · exact c.sampleParetoSize_le src

theorem BoundedChunker.nextSize_pos (c : BoundedChunker) (src : PadSource) (n : ℕ) (_ : 0 < n) :
    0 < (c.nextSize src n).1 :=
  lt_of_lt_of_le Nat.one_pos (le_max_left _ _)

theorem toUInt64_toNat {y : Int64} {n : ℕ} (h : n < 2 ^ 64) (hy : y.toInt = (n : ℤ).bmod (2 ^ 64)) :
    y.toUInt64.toNat = n := by
  have hof : y = Int64.ofNat n := Int64.toInt_inj.mp (hy.trans Int64.toInt_ofNat'.symm)
  rw [hof, Int64.toUInt64_ofNat', UInt64.toNat_ofNat_of_lt' h]

theorem toInt64_toInt {u : UInt64} (h : u.toNat < 2 ^ 63) : u.toInt64.toInt = u.toNat := by
  have hu : u.toInt64 = Int64.ofNat u.toNat := by
    conv_lhs => rw [← UInt64.ofNat_toNat (x := u)]
    exact UInt64.toInt64_ofNat'
  rw [hu, Int64.toInt_ofNat_of_lt h]

/-- A draw reduced to the range from `a` to `b` stays in it, also where the size of the range overflows. -/
theorem draw_le {a b : Int64} (n : UInt64) (h₀ : 0 ≤ a.toInt) (h : a.toInt ≤ b.toInt) :
    (a + (n % (b - a + 1).toUInt64).toInt64).toInt ≤ b.toInt := by
  have hb := Int64.toInt_lt b
  obtain ⟨r, hr⟩ : ∃ r : ℕ, (r : ℤ) = b.toInt - a.toInt + 1 := ⟨(b.toInt - a.toInt + 1).toNat, by omega⟩
  have hrange : (b - a + 1).toUInt64.toNat = r := by
    refine toUInt64_toNat (by omega) ?_
    rw [Int64.toInt_add, Int64.toInt_sub, hr, Int.bmod_add_bmod]
    rfl
  have hmod : (n % (b - a + 1).toUInt64).toNat < r := by
    rw [UInt64.toNat_mod, hrange]
    exact Nat.mod_lt _ (by omega)
  rw [Int64.toInt_add, toInt64_toInt (by omega), Int.bmod_eq_of_le (by omega) (by omega)]
  omega

theorem randomPaddingLen_le (src : PadSource) (lo : Int64) {hi : Int64} (hpos : 0 < hi) :
    (randomPaddingLen src lo hi).1.toInt ≤ hi.toInt := by
  have hhi : 0 < hi.toInt := Int64.lt_iff_toInt_lt.mp hpos
  have hlo : 0 ≤ (if lo < 0 then 0 else lo : Int64).toInt := by
    split_ifs with h
    · exact le_rfl
    · exact Int64.le_iff_toInt_le.mp (Int64.not_lt.mp h)
  unfold randomPaddingLen
  generalize (if lo < 0 then 0 else lo : Int64) = m at hlo
  dsimp only
  split_ifs with h₁ h₂
  · exact hhi.le
  · exact hhi.le
  · have hle : m.toInt ≤ hi.toInt := Int64.le_iff_toInt_le.mp (Int64.not_lt.mp h₁)
    cases src.read.1 with
    | none => exact hle
    | some n => exact draw_le n hlo hle

def ChunkerConfig.maxPadding (cfg : ChunkerConfig) : ℕ :=
  if cfg.disablePadding then 0 else cfg.paddingMax.toNatClampNeg

theorem paddingFor_le (cfg : ChunkerConfig) (src : PadSource) : (paddingFor cfg src).1.toNat ≤ cfg.maxPadding := by
  unfold paddingFor
  split_ifs with h
  · obtain ⟨hd, hpos⟩ := h
    have hle := randomPaddingLen_le src cfg.paddingMin hpos
    generalize randomPaddingLen src cfg.paddingMin cfg.paddingMax = r at hle
    have hmax : cfg.maxPadding = cfg.paddingMax.toNatClampNeg := by simp [ChunkerConfig.maxPadding, hd]
    dsimp only
    rw [hmax]
    split_ifs with hr
    · have hrpos : 0 < r.1.toInt := Int64.lt_iff_toInt_lt.mp hr
      have hlt := Int64.toInt_lt r.1
      have hnat : r.1.toUInt64.toNat = r.1.toInt.toNat :=
        toUInt64_toNat (by omega) (by rw [Int.bmod_eq_of_le (by omega) (by omega)]; omega)
      rw [UInt64.toNat_toUInt16, hnat, ← Int64.toNat_toInt]
      exact (Nat.mod_le _ _).trans (by omega)
    · exact Nat.zero_le _
  · exact Nat.zero_le _

/-- The largest allocation of the Go runtime on 64-bit systems bounds the length of a slice. -/
def maxAlloc : ℕ := 2 ^ 48

theorem toInt_add_sub_one {n M : Int64} : (n + M - 1).toInt = (n.toInt + M.toInt - 1).bmod (2 ^ 64) := by
  rw [Int64.toInt_sub, Int64.toInt_add, Int.bmod_sub_bmod]
  rfl

theorem bmod_of_lt {x : ℤ} (h₀ : 0 ≤ x) (h : x < 2 ^ 63) : x.bmod (2 ^ 64) = x :=
  Int.bmod_eq_of_le (by omega) (by omega)

theorem FixedChunker.computedTotal_eq (hlen : data.length ≤ maxAlloc)
    (h : data.length + c.cfg.maxChunkSize.toInt - 1 < 2 ^ 63) :
    c.computedTotal data =
      UInt32.ofNat ((data.length + c.cfg.maxChunkSize.toNatClampNeg - 1) / c.cfg.maxChunkSize.toNatClampNeg) := by
  have hpos := toNatClampNeg_pos c.maxPos
  have hM : c.cfg.maxChunkSize.toInt = c.cfg.maxChunkSize.toNatClampNeg := by
    rw [← Int64.toNat_toInt] at hpos ⊢
    omega
  unfold maxAlloc at hlen
  rw [hM] at h
  unfold computedTotal
  set M := c.cfg.maxChunkSize.toNatClampNeg
  set k := (data.length + M - 1) / M with hk
  have hkb : k < 2 ^ 63 := lt_of_le_of_lt (Nat.div_le_self _ _) (by omega)
  have hdiv : (((data.length : ℤ) + M - 1).tdiv M) = k := by
    have : (data.length : ℤ) + M - 1 = ((data.length + M - 1 : ℕ) : ℤ) := by omega
    rw [this, Int.ofNat_tdiv]
  have hx : (Int64.ofNat data.length + c.cfg.maxChunkSize - 1) / c.cfg.maxChunkSize = Int64.ofNat k := by
    apply Int64.toInt_inj.mp
    have hsum : ((data.length : ℤ) + M - 1).bmod (2 ^ 64) = data.length + M - 1 := bmod_of_lt (by omega) h
    have hkmod : (k : ℤ).bmod (2 ^ 64) = k := bmod_of_lt (Int.natCast_nonneg k) (by exact_mod_cast hkb)
    rw [Int64.toInt_div, toInt_add_sub_one, Int64.toInt_ofNat_of_lt (by omega), Int64.toInt_ofNat_of_lt hkb, hM,
      hsum, hdiv, hkmod]
  rw [hx, Int64.toUInt64_ofNat', UInt64.toUInt32_ofNat']

/-- When the sum overflows, the quotient is 0 or -1 and the total is never the number 1 of chunks. -/
theorem FixedChunker.computedTotal_of_overflow (hlen : data.length ≤ maxAlloc)
    (h : 2 ^ 63 ≤ data.length + c.cfg.maxChunkSize.toInt - 1) :
    c.computedTotal data ≠ 1 := by
  unfold maxAlloc at hlen
  have hlt := Int64.toInt_lt c.cfg.maxChunkSize
  unfold computedTotal
  set M := c.cfg.maxChunkSize.toInt with hM
  obtain ⟨gap, hgap⟩ : ∃ d, 2 ^ 64 - ((data.length : ℤ) + M - 1) = d := ⟨_, rfl⟩
  have hneg : ((data.length : ℤ) + M - 1).bmod (2 ^ 64) = -gap := by
    rw [Int.bmod_def]
    split_ifs <;> omega
  have hquot : gap.tdiv M = 0 ∨ gap.tdiv M = 1 := by
    rw [Int.tdiv_eq_ediv_of_nonneg (by omega)]
    have h₀ : 0 ≤ gap / M := Int.ediv_nonneg (by omega) (by omega)
    have h₂ : gap / M < 2 := Int.ediv_lt_of_lt_mul (by omega) (by omega)
    omega
  have hx : (Int64.ofNat data.length + c.cfg.maxChunkSize - 1) / c.cfg.maxChunkSize = 0 ∨
      (Int64.ofNat data.length + c.cfg.maxChunkSize - 1) / c.cfg.maxChunkSize = -1 := by
    rw [← Int64.toInt_inj, ← Int64.toInt_inj, Int64.toInt_div, toInt_add_sub_one,
      Int64.toInt_ofNat_of_lt (by omega), ← hM, hneg, Int.neg_tdiv]
    rcases hquot with hq | hq
    · left
      rw [hq]
      rfl
    · right
      rw [hq]
      rfl
  rcases hx with hx | hx
  · rw [hx]
    decide
  · rw [hx]
    decide

theorem Numbered.mem (h : Numbered s q cs) {c : Chunk} (hc : c ∈ cs) :
    c.streamID = s ∧ c.type = .data ∧ c.payload ≠ [] := by
  obtain ⟨i, hi⟩ := mem_iff_getElem?.mp hc
  obtain ⟨hs, -, ht, hp⟩ := h.get hi
  exact ⟨hs, ht, hp⟩

theorem FixedChunker.split_total (ht : c.totalSet = false) :
    (∀ chunk ∈ (c.split data).1, chunk.total = c.computedTotal data) ∧
      (c.split data).1.length =
        (data.length + c.cfg.maxChunkSize.toNatClampNeg - 1) / c.cfg.maxChunkSize.toNatClampNeg := by
  have hspec := splitLoop_spec c.cfg c.streamID (if c.totalSet then c.total else c.computedTotal data)
    c.nextSize_pos data.length c.nextSeq c.padSource data le_rfl
  refine ⟨fun chunk hc => ?_, splitLoop_length (toNatClampNeg_pos c.maxPos) (fun _ _ => rfl) _ _ _ _ le_rfl⟩
  have := hspec.2.2 chunk hc
  rwa [ht] at this

theorem BoundedChunker.split_total (c : BoundedChunker) (data : Bytes) (ht : c.totalSet = false) :
    ∀ chunk ∈ (c.split data).1, chunk.total = UInt32.ofNat (c.split data).1.length := by
  intro chunk hc
  simp only [split, ht, Bool.false_eq_true, if_false, length_map] at hc ⊢
  obtain ⟨d, -, rfl⟩ := mem_map.mp hc
  rfl

namespace Chunker

def state : Chunker → ChunkerState
  | .fixed c => c.toChunkerState
  | .bounded c => c.toChunkerState

theorem split_spec (c : Chunker) (data : Bytes) :
    Numbered c.state.streamID c.state.nextSeq (c.split data).1 ∧
      (c.split data).1.flatMap (·.payload) = data := by
  cases c with
  | fixed c =>
    obtain ⟨hnum, hcat, -⟩ := splitLoop_spec c.cfg c.streamID (if c.totalSet then c.total else c.computedTotal data)
      c.nextSize_pos data.length c.nextSeq c.padSource data le_rfl
    exact ⟨hnum, hcat⟩
  | bounded c =>
    obtain ⟨hnum, hcat, -⟩ := splitLoop_spec c.cfg c.streamID (if c.totalSet then c.total else 0)
      c.nextSize_pos data.length c.nextSeq c.padSource data le_rfl
    simp only [split, BoundedChunker.split, state]
    split_ifs with ht
    · rw [if_pos ht] at hnum hcat
      exact ⟨hnum, hcat⟩
    · rw [if_neg ht] at hnum hcat
      refine ⟨hnum.map_total _, ?_⟩
      rw [flatMap_map]
      exact hcat

def maxPayload : Chunker → ℕ
  | .fixed c => c.cfg.maxChunkSize.toNatClampNeg
  | .bounded c => c.maxSize.toNatClampNeg

theorem split_le {c : Chunker} {data : Bytes} {chunk : Chunk} (h : chunk ∈ (c.split data).1) :
    chunk.payload.length ≤ c.maxPayload ∧ chunk.paddingLen.toNat ≤ c.state.cfg.maxPadding := by
  cases c with
  | fixed c =>
    obtain ⟨src, rest, hpayload, hpadding⟩ := splitLoop_mem h
    rw [hpayload, hpadding]
    exact ⟨(length_take_le _ _).trans (min_le_left _ _), paddingFor_le _ _⟩
  | bounded c =>
    obtain ⟨d, hd, hpl, hpd⟩ : ∃ d ∈ (splitLoop c.cfg c.streamID (if c.totalSet then c.total else 0) c.nextSize data.length
        c.nextSeq c.padSource data).1, chunk.payload = d.payload ∧ chunk.paddingLen = d.paddingLen := by
      simp only [split, BoundedChunker.split] at h
      split_ifs at h with ht
      · rw [if_pos ht]
        exact ⟨chunk, h, rfl, rfl⟩
      · obtain ⟨d, hd, rfl⟩ := mem_map.mp h
        rw [if_neg ht]
        exact ⟨d, hd, rfl, rfl⟩
    obtain ⟨src, rest, hpayload, hpadding⟩ := splitLoop_mem hd
    rw [hpl, hpd, hpayload, hpadding]
    exact ⟨(length_take_le _ _).trans (c.nextSize_le _ _), paddingFor_le _ _⟩

end Chunker
end MeshDesk.Proxy
