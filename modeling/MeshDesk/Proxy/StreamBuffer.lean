import MeshDesk.Lib.Segments
import MeshDesk.Proxy.ReassemblerCalls

/-! What one stream's buffer holds: relative to the payloads `P` and the set `R` of
sequence numbers stored so far, everything below the first missing number `m` has been
delivered and the rest is buffered. -/
namespace MeshDesk.Proxy
open Lib AList

namespace ExitStreamState

/-- The delivery loop cannot run past the top of the sequence space into stale chunks. -/
def NoWrap (m : ℕ) (st : ExitStreamState) : Prop :=
  (∀ q : UInt32, q.toNat < m → st.chunks.lookup q = none) ∨
    ∃ g, m ≤ g ∧ g < 2 ^ 32 ∧ st.chunks.lookup (UInt32.ofNat g) = none

/-- The state with the chunks `m, …, m' - 1` taken out. -/
structure Taken (m m' : ℕ) (st st' : ExitStreamState) : Prop where
  next : st'.nextExpected = UInt32.ofNat m'
  le : m ≤ m'
  le_top : m' ≤ 2 ^ 32
  lookup : ∀ q : UInt32, st'.chunks.lookup q =
    if m ≤ q.toNat ∧ q.toNat < m' then none else st.chunks.lookup q
  total : st'.total = st.total
  totalSet : st'.totalSet = st.totalSet
  completed : st'.completed = st.completed
  accumulated : st'.accumulated = st.accumulated
  firstChunkAt : st'.firstChunkAt = st.firstChunkAt

theorem ofNat_eq_iff {m : ℕ} (hm : m < 2 ^ 32) (q : UInt32) : q = UInt32.ofNat m ↔ q.toNat = m := by
  constructor
  · rintro rfl
    simpa using Nat.mod_eq_of_lt hm
  · rintro rfl
    simp

theorem ofNat_top : UInt32.ofNat (2 ^ 32) = 0 := rfl

theorem NoWrap.lookup_top {st : ExitStreamState} (h : st.NoWrap (2 ^ 32)) : st.chunks.lookup 0 = none := by
  rcases h with h | ⟨g, hg, hlt, -⟩
  · exact h 0 (by simp)
  · omega

variable {st' : ExitStreamState} {v : Bytes}

theorem NoWrap.erase {m : ℕ} {st : ExitStreamState} (h : st.NoWrap m) (hm : m < 2 ^ 32)
    (hv : st.chunks.lookup (UInt32.ofNat m) = some v)
    (hc : st'.chunks = st.chunks.erase (UInt32.ofNat m)) : st'.NoWrap (m + 1) := by
  rcases h with h | ⟨g, hg, hlt, hn⟩
  · left
    intro q hq
    rw [hc]
    by_cases he : q = UInt32.ofNat m
    · rw [he, lookup_erase]
    · rw [lookup_erase_ne he]
      have := mt (ofNat_eq_iff hm q).mpr he
      exact h q (by omega)
  · right
    have hne : g ≠ m := by
      rintro rfl
      simp [hv] at hn
    refine ⟨g, by omega, hlt, ?_⟩
    have : UInt32.ofNat g ≠ UInt32.ofNat m := by
      intro he
      have := (ofNat_eq_iff hm _).mp he
      simp only [UInt32.toNat_ofNat_of_lt' hlt] at this
      exact hne this
    rw [hc, lookup_erase_ne this, hn]

theorem Taken.refl {m : ℕ} {st : ExitStreamState} (hn : st.nextExpected = UInt32.ofNat m)
    (hm : m ≤ 2 ^ 32) : Taken m m st st where
  next := hn
  le := le_rfl
  le_top := hm
  lookup q := by rw [if_neg (by omega)]
  total := rfl
  totalSet := rfl
  completed := rfl
  accumulated := rfl
  firstChunkAt := rfl

theorem Taken.cons {m m' : ℕ} {st : ExitStreamState} (hm : m < 2 ^ 32)
    (hn : st.nextExpected = UInt32.ofNat m) (h : Taken (m + 1) m' (st.takeNext v) st') : Taken m m' st st' where
  next := h.next
  le := by have := h.le; omega
  le_top := h.le_top
  lookup q := by
    rw [h.lookup q]
    simp only [takeNext, hn]
    have hle := h.le
    by_cases hq : q = UInt32.ofNat m
    · have := (ofNat_eq_iff hm q).mp hq
      rw [if_neg (by omega), if_pos (by omega), hq, lookup_erase]
    · have := mt (ofNat_eq_iff hm q).mpr hq
      rw [lookup_erase_ne hq]
      by_cases hr : m + 1 ≤ q.toNat ∧ q.toNat < m'
      · rw [if_pos hr, if_pos (by omega)]
      · rw [if_neg hr, if_neg (by omega)]
  total := h.total
  totalSet := h.totalSet
  completed := h.completed
  accumulated := h.accumulated
  firstChunkAt := h.firstChunkAt

theorem deliverLoop_spec (P : ℕ → Bytes) (fuel : ℕ) (t : ℤ) (st : ExitStreamState) (acc : Bytes) (m : ℕ)
    (hn : st.nextExpected = UInt32.ofNat m) (hm : m ≤ 2 ^ 32) (hw : st.NoWrap m)
    (hP : ∀ q v, st.chunks.lookup q = some v → v = P q.toNat) (hf : st.chunks.size ≤ fuel) :
    ∃ m', Taken m m' st (deliverLoop fuel t st acc).2.2 ∧
      (deliverLoop fuel t st acc).1 = acc ++ segment P m m' ∧
      (∀ k, m ≤ k → k < m' → (st.chunks.lookup (UInt32.ofNat k)).isSome) ∧
      (deliverLoop fuel t st acc).2.2.chunks.lookup (UInt32.ofNat m') = none := by
  induction fuel generalizing t st acc m with
  | zero =>
    refine ⟨m, .refl hn hm, by simp [deliverLoop], by omega, ?_⟩
    exact Map.lookup_eq_none_of_size_zero (Nat.le_zero.mp hf) _
  | succ fuel ih =>
    cases hv : st.chunks.lookup st.nextExpected with
    | none =>
      rw [deliverLoop_of_none hv]
      exact ⟨m, .refl hn hm, by simp, by omega, hn ▸ hv⟩
    | some v =>
      rw [deliverLoop_of_some hv]
      -- At the top of the sequence space the counter is 0 again, and nothing is left there.
      have hlt : m < 2 ^ 32 := by
        rcases hm.lt_or_eq with h | rfl
        · exact h
        · rw [hn, ofNat_top, hw.lookup_top] at hv
          cases hv
      have hvm : st.chunks.lookup (UInt32.ofNat m) = some v := hn ▸ hv
      have hnext : (st.takeNext v).nextExpected = UInt32.ofNat (m + 1) := by
        simp [takeNext, hn, UInt32.ofNat_add]
      have hP' : ∀ q w, (st.takeNext v).chunks.lookup q = some w → w = P q.toNat := by
        intro q w hw
        by_cases hq : q = st.nextExpected
        · subst hq
          simp [takeNext] at hw
        · exact hP q w (by simpa [takeNext, lookup_erase_ne hq] using hw)
      have hsz : (st.takeNext v).chunks.size ≤ fuel := by
        have := Map.size_erase hv
        simp only [takeNext]
        omega
      obtain ⟨m', ht, hd, hall, hend⟩ := ih (t - v.length) (st.takeNext v) (acc ++ v) (m + 1) hnext hlt
        (hw.erase hlt hvm (by simp [takeNext, hn])) hP' hsz
      have hle := ht.le
      refine ⟨m', ht.cons hlt hn, ?_, ?_, hend⟩
      · rw [segment_cons P (by omega), ← List.append_assoc]
        have hvP : v = P m := by
          have := hP _ v hvm
          rwa [UInt32.toNat_ofNat_of_lt' hlt] at this
        rw [← hvP]
        exact hd
      · intro k hk hkm
        rcases Nat.eq_or_lt_of_le hk with rfl | hgt
        · rw [hvm]
          rfl
        · have := hall k hgt hkm
          have hne : UInt32.ofNat k ≠ st.nextExpected := by
            rw [hn]
            intro he
            have hk' : k < 2 ^ 32 := by have := ht.le_top; omega
            have := (ofNat_eq_iff hlt _).mp he
            rw [UInt32.toNat_ofNat_of_lt' hk'] at this
            omega
          simpa [takeNext, lookup_erase_ne hne] using this

/-- The stream has stored the sequence numbers `R`, delivered those below the first missing
number `m` and still buffers the others. A chunk stored a second time after its delivery may
sit in the buffer as well. -/
structure Buffered (P : ℕ → Bytes) (R : Set ℕ) (m : ℕ) (st : ExitStreamState) : Prop where
  next : st.nextExpected = UInt32.ofNat m
  mex : IsMex R m
  bound : ∀ k ∈ R, k < 2 ^ 32
  sound : ∀ q v, st.chunks.lookup q = some v → q.toNat ∈ R ∧ v = P q.toNat
  kept : ∀ q : UInt32, q.toNat ∈ R → m ≤ q.toNat → st.chunks.lookup q = some (P q.toNat)

def NoStale (m : ℕ) (st : ExitStreamState) : Prop :=
  ∀ q : UInt32, q.toNat < m → st.chunks.lookup q = none

variable {P : ℕ → Bytes} {R : Set ℕ} {m : ℕ} {st st₁ : ExitStreamState} {q : UInt32}

theorem buffered_new (P : ℕ → Bytes) (now : Time) : Buffered P ∅ 0 (newExitStreamState now) where
  next := rfl
  mex := ⟨by omega, Set.notMem_empty 0⟩
  bound k hk := absurd hk (Set.notMem_empty k)
  sound q v h := by cases h
  kept q h := absurd h (Set.notMem_empty _)

theorem Buffered.le_top (h : Buffered P R m st) : m ≤ 2 ^ 32 :=
  h.mex.le_of_notMem (fun hk => lt_irrefl _ (h.bound _ hk))

theorem Buffered.congr (h : Buffered P R m st) (hn : st₁.nextExpected = st.nextExpected)
    (hc : st₁.chunks = st.chunks) : Buffered P R m st₁ :=
  ⟨hn ▸ h.next, h.mex, h.bound, hc ▸ h.sound, hc ▸ h.kept⟩

/-- The loop cannot wrap when the buffer has no delivered chunk or a number is still missing. -/
theorem Buffered.noWrap_insert (h : Buffered P R m st) (hc : st₁.chunks = st.chunks.insert q v)
    (hw : (st.NoStale m ∧ m ≤ q.toNat) ∨ ∃ g < 2 ^ 32, g ∉ insert q.toNat R) : st₁.NoWrap m := by
  rcases hw with ⟨hs, hq⟩ | ⟨g, hg, hgR⟩
  · left
    intro q' hq'
    have hne : q' ≠ q := by
      rintro rfl
      omega
    rw [hc, lookup_insert_ne hne]
    exact hs q' hq'
  · right
    obtain ⟨hgq, hgR⟩ : g ≠ q.toNat ∧ g ∉ R := by simpa using hgR
    have hval : (UInt32.ofNat g).toNat = g := UInt32.toNat_ofNat_of_lt' hg
    have hne : UInt32.ofNat g ≠ q := by
      rintro rfl
      exact hgq hval.symm
    refine ⟨g, h.mex.le_of_notMem hgR, hg, ?_⟩
    rw [hc, lookup_insert_ne hne]
    cases hl : st.chunks.lookup (UInt32.ofNat g) with
    | none => rfl
    | some v => exact absurd (hval ▸ (h.sound _ v hl).1) hgR

theorem Buffered.deliver (h : Buffered P R m st) (hn : st₁.nextExpected = st.nextExpected)
    (hc : st₁.chunks = st.chunks.insert q (P q.toNat))
    (hw : (st.NoStale m ∧ m ≤ q.toNat) ∨ ∃ g < 2 ^ 32, g ∉ insert q.toNat R) (t : ℤ) :
    ∃ m', Buffered P (insert q.toNat R) m' (st₁.deliverContiguous t).2.2 ∧
      (st₁.deliverContiguous t).1 = segment P m m' ∧ Taken m m' st₁ (st₁.deliverContiguous t).2.2 := by
  have hsound : ∀ q' v, st₁.chunks.lookup q' = some v → q'.toNat ∈ insert q.toNat R ∧ v = P q'.toNat := by
    intro q' v hv
    rw [hc] at hv
    obtain ⟨rfl, rfl⟩ | ⟨-, hold⟩ := Map.lookup_of_insert hv
    · exact ⟨Set.mem_insert _ _, rfl⟩
    · obtain ⟨hR, hP⟩ := h.sound q' v hold
      exact ⟨Set.mem_insert_of_mem _ hR, hP⟩
  have hkept : ∀ q' : UInt32, q'.toNat ∈ insert q.toNat R → m ≤ q'.toNat ∨ q' = q →
      st₁.chunks.lookup q' = some (P q'.toNat) := by
    intro q' hR hm
    by_cases hq : q' = q
    · subst hq
      rw [hc, lookup_insert]
    · have hne : q'.toNat ≠ q.toNat := fun he => hq (UInt32.toNat_inj.mp he)
      rw [hc, lookup_insert_ne hq]
      exact h.kept q' (by simpa [hne] using hR) (hm.resolve_right hq)
  obtain ⟨m', ht, hd, hall, hend⟩ := deliverLoop_spec P st₁.chunks.size t st₁ [] m (hn.trans h.next)
    h.le_top (h.noWrap_insert hc hw) (fun q' v hv => (hsound q' v hv).2) le_rfl
  have hbound : ∀ k ∈ insert q.toNat R, k < 2 ^ 32 := by
    rintro k (rfl | hk)
    · exact q.toNat_lt
    · exact h.bound k hk
  have hval : ∀ k < 2 ^ 32, (UInt32.ofNat k).toNat = k :=
    fun _ => UInt32.toNat_ofNat_of_lt'
  refine ⟨m', ⟨ht.next, ⟨fun k hk => ?_, fun hm' => ?_⟩, hbound, fun q' v hv => ?_, fun q' hR hle => ?_⟩,
    hd, ht⟩
  · by_cases hkm : k < m
    · exact Set.mem_insert_of_mem _ (h.mex.below k hkm)
    · obtain ⟨v, hv⟩ := Option.isSome_iff_exists.mp (hall k (by omega) hk)
      have := (hsound _ v hv).1
      rwa [hval k (by have := ht.le_top; omega)] at this
  · have hlt := hbound m' hm'
    have hl : st₁.chunks.lookup (UInt32.ofNat m') = none := by
      have := ht.lookup (UInt32.ofNat m')
      rw [hend, hval m' hlt, if_neg (by omega)] at this
      exact this.symm
    rw [hkept (UInt32.ofNat m') (by rwa [hval m' hlt]) (.inl (by rw [hval m' hlt]; exact ht.le))] at hl
    cases hl
  · have := ht.lookup q'
    rw [show (deliverLoop st₁.chunks.size t st₁ []).2.2.chunks.lookup q' = some v from hv] at this
    split_ifs at this
    exact hsound q' v this.symm
  · have hle' := ht.le
    change (deliverLoop st₁.chunks.size t st₁ []).2.2.chunks.lookup q' = _
    rw [ht.lookup q', if_neg (by omega)]
    exact hkept q' hR (.inl (by omega))

theorem NoStale.deliver {m' : ℕ} (h : st.NoStale m) (hq : m ≤ q.toNat)
    (hc : st₁.chunks = st.chunks.insert q v) (ht : Taken m m' st₁ st') : st'.NoStale m' := by
  intro q' hq'
  rw [ht.lookup q']
  split_ifs with hr
  · rfl
  · have hlt : q'.toNat < m := by omega
    have hne : q' ≠ q := by
      rintro rfl
      omega
    rw [hc, lookup_insert_ne hne]
    exact h q' hlt

theorem mem_sortedSeqs : q ∈ st.sortedSeqs ↔ (st.chunks.lookup q).isSome := by
  rw [sortedSeqs, List.mem_insertionSort]
  exact lookup_isSome.symm

theorem sortedSeqs_pairwise (st : ExitStreamState) : st.sortedSeqs.Pairwise (· < ·) := by
  have hle : st.sortedSeqs.Pairwise (· ≤ ·) := List.pairwise_insertionSort (· ≤ ·) _
  have hnd : st.sortedSeqs.Nodup := (List.perm_insertionSort (· ≤ ·) _).nodup_iff.mpr st.chunks.keys_nodup
  refine (hle.and hnd).imp ?_
  intro a b hab
  exact UInt32.lt_of_le_of_ne hab.1 hab.2

theorem Buffered.flush (h : Buffered P R m st) (clamp : ℤ → ℤ) (t : ℤ) :
    (st.flushRemaining clamp t).1 = (st.sortedSeqs.map UInt32.toNat).flatMap P := by
  have hpay : ∀ q ∈ st.sortedSeqs, (st.chunks.lookup q).getD [] = P q.toNat := by
    intro q hq
    obtain ⟨v, hv⟩ := Option.isSome_iff_exists.mp (mem_sortedSeqs.mp hq)
    rw [hv, Option.getD_some]
    exact (h.sound q v hv).2
  have hall : (st.sortedSeqs.flatMap fun q => (st.chunks.lookup q).getD []) =
      (st.sortedSeqs.map UInt32.toNat).flatMap P := by
    rw [List.flatMap_map]
    exact List.flatMap_congr hpay
  unfold flushRemaining
  split_ifs with hz
  · have hnil : st.sortedSeqs = [] := by
      refine List.eq_nil_iff_forall_not_mem.mpr (fun q hq => ?_)
      rw [mem_sortedSeqs, Map.lookup_eq_none_of_size_zero hz] at hq
      cases hq
    rw [hnil]
    rfl
  · exact hall

end ExitStreamState
end MeshDesk.Proxy
