import Mathlib.Algebra.Order.BigOperators.Group.List
import Mathlib.Data.List.Range
import Mathlib.Data.List.Sort
import Mathlib.Tactic.Linarith

/-! Concatenations of indexed blocks: `segment P a b` is `P a ++ P (a + 1) ++ … ++ P (b - 1)`.
A sink that has emitted `segment P 0 m` has emitted every block below `m` once and in order. -/
namespace MeshDesk.Lib
open List
variable {α : Type*}

variable (P : ℕ → List α) (a : ℕ)

def segment (b : ℕ) : List α := (List.range' a (b - a)).flatMap P

@[simp] theorem segment_self : segment P a a = [] := by
  simp [segment]

theorem segment_cons {a b : ℕ} (h : a < b) : segment P a b = P a ++ segment P (a + 1) b := by
  have hb : b - a = (b - (a + 1)) + 1 := by omega
  simp [segment, hb, range'_succ]

theorem segment_append {a b c : ℕ} (hab : a ≤ b) (hbc : b ≤ c) : segment P a b ++ segment P b c = segment P a c := by
  have hc : c - a = (b - a) + (c - b) := by omega
  have hb : b = a + (b - a) := by omega
  rw [segment, segment, segment, ← flatMap_append, hc, ← range'_append_1, ← hb]

theorem mem_range'_segment {a b k : ℕ} : k ∈ range' a (b - a) ↔ a ≤ k ∧ k < b := by
  rw [mem_range'_1]
  omega

theorem segment_succ (b : ℕ) : segment (fun k => P (k + 1)) a b = segment P (a + 1) (b + 1) := by
  have hb : b + 1 - (a + 1) = b - a := by omega
  rw [segment, segment, hb, range'_succ_left, flatMap_map]

theorem segment_getD (bs : List (List α)) : segment (fun k => bs.getD k []) 0 bs.length = bs.flatten := by
  induction bs with
  | nil => rfl
  | cons b bs ih =>
    rw [segment_cons _ (by simp), length_cons, ← segment_succ, flatten_cons, ← ih]
    rfl

/-- A segment followed by blocks with larger indices is again a concatenation in strictly
increasing order. -/
theorem segment_append_flatMap {a b : ℕ} {L : List ℕ} (hL : L.Pairwise (· < ·)) (hb : ∀ k ∈ L, b ≤ k) :
    (range' a (b - a) ++ L).Pairwise (· < ·) ∧
      segment P a b ++ L.flatMap P = (range' a (b - a) ++ L).flatMap P := by
  refine ⟨pairwise_append.mpr ⟨pairwise_lt_range', hL, fun i hi j hj => ?_⟩, ?_⟩
  · have := mem_range'_segment.mp hi
    have := hb j hj
    omega
  · rw [segment, flatMap_append]

/-- With no empty block below `N`, a concatenation in strictly increasing order is the whole segment
only if it leaves no block out. -/
theorem flatMap_eq_segment_iff {N : ℕ} {L : List ℕ} (hL : L.Pairwise (· < ·))
    (hlt : ∀ k ∈ L, k < N) (hne : ∀ k < N, P k ≠ []) : L.flatMap P = segment P 0 N ↔ ∀ k < N, k ∈ L := by
  have hall : segment P 0 N = (range N).flatMap P := by
    rw [segment, Nat.sub_zero, range_eq_range']
  rw [hall]
  constructor
  · intro heq k hk
    by_contra hnot
    -- `L` fits into what is left of the range without `k`, so the two lengths differ
    have hsub : L.Subperm ((range N).erase k) := by
      refine subperm_of_subset (hL.imp (fun h => Nat.ne_of_lt h)) (fun j hj => ?_)
      have hjk : j ≠ k := fun h => hnot (h ▸ hj)
      exact (mem_erase_of_ne hjk).mpr (mem_range.mpr (hlt j hj))
    have hlen := congrArg length heq
    have hperm := (perm_cons_erase (mem_range.mpr hk)).map (fun j => (P j).length)
    have hsum := hperm.sum_nat
    rw [map_cons, List.sum_cons] at hsum
    obtain ⟨L', hL', hsubl⟩ := hsub
    have hle := (hsubl.map (fun j => (P j).length)).sum_le_sum (fun _ _ => Nat.zero_le _)
    have heq' := (hL'.map (fun j => (P j).length)).sum_nat
    have hpos : 0 < (P k).length := length_pos_iff.mpr (hne k hk)
    rw [length_flatMap, length_flatMap] at hlen
    omega
  · intro hmem
    have hr : (range N).Pairwise (· < ·) := pairwise_lt_range
    rw [hL.eq_of_mem_iff hr (fun k => ⟨fun hk => mem_range.mpr (hlt k hk),
      fun hk => hmem k (mem_range.mp hk)⟩)]

/-- Initial segments of `ℕ` inside a set, ended by the first missing number. -/
structure IsMex (R : Set ℕ) (m : ℕ) : Prop where
  below : ∀ k < m, k ∈ R
  gap : m ∉ R

theorem IsMex.le_of_notMem {R : Set ℕ} {m k : ℕ} (h : IsMex R m) (hk : k ∉ R) : m ≤ k := by
  by_contra hlt
  exact hk (h.below k (by omega))

theorem IsMex.eq {R : Set ℕ} {m n : ℕ} (hm : IsMex R m) (hn : IsMex R n) : m = n := by
  have h₁ := hm.le_of_notMem hn.gap
  have h₂ := hn.le_of_notMem hm.gap
  omega

theorem exists_split_first_not {α : Type*} (p : α → Prop) [DecidablePred p] (l : List α) :
    ∃ pre post, l = pre ++ post ∧ (∀ a ∈ pre, p a) ∧ ∀ a ∈ post.head?, ¬ p a := by
  refine ⟨l.takeWhile p, l.dropWhile p, takeWhile_append_dropWhile.symm, fun a ha => ?_, fun a ha => ?_⟩
  · exact of_decide_eq_true (all_eq_true.mp all_takeWhile a ha)
  · have hnot := head?_dropWhile_not (fun a => decide (p a)) l
    rw [Option.mem_def.mp ha] at hnot
    simpa using hnot

end MeshDesk.Lib
