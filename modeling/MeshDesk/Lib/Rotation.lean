import Mathlib.Data.List.Basic
import Mathlib.Data.Nat.ModEq

/-! A rotation of `n` cells, where a new value is written over the oldest one. -/
namespace MeshDesk.Lib

/-- `head` is the cell to write next, `len` the number of cells written so far. -/
structure Rotation (α : Type*) where
  cells : ℕ → Option α := fun _ => none
  head : ℕ := 0
  len : ℕ := 0

namespace Rotation
open List

variable {α : Type*} (n : ℕ) (r : Rotation α)

def push (a : α) : Rotation α where
  cells := Function.update r.cells r.head (some a)
  head := (r.head + 1) % n
  len := if r.len < n then r.len + 1 else r.len

def toList : List α :=
  let start := (r.head + n - r.len) % n
  (List.range r.len).filterMap fun i => r.cells ((start + i) % n)

def last? : Option α := if r.len = 0 then none else r.cells ((r.head + n - 1) % n)

/-- The values of `xs` were pushed: a cell holds the last of them that fell on it. -/
structure Holds (xs : List α) : Prop where
  head : r.head = xs.length % n
  len : r.len = min xs.length n
  cells : ∀ i < max xs.length n, xs.length ≤ i + n → r.cells (i % n) = xs[i]?

variable {n r} {xs : List α}

theorem holds_empty : Holds n {} ([] : List α) := ⟨by simp, by simp, by simp⟩

theorem Holds.push (h : r.Holds n xs) (a : α) : (r.push n a).Holds n (xs ++ [a]) := by
  refine ⟨?_, ?_, ?_⟩
  · simp [Rotation.push, h.head]
  · simp only [Rotation.push, h.len, length_append, length_singleton]
    split <;> omega
  · intro i hi hni
    simp only [length_append, length_singleton] at hi hni
    simp only [Rotation.push, h.head]
    by_cases heq : i = xs.length
    · subst heq
      simp
    · have hne : i % n ≠ xs.length % n := by
        intro hmod
        rcases Nat.lt_or_gt_of_ne heq with hlt | hgt
        · have hdvd := (Nat.modEq_iff_dvd' hlt.le).mp hmod
          have hle := Nat.le_of_dvd (by omega) hdvd
          omega
        · rw [Nat.mod_eq_of_lt (by omega), Nat.mod_eq_of_lt (by omega)] at hmod
          exact heq hmod
      rw [Function.update_of_ne hne, h.cells i (by omega) (by omega), getElem?_append]
      split
      · rfl
      · rw [List.getElem?_eq_none (by omega), List.getElem?_eq_none (by simp; omega)]

theorem filterMap_range_getElem? {k : ℕ} (hk : xs.length ≤ k) : (List.range k).filterMap (xs[·]?) = xs := by
  induction xs generalizing k with
  | nil => simp
  | cons x xs ih =>
    obtain ⟨k, rfl⟩ := Nat.exists_eq_add_one_of_ne_zero (Nat.ne_of_gt (Nat.lt_of_lt_of_le (Nat.succ_pos _) hk))
    rw [range_succ_eq_map, filterMap_cons, filterMap_map]
    simpa [Function.comp_def] using ih (Nat.le_of_succ_le_succ hk)

theorem Holds.toList (h : r.Holds n xs) (hn : 0 < n) : r.toList n = xs.drop (xs.length - n) := by
  have hidx (i : ℕ) : ((r.head + n - r.len) % n + i) % n = (xs.length - n + i) % n := by
    rw [Nat.mod_add_mod, h.head, h.len]
    by_cases hle : n ≤ xs.length
    · rw [min_eq_right hle, Nat.add_sub_cancel, Nat.mod_add_mod, ← Nat.add_mod_right (_ - _ + i)]
      congr 1
      omega
    · have hlt : xs.length < n := by omega
      rw [min_eq_left hlt.le, Nat.mod_eq_of_lt hlt, Nat.add_sub_cancel_left, Nat.sub_eq_zero_of_le hlt.le,
        Nat.add_mod_left, Nat.zero_add]
  have hcell : ∀ i ∈ List.range r.len, r.cells (((r.head + n - r.len) % n + i) % n) = (xs.drop (xs.length - n))[i]? := by
    intro i hi
    rw [mem_range, h.len] at hi
    rw [hidx, h.cells _ (by omega) (by omega), getElem?_drop]
  rw [Rotation.toList, filterMap_congr hcell]
  exact filterMap_range_getElem? (by simp only [length_drop, h.len]; omega)

theorem Holds.last? (h : r.Holds n xs) (hn : 0 < n) : r.last? n = xs.getLast? := by
  rw [Rotation.last?, h.len, h.head, getLast?_eq_getElem?]
  split
  · rw [List.getElem?_eq_none (by omega)]
  · rw [Nat.add_sub_assoc hn, Nat.mod_add_mod, ← h.cells (xs.length - 1) (by omega) (by omega),
      ← Nat.add_mod_right (xs.length - 1)]
    congr 2
    omega

end Rotation

end MeshDesk.Lib
