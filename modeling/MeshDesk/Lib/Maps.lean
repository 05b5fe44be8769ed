import Mathlib.Data.List.AList
import Mathlib.Data.List.Perm.Subperm
import Mathlib.Algebra.Order.BigOperators.Group.List
import Mathlib.Tactic.Linarith
import Mathlib.Tactic.Ring

/-! Finite maps as association lists without repeated keys, and sums over their
values. Iteration order carries no meaning: the results below are stated through
`lookup` and through sums. -/
namespace MeshDesk.Lib
open List AList

abbrev Map (K V : Type*) := AList (fun _ : K => V)

namespace Map
variable {K V : Type*}

def size (m : Map K V) : ℕ := m.entries.length

def total (f : V → ℤ) (m : Map K V) : ℤ := (m.entries.map (fun e => f e.2)).sum

@[simp] theorem size_empty : size (∅ : Map K V) = 0 := rfl

def filterMapEntries {W : Type*} (f : K → V → Option W) (m : Map K V) : Map K W where
  entries := m.entries.filterMap (fun e => (f e.1 e.2).map (Sigma.mk e.1))
  nodupKeys := by
    refine List.Nodup.sublist ?_ (show m.entries.keys.Nodup from m.nodupKeys)
    induction m.entries with
    | nil => exact .slnil
    | cons e l ih =>
      cases he : f e.1 e.2 with
      | none => simpa [he, List.keys] using ih.cons e.1
      | some v => simpa [he, List.keys] using ih.cons_cons e.1

def filterMapVals (f : V → Option V) (m : Map K V) : Map K V where
  entries := m.entries.filterMap (fun e => (f e.2).map (Sigma.mk e.1))
  nodupKeys := by exact (m.filterMapEntries fun _ => f).nodupKeys

def filterKeys (p : K → Bool) (m : Map K V) : Map K V where
  entries := m.entries.filter (fun e => p e.1)
  nodupKeys := List.Nodup.sublist (List.Sublist.map Sigma.fst List.filter_sublist)
    (show m.entries.keys.Nodup from m.nodupKeys)

theorem size_filterMapVals_le (f : V → Option V) (m : Map K V) : size (m.filterMapVals f) ≤ size m :=
  length_filterMap_le _ _

theorem size_filterKeys_le (p : K → Bool) (m : Map K V) : size (m.filterKeys p) ≤ size m := length_filter_le _ _

variable [DecidableEq K]

variable {m : Map K V} {k : K} {v : V} {l : List K}

theorem mem_entries_iff : (⟨k, v⟩ : Sigma fun _ : K => V) ∈ m.entries ↔ m.lookup k = some v :=
  (mem_dlookup_iff m.nodupKeys).symm

theorem entries_split (h : m.lookup k = some v) :
    ∃ l₁ l₂, m.entries = l₁ ++ ⟨k, v⟩ :: l₂ ∧ (m.erase k).entries = l₁ ++ l₂ := by
  have hk : k ∈ m.entries.keys := lookup_isSome.mp (by rw [h]; rfl)
  obtain ⟨b, l₁, l₂, -, he, hd⟩ := exists_of_kerase hk
  have hb : m.lookup k = some b := mem_entries_iff.mp (by rw [he]; simp)
  cases Option.mem_unique h hb
  exact ⟨l₁, l₂, he, hd⟩

theorem size_erase (h : m.lookup k = some v) : size (m.erase k) + 1 = size m := by
  obtain ⟨l₁, l₂, he, hd⟩ := entries_split h
  simp only [size, he, hd, length_append, length_cons]
  omega

variable (f : V → ℤ)

theorem total_erase (h : m.lookup k = some v) : total f (m.erase k) = total f m - f v := by
  obtain ⟨l₁, l₂, he, hd⟩ := entries_split h
  simp only [total, he, hd, map_append, map_cons, List.sum_append, List.sum_cons]
  ring

theorem erase_of_lookup_none (h : m.lookup k = none) : m.erase k = m :=
  ext (kerase_of_notMem_keys (lookup_eq_none.mp h))

theorem size_erase_le (m : Map K V) (k : K) : size (m.erase k) ≤ size m := by
  cases h : m.lookup k with
  | none => rw [erase_of_lookup_none h]
  | some v =>
    have hsize := size_erase h
    omega

theorem size_insert (m : Map K V) (k : K) (v : V) : size (m.insert k v) = size (m.erase k) + 1 := by
  rfl

theorem size_insert_le (m : Map K V) (k : K) (v : V) : size (m.insert k v) ≤ size m + 1 := by
  exact Nat.add_le_add_right (size_erase_le m k) 1

theorem size_insert_of_none (h : m.lookup k = none) (v : V) : size (m.insert k v) = size m + 1 := by
  rw [size_insert, erase_of_lookup_none h]

theorem total_insert (m : Map K V) (k : K) (v : V) : total f (m.insert k v) = f v + total f (m.erase k) := by
  rfl

theorem total_insert_of_none (h : m.lookup k = none) (v : V) : total f (m.insert k v) = total f m + f v := by
  rw [total_insert, erase_of_lookup_none h, add_comm]

theorem total_insert_of_some {w : V} (h : m.lookup k = some w) (v : V) :
    total f (m.insert k v) = total f m - f w + f v := by
  rw [total_insert, total_erase f h, add_comm]

theorem total_nonneg (m : Map K V) (h : ∀ k v, m.lookup k = some v → 0 ≤ f v) : 0 ≤ total f m :=
  List.sum_nonneg (forall_mem_map.mpr fun e he => h e.1 e.2 (mem_entries_iff.mp he))

theorem lookup_of_erase {id : K} {ref : V}
    (h : (m.erase id).lookup k = some ref) : k ≠ id ∧ m.lookup k = some ref := by
  by_cases hk : k = id
  · subst hk
    rw [lookup_erase] at h
    cases h
  · rw [lookup_erase_ne hk] at h
    exact ⟨hk, h⟩

theorem le_total (hp : ∀ k v, m.lookup k = some v → 0 ≤ f v) (h : m.lookup k = some v) : f v ≤ total f m := by
  have hr : 0 ≤ total f (m.erase k) := total_nonneg f _ fun j w hw => hp j w (lookup_of_erase hw).2
  rw [total_erase f h] at hr
  linarith

theorem lookup_eq_none_of_size_zero (h : size m = 0) (k : K) : m.lookup k = none := by
  cases hk : m.lookup k with
  | none => rfl
  | some v =>
    have := size_erase hk
    omega

theorem total_eq_of_only (h : ∀ k' ≠ k, m.lookup k' = none) : total f m = ((m.lookup k).map f).getD 0 := by
  have hnil : (m.erase k).entries = [] := by
    refine eq_nil_iff_forall_not_mem.mpr fun e he => ?_
    obtain ⟨hne, hlookup⟩ := lookup_of_erase (mem_entries_iff.mp he)
    cases (h e.1 hne).symm.trans hlookup
  have hzero : total f (m.erase k) = 0 := by
    rw [total, hnil]
    rfl
  cases hk : m.lookup k with
  | none => rwa [erase_of_lookup_none hk] at hzero
  | some v =>
    rw [total_erase f hk] at hzero
    simp only [Option.map_some, Option.getD_some]
    linarith

theorem lookup_filterMapEntries {W : Type*} (f : K → V → Option W) (m : Map K V) (k : K) :
    (m.filterMapEntries f).lookup k = (m.lookup k).bind (f k) := by
  ext v
  simp only [filterMapEntries, mem_filterMap, Option.map_eq_some_iff, Option.bind_eq_some_iff,
    ← mem_entries_iff]
  constructor
  · rintro ⟨⟨k', w⟩, hmem, u, hu, heq⟩
    cases heq
    exact ⟨w, hmem, hu⟩
  · rintro ⟨w, hmem, hv⟩
    exact ⟨⟨k, w⟩, hmem, v, hv, rfl⟩

theorem lookup_filterMapVals (f : V → Option V) (m : Map K V) (k : K) :
    (m.filterMapVals f).lookup k = (m.lookup k).bind f := lookup_filterMapEntries (fun _ => f) m k

theorem lookup_filterKeys (p : K → Bool) (m : Map K V) (k : K) :
    (m.filterKeys p).lookup k = if p k then m.lookup k else none := by
  ext v
  rw [← mem_entries_iff]
  simp only [filterKeys, mem_filter, mem_entries_iff]
  split_ifs with hk <;> simp [hk]

theorem lookup_of_insert {id : K} {w : V} (h : (m.insert id v).lookup k = some w) :
    k = id ∧ w = v ∨ k ≠ id ∧ m.lookup k = some w := by
  by_cases hk : k = id
  · subst hk
    rw [lookup_insert] at h
    exact .inl ⟨rfl, (Option.some.inj h).symm⟩
  · rw [lookup_insert_ne hk] at h
    exact .inr ⟨hk, h⟩

theorem lookup_insert_replacing {m' : Map K V} {old : Option K} {k' : K}
    (h : m' = old.elim m fun o => if o ≠ k then m.erase o else m) :
    (m'.insert k v).lookup k' = if k' = k then some v else if old = some k' then none else m.lookup k' := by
  by_cases hk : k' = k
  · rw [if_pos hk, hk, lookup_insert]
  rw [if_neg hk, lookup_insert_ne hk, h]
  cases old with
  | none => simp
  | some o =>
    by_cases ho : o = k
    · simp [ho, Ne.symm hk]
    · by_cases hk' : k' = o
      · subst hk'
        simp [ho]
      · simp [ho, lookup_erase_ne hk', Ne.symm hk']

theorem mem_foldl_erase : k ∈ l.foldl (fun m a => m.erase a) m ↔ k ∈ m ∧ k ∉ l := by
  induction l generalizing m with
  | nil => simp
  | cons a l ih =>
    rw [foldl_cons, ih, mem_erase, mem_cons]
    tauto

theorem getD_lookup_foldl_count {m : Map K ℕ} :
    ((l.foldl (fun m a => m.insert a ((m.lookup a).getD 0 + 1)) m).lookup k).getD 0 = (m.lookup k).getD 0 + l.count k := by
  induction l generalizing m with
  | nil => rfl
  | cons a l ih =>
    rw [foldl_cons, ih]
    by_cases h : a = k
    · subst h
      rw [lookup_insert, count_cons_self]
      simp only [Option.getD_some]
      omega
    · rw [lookup_insert_ne (Ne.symm h), count_cons_of_ne h]

theorem le_one_of_foldl_count (h : l.Nodup) {n : ℕ}
    (hk : (l.foldl (fun m a => m.insert a ((m.lookup a).getD 0 + 1)) (∅ : Map K ℕ)).lookup k = some n) : n ≤ 1 := by
  have hcount := getD_lookup_foldl_count (m := (∅ : Map K ℕ)) (l := l) (k := k)
  rw [hk, Option.getD_some, lookup_empty, Option.getD_none, zero_add] at hcount
  rw [hcount]
  exact nodup_iff_count_le_one.mp h k

/-- If every key comes from an element of `l` that passes a test, the map has no more entries than
there are such elements. -/
theorem size_le_countP {α : Type*} {l : List α} {p : α → Bool} (f : α → K)
    (h : ∀ k v, m.lookup k = some v → ∃ a ∈ l, p a = true ∧ f a = k) : size m ≤ l.countP p := by
  have hsub : m.entries.keys ⊆ (l.filter p).map f := by
    intro k hk
    obtain ⟨v, hv⟩ := exists_of_mem_keys hk
    obtain ⟨a, ha, hpa, hfa⟩ := h k v (mem_entries_iff.mp hv)
    exact mem_map.mpr ⟨a, mem_filter.mpr ⟨ha, hpa⟩, hfa⟩
  have hlen := (subperm_of_subset m.nodupKeys hsub).length_le
  rw [length_map, ← countP_eq_length_filter] at hlen
  calc size m = m.entries.keys.length := (length_map ..).symm
    _ ≤ l.countP p := hlen

end Map
end MeshDesk.Lib
