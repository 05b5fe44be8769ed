import Mathlib.Data.List.MinMax
import Mathlib.Data.List.Perm.Basic
import Mathlib.Data.List.Sort

/-! Operations whose result depends on an order that is not specified: the order in which a collection
is passed through, what a sort leaves open, and the choice among the least elements of a queue. -/
namespace MeshDesk.Lib
open List
variable {α β : Type*}

/-- The order in which the pass number `i` meets the elements of a collection. -/
structure Arrangement (α : Type*) where
  arrange : ℕ → List α → List α
  perm : ∀ i l, (arrange i l).Perm l

def Arrangement.listed : Arrangement α := ⟨fun _ l => l, fun _ _ => .refl _⟩

/-- Sort by an order that does not say how elements are arranged that are not less than one another. -/
def Arrangement.sort (order : Arrangement α) (less : α → α → Bool) (l : List α) : List α :=
  (order.arrange 0 l).insertionSort (fun a b => less b a = false)

theorem Arrangement.sort_perm (order : Arrangement α) (less : α → α → Bool) (l : List α) :
    (order.sort less l).Perm l := (perm_insertionSort _ _).trans (order.perm 0 l)

variable [LinearOrder β]

/-- Take out an element with the least key; `tie` chooses where there are several. -/
def popLeast [DecidableEq α] (key : α → β) (tie : ℕ) (l : List α) : Option (α × List α) :=
  let least := l.filter (fun a => l.all (fun b => key a ≤ key b))
  least[tie % least.length]?.map (fun a => (a, l.erase a))

section PopLeast
variable [DecidableEq α] {key : α → β} {tie : ℕ} {l rest : List α} {a : α}

theorem popLeast_eq_some (h : popLeast key tie l = some (a, rest)) : l.Perm (a :: rest) ∧ ∀ b ∈ l, key a ≤ key b := by
  obtain ⟨x, hx, hpair⟩ := Option.map_eq_some_iff.mp h
  obtain ⟨rfl, rfl⟩ := Prod.mk.inj hpair
  have hmem := mem_filter.mp (mem_of_getElem? hx)
  refine ⟨perm_cons_erase hmem.1, fun b hb => ?_⟩
  exact of_decide_eq_true (all_eq_true.mp hmem.2 b hb)

theorem popLeast_eq_none (h : popLeast key tie l = none) : l = [] := by
  unfold popLeast at h
  by_contra hne
  obtain ⟨a, ha⟩ := Option.ne_none_iff_exists'.mp (mt argmin_eq_none.mp hne : l.argmin key ≠ none)
  have hleast : a ∈ l.filter (fun a => l.all (fun b => key a ≤ key b)) := by
    refine mem_filter.mpr ⟨argmin_mem ha, all_eq_true.mpr fun b hb => ?_⟩
    exact decide_eq_true (le_of_mem_argmin hb ha)
  have hpos := length_pos_of_mem hleast
  rw [Option.map_eq_none_iff, List.getElem?_eq_none_iff] at h
  exact absurd (Nat.mod_lt tie hpos) (Nat.not_lt.mpr h)

end PopLeast
end MeshDesk.Lib
