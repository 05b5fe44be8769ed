import Mathlib.Data.List.Perm.Basic

/-! Tables of objects. An object is referred to by its index; objects are appended and changed in place, never
removed, so references stay good. A view of the objects that a change leaves alone stays the same list. -/
namespace MeshDesk.Lib.Table
open List
variable {α β : Type*} {l : List α} {g : α → β} {ref i : ℕ}

theorem map_modify {f : α → α} (hf : ∀ a, g (f a) = g a) (l : List α) (ref : ℕ) :
    (l.modify ref f).map g = l.map g := by
  refine ext_getElem? (fun i => ?_)
  rw [getElem?_map, getElem?_map, getElem?_modify]
  cases l[i]? with
  | none => rfl
  | some a =>
    by_cases hi : ref = i
    · simp [hi, hf]
    · simp [hi]

theorem map_mapIdx {f : ℕ → α → α} (hf : ∀ i a, g (f i a) = g a) : (l.mapIdx f).map g = l.map g := by
  refine ext_getElem? (fun i => ?_)
  rw [getElem?_map, getElem?_map, getElem?_mapIdx]
  cases l[i]? with
  | none => rfl
  | some a => simp [hf]

theorem map_modify_set {f : α → α} {b : β} (hf : ∀ a ∈ l[ref]?, g (f a) = b) :
    (l.modify ref f).map g = (l.map g).set ref b := by
  refine ext_getElem? (fun i => ?_)
  rw [getElem?_map, getElem?_modify, getElem?_set, length_map]
  by_cases hi : ref = i
  · subst hi
    cases ha : l[ref]? with
    | none =>
      have hlen : ¬ ref < l.length := fun hlt => by
        rw [List.getElem?_eq_getElem hlt] at ha
        cases ha
      simp [hlen]
    | some a =>
      have hlen : ref < l.length := (List.getElem?_eq_some_iff.mp ha).1
      simp [hlen, hf a ha]
  · rw [if_neg hi, getElem?_map]
    cases l[i]? with
    | none => rfl
    | some a => simp [hi]

theorem getElem?_concat {a b : α} (h : (l ++ [a])[i]? = some b) : l[i]? = some b ∨ i = l.length ∧ b = a := by
  rw [getElem?_append] at h
  split_ifs at h with hlt
  · exact .inl h
  · rw [getElem?_singleton] at h
    split_ifs at h with hi
    exact .inr ⟨by omega, (Option.some.inj h).symm⟩

theorem eq_or_mem_eraseIdx {a b : α} (h : l[i]? = some a) (hb : b ∈ l) : b = a ∨ b ∈ l.eraseIdx i := by
  obtain ⟨hi, rfl⟩ := List.getElem?_eq_some_iff.mp h
  exact mem_cons.mp ((getElem_cons_eraseIdx_perm hi).mem_iff.mpr hb)

end MeshDesk.Lib.Table
