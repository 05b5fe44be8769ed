import MeshDesk.Lib.Maps

/-! Pairs of finite maps that are each other's inverse. -/
namespace MeshDesk.Lib.Map
variable {A B : Type*} [DecidableEq A] [DecidableEq B] {f f' : Map A B} {g g' : Map B A} {a : A} {b : B}

def Inverse (f : Map A B) (g : Map B A) : Prop := ∀ a b, f.lookup a = some b ↔ g.lookup b = some a

theorem inverse_empty : Inverse (∅ : Map A B) (∅ : Map B A) := by
  intro a b
  simp

theorem Inverse.erase (h : Inverse f g) (hab : f.lookup a = some b) : Inverse (f.erase a) (g.erase b) := by
  intro x y
  constructor
  · intro hx
    obtain ⟨hne, hxy⟩ := lookup_of_erase hx
    have hy : y ≠ b := by
      rintro rfl
      have hya := (h a y).mp hab
      rw [(h x y).mp hxy] at hya
      exact hne (Option.some.inj hya)
    rw [AList.lookup_erase_ne hy]
    exact (h x y).mp hxy
  · intro hy
    obtain ⟨hne, hxy⟩ := lookup_of_erase hy
    have hx : x ≠ a := by
      rintro rfl
      have hxb := (h x y).mpr hxy
      rw [hab] at hxb
      exact hne (Option.some.inj hxb).symm
    rw [AList.lookup_erase_ne hx]
    exact (h x y).mpr hxy

/-- `f'` and `g'` pair `a` with `b`, and keep of `f` and `g` the pairs with neither. -/
structure Relinked (f : Map A B) (g : Map B A) (a : A) (b : B) (f' : Map A B) (g' : Map B A) : Prop where
  left : ∀ x, f'.lookup x = if x = a then some b else if f.lookup x = some b then none else f.lookup x
  right : ∀ y, g'.lookup y = if y = b then some a else if g.lookup y = some a then none else g.lookup y

theorem Inverse.relink (h : Inverse f g) (hr : Relinked f g a b f' g') : Inverse f' g' := by
  intro x y
  rw [hr.left, hr.right]
  by_cases hx : x = a
  · subst hx
    by_cases hy : y = b
    · simp [hy]
    · rw [if_pos rfl, if_neg hy]
      split_ifs with hyx
      · simp [Ne.symm hy]
      · simp [Ne.symm hy, hyx]
  · rw [if_neg hx]
    by_cases hy : y = b
    · subst hy
      rw [if_pos rfl]
      split_ifs with hxy
      · simp [Ne.symm hx]
      · simp [Ne.symm hx, hxy]
    · rw [if_neg hy]
      have hkey := h x y
      split_ifs with hxb hya hya
      · simp
      · have hne : g.lookup y ≠ some x := by
          rw [ne_eq, ← hkey, hxb]
          simp [Ne.symm hy]
        simp [hne]
      · have hne : f.lookup x ≠ some y := by
          rw [ne_eq, hkey, hya]
          simp [Ne.symm hx]
        simp [hne]
      · exact hkey

end MeshDesk.Lib.Map
