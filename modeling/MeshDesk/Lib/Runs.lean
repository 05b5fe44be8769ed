import Mathlib.Data.List.Basic
import Mathlib.Data.List.Induction

/-! Runs of a deterministic step function over a list of inputs, and runs whose steps are all taken in
states that allow them. -/
namespace MeshDesk.Lib
variable {σ α : Type*} {step : σ → α → σ} {A : σ → α → Prop} {s : σ} {as : List α}

/-- Every step of the run meets the condition in the state before it. -/
def Meets (step : σ → α → σ) (A : σ → α → Prop) : σ → List α → Prop
  | _, [] => True
  | s, a :: as => A s a ∧ Meets step A (step s a) as

instance decidableMeets [∀ s a, Decidable (A s a)] : (s : σ) → (as : List α) → Decidable (Meets step A s as)
  | _, [] => isTrue trivial
  | s, a :: as =>
    have := decidableMeets (step s a) as
    inferInstanceAs (Decidable (_ ∧ _))

theorem Meets.take (h : Meets step A s as) (k : ℕ) : Meets step A s (as.take k) := by
  induction as generalizing s k with
  | nil =>
    rw [List.take_nil]
    trivial
  | cons a as ih =>
    cases k with
    | zero => trivial
    | succ k => exact ⟨h.1, ih h.2 k⟩

theorem Meets.invariant {I : σ → Prop} (hstep : ∀ s a, A s a → I s → I (step s a)) (h : Meets step A s as) (hs : I s) :
    I (as.foldl step s) := by
  induction as generalizing s with
  | nil => exact hs
  | cons a as ih => exact ih h.2 (hstep s a h.1 hs)

theorem Meets.append_iff {bs : List α} :
    Meets step A s (as ++ bs) ↔ Meets step A s as ∧ Meets step A (as.foldl step s) bs := by
  induction as generalizing s with
  | nil => exact ⟨fun h => ⟨trivial, h⟩, And.right⟩
  | cons a as ih => simp only [List.cons_append, Meets, List.foldl_cons, ih, and_assoc]

theorem Meets.concat_iff {a : α} : Meets step A s (as ++ [a]) ↔ Meets step A s as ∧ A (as.foldl step s) a := by
  rw [Meets.append_iff]
  exact and_congr_right fun _ => ⟨And.left, fun h => ⟨h, trivial⟩⟩

/-- Records that fix the state they are added in, where the state after a record fixes the record and is never the
initial one: the last record fixes the whole run. -/
theorem Meets.eq_of_getLast? {bs : List α} (hback : ∀ s s' a, A s a → A s' a → s = s')
    (hinj : ∀ s s', ∀ a ∈ as, ∀ b ∈ bs, step s a = step s' b → a = b)
    (hinit : ∀ s' a, step s' a ≠ s) (has : Meets step A s as) (hbs : Meets step A s bs)
    (hlast : as.getLast? = bs.getLast?) : as = bs := by
  induction as using List.reverseRecOn generalizing bs with
  | nil => exact (List.getLast?_eq_none_iff.mp hlast.symm).symm
  | append_singleton as a ih =>
    obtain rfl | ⟨bs, b, rfl⟩ := bs.eq_nil_or_concat'
    · simp at hlast
    rw [List.getLast?_concat, List.getLast?_concat] at hlast
    cases hlast
    rw [Meets.concat_iff] at has hbs
    have hstate : as.foldl step s = bs.foldl step s := hback _ _ a has.2 hbs.2
    -- the states before the common last record agree, so the records before it do
    have hprev : as.getLast? = bs.getLast? := by
      obtain rfl | ⟨as, x, rfl⟩ := as.eq_nil_or_concat' <;> obtain rfl | ⟨bs, y, rfl⟩ := bs.eq_nil_or_concat' <;>
        simp only [List.foldl_append, List.foldl_cons, List.foldl_nil] at hstate
      · rfl
      · exact absurd hstate.symm (hinit _ _)
      · exact absurd hstate (hinit _ _)
      · rw [List.getLast?_concat, List.getLast?_concat, hinj _ _ x (by simp) y (by simp) hstate]
    have hsame : as = bs :=
      ih (fun s s' x hx y hy => hinj s s' x (by simp [hx]) y (by simp [hy])) has.1 hbs.1 hprev
    rw [hsame]

end MeshDesk.Lib
