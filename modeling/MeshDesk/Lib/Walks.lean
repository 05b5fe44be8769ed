import Mathlib.Data.List.Basic

/-! Walks in a graph given by neighbour lists, and distances from a vertex. -/
namespace MeshDesk.Lib
variable {V : Type*} {next : V → List V} {o u v : V} {d : ℕ}

def walkEnds (next : V → List V) (o : V) : ℕ → List V
  | 0 => [o]
  | k + 1 => (walkEnds next o k).flatMap next

/-- The shortest walk from `o` to `v` has length `d`. -/
structure IsDist (next : V → List V) (o : V) (d : ℕ) (v : V) : Prop where
  walk : v ∈ walkEnds next o d
  least : ∀ k < d, v ∉ walkEnds next o k

instance [DecidableEq V] : Decidable (IsDist next o d v) :=
  decidable_of_iff (v ∈ walkEnds next o d ∧ ∀ k < d, v ∉ walkEnds next o k)
    ⟨fun h => ⟨h.1, h.2⟩, fun h => ⟨h.walk, h.least⟩⟩

theorem IsDist.eq_start (h : IsDist next o 0 v) : v = o := List.mem_singleton.mp h.walk

theorem IsDist.pred (h : IsDist next o (d + 1) v) : ∃ u, IsDist next o d u ∧ v ∈ next u := by
  obtain ⟨u, hu, hv⟩ := List.mem_flatMap.mp h.walk
  refine ⟨u, ⟨hu, fun k hk hku => ?_⟩, hv⟩
  exact h.least (k + 1) (Nat.succ_lt_succ hk) (List.mem_flatMap.mpr ⟨u, hku, hv⟩)

end MeshDesk.Lib
