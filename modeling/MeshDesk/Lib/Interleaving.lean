import Mathlib.Algebra.BigOperators.Ring.List
import Mathlib.Algebra.Ring.Nat

/-! Interleavings of atomic sections. A call is a chain of sections; between two sections of one call
any sections of other calls may run. A pool holds the shared state and the sections that are ready. -/
namespace MeshDesk.Lib
open List

/-- Calls of type `κ` start with a section of type `τ`. Running a section takes an input from the
environment and yields the new state and the sections that follow. -/
structure Sections (σ ι κ τ : Type*) where
  start : κ → τ
  exec : σ → ι → τ → σ × List τ

structure Pool (σ τ : Type*) where
  state : σ
  ready : List τ

/-- A step of a schedule: a new call, or the next turn of a ready section. -/
inductive Turn (ι κ : Type*) where
  | call (k : κ)
  | exec (i : ℕ) (input : ι)

namespace Sections
variable {σ ι κ τ : Type*} (P : Sections σ ι κ τ)

/-- A turn of a section that does not exist changes nothing. -/
def step (p : Pool σ τ) : Turn ι κ → Pool σ τ
  | .call k => { p with ready := p.ready ++ [P.start k] }
  | .exec i input =>
    match p.ready[i]? with
    | none => p
    | some t => ⟨(P.exec p.state input t).1, p.ready.eraseIdx i ++ (P.exec p.state input t).2⟩

theorem step_exec_none {p : Pool σ τ} {i : ℕ} (h : p.ready[i]? = none) (input : ι) :
    P.step p (.exec i input) = p := by
  simp only [step, h]

theorem step_exec_some {p : Pool σ τ} {i : ℕ} {t : τ} (h : p.ready[i]? = some t) (input : ι) :
    P.step p (.exec i input) =
      ⟨(P.exec p.state input t).1, p.ready.eraseIdx i ++ (P.exec p.state input t).2⟩ := by
  simp only [step, h]

def run (p : Pool σ τ) (turns : List (Turn ι κ)) : Pool σ τ := turns.foldl P.step p

theorem run_append (p : Pool σ τ) (turns more : List (Turn ι κ)) :
    P.run p (turns ++ more) = P.run (P.run p turns) more := foldl_append

/-- Every section of the run is executed in a state, and beside other ready sections, that permit it. -/
def Permits (B : σ → ι → τ → List τ → Prop) : Pool σ τ → List (Turn ι κ) → Prop
  | _, [] => True
  | p, .call k :: turns => Permits B (P.step p (.call k)) turns
  | p, .exec i input :: turns =>
    (∀ t ∈ p.ready[i]?, B p.state input t (p.ready.eraseIdx i)) ∧ Permits B (P.step p (.exec i input)) turns

instance decidablePermits (B : σ → ι → τ → List τ → Prop) [∀ s input t l, Decidable (B s input t l)] :
    (p : Pool σ τ) → (turns : List (Turn ι κ)) → Decidable (P.Permits B p turns)
  | _, [] => isTrue trivial
  | p, .call k :: turns => decidablePermits B (P.step p (.call k)) turns
  | p, .exec i input :: turns =>
    have := decidablePermits B (P.step p (.exec i input)) turns
    inferInstanceAs (Decidable (_ ∧ _))

/-- `I` relates the state to the ready sections, in any order. A section is taken out and the sections
that follow it are put in its place. -/
structure Carries (B : σ → ι → τ → List τ → Prop) (I : σ → List τ → Prop) : Prop where
  perm : ∀ s l l', l.Perm l' → I s l → I s l'
  start : ∀ s k l, I s l → I s (P.start k :: l)
  exec : ∀ s input t l, B s input t l → I s (t :: l) → I (P.exec s input t).1 ((P.exec s input t).2 ++ l)

end Sections

def Pool.Holds {σ τ : Type*} (Inv : σ → Prop) (Ok : σ → τ → Prop) (p : Pool σ τ) : Prop :=
  Inv p.state ∧ ∀ t ∈ p.ready, Ok p.state t

def Pool.weight {σ τ : Type*} (w : τ → ℕ) (p : Pool σ τ) : ℕ := (p.ready.map w).sum

namespace Sections
variable {σ ι κ τ : Type*} (P : Sections σ ι κ τ)

/-- Every section of the run is executed in a state that allows it. -/
def Allows (A : σ → ι → τ → Prop) : Pool σ τ → List (Turn ι κ) → Prop
  | _, [] => True
  | p, .call k :: turns => Allows A (P.step p (.call k)) turns
  | p, .exec i input :: turns =>
    (∀ t ∈ p.ready[i]?, A p.state input t) ∧ Allows A (P.step p (.exec i input)) turns

instance (A : σ → ι → τ → Prop) [∀ s input t, Decidable (A s input t)] :
    (p : Pool σ τ) → (turns : List (Turn ι κ)) → Decidable (P.Allows A p turns)
  | _, [] => isTrue trivial
  | p, .call k :: turns => instDecidableAllows A (P.step p (.call k)) turns
  | p, .exec i input :: turns =>
    have := instDecidableAllows A (P.step p (.exec i input)) turns
    inferInstanceAs (Decidable (_ ∧ _))

/-- `Inv` holds of the state and `Ok` of every ready section; each section keeps `Inv`, leaves `Ok` the
sections that follow it, and does not spoil `Ok` for the others. -/
structure Preserves (Inv : σ → Prop) (Ok : σ → τ → Prop) : Prop where
  start : ∀ s k, Inv s → Ok s (P.start k)
  inv : ∀ s input t, Inv s → Ok s t → Inv (P.exec s input t).1
  next : ∀ s input t, Inv s → Ok s t → ∀ u ∈ (P.exec s input t).2, Ok (P.exec s input t).1 u
  stable : ∀ s input t u, Inv s → Ok s t → Ok s u → Ok (P.exec s input t).1 u

/-- `Inv` relates the state to the weight of the sections that are ready. A section gives up its own
weight and passes some on to the sections that follow; calls start without weight. -/
structure Balances (A : σ → ι → τ → Prop) (w : τ → ℕ) (Inv : σ → ℕ → Prop) : Prop where
  start : ∀ k, w (P.start k) = 0
  exec : ∀ s input t n, A s input t → Inv s (w t + n) →
    Inv (P.exec s input t).1 (((P.exec s input t).2.map w).sum + n)

variable {P} {B : σ → ι → τ → List τ → Prop} {I : σ → List τ → Prop} {A : σ → ι → τ → Prop} {p : Pool σ τ}
  {turns : List (Turn ι κ)}

theorem Carries.run (h : P.Carries B I) (hb : P.Permits B p turns)
    (hp : I p.state p.ready) : I (P.run p turns).state (P.run p turns).ready := by
  induction turns generalizing p with
  | nil => exact hp
  | cons turn turns ih =>
    cases turn with
    | call k =>
      refine ih hb ?_
      exact h.perm _ _ _ (perm_append_singleton _ _).symm (h.start p.state k p.ready hp)
    | exec i input =>
      refine ih hb.2 ?_
      cases ht : p.ready[i]? with
      | none =>
        rw [P.step_exec_none ht]
        exact hp
      | some t =>
        rw [P.step_exec_some ht]
        obtain ⟨hi, rfl⟩ := List.getElem?_eq_some_iff.mp ht
        have hcut := h.perm _ _ _ (getElem_cons_eraseIdx_perm hi).symm hp
        exact h.perm _ _ _ perm_append_comm (h.exec p.state input _ _ (hb.1 _ ht) hcut)

theorem Permits.append {more : List (Turn ι κ)} (h : P.Permits B p (turns ++ more)) :
    P.Permits B p turns ∧ P.Permits B (P.run p turns) more := by
  induction turns generalizing p with
  | nil => exact ⟨trivial, h⟩
  | cons turn turns ih =>
    cases turn with
    | call k => exact ih h
    | exec i input => exact ⟨⟨h.1, (ih h.2).1⟩, (ih h.2).2⟩

theorem Allows.permits (h : P.Allows A p turns) : P.Permits (fun s input t _ => A s input t) p turns := by
  induction turns generalizing p with
  | nil => trivial
  | cons turn turns ih =>
    cases turn with
    | call k => exact ih h
    | exec i input => exact ⟨h.1, ih h.2⟩

theorem Carries.allows (h : P.Carries B I) (hA : ∀ s input t l, B s input t l → I s (t :: l) → A s input t)
    (hb : P.Permits B p turns) (hp : I p.state p.ready) : P.Allows A p turns := by
  induction turns generalizing p with
  | nil => trivial
  | cons turn turns ih =>
    cases turn with
    | call k =>
      have hnext : P.Permits B p [.call k] := trivial
      exact ih hb (h.run hnext hp)
    | exec i input =>
      have hnext : P.Permits B p [.exec i input] := ⟨hb.1, trivial⟩
      refine ⟨fun t ht => ?_, ih hb.2 (h.run hnext hp)⟩
      obtain ⟨hi, rfl⟩ := List.getElem?_eq_some_iff.mp ht
      exact hA _ _ _ _ (hb.1 _ ht) (h.perm _ _ _ (getElem_cons_eraseIdx_perm hi).symm hp)

theorem Allows.and {A' : σ → ι → τ → Prop} (h : P.Allows A p turns)
    (h' : P.Allows A' p turns) : P.Allows (fun s input t => A s input t ∧ A' s input t) p turns := by
  induction turns generalizing p with
  | nil => trivial
  | cons turn turns ih =>
    cases turn with
    | call k => exact ih h h'
    | exec i input => exact ⟨fun t ht => ⟨h.1 t ht, h'.1 t ht⟩, ih h.2 h'.2⟩

theorem Allows.run {J : σ → Prop} (h : ∀ s input t, A s input t → J s → J (P.exec s input t).1)
    (ha : P.Allows A p turns) (hp : J p.state) : J (P.run p turns).state := by
  have hcarries : P.Carries (fun s input t _ => A s input t) (fun s _ => J s) :=
    ⟨fun _ _ _ _ hs => hs, fun _ _ _ hs => hs, fun s input t _ ha hs => h s input t ha hs⟩
  exact hcarries.run ha.permits hp

theorem permits_true (turns : List (Turn ι κ)) : P.Permits (fun _ _ _ _ => True) p turns := by
  induction turns generalizing p with
  | nil => trivial
  | cons turn turns ih =>
    cases turn with
    | call k => exact ih
    | exec i input => exact ⟨fun _ _ => trivial, ih⟩

namespace Preserves
variable {Inv : σ → Prop} {Ok : σ → τ → Prop} (h : P.Preserves Inv Ok)
include h

theorem carries : P.Carries B (fun s l => Inv s ∧ ∀ t ∈ l, Ok s t) where
  perm s l l' hperm hs := ⟨hs.1, fun t ht => hs.2 t (hperm.mem_iff.mpr ht)⟩
  start s k l hs := ⟨hs.1, forall_mem_cons.mpr ⟨h.start s k hs.1, hs.2⟩⟩
  exec s input t l _ hs := by
    obtain ⟨hinv, hready⟩ := hs
    obtain ⟨hok, hrest⟩ := forall_mem_cons.mp hready
    refine ⟨h.inv s input t hinv hok, forall_mem_append.mpr ⟨h.next s input t hinv hok, fun u hu => ?_⟩⟩
    exact h.stable s input t u hinv hok (hrest u hu)

theorem run (hp : p.Holds Inv Ok) (turns : List (Turn ι κ)) : (P.run p turns).Holds Inv Ok :=
  h.carries.run (permits_true turns) hp

theorem allows (hp : p.Holds Inv Ok) (turns : List (Turn ι κ)) : P.Allows (fun s _ t => Ok s t) p turns :=
  h.carries.allows (fun _ _ t _ _ hs => hs.2 t mem_cons_self) (permits_true turns) hp

/-- A relation that every section keeps between the state before and after holds between any two
states of a run. -/
theorem run_rel {R : σ → σ → Prop} (hrefl : ∀ s, R s s) (htrans : ∀ a b c, R a b → R b c → R a c)
    (hR : ∀ s input t, Inv s → Ok s t → R s (P.exec s input t).1) (hp : p.Holds Inv Ok)
    (turns : List (Turn ι κ)) : R p.state (P.run p turns).state := by
  have hfrom : P.Preserves (fun s => Inv s ∧ R p.state s) Ok := by
    refine ⟨fun s k hs => h.start s k hs.1, fun s input t hs hok => ?_, fun s input t hs => h.next s input t hs.1,
      fun s input t u hs => h.stable s input t u hs.1⟩
    exact ⟨h.inv s input t hs.1 hok, htrans _ _ _ hs.2 (hR s input t hs.1 hok)⟩
  exact (hfrom.run ⟨⟨hp.1, hrefl _⟩, hp.2⟩ turns).1.2

end Preserves

section
variable {w : τ → ℕ} {Inv : σ → ℕ → Prop} (h : P.Balances A w Inv)
include h

theorem Balances.carries : P.Carries (fun s input t _ => A s input t) (fun s l => Inv s (l.map w).sum) where
  perm s l l' hperm hs := (hperm.map w).sum_eq ▸ hs
  start s k l hs := by simpa [h.start] using hs
  exec s input t l ha hs := by
    rw [map_append, List.sum_append]
    exact h.exec s input t _ ha (by simpa using hs)

theorem Balances.run (ha : P.Allows A p turns) (hp : Inv p.state (p.weight w)) :
    Inv (P.run p turns).state ((P.run p turns).weight w) := h.carries.run ha.permits hp

end

end Sections
end MeshDesk.Lib
