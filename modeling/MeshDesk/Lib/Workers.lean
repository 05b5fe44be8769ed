import Mathlib.Algebra.BigOperators.Ring.List
import Mathlib.Algebra.Ring.Nat

/-! A batch of jobs whose workers share a state, at most `limit` of them at work at once. A job has two
sections: the first one reads the state and either finishes the job or goes to work, the second one ends
the work and writes the state. -/
namespace MeshDesk.Lib
open List

inductive Worker (J M R : Type*) where
  | waiting (job : J)
  | busy (work : M)
  | finished (result : R)

/-- What the sections of a job do. The number is the worker's own, so that what a worker meets outside of
the state may depend on it. -/
structure Crew (S J M R : Type*) where
  start : S → ℕ → J → M ⊕ R
  finish : S → ℕ → M → S × R

variable {S J M R : Type*}

namespace Worker

def isBusy : Worker J M R → Bool
  | .busy _ => true
  | _ => false

/-- Whether a worker can run its next section; the first one needs a free slot. -/
def canRun (free : Bool) : Worker J M R → Bool
  | .waiting _ => free
  | .busy _ => true
  | .finished _ => false

def result? : Worker J M R → Option R
  | .finished r => some r
  | _ => none

def left : Worker J M R → ℕ
  | .waiting _ => 2
  | .busy _ => 1
  | .finished _ => 0

def Serves (A : J → Prop) (Q : J → M → Prop) (P : J → R → Prop) (j : J) : Worker J M R → Prop
  | .waiting j' => j' = j ∧ A j
  | .busy m => Q j m
  | .finished r => P j r

end Worker

def runnable (limit : ℕ) (ws : List (Worker J M R)) : List ℕ :=
  (List.range ws.length).filter (fun i => ws[i]?.any (Worker.canRun (ws.countP Worker.isBusy < limit)))

def sectionsLeft (ws : List (Worker J M R)) : ℕ := (ws.map Worker.left).sum

namespace Crew
variable (c : Crew S J M R)

def step (p : S × List (Worker J M R)) (i : ℕ) : S × List (Worker J M R) :=
  match p.2[i]? with
  | some (.waiting j) => (p.1, p.2.set i ((c.start p.1 i j).elim .busy .finished))
  | some (.busy m) => ((c.finish p.1 i m).1, p.2.set i (.finished (c.finish p.1 i m).2))
  | _ => p

/-- Up to `n` sections, each by one of the workers that can run. -/
def run (limit : ℕ) (pick : ℕ → ℕ) : ℕ → S × List (Worker J M R) → S × List (Worker J M R)
  | 0, p => p
  | n + 1, p =>
    match (runnable limit p.2)[pick n % (runnable limit p.2).length]? with
    | none => p
    | some i => run limit pick n (c.step p i)

/-- Run all jobs and wait for them. The results are in the order of the jobs. -/
def runAll (limit : ℕ) (pick : ℕ → ℕ) (s : S) (jobs : List J) : S × List R :=
  let p := c.run limit pick (2 * jobs.length) (s, jobs.map .waiting)
  (p.1, p.2.filterMap Worker.result?)

end Crew

section Ends
variable {ws : List (Worker J M R)} {w : Worker J M R} {i limit : ℕ}

theorem sectionsLeft_set (h : ws[i]? = some w) (w' : Worker J M R) :
    sectionsLeft (ws.set i w') + w.left = sectionsLeft ws + w'.left := by
  induction ws generalizing i with
  | nil => cases h
  | cons a ws ih =>
    cases i with
    | zero =>
      obtain rfl := Option.some.inj h
      simp only [sectionsLeft, set_cons_zero, map_cons, List.sum_cons]
      omega
    | succ i =>
      have hrest := ih h
      simp only [sectionsLeft, set_cons_succ, map_cons, List.sum_cons] at hrest ⊢
      omega

theorem sectionsLeft_waiting (jobs : List J) :
    sectionsLeft (jobs.map .waiting : List (Worker J M R)) = 2 * jobs.length := by
  induction jobs with
  | nil => rfl
  | cons j jobs ih =>
    simp only [sectionsLeft, map_cons, List.sum_cons, length_cons, Worker.left] at ih ⊢
    omega

theorem mem_runnable (h : i ∈ runnable limit ws) :
    ∃ w, ws[i]? = some w ∧ w.canRun (ws.countP Worker.isBusy < limit) = true := by
  have hrun := (mem_filter.mp h).2
  cases hi : ws[i]? with
  | none =>
    rw [hi] at hrun
    cases hrun
  | some w =>
    rw [hi] at hrun
    exact ⟨w, rfl, hrun⟩

theorem sectionsLeft_of_runnable_nil (hlimit : 0 < limit) (h : runnable limit ws = []) : sectionsLeft ws = 0 := by
  have hstuck : ∀ w ∈ ws, w.canRun (ws.countP Worker.isBusy < limit) = false := by
    intro w hw
    obtain ⟨i, hi, rfl⟩ := getElem_of_mem hw
    have hnot := filter_eq_nil_iff.mp h i (mem_range.mpr hi)
    rw [List.getElem?_eq_getElem hi] at hnot
    exact Bool.eq_false_iff.mpr hnot
  have hidle : ws.countP Worker.isBusy = 0 := by
    refine countP_eq_zero.mpr fun w hw hbusy => ?_
    cases w with
    | busy m => cases hstuck _ hw
    | waiting | finished => cases hbusy
  refine List.sum_eq_zero (forall_mem_map.mpr fun w hw => ?_)
  have hw' := hstuck w hw
  rw [hidle] at hw'
  cases w with
  | waiting j => exact absurd hlimit (of_decide_eq_false hw')
  | busy m => cases hw'
  | finished r => rfl

theorem Crew.step_sectionsLeft (c : Crew S J M R) {p : S × List (Worker J M R)} (h : i ∈ runnable limit p.2) :
    sectionsLeft (c.step p i).2 < sectionsLeft p.2 := by
  obtain ⟨w, hw, hrun⟩ := mem_runnable h
  unfold Crew.step
  rw [hw]
  cases w with
  | waiting j =>
    have hset := sectionsLeft_set hw ((c.start p.1 i j).elim .busy .finished)
    cases hj : c.start p.1 i j with
    | inl m =>
      simp only [hj, Sum.elim_inl, Worker.left] at hset ⊢
      omega
    | inr r =>
      simp only [hj, Sum.elim_inr, Worker.left] at hset ⊢
      omega
  | busy m =>
    have hset := sectionsLeft_set hw (.finished (c.finish p.1 i m).2)
    simp only [Worker.left] at hset
    dsimp only
    omega
  | finished r => cases hrun

theorem Crew.run_sectionsLeft (c : Crew S J M R) (hlimit : 0 < limit) (pick : ℕ → ℕ) {n : ℕ}
    {p : S × List (Worker J M R)} (h : sectionsLeft p.2 ≤ n) : sectionsLeft (c.run limit pick n p).2 = 0 := by
  induction n generalizing p with
  | zero => exact Nat.le_zero.mp h
  | succ n ih =>
    unfold Crew.run
    cases hi : (runnable limit p.2)[pick n % (runnable limit p.2).length]? with
    | none =>
      refine sectionsLeft_of_runnable_nil hlimit (eq_nil_of_length_eq_zero ?_)
      by_contra hne
      exact absurd (Nat.mod_lt _ (Nat.pos_of_ne_zero hne)) (Nat.not_lt.mpr (List.getElem?_eq_none_iff.mp hi))
    | some i =>
      have hstep := c.step_sectionsLeft (mem_of_getElem? hi)
      exact ih (by omega)

end Ends

/-! ### What the results are -/

theorem exists_of_mem_forall₂ {α β : Type*} {r : α → β → Prop} {l : List α} {l' : List β} (h : Forall₂ r l l')
    {b : β} (hb : b ∈ l') : ∃ a ∈ l, r a b := by
  induction h with
  | nil => cases hb
  | @cons a b' l l' hhead _ ih =>
    obtain rfl | hb := mem_cons.mp hb
    · exact ⟨a, mem_cons_self, hhead⟩
    · obtain ⟨a', ha', hr⟩ := ih hb
      exact ⟨a', mem_cons_of_mem a ha', hr⟩

/-- The sections keep an invariant of the state; `Q` and `P` say what a job goes to work with and what its
result is. -/
structure Crew.Keeps (c : Crew S J M R) (I : S → Prop) (A : J → Prop) (Q : J → M → Prop) (P : J → R → Prop) :
    Prop where
  start : ∀ s i j, I s → A j → (c.start s i j).elim (Q j) (P j)
  finish : ∀ s i j m, I s → Q j m → I (c.finish s i m).1 ∧ P j (c.finish s i m).2

namespace Crew.Keeps
variable {c : Crew S J M R} {I : S → Prop} {A : J → Prop} {Q : J → M → Prop} {P : J → R → Prop} {jobs : List J}
  {ws : List (Worker J M R)}

theorem set (h : Forall₂ (Worker.Serves A Q P) jobs ws) {i : ℕ} {w w' : Worker J M R} (hi : ws[i]? = some w)
    (hw' : ∀ j, Worker.Serves A Q P j w → Worker.Serves A Q P j w') :
    Forall₂ (Worker.Serves A Q P) jobs (ws.set i w') := by
  induction h generalizing i with
  | nil => exact .nil
  | cons hhead htail ih =>
    cases i with
    | zero =>
      obtain rfl := Option.some.inj hi
      exact .cons (hw' _ hhead) htail
    | succ i => exact .cons hhead (ih hi)

theorem step (hc : c.Keeps I A Q P) {p : S × List (Worker J M R)} (hI : I p.1)
    (h : Forall₂ (Worker.Serves A Q P) jobs p.2) (i : ℕ) :
    I (c.step p i).1 ∧ Forall₂ (Worker.Serves A Q P) jobs (c.step p i).2 := by
  unfold Crew.step
  cases hi : p.2[i]? with
  | none => exact ⟨hI, h⟩
  | some w =>
    cases w with
    | waiting j =>
      refine ⟨hI, set h hi ?_⟩
      rintro j' ⟨rfl, hA⟩
      have hstart := hc.start p.1 i j hI hA
      cases hj : c.start p.1 i j with
      | inl | inr => rwa [hj] at hstart
    | busy m =>
      -- the state is kept because the worker has some job
      obtain ⟨j, -, hj⟩ := exists_of_mem_forall₂ h (mem_of_getElem? hi)
      exact ⟨(hc.finish p.1 i j m hI hj).1, set h hi fun j' hj' => (hc.finish p.1 i j' m hI hj').2⟩
    | finished r => exact ⟨hI, h⟩

theorem run (hc : c.Keeps I A Q P) (limit : ℕ) (pick : ℕ → ℕ) (n : ℕ) {p : S × List (Worker J M R)} (hI : I p.1)
    (h : Forall₂ (Worker.Serves A Q P) jobs p.2) :
    I (c.run limit pick n p).1 ∧ Forall₂ (Worker.Serves A Q P) jobs (c.run limit pick n p).2 := by
  induction n generalizing p with
  | zero => exact ⟨hI, h⟩
  | succ n ih =>
    unfold Crew.run
    cases (runnable limit p.2)[pick n % (runnable limit p.2).length]? with
    | none => exact ⟨hI, h⟩
    | some i =>
      obtain ⟨hI', h'⟩ := hc.step hI h i
      exact ih hI' h'

theorem results (h : Forall₂ (Worker.Serves A Q P) jobs ws) (hleft : sectionsLeft ws = 0) :
    Forall₂ P jobs (ws.filterMap Worker.result?) := by
  induction h with
  | nil => exact .nil
  | @cons j w jobs ws hhead _ ih =>
    simp only [sectionsLeft, map_cons, List.sum_cons, Nat.add_eq_zero_iff] at hleft
    cases w with
    | waiting | busy => cases hleft.1
    | finished r => exact .cons hhead (ih hleft.2)

theorem runAll (hc : c.Keeps I A Q P) {limit : ℕ} (hlimit : 0 < limit) (pick : ℕ → ℕ) {s : S} (hI : I s)
    (hA : ∀ j ∈ jobs, A j) :
    I (c.runAll limit pick s jobs).1 ∧ Forall₂ P jobs (c.runAll limit pick s jobs).2 := by
  have hstart : Forall₂ (Worker.Serves A Q P) jobs (jobs.map .waiting) := by
    rw [forall₂_map_right_iff, forall₂_same]
    exact fun j hj => ⟨rfl, hA j hj⟩
  obtain ⟨hI', h'⟩ := hc.run limit pick (2 * jobs.length) (p := (s, jobs.map .waiting)) hI hstart
  exact ⟨hI', results h' (c.run_sectionsLeft hlimit pick (Nat.le_of_eq (sectionsLeft_waiting jobs)))⟩

end Crew.Keeps
end MeshDesk.Lib
