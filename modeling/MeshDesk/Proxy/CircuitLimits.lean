import MeshDesk.Proxy.Lifecycle

/-! The circuit limits. `CreateCircuit` checks them in one section and stores the circuit in another, so
creations that overlap may all pass the check for the last free place. -/
namespace MeshDesk.Proxy
open Lib

/-- The circuits that a call past its check is still going to store, for the exits that `p` selects. -/
def Task.storing (p : GoString → Bool) : Task → ℕ
  | .store exitID => (p exitID).toNat
  | .emit _ next => next.storing p
  | _ => 0

def storing (p : GoString → Bool) (l : List Task) : ℕ := (l.map (Task.storing p)).sum

variable (p : GoString → Bool)

@[simp] theorem storing_cons (t : Task) (l : List Task) : storing p (t :: l) = t.storing p + storing p l := rfl

/-- A limit check runs beside fewer than `n` creations that are past theirs. -/
def FewCreations (n : ℕ) (_ : CircuitManager) (_ : Surroundings) : Task → List Task → Prop
  | .checkLimits _, l => storing (fun _ => true) l < n
  | _, _ => True

instance (n : ℕ) (m : CircuitManager) (sur : Surroundings) (t : Task) (l : List Task) :
    Decidable (FewCreations n m sur t l) :=
  match t with
  | .checkLimits _ => inferInstanceAs (Decidable (_ < _))
  | .store _ | .find _ _ | .handle _ _ | .zeroKeys _ _ _ | .remove _ _ _ | .emit _ _ | .scanIdle | .scanAll
  | .done _ => isTrue trivial

theorem Task.storing_le (t : Task) : t.storing p ≤ t.storing (fun _ => true) := by
  induction t with
  | store exitID => exact Bool.toNat_le _
  | emit event next ih => exact ih
  | checkLimits | find | handle | zeroKeys | remove | scanIdle | scanAll | done => exact le_rfl

theorem storing_le (l : List Task) : storing p l ≤ storing (fun _ => true) l :=
  List.sum_le_sum (fun t _ => t.storing_le p)

theorem Circuit.handle_storing (c : Circuit) (now : Time) (cid : CircuitIDType) (h : Handler) (p : GoString → Bool) :
    (c.handle now cid h).2.storing p = 0 := by
  cases h with
  | ack msg =>
    change (c.handleCircuitAck now cid msg).2.storing p = 0
    unfold Circuit.handleCircuitAck
    split_ifs <;> rfl
  | setupTimeout =>
    change (c.handleSetupTimeout cid).2.storing p = 0
    unfold Circuit.handleSetupTimeout
    split_ifs <;> rfl
  | teardown reason | exitTeardown reason =>
    change (c.beginTeardown cid reason _).2.storing p = 0
    unfold Circuit.beginTeardown
    split_ifs <;> rfl
  | close reason => rfl

namespace CircuitManager

/-- A section neither takes a place in the maps nor promises one, beyond what `t` had promised. -/
structure KeepsPlaces (m : CircuitManager) (t : Task) (r : CircuitManager × List Task) : Prop where
  cfg : r.1.cfg = m.cfg
  total : r.1.circuits.size + storing (fun _ => true) r.2 ≤ m.circuits.size + t.storing (fun _ => true)
  perExit : ∀ exit, (r.1.exitList exit).length + storing (fun e => e = exit) r.2 ≤
    (m.exitList exit).length + t.storing (fun e => e = exit)

theorem KeepsPlaces.of_maps {m m' : CircuitManager} {t : Task} {next : List Task} (hcfg : m'.cfg = m.cfg)
    (hcircuits : m'.circuits = m.circuits) (hexits : m'.circuitsByExit = m.circuitsByExit)
    (hnext : ∀ p, storing p next ≤ t.storing p) : m.KeepsPlaces t (m', next) := by
  refine ⟨hcfg, ?_, fun exit => ?_⟩
  · rw [hcircuits]
    exact Nat.add_le_add_left (hnext _) _
  · rw [exitList, exitList, hexits]
    exact Nat.add_le_add_left (hnext _) _

variable (m : CircuitManager) (sur : Surroundings)

theorem store_keeps (exitID : GoString) : m.KeepsPlaces (.store exitID) (m.exec sur (.store exitID)) := by
  simp only [exec, store]
  cases sur.generated with
  | error text => exact .of_maps rfl rfl rfl (fun p => Nat.zero_le _)
  | ok g =>
    dsimp only
    split_ifs with hg
    · exact .of_maps rfl rfl rfl (fun p => le_rfl)
    · refine ⟨rfl, ?_, fun exit => ?_⟩
      · have hsize := Map.size_insert m.circuits g.cid ()
        have hle := Map.size_erase_le m.circuits g.cid
        change Map.size (m.circuits.insert g.cid ()) + 0 ≤ m.circuits.size + 1
        omega
      · rw [exitList_insertCircuit]
        by_cases he : exit = exitID
        · subst he
          simp [newCircuit, storing, Task.storing]
        · simp [newCircuit, storing, Task.storing, he]

theorem removeCircuit_keeps (cid : CircuitIDType) (reason : String) (result : CallResult) : m.KeepsPlaces
    (.remove cid reason result) (m.exec sur (.remove cid reason result)) := by
  have hcfg : (m.removeCircuit cid).cfg = m.cfg := by
    unfold removeCircuit
    split
    · split <;> rfl
    · rfl
  by_cases ht : m.tracked cid
  swap
  · simp only [exec]
    rw [removeCircuit_of_untracked ht]
    exact .of_maps rfl rfl rfl (fun p => le_rfl)
  cases hc : m.objects.lookup cid with
  | none =>
    have hsame : m.removeCircuit cid = m := by rw [removeCircuit, if_pos ht, hc]
    simp only [exec]
    rw [hsame]
    exact .of_maps rfl rfl rfl (fun p => le_rfl)
  | some c =>
    refine ⟨hcfg, ?_, fun exit => ?_⟩
    · have hle := Map.size_erase_le m.circuits cid
      simp only [exec, removeCircuit_of_tracked ht hc]
      exact hle
    · simp only [exec]
      rw [exitList_removeCircuit ht hc]
      split_ifs with he
      · subst he
        exact (m.exitList c.exit).length_erase_le
      · exact le_rfl

/-- A section passes the limit check, and then both limits leave a place free, or it takes no place that
was not promised before. -/
theorem exec_places (t : Task) : (∃ exitID, t = .checkLimits exitID ∧ m.exec sur t = (m, [.store exitID]) ∧
        (m.circuits.size : ℤ) < m.cfg.maxCircuitsTotal ∧
        ((m.exitList exitID).length : ℤ) < m.cfg.maxCircuitsPerExit) ∨
      m.KeepsPlaces t (m.exec sur t) := by
  cases t with
  | checkLimits exitID =>
    simp only [exec, checkLimits]
    split_ifs with htotal hexit
    · exact .inr (.of_maps rfl rfl rfl (fun p => le_rfl))
    · exact .inr (.of_maps rfl rfl rfl (fun p => le_rfl))
    · exact .inl ⟨exitID, rfl, rfl, not_le.mp htotal, not_le.mp hexit⟩
  | store exitID => exact .inr (m.store_keeps sur exitID)
  | find cid h =>
    refine .inr (.of_maps rfl rfl rfl (fun p => ?_))
    split_ifs <;> exact le_rfl
  | handle cid h =>
    right
    simp only [exec]
    split
    · exact .of_maps rfl rfl rfl (fun p => le_rfl)
    · refine .of_maps rfl rfl rfl (fun p => ?_)
      rw [storing_cons, Circuit.handle_storing]
      exact le_rfl
  | zeroKeys cid reason result =>
    right
    simp only [exec]
    split <;> exact .of_maps rfl rfl rfl (fun p => le_rfl)
  | remove cid reason result => exact .inr (m.removeCircuit_keeps sur cid reason result)
  | emit | done => exact .inr (.of_maps rfl rfl rfl (fun p => le_rfl))
  | scanIdle | scanAll =>
    refine .inr (.of_maps rfl rfl rfl (fun p => ?_))
    simp [storing, Function.comp_def, Task.storing]

/-- The tracked circuits and those about to be stored exceed no limit by `n` or more. -/
structure Limited (cfg : CircuitManagerConfig) (n : ℕ) (m : CircuitManager) (l : List Task) : Prop where
  config : m.cfg = cfg
  total : (m.circuits.size + storing (fun _ => true) l : ℤ) < cfg.maxCircuitsTotal + n
  perExit : ∀ exit, ((m.exitList exit).length + storing (fun e => e = exit) l : ℤ) < cfg.maxCircuitsPerExit + n

end CircuitManager

theorem storing_append (p : GoString → Bool) (l l' : List Task) :
    storing p (l ++ l') = storing p l + storing p l' := by
  rw [storing, List.map_append, List.sum_append]
  rfl

variable (cfg : CircuitManagerConfig)

theorem managerSections_limited (n : ℕ) :
    managerSections.Carries (FewCreations n) (CircuitManager.Limited cfg n) where
  perm m l l' hperm h := by
    have hsame : ∀ p, storing p l' = storing p l := fun p => ((hperm.map (Task.storing p)).sum_eq).symm
    exact ⟨h.config, by rw [hsame]; exact h.total, fun exit => by rw [hsame]; exact h.perExit exit⟩
  start m k l h := by
    have hsame : ∀ p, storing p (managerSections.start k :: l) = storing p l := by
      intro p
      cases k <;> exact Nat.zero_add _
    exact ⟨h.config, by rw [hsame]; exact h.total, fun exit => by rw [hsame]; exact h.perExit exit⟩
  exec m sur t l hfew h := by
    change CircuitManager.Limited cfg n (m.exec sur t).1 ((m.exec sur t).2 ++ l)
    obtain ⟨hcfg, htotal, hexits⟩ := h
    rcases m.exec_places sur t with ⟨exitID, rfl, hexec, hfree, hexit⟩ | hkeeps
    · rw [hexec]
      have hwaiting : storing (fun _ => true) l < n := hfew
      refine ⟨hcfg, ?_, fun exit => ?_⟩
      · rw [hcfg] at hfree
        simp only [List.singleton_append, storing_cons, Task.storing, Bool.toNat_true]
        omega
      · have hle := storing_le (fun e => e = exit) l
        have hold := hexits exit
        simp only [List.singleton_append, storing_cons, Task.storing] at hold ⊢
        by_cases he : exitID = exit
        · subst he
          rw [hcfg] at hexit
          simp only [decide_true, Bool.toNat_true]
          omega
        · simpa [he] using hold
    · refine ⟨hkeeps.cfg.trans hcfg, ?_, fun exit => ?_⟩
      · have hle := hkeeps.total
        rw [storing_append]
        rw [storing_cons] at htotal
        omega
      · have hle := hkeeps.perExit exit
        have hold := hexits exit
        rw [storing_append]
        rw [storing_cons] at hold
        omega

theorem managerRun_limits_lt (n : ℕ) (turns : List (Turn Surroundings ManagerCall))
    (htotal : 0 < cfg.maxCircuitsTotal) (hexit : 0 < cfg.maxCircuitsPerExit)
    (hfew : managerSections.Permits (FewCreations n) ⟨newCircuitManager cfg, []⟩ turns) :
    ((managerRun cfg turns).state.circuits.size : ℤ) < cfg.maxCircuitsTotal + n ∧
      ∀ exit, (((managerRun cfg turns).state.exitList exit).length : ℤ) < cfg.maxCircuitsPerExit + n := by
  have hnew : CircuitManager.Limited cfg n (newCircuitManager cfg) [] := by
    refine ⟨rfl, ?_, fun exit => ?_⟩
    · change (0 + 0 : ℤ) < _
      omega
    · change (0 + 0 : ℤ) < _
      omega
  obtain ⟨-, hsize, hlists⟩ := (managerSections_limited cfg n).run hfew hnew
  refine ⟨?_, fun exit => ?_⟩
  · change ((managerSections.run ⟨newCircuitManager cfg, []⟩ turns).state.circuits.size : ℤ) < _
    omega
  · have hlist := hlists exit
    change (((managerSections.run ⟨newCircuitManager cfg, []⟩ turns).state.exitList exit).length : ℤ) < _
    omega

/-- Where no creation checks the limits between the check and the store of another one, neither limit is
exceeded. -/
theorem managerRun_limits (turns : List (Turn Surroundings ManagerCall)) (htotal : 0 < cfg.maxCircuitsTotal)
    (hexit : 0 < cfg.maxCircuitsPerExit) (hserial : managerSections.Permits (FewCreations 1) ⟨newCircuitManager cfg, []⟩ turns) :
    ((managerRun cfg turns).state.circuits.size : ℤ) ≤ cfg.maxCircuitsTotal ∧
      ∀ exit, (((managerRun cfg turns).state.exitList exit).length : ℤ) ≤ cfg.maxCircuitsPerExit := by
  obtain ⟨hsize, hlists⟩ := managerRun_limits_lt cfg 1 turns htotal hexit hserial
  exact ⟨by omega, fun exit => by have := hlists exit; omega⟩

/-- A second creation comes after the first and is refused. -/
theorem managerRun_limits_second_refused :
    let sur : Surroundings := ⟨0, .ok ⟨[7], [1], [2], []⟩⟩
    let turns := [.call (.createCircuit [9]), .exec 0 sur, .exec 0 sur, .call (.createCircuit [9]), .exec 1 sur]
    (managerRun ⟨0, 1, 1⟩ turns).ready.contains (.done (.failed .tooManyCircuits)) = true ∧
      ((managerRun ⟨0, 1, 1⟩ turns).state.circuits.size : ℤ) ≤ 1 :=
  ⟨by decide, (managerRun_limits ⟨0, 1, 1⟩ _ (by decide) (by decide) (by decide)).1⟩

/-- Two creations check the limits before either of them stores its circuit. -/
theorem managerRun_limits_exceeded :
    let first : Surroundings := ⟨0, .ok ⟨[7], [1], [2], []⟩⟩
    let second : Surroundings := ⟨0, .ok ⟨[8], [1], [2], []⟩⟩
    let m := (managerRun ⟨0, 1, 1⟩ [.call (.createCircuit [9]), .call (.createCircuit [9]), .exec 0 first,
      .exec 0 second, .exec 0 first, .exec 0 second]).state
    m.circuits.size = 2 ∧ m.exitList [9] = [[7], [8]] := by
  decide

end MeshDesk.Proxy
