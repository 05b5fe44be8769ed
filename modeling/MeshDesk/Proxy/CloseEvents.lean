import MeshDesk.Proxy.Lifecycle

/-! How often a circuit's end is reported. A closer marks the circuit closed, zeroes its keys, removes it
and emits the event in four sections; it is counted from the first of them on, as a pending event until
the event is out. -/
namespace MeshDesk.Proxy
open Lib

def CircuitEvent.closes (e : CircuitEvent) (cid : CircuitIDType) : Bool :=
  decide (e.type = .closed ∧ e.circuitID = cid)

/-- The reports of the circuit's end that a section still leads to. -/
def Task.pendingCloses (cid : CircuitIDType) : Task → ℕ
  | .zeroKeys k _ _ => if k = cid then 1 else 0
  | .remove k _ _ => if k = cid then 1 else 0
  | .emit event next => (event.closes cid).toNat + next.pendingCloses cid
  | _ => 0

/-- What a handler does to the circuit's end: it becomes a closer, or neither the question whether the
circuit is closed nor the pending reports change. Only `closeCircuit` closes a circuit again. -/
theorem Circuit.handle_closes (c : Circuit) (now : Time) (cid : CircuitIDType) (h : Handler) :
    ((c.handle now cid h).1.state = .closed ∧ (c.state = .closed → ∃ reason, h = .close reason) ∧
        ∀ k, (c.handle now cid h).2.pendingCloses k = if cid = k then 1 else 0) ∨
      (((c.handle now cid h).1.state = .closed ↔ c.state = .closed) ∧
        ∀ k, (c.handle now cid h).2.pendingCloses k = 0) := by
  have hteardown : ∀ reason closeReason,
      ((c.beginTeardown cid reason closeReason).1.state = .closed ↔ c.state = .closed) ∧
        ∀ k, (c.beginTeardown cid reason closeReason).2.pendingCloses k = 0 := by
    intro reason closeReason
    unfold Circuit.beginTeardown
    split_ifs with hs
    · exact ⟨Iff.rfl, fun _ => rfl⟩
    · refine ⟨⟨nofun, fun hc => absurd (Or.inl hc) hs⟩, fun _ => rfl⟩
  cases h with
  | ack msg =>
    simp only [Circuit.handle, Circuit.handleCircuitAck]
    split_ifs with hs ha
    · exact .inr ⟨Iff.rfl, fun _ => rfl⟩
    · exact .inl ⟨rfl, fun hc => absurd (hc ▸ not_not.mp hs) (by decide), fun _ => rfl⟩
    · refine .inr ⟨⟨nofun, fun hc => absurd (hc ▸ not_not.mp hs) (by decide)⟩, fun _ => rfl⟩
  | setupTimeout =>
    simp only [Circuit.handle, Circuit.handleSetupTimeout]
    split_ifs with hs
    · exact .inr ⟨Iff.rfl, fun _ => rfl⟩
    · exact .inl ⟨rfl, fun hc => absurd (hc ▸ not_not.mp hs) (by decide), fun _ => rfl⟩
  | teardown reason | exitTeardown reason => exact .inr (hteardown reason _)
  | close reason => exact .inl ⟨rfl, fun _ => ⟨reason, rfl⟩, fun _ => rfl⟩

namespace CircuitManager

variable (m : CircuitManager)

def closedEvents (cid : CircuitIDType) : ℕ := m.events.countP (·.closes cid)

def isClosed (cid : CircuitIDType) : Bool :=
  (m.objects.lookup cid).any (fun c => c.state = .closed)

/-- A `closeCircuit` that has found its circuit gets the circuit's lock before anyone has closed it. -/
def FirstCloser (_ : Surroundings) : Task → Prop
  | .handle cid (.close _) => m.isClosed cid = false
  | _ => True

instance (m : CircuitManager) (sur : Surroundings) (t : Task) : Decidable (m.FirstCloser sur t) :=
  match t with
  | .handle _ (.close _) => inferInstanceAs (Decidable (_ = _))
  | .handle _ (.ack _) | .handle _ .setupTimeout | .handle _ (.teardown _) | .handle _ (.exitTeardown _)
  | .checkLimits _ | .store _ | .find _ _ | .zeroKeys _ _ _ | .remove _ _ _ | .emit _ _ | .scanIdle
  | .scanAll | .done _ => isTrue trivial

theorem isClosed_setCircuit (k cid : CircuitIDType) (c : Circuit) :
    (m.setCircuit k c).isClosed cid = if k = cid then decide (c.state = .closed) else m.isClosed cid := by
  unfold isClosed setCircuit
  split_ifs with hk
  · subst hk
    rw [AList.lookup_insert]
    rfl
  · rw [AList.lookup_insert_ne (Ne.symm hk)]

theorem isClosed_of_lookup {m : CircuitManager} {cid : CircuitIDType} {c : Circuit}
    (h : m.objects.lookup cid = some c) : m.isClosed cid = decide (c.state = .closed) := by
  rw [isClosed, h]
  rfl

/-- What a section does to the circuit's end. Either it closes the circuit and is the first to do so
unless it is a `closeCircuit`, or both the state and the number of reports, pending ones included, stay. -/
def Reports (sur : Surroundings) (t : Task) (cid : CircuitIDType) : Prop :=
  let r := m.exec sur t
  let after := r.1.closedEvents cid + (r.2.map (Task.pendingCloses cid)).sum
  (r.1.isClosed cid = true ∧ after = m.closedEvents cid + t.pendingCloses cid + 1 ∧
      (m.FirstCloser sur t → m.isClosed cid = false)) ∨
    (r.1.isClosed cid = m.isClosed cid ∧ after = m.closedEvents cid + t.pendingCloses cid)

section Sections
variable (m : CircuitManager) (sur : Surroundings) (cid : CircuitIDType)

theorem reports_store (exitID : GoString) : m.Reports sur (.store exitID) cid := by
  right
  simp only [exec, store]
  cases sur.generated with
  | error text => exact ⟨rfl, rfl⟩
  | ok g =>
    dsimp only
    split_ifs with hg
    · exact ⟨rfl, rfl⟩
    · refine ⟨?_, rfl⟩
      have hset := m.isClosed_setCircuit g.cid cid (m.newCircuit sur.now exitID g)
      have hnew : m.objects.lookup g.cid = none := Option.not_isSome_iff_eq_none.mp hg
      refine Eq.trans hset ?_
      split_ifs with hk
      · rw [isClosed, ← hk, hnew]
        rfl
      · rfl

theorem reports_handle {k : CircuitIDType} {h : Handler} (ht : (Task.handle k h).Ready m) :
    m.Reports sur (.handle k h) cid := by
  obtain ⟨c, hc⟩ := Option.isSome_iff_exists.mp ht
  simp only [Reports, exec, hc, isClosed_setCircuit, List.map_cons, List.map_nil, List.sum_cons, List.sum_nil]
  rcases c.handle_closes sur.now k h with ⟨hclosed, honly, hpending⟩ | ⟨hclosed, hpending⟩
  · rw [hpending]
    by_cases hk : k = cid
    · subst hk
      refine .inl ⟨by simp [hclosed], by simp [closedEvents, setCircuit, Task.pendingCloses], fun hfirst => ?_⟩
      rw [isClosed_of_lookup hc, decide_eq_false_iff_not]
      intro hs
      obtain ⟨reason, rfl⟩ := honly hs
      have hopen : m.isClosed k = false := hfirst
      rw [isClosed_of_lookup hc, hs] at hopen
      cases hopen
    · exact .inr ⟨if_neg hk, by simp [hk, closedEvents, setCircuit, Task.pendingCloses]⟩
  · rw [hpending]
    refine .inr ⟨?_, rfl⟩
    split_ifs with hk
    · subst hk
      rw [isClosed_of_lookup hc]
      simp only [hclosed]
    · rfl

theorem reports_zeroKeys {k : CircuitIDType} {reason : String} {result : CallResult}
    (ht : (Task.zeroKeys k reason result).Ready m) : m.Reports sur (.zeroKeys k reason result) cid := by
  obtain ⟨c, hc⟩ := Option.isSome_iff_exists.mp ht
  simp only [Reports, exec, hc, isClosed_setCircuit]
  refine .inr ⟨?_, rfl⟩
  split_ifs with hk
  · subst hk
    rw [isClosed_of_lookup hc]
    rfl
  · rfl

theorem reports_remove (k : CircuitIDType) (reason : String) (result : CallResult) :
    m.Reports sur (.remove k reason result) cid := by
  refine .inr ⟨?_, ?_⟩
  · simp only [exec, isClosed, removeCircuit_objects]
  · simp only [exec, closedEvents, removeCircuit_events, List.map_cons, List.map_nil, List.sum_cons, List.sum_nil,
      Task.pendingCloses, CircuitEvent.closes]
    by_cases hk : k = cid <;> simp [hk]

theorem reports_emit (event : CircuitEvent) (next : Task) : m.Reports sur (.emit event next) cid := by
  refine .inr ⟨rfl, ?_⟩
  simp only [exec, closedEvents, List.countP_append, List.countP_singleton, List.map_cons, List.map_nil,
    List.sum_cons, List.sum_nil, Task.pendingCloses]
  cases event.closes cid with
  | true => simp only [if_true, Bool.toNat_true]; omega
  | false => simp

end Sections

theorem exec_closes {m : CircuitManager} (sur : Surroundings) {t : Task} (ht : t.Ready m) (cid : CircuitIDType) :
    m.Reports sur t cid := by
  cases t with
  | checkLimits exitID =>
    refine .inr ⟨rfl, ?_⟩
    change m.closedEvents cid + ([m.checkLimits exitID].map (Task.pendingCloses cid)).sum = _
    unfold CircuitManager.checkLimits
    split_ifs <;> rfl
  | store exitID => exact m.reports_store sur cid exitID
  | find k h =>
    refine .inr ⟨rfl, ?_⟩
    change m.closedEvents cid + ([if m.tracked k then Task.handle k h else _].map (Task.pendingCloses cid)).sum = _
    split_ifs <;> rfl
  | handle k h => exact m.reports_handle sur cid ht
  | zeroKeys k reason result => exact m.reports_zeroKeys sur cid ht
  | remove k reason result => exact m.reports_remove sur cid k reason result
  | emit event next => exact m.reports_emit sur cid event next
  | scanIdle | scanAll =>
    refine .inr ⟨rfl, ?_⟩
    simp only [exec, List.map_map]
    simp [Function.comp_def, Task.pendingCloses]
  | done result => exact .inr ⟨rfl, rfl⟩

end CircuitManager

section Run
variable (cfg : CircuitManagerConfig) (turns : List (Turn Surroundings ManagerCall)) (cid : CircuitIDType)

theorem managerRun_ready : managerSections.Allows (fun m _ t => t.Ready m) ⟨newCircuitManager cfg, []⟩ turns :=
  managerSections_preserves.allows ⟨CircuitManager.consistent_new cfg, fun _ ht => by cases ht⟩ turns

/-- On every schedule a circuit is closed once its end is reported or a report is pending, and not before. -/
theorem managerRun_reports_iff :
    (managerRun cfg turns).state.isClosed cid = false ↔ (managerRun cfg turns).state.closedEvents cid +
      (managerRun cfg turns).weight (Task.pendingCloses cid) = 0 := by
  have hbalances : managerSections.Balances (fun m _ t => t.Ready m) (Task.pendingCloses cid)
      (fun m n => m.isClosed cid = false ↔ m.closedEvents cid + n = 0) := by
    refine ⟨fun k => by cases k <;> rfl, fun m sur t n ht hm => ?_⟩
    change (m.exec sur t).1.isClosed cid = false ↔
      (m.exec sur t).1.closedEvents cid + (((m.exec sur t).2.map (Task.pendingCloses cid)).sum + n) = 0
    rcases CircuitManager.exec_closes sur ht cid with ⟨hclosed, hafter, -⟩ | ⟨hclosed, hafter⟩
    · rw [hclosed, ← add_assoc, hafter]
      exact ⟨fun hopen => absurd hopen (by decide), fun hzero => by omega⟩
    · rw [hclosed, hm]
      omega
  exact hbalances.run (managerRun_ready cfg turns) ⟨fun _ => rfl, fun _ => rfl⟩

theorem managerRun_reports_eq
    (hfirst : managerSections.Allows CircuitManager.FirstCloser ⟨newCircuitManager cfg, []⟩ turns) :
    (managerRun cfg turns).state.closedEvents cid + (managerRun cfg turns).weight (Task.pendingCloses cid) =
      ((managerRun cfg turns).state.isClosed cid).toNat := by
  have hbalances : managerSections.Balances (fun m sur t => t.Ready m ∧ m.FirstCloser sur t) (Task.pendingCloses cid)
      (fun m n => m.closedEvents cid + n = (m.isClosed cid).toNat) := by
    refine ⟨fun k => by cases k <;> rfl, fun m sur t n ht hm => ?_⟩
    change (m.exec sur t).1.closedEvents cid + (((m.exec sur t).2.map (Task.pendingCloses cid)).sum + n) =
      ((m.exec sur t).1.isClosed cid).toNat
    rcases CircuitManager.exec_closes sur ht.1 cid with ⟨hclosed, hafter, hopen⟩ | ⟨hclosed, hafter⟩
    · rw [hopen ht.2, Bool.toNat_false] at hm
      rw [hclosed, ← add_assoc, hafter, Bool.toNat_true]
      omega
    · rw [hclosed, ← hm]
      omega
  exact hbalances.run ((managerRun_ready cfg turns).and hfirst) rfl

/-- Where no `closeCircuit` reaches a circuit that another call has closed since it was looked up, a
circuit's end is reported at most once, only if the circuit is closed, and exactly once when the calls on
a closed circuit are through. -/
theorem managerRun_closed_once
    (hfirst : managerSections.Allows CircuitManager.FirstCloser ⟨newCircuitManager cfg, []⟩ turns) :
    (managerRun cfg turns).state.closedEvents cid ≤ 1 ∧
      (0 < (managerRun cfg turns).state.closedEvents cid → (managerRun cfg turns).state.isClosed cid = true) ∧
      ((managerRun cfg turns).state.isClosed cid = true →
        (∀ t ∈ (managerRun cfg turns).ready, t.pendingCloses cid = 0) →
        (managerRun cfg turns).state.closedEvents cid = 1) := by
  have hreports := managerRun_reports_eq cfg turns cid hfirst
  have hle := Bool.toNat_le ((managerRun cfg turns).state.isClosed cid)
  refine ⟨by omega, fun hpos => ?_, fun hclosed hquiet => ?_⟩
  · cases hc : (managerRun cfg turns).state.isClosed cid with
    | true => rfl
    | false =>
      rw [hc, Bool.toNat_false] at hreports
      omega
  · have hweight : (managerRun cfg turns).weight (Task.pendingCloses cid) = 0 :=
      List.sum_eq_zero (List.forall_mem_map.mpr hquiet)
    rw [hclosed, hweight] at hreports
    exact hreports

end Run

/-- A circuit that the exit tears down while the manager shuts down; both closers have looked it up before
the first of them closes it. -/
def teardownDuringShutdown : List (Turn Surroundings ManagerCall) :=
  let sur : Surroundings := ⟨0, .ok ⟨[7], [1], [2], []⟩⟩
  [.call (.createCircuit [9]), .exec 0 sur, .exec 0 sur, .exec 0 sur, .exec 0 sur,
    .call (.handleTeardown [7] "bye"), .exec 0 sur, .exec 0 sur, .exec 0 sur, .exec 0 sur,
    .call .shutdown, .exec 1 sur, .exec 1 sur,
    .exec 0 sur, .exec 0 sur, .exec 0 sur, .exec 0 sur, .exec 0 sur, .exec 0 sur, .exec 0 sur, .exec 0 sur,
    .exec 0 sur, .exec 0 sur]

theorem managerRun_closed_twice :
    let p := managerRun ⟨0, 1, 1⟩ teardownDuringShutdown
    p.state.isClosed [7] = true ∧ p.ready = [] ∧ p.state.closedEvents [7] = 2 ∧
      p.state.events.map (·.data) = [none, some "bye", some "exit teardown: bye", some "shutdown"] := by
  decide

/-- The exit tears the circuit down and the manager shuts down afterwards. -/
def teardownBeforeShutdown : List (Turn Surroundings ManagerCall) :=
  let sur : Surroundings := ⟨0, .ok ⟨[7], [1], [2], []⟩⟩
  [.call (.createCircuit [9]), .exec 0 sur, .exec 0 sur, .exec 0 sur, .exec 0 sur,
    .call (.handleTeardown [7] "bye"), .exec 0 sur, .exec 0 sur, .exec 0 sur, .exec 0 sur, .exec 0 sur, .exec 0 sur,
    .exec 0 sur, .exec 0 sur, .call .shutdown, .exec 0 sur]

theorem managerRun_closed_once_teardown :
    (managerRun ⟨0, 1, 1⟩ teardownBeforeShutdown).state.isClosed [7] = true ∧
      (managerRun ⟨0, 1, 1⟩ teardownBeforeShutdown).state.closedEvents [7] = 1 :=
  ⟨by decide, (managerRun_closed_once ⟨0, 1, 1⟩ teardownBeforeShutdown [7] (by decide)).2.2 (by decide) (by decide)⟩

end MeshDesk.Proxy
