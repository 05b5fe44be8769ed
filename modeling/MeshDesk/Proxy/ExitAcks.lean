import MeshDesk.Proxy.CircuitManager
import MeshDesk.Proxy.ExitRemoval

/-! The acknowledgements of the exit on their way to the entry: what the codec and the circuit manager there make of
them. -/
namespace MeshDesk.Proxy
open Lib Control ExitRegistry
open List

variable {setup : CircuitSetup}

theorem length_of_checkSetup (h : checkSetup setup = .ok ()) :
    setup.circuitID.length = circuitIDSize := by
  unfold checkSetup at h
  split_ifs at h with hid
  exact not_not.mp hid

theorem prepareCircuit_refused {ports : PortPolicy} {env : SetupEnv} {ack : Control.CircuitAck}
    (h : prepareCircuit ports env setup = .ok (.refused ack)) : ∃ reason, ack = refuse setup reason := by
  unfold prepareCircuit at h
  split at h
  · cases h
    exact ⟨_, rfl⟩
  · split at h
    · cases h
    · split at h
      · cases h
      · split at h
        · cases h
          exact ⟨_, rfl⟩
        · cases h

/-- What the acknowledgements of the exit look like: an acceptance carries a key, a refusal does not. -/
def ExitTask.Acks : ExitTask → Prop
  | .checkDuplicate setup => setup.circuitID.length = circuitIDSize
  | .register setup _ _ => setup.circuitID.length = circuitIDSize
  | .done (.acked ack) => ack.circuitID.length = circuitIDSize ∧
      (ack.accepted = true ∧ ack.ecdhPubKey.length = 32 ∧ ack.reason = [] ∨ ack.accepted = false ∧ ack.ecdhPubKey = [])
  | _ => True

theorem checkOpen_acks (s : ExitRegistry) (setup : CircuitSetup) : (s.checkOpen setup).Acks := by
  unfold checkOpen
  split_ifs
  · trivial
  · cases h : checkSetup setup with
    | error e => trivial
    | ok _ => exact length_of_checkSetup h

theorem checkDuplicate_acks (s : ExitRegistry) (env : SetupEnv)
    (hid : setup.circuitID.length = circuitIDSize) : (s.checkDuplicate env setup).Acks := by
  unfold checkDuplicate
  split_ifs
  · trivial
  · cases h : prepareCircuit s.ports env setup with
    | error e => trivial
    | ok prepared =>
      cases prepared with
      | refused ack =>
        obtain ⟨reason, rfl⟩ := prepareCircuit_refused h
        exact ⟨hid, Or.inr ⟨rfl, rfl⟩⟩
      | ready keys e2eKey => exact hid

theorem exec_acks {s : ExitRegistry} {input : ExitInput} {t u : ExitTask} (ht : t.Acks) (hu : u ∈ (s.exec input t).2) :
    u.Acks := by
  cases t with
  | checkOpen setup =>
    obtain rfl := mem_singleton.mp hu
    exact checkOpen_acks s setup
  | checkDuplicate setup =>
    obtain rfl := mem_singleton.mp hu
    exact checkDuplicate_acks s input.env ht
  | register setup keys e2eKey =>
    simp only [exec, register] at hu
    split_ifs at hu
    · obtain rfl := mem_singleton.mp hu
      trivial
    · obtain rfl := mem_singleton.mp hu
      exact ⟨ht, Or.inl ⟨rfl, keys.publicKey_length, rfl⟩⟩
  | unlink circuitID =>
    simp only [exec, unlink] at hu
    split at hu <;> obtain rfl := mem_singleton.mp hu <;> trivial
  | closeCircuits refs =>
    cases refs <;> obtain rfl := mem_singleton.mp hu <;> trivial
  | tearDown | closeRegistry | cleanupOrphans =>
    obtain rfl := mem_singleton.mp hu
    trivial
  | done result => cases hu

theorem acks_preserves : exitSections.Preserves (fun _ => True) (fun _ t => t.Acks) where
  start _ k _ := by cases k <;> trivial
  inv _ _ _ _ _ := trivial
  next _ _ _ _ ht _ hu := exec_acks ht hu
  stable _ _ _ _ _ _ hu := hu

def entryAck (render : GoString → String) (ack : Control.CircuitAck) : CircuitAck := ⟨ack.accepted, render ack.reason⟩

def handleAck (m : CircuitManager) (sur : Surroundings) (cid : CircuitIDType) (ack : CircuitAck) : CircuitManager :=
  (managerSections.run ⟨m, []⟩ [.call (.handleCircuitAck cid ack), .exec 0 sur, .exec 0 sur]).state

theorem handleAck_lookup {m : CircuitManager} {cid : CircuitIDType} {c : Circuit} (htracked : m.tracked cid = true)
    (hc : m.objects.lookup cid = some c) (sur : Surroundings) (ack : CircuitAck) :
    (handleAck m sur cid ack).objects.lookup cid = some (c.handleCircuitAck sur.now cid ack).1 := by
  have hfind : m.exec sur (.find cid (.ack ack)) = (m, [.handle cid (.ack ack)]) := by
    simp only [CircuitManager.exec, if_pos htracked]
  have hhandle : (m.exec sur (.handle cid (.ack ack))).1 =
      m.setCircuit cid (c.handleCircuitAck sur.now cid ack).1 := by
    simp only [CircuitManager.exec, hc]
    rfl
  have hfirst : managerSections.step ⟨m, [.find cid (.ack ack)]⟩ (.exec 0 sur) = ⟨m, [.handle cid (.ack ack)]⟩ := by
    change (⟨(m.exec sur (.find cid (.ack ack))).1, [] ++ (m.exec sur (.find cid (.ack ack))).2⟩ : Pool _ _) = _
    rw [hfind]
    rfl
  have hrun : handleAck m sur cid ack = (m.exec sur (.handle cid (.ack ack))).1 := by
    change (managerSections.step (managerSections.step ⟨m, [.find cid (.ack ack)]⟩ (.exec 0 sur))
      (.exec 0 sur)).state = _
    rw [hfirst]
    rfl
  rw [hrun, hhandle]
  exact AList.lookup_insert _

/-- An acceptance reaches the entry in every run of the exit and activates the circuit there; a refusal is not
even encoded, as it carries no key. -/
theorem accepted_ack_reaches_entry (cfg : ExitConfig) (ports : PortPolicy) (turns : List (Turn ExitInput ExitCall))
    (ack : Control.CircuitAck) (hack : .done (.acked ack) ∈ (exitRun cfg ports turns).ready) :
    (ack.accepted = true → ∃ bs, ack.encode = .ok bs ∧ decodeCircuitAck bs = .ok ack ∧
      ∀ (render : GoString → String) (m : CircuitManager) (sur : Surroundings) (cid : CircuitIDType) (c : Circuit),
        m.tracked cid = true → m.objects.lookup cid = some c → c.state = .creating →
        ∃ c', (handleAck m sur cid (entryAck render ack)).objects.lookup cid = some c' ∧ Circuit.state c' = .active) ∧
    (ack.accepted = false → ack.encode = .error .ecdhKeySize) := by
  have hready := (acks_preserves.run (p := ⟨newExitRegistry cfg ports, []⟩) ⟨trivial, nofun⟩ turns).2
  obtain ⟨hid, h⟩ : ExitTask.Acks (.done (.acked ack)) := hready _ hack
  rcases h with ⟨haccepted, hkey, hreason⟩ | ⟨hrefused, hkey⟩
  · refine ⟨fun _ => ?_, fun h => ?_⟩
    · have henc : ∃ bs, ack.encode = .ok bs := by
        unfold Control.CircuitAck.encode
        rw [if_neg (not_not.mpr hid), if_neg (not_not.mpr hkey)]
        exact ⟨_, rfl⟩
      obtain ⟨bs, hbs⟩ := henc
      have hdec := decodeCircuitAck_encode hbs
      have hsame : ({ ack with reason := ack.reason.take (ack.reason.length % 65536) } : Control.CircuitAck) =
          ack := by
        rw [hreason, take_nil, ← hreason]
      rw [hsame] at hdec
      refine ⟨bs, hbs, hdec, fun render m sur cid c htracked hc hcreating => ?_⟩
      refine ⟨_, handleAck_lookup htracked hc sur _, ?_⟩
      unfold Circuit.handleCircuitAck
      rw [if_neg (not_not.mpr hcreating), if_neg (by simp [entryAck, haccepted])]
    · rw [haccepted] at h
      cases h
  · refine ⟨fun h => ?_, fun _ => ?_⟩
    · rw [hrefused] at h
      cases h
    · unfold Control.CircuitAck.encode
      rw [if_neg (not_not.mpr hid), if_pos (by rw [hkey]; decide)]

theorem accepted_ack_reaches_entry_plain :
    ∃ bs, (⟨List.replicate 16 1, List.replicate 32 9, true, []⟩ : Control.CircuitAck).encode = .ok bs ∧
      decodeCircuitAck bs = .ok ⟨List.replicate 16 1, List.replicate 32 9, true, []⟩ := by
  obtain ⟨bs, henc, hdec, -⟩ := (accepted_ack_reaches_entry plainConfig anyPort setupTurns
    ⟨replicate 16 1, replicate 32 9, true, []⟩ mem_cons_self).1 rfl
  exact ⟨bs, henc, hdec⟩

def unreachable : ExitInput := ⟨0, { plainEnv with dial := fun _ => .error [110, 111] }⟩

/-- The refusal of a setup whose target cannot be reached does not leave the exit. -/
theorem refusal_not_encoded :
    ∃ ack, .done (.acked ack) ∈ (exitRun plainConfig anyPort [.call (.handleCircuitSetup plainSetup),
      .exec 0 unreachable, .exec 0 unreachable]).ready ∧ ack.accepted = false ∧ ack.encode = .error .ecdhKeySize :=
  ⟨_, mem_cons_self, rfl, by decide⟩

end MeshDesk.Proxy
