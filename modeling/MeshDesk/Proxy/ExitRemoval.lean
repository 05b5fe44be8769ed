import MeshDesk.Proxy.Cleanup
import MeshDesk.Proxy.ExitRegistry

/-! Runs of the exit's registry: what is registered is never replaced as long as setups of one circuit ID do not
overlap, and what left the registry is shut. -/
namespace MeshDesk.Proxy
open Lib Control
open List

namespace ExitRegistry

/-- The section may check for a circuit ID: no other setup with this ID is on its way to its registration. -/
def Apart (_ : ExitRegistry) (_ : ExitInput) (t : ExitTask) (others : List ExitTask) : Prop :=
  ∀ circuitID ∈ t.checks, ∀ u ∈ others, u.registers ≠ some circuitID

instance (s : ExitRegistry) (input : ExitInput) (t : ExitTask) (others : List ExitTask) :
    Decidable (Apart s input t others) :=
  inferInstanceAs (Decidable (∀ circuitID ∈ t.checks, ∀ u ∈ others, u.registers ≠ some circuitID))

variable (s : ExitRegistry) (cfg : ExitConfig) (ports : PortPolicy) (ref : ℕ)

def Free (_ : ExitInput) (t : ExitTask) : Prop :=
  ∀ circuitID, t.registers = some circuitID → s.circuits.lookup circuitID = none

/-- The circuits that are about to be registered have IDs that are free, each a different one. -/
structure Pending (s : ExitRegistry) (ready : List ExitTask) : Prop where
  free : ∀ u ∈ ready, ∀ circuitID, u.registers = some circuitID → s.circuits.lookup circuitID = none
  nodup : (ready.filterMap ExitTask.registers).Nodup

theorem pending_carries : exitSections.Carries Apart Pending where
  perm s l l' hperm h := by
    refine ⟨fun u hu => h.free u (hperm.mem_iff.mpr hu), ?_⟩
    exact (hperm.filterMap ExitTask.registers).nodup_iff.mp h.nodup
  start s k l h := by
    have hstart : (exitSections.start k).registers = none := by cases k <;> rfl
    refine ⟨forall_mem_cons.mpr ⟨?_, h.free⟩, ?_⟩
    · simp [hstart]
    · rw [filterMap_cons_none hstart]
      exact h.nodup
  exec s input t l hapart h := by
    change Pending (s.exec input t).1 ((s.exec input t).2 ++ l)
    have hspec := exec_spec s input t
    have htail := (sublist_cons_self t l).filterMap ExitTask.registers
    have hfree := forall_mem_filterMap.mpr h.free
    have hstill : ∀ circuitID ∈ l.filterMap ExitTask.registers,
        (s.exec input t).1.circuits.lookup circuitID = none := by
      intro circuitID hid
      rw [Option.eq_none_iff_forall_ne_some]
      intro ref hlookup
      rcases hspec.lookup_of circuitID ref hlookup with hbefore | ⟨hregisters, -⟩
      · cases (hfree circuitID (htail.subset hid)).symm.trans hbefore
      · have hnodup := h.nodup
        rw [filterMap_cons_some hregisters] at hnodup
        exact (nodup_cons.mp hnodup).1 hid
    rcases hspec.registers with hnil | ⟨checked, hchecks, hnone, hone⟩
    · refine ⟨forall_mem_filterMap.mp ?_, ?_⟩ <;> rw [filterMap_append, hnil]
      exacts [hstill, h.nodup.sublist htail]
    · -- what follows registers what this section has checked, which registers nothing itself
      refine ⟨forall_mem_filterMap.mp ?_, ?_⟩ <;> rw [filterMap_append, hone]
      · refine forall_mem_cons.mpr ⟨?_, hstill⟩
        rw [Option.eq_none_iff_forall_ne_some]
        intro ref hlookup
        rcases hspec.lookup_of checked ref hlookup with hbefore | ⟨hregisters, -⟩
        · cases hnone.symm.trans hbefore
        · cases hchecks.symm.trans (ExitTask.checks_of_registers hregisters)
      · refine nodup_cons.mpr ⟨fun hmem => ?_, h.nodup.sublist htail⟩
        obtain ⟨u, hu, hid⟩ := mem_filterMap.mp hmem
        exact hapart checked hchecks u hu hid

theorem pending_new : Pending (newExitRegistry cfg ports) [] :=
  ⟨nofun, nodup_nil⟩

theorem allows_free {p : Pool ExitRegistry ExitTask} {turns : List (Turn ExitInput ExitCall)}
    (h : exitSections.Permits Apart p turns) (hp : Pending p.state p.ready) : exitSections.Allows Free p turns :=
  pending_carries.allows (fun _ _ t _ _ hpending => hpending.free t mem_cons_self) h hp

/-- References in the registry are valid, and no circuit is registered under two IDs. -/
structure WellFormed (s : ExitRegistry) : Prop where
  valid : ∀ circuitID ref, s.circuits.lookup circuitID = some ref → ref < s.objects.length
  distinct : ∀ id id' ref, s.circuits.lookup id = some ref → s.circuits.lookup id' = some ref → id = id'

theorem wellFormed_preserves : exitSections.Preserves WellFormed (fun _ _ => True) where
  start _ _ _ := trivial
  inv s input t hs _ := by
    have hspec := exec_spec s input t
    refine ⟨fun id ref h => ?_, fun id id' ref h h' => ?_⟩
    · rcases hspec.lookup_of id ref h with hbefore | ⟨-, -, hlt⟩
      · exact hspec.grows.lt (hs.valid id ref hbefore)
      · exact hlt
    · rcases hspec.lookup_of id ref h with hbefore | ⟨hid, hnew, -⟩ <;>
        rcases hspec.lookup_of id' ref h' with hbefore' | ⟨hid', hnew', -⟩
      · exact hs.distinct id id' ref hbefore hbefore'
      · have hlt := hs.valid id ref hbefore
        omega
      · have hlt := hs.valid id' ref hbefore'
        omega
      · exact Option.mem_unique hid hid'
  next _ _ _ _ _ _ _ := trivial
  stable _ _ _ _ _ _ _ := trivial

theorem exitRun_wellFormed (turns : List (Turn ExitInput ExitCall)) : (exitRun cfg ports turns).state.WellFormed := by
  have hnew : (newExitRegistry cfg ports).WellFormed := ⟨nofun, nofun⟩
  exact (wellFormed_preserves.run (p := ⟨newExitRegistry cfg ports, []⟩) ⟨hnew, nofun⟩ turns).1

/-- The circuit is registered, or a call still has to close it, or it is shut. -/
def Settled (s : ExitRegistry) (ready : List ExitTask) : Prop :=
  ref < s.objects.length ∧
    (s.Registered ref ∨ (∃ u ∈ ready, ref ∈ u.removing) ∨ s.Holds ExitCircuit.IsShut ref)

theorem settled_carries : exitSections.Carries (fun s input t _ => Free s input t) (Settled ref) where
  perm s l l' hperm := by
    rintro ⟨hlt, h⟩
    refine ⟨hlt, h.imp_right fun h => h.imp_left ?_⟩
    rintro ⟨u, hu, hr⟩
    exact ⟨u, hperm.mem_iff.mp hu, hr⟩
  start s k l := by
    rintro ⟨hlt, h⟩
    refine ⟨hlt, h.imp_right fun h => h.imp_left ?_⟩
    rintro ⟨u, hu, hr⟩
    exact ⟨u, mem_cons_of_mem _ hu, hr⟩
  exec s input t l hfree := by
    rintro ⟨hlt, h⟩
    have hspec := exec_spec s input t
    have hnext : (∃ u ∈ (s.exec input t).2, ref ∈ u.removing) ∨ (s.exec input t).1.Holds ExitCircuit.IsShut ref →
        Settled ref (s.exec input t).1 ((s.exec input t).2 ++ l) := by
      intro h
      refine ⟨hspec.grows.lt hlt, Or.inr (h.imp_left ?_)⟩
      rintro ⟨u, hu, hr⟩
      exact ⟨u, mem_append_left _ hu, hr⟩
    rcases h with ⟨circuitID, hreg⟩ | ⟨u, hu, hr⟩ | hshut
    · rcases hspec.lookup circuitID ref hreg with hafter | hregisters | ⟨-, hremoved⟩
      · exact ⟨hspec.grows.lt hlt, Or.inl ⟨circuitID, hafter⟩⟩
      · rw [hfree circuitID hregisters] at hreg
        cases hreg
      · exact hnext hremoved
    · rcases mem_cons.mp hu with rfl | hu
      · exact hnext (hspec.removing ref hr hlt)
      · exact ⟨hspec.grows.lt hlt, Or.inr (Or.inl ⟨u, mem_append_right _ hu, hr⟩)⟩
    · exact hnext (Or.inr (hspec.grows.isShut hshut))

def OnlyTornDown (s : ExitRegistry) (input : ExitInput) (t : ExitTask) : Prop :=
  t.unlinks = true ∨ (s.Registered ref → (s.exec input t).1.Registered ref)

/-- The circuit is registered, or its teardown is still to come, or its key is wiped. -/
def Wiping (s : ExitRegistry) (ready : List ExitTask) : Prop :=
  ref < s.objects.length ∧ (s.Registered ref ∨ .tearDown ref ∈ ready ∨ s.Holds ExitCircuit.KeyWiped ref)

theorem wiping_carries : exitSections.Carries (fun s input t _ => OnlyTornDown ref s input t) (Wiping ref) where
  perm s l l' hperm h := ⟨h.1, h.2.imp_right fun h => h.imp_left hperm.mem_iff.mp⟩
  start s k l h := ⟨h.1, h.2.imp_right fun h => h.imp_left (mem_cons_of_mem _)⟩
  exec s input t l honly := by
    rintro ⟨hlt, h⟩
    have hspec := exec_spec s input t
    refine ⟨hspec.grows.lt hlt, ?_⟩
    rcases h with hreg | hu | hwiped
    · rcases honly with hunlink | hkeep
      · obtain ⟨circuitID, hlookup⟩ := hreg
        rcases hspec.unlink hunlink circuitID ref hlookup with hafter | hnext
        · exact Or.inl ⟨circuitID, hafter⟩
        · exact Or.inr (Or.inl (mem_append_left _ hnext))
      · exact Or.inl (hkeep hreg)
    · rcases mem_cons.mp hu with rfl | hu
      · exact Or.inr (Or.inr (hspec.tearDown ref rfl hlt))
      · exact Or.inr (Or.inl (mem_append_right _ hu))
    · exact Or.inr (Or.inr (hspec.grows.keyWiped hwiped))

/-! ### The exit as its chunk handlers see it -/

def node : ExitNode :=
  ⟨s.cfg, s.circuits.filterMapEntries (fun _ ref => s.objects[ref]?), s.closed⟩

theorem node_lookup (circuitID : Bytes) :
    s.node.circuits.lookup circuitID = (s.circuits.lookup circuitID).bind (fun ref => s.objects[ref]?) :=
  Map.lookup_filterMapEntries _ _ _

theorem WellFormed.cleanupCircuit {s : ExitRegistry} (h : s.WellFormed) (now : Time) (circuitID : Bytes) :
    (cleanupCircuit now s circuitID).WellFormed := by
  have hclean := cleanupCircuit_cleans s now circuitID
  refine ⟨fun id ref hid => hclean.grows.lt (h.valid id ref (hclean.lookup_of id ref hid)), fun id id' ref hid hid' => ?_⟩
  exact h.distinct id id' ref (hclean.lookup_of id ref hid) (hclean.lookup_of id' ref hid')

theorem cleanupCircuit_node {s : ExitRegistry} (h : s.WellFormed) (now : Time) (circuitID id : Bytes) :
    (cleanupCircuit now s circuitID).cfg = s.cfg ∧
      (cleanupCircuit now s circuitID).node.circuits.lookup id =
        if id = circuitID then (s.node.circuits.lookup id).bind (fun c => c.cleanup s.cfg.circuitCfg now)
        else s.node.circuits.lookup id := by
  unfold ExitRegistry.cleanupCircuit
  cases hlookup : s.circuits.lookup circuitID with
  | none =>
    refine ⟨rfl, ?_⟩
    split_ifs with hid
    · rw [node_lookup, hid, hlookup]
      rfl
    · rfl
  | some ref =>
    obtain ⟨c, hc⟩ : ∃ c, s.objects[ref]? = some c := ⟨_, List.getElem?_eq_getElem (h.valid circuitID ref hlookup)⟩
    -- Every other ID refers to another circuit.
    have hother : id ≠ circuitID → ∀ f, ((s.circuits.lookup id).bind fun r => (s.objects.modify ref f)[r]?) =
        (s.circuits.lookup id).bind fun r => s.objects[r]? := by
      intro hid f
      cases hr : s.circuits.lookup id with
      | none => rfl
      | some r =>
        have hne : ref ≠ r := fun he => hid (h.distinct id circuitID ref (he ▸ hr) hlookup)
        simp [hne]
    dsimp only
    rw [hc]
    dsimp only
    cases hclean : c.cleanup s.cfg.circuitCfg now with
    | none =>
      refine ⟨rfl, ?_⟩
      rw [node_lookup, node_lookup]
      by_cases hid : id = circuitID
      · subst hid
        simp [hlookup, hc, hclean]
      · rw [if_neg hid]
        rw [AList.lookup_erase_ne hid]
        exact hother hid _
    | some c' =>
      refine ⟨rfl, ?_⟩
      rw [node_lookup, node_lookup]
      by_cases hid : id = circuitID
      · subst hid
        simp [update, hlookup, hc, hclean]
      · rw [if_neg hid]
        exact hother hid _

theorem WellFormed.cleanupOrphans_node {s : ExitRegistry} (h : s.WellFormed) (now : Time) (circuitID : Bytes) :
    (s.cleanupOrphans now).node.circuits.lookup circuitID =
      (s.node.cleanupOrphans now).2.circuits.lookup circuitID := by
  have hfold : ∀ (keys : List Bytes) (s : ExitRegistry), keys.Nodup → s.WellFormed →
      (keys.foldl (ExitRegistry.cleanupCircuit now) s).node.circuits.lookup circuitID =
        if circuitID ∈ keys then (s.node.circuits.lookup circuitID).bind (fun c => c.cleanup s.cfg.circuitCfg now)
        else s.node.circuits.lookup circuitID := by
    intro keys
    induction keys with
    | nil => exact fun _ _ _ => rfl
    | cons k keys ih =>
      intro s hnodup hs
      obtain ⟨hk, hrest⟩ := nodup_cons.mp hnodup
      obtain ⟨hcfg, hround⟩ := cleanupCircuit_node hs now k circuitID
      rw [foldl_cons, ih _ hrest (hs.cleanupCircuit now k), hround, hcfg]
      by_cases hid : circuitID = k
      · subst hid
        simp [hk]
      · simp [hid]
  rw [ExitNode.cleanupOrphans_lookup]
  refine (hfold s.circuits.keys s s.circuits.keys_nodup h).trans ?_
  split_ifs with hmem
  · rfl
  · have hnone : s.circuits.lookup circuitID = none := AList.lookup_eq_none.mpr hmem
    rw [node_lookup, hnone]
    rfl

/-- In every run, `CleanupOrphans` does on the registry what it does in the model of the chunk handlers. -/
theorem exitRun_cleanupOrphans_node (turns : List (Turn ExitInput ExitCall)) (now : Time) (circuitID : Bytes) :
    ((exitRun cfg ports turns).state.cleanupOrphans now).node.circuits.lookup circuitID =
      ((exitRun cfg ports turns).state.node.cleanupOrphans now).2.circuits.lookup circuitID :=
  (exitRun_wellFormed cfg ports turns).cleanupOrphans_node now circuitID

end ExitRegistry

open ExitRegistry

/-- The registry under any schedule in which setups of one circuit ID do not overlap: no entry is replaced, and a
circuit that left the registry is shut as soon as no call has it in hand. Its key is wiped if a teardown took it. -/
theorem exit_registry_safe (cfg : ExitConfig) (ports : PortPolicy) (turns : List (Turn ExitInput ExitCall))
    (hapart : exitSections.Permits Apart ⟨newExitRegistry cfg ports, []⟩ turns)
    (before after : List (Turn ExitInput ExitCall)) (hturns : turns = before ++ after) (circuitID : Bytes) (ref : ℕ)
    (hreg : (exitRun cfg ports before).state.circuits.lookup circuitID = some ref) :
    (∀ turn ∈ after.head?, (exitRun cfg ports (before ++ [turn])).state.circuits.lookup circuitID = some ref ∨
      (exitRun cfg ports (before ++ [turn])).state.circuits.lookup circuitID = none) ∧
    (¬ (exitRun cfg ports turns).state.Registered ref →
      (∀ u ∈ (exitRun cfg ports turns).ready, ref ∉ u.removing) →
      (exitRun cfg ports turns).state.Holds ExitCircuit.IsShut ref ∧
        (exitSections.Allows (OnlyTornDown ref) (exitRun cfg ports before) after →
          (exitRun cfg ports turns).state.Holds ExitCircuit.KeyWiped ref)) := by
  subst hturns
  have hsplit := hapart.append
  have hpending : Pending (exitRun cfg ports before).state (exitRun cfg ports before).ready :=
    pending_carries.run hsplit.1 (pending_new cfg ports)
  have hfree : exitSections.Allows Free (exitRun cfg ports before) after := allows_free hsplit.2 hpending
  have hvalid : ref < (exitRun cfg ports before).state.objects.length :=
    (exitRun_wellFormed cfg ports before).valid circuitID ref hreg
  have hrun : ∀ more, exitRun cfg ports (before ++ more) = exitSections.run (exitRun cfg ports before) more :=
    fun more => exitSections.run_append _ before more
  refine ⟨fun turn hturn => ?_, fun hgone hidle => ⟨?_, fun honly => ?_⟩⟩
  · rw [hrun]
    obtain ⟨rest, rfl⟩ : ∃ rest, after = turn :: rest := by
      cases after with
      | nil => cases hturn
      | cons first rest => exact ⟨rest, by rw [Option.some.inj hturn]⟩
    change (exitSections.step _ turn).state.circuits.lookup circuitID = some ref ∨
      (exitSections.step _ turn).state.circuits.lookup circuitID = none
    cases turn with
    | call k => exact Or.inl hreg
    | exec i input =>
      cases ht : (exitRun cfg ports before).ready[i]? with
      | none =>
        rw [exitSections.step_exec_none ht]
        exact Or.inl hreg
      | some t =>
        rw [exitSections.step_exec_some ht]
        rcases (exec_spec _ input t).lookup circuitID ref hreg with hafter | hregisters | ⟨hnone, -⟩
        · exact Or.inl hafter
        · rw [hfree.1 t ht circuitID hregisters] at hreg
          cases hreg
        · exact Or.inr hnone
  · rw [hrun] at hgone hidle ⊢
    have hsettled := (settled_carries ref).run hfree.permits ⟨hvalid, Or.inl ⟨circuitID, hreg⟩⟩
    rcases hsettled.2 with h | ⟨u, hu, hr⟩ | hshut
    · exact absurd h hgone
    · exact absurd hr (hidle u hu)
    · exact hshut
  · rw [hrun] at hgone hidle ⊢
    have hwiping := (wiping_carries ref).run honly.permits ⟨hvalid, Or.inl ⟨circuitID, hreg⟩⟩
    rcases hwiping.2 with h | hu | hwiped
    · exact absurd h hgone
    · exact absurd (mem_singleton_self ref) (hidle _ hu)
    · exact hwiped

def plainEnv : SetupEnv where
  splitHostPort := portOnly
  quote := id
  generateECDHKeyPair := .ok ⟨List.replicate 32 9, List.replicate 32 9, rfl⟩
  deriveSharedKey _ _ := .ok [7, 7]
  dial _ := .ok ()

def plainInput : ExitInput := ⟨0, plainEnv⟩

def plainConfig : ExitConfig := ⟨defaultCircuitConfig, defaultChunkerConfig⟩

def anyPort : PortPolicy := ⟨true, []⟩

def plainSetup : CircuitSetup := ⟨List.replicate 16 1, List.replicate 32 2, [104]⟩

def setupTurns : List (Turn ExitInput ExitCall) :=
  [.call (.handleCircuitSetup plainSetup), .exec 0 plainInput, .exec 0 plainInput, .exec 0 plainInput]

def teardownTurns : List (Turn ExitInput ExitCall) :=
  [.call (.handleTeardown ⟨plainSetup.circuitID, []⟩), .exec 1 plainInput, .exec 1 plainInput]

theorem exit_registry_safe_teardown :
    (exitRun plainConfig anyPort (setupTurns ++ teardownTurns)).state.Holds ExitCircuit.IsShut 0 ∧
      (exitRun plainConfig anyPort (setupTurns ++ teardownTurns)).state.Holds ExitCircuit.KeyWiped 0 := by
  have hempty : (exitRun plainConfig anyPort (setupTurns ++ teardownTurns)).state.circuits = ∅ := rfl
  have hsafe := exit_registry_safe plainConfig anyPort (setupTurns ++ teardownTurns) (by decide) setupTurns
    teardownTurns rfl plainSetup.circuitID 0 rfl
  have hend := hsafe.2 (fun ⟨id, h⟩ => by rw [hempty, AList.lookup_empty] at h; cases h) (by decide)
  refine ⟨hend.1, hend.2 ⟨fun t ht => ?_, fun t ht => ?_, trivial⟩⟩
  · obtain rfl : ExitTask.unlink plainSetup.circuitID = t := Option.some.inj ht
    exact Or.inl rfl
  · obtain rfl : ExitTask.tearDown 0 = t := Option.some.inj ht
    exact Or.inr id

/-- Two setups with one circuit ID: both find it free, and both register. -/
def overlappingTurns : List (Turn ExitInput ExitCall) :=
  [.call (.handleCircuitSetup plainSetup), .call (.handleCircuitSetup plainSetup), .exec 0 plainInput,
    .exec 0 plainInput, .exec 0 plainInput, .exec 0 plainInput, .exec 0 plainInput, .exec 0 plainInput]

def closeTurns : List (Turn ExitInput ExitCall) :=
  [.call .close, .exec 1 plainInput, .exec 1 plainInput, .exec 1 plainInput]

/-- The second of two overlapping setups replaces the circuit of the first, whose connection stays open; and
`Close` leaves the key of the circuit it removes. -/
theorem exit_registry_leaks :
    (exitRun plainConfig anyPort (overlappingTurns.take 7)).state.circuits.lookup plainSetup.circuitID = some 0 ∧
      (exitRun plainConfig anyPort overlappingTurns).state.circuits.lookup plainSetup.circuitID = some 1 ∧
      (exitRun plainConfig anyPort overlappingTurns).ready.flatMap ExitTask.removing = [] ∧
      (exitRun plainConfig anyPort overlappingTurns).state.objects.map (fun c => (c.targetClosed, c.e2eKey)) =
        [(false, [7, 7]), (false, [7, 7])] ∧
      (exitRun plainConfig anyPort (setupTurns ++ closeTurns)).state.circuits = ∅ ∧
      (exitRun plainConfig anyPort (setupTurns ++ closeTurns)).ready.flatMap ExitTask.removing = [] ∧
      (exitRun plainConfig anyPort (setupTurns ++ closeTurns)).state.objects.map (fun c => (c.targetClosed, c.e2eKey)) =
        [(true, [7, 7])] :=
  ⟨rfl, rfl, rfl, rfl, rfl, rfl, rfl⟩

end MeshDesk.Proxy
