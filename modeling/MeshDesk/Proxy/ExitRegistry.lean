import MeshDesk.Lib.Interleaving
import MeshDesk.Proxy.ExitSetup

/-! The registry of circuits on the exit, with its calls as chains of critical sections. A circuit that was
removed is still reached by the call that removed it. -/
namespace MeshDesk.Proxy
open Lib Control ExitCircuit
open List

namespace ExitCircuit

variable (c : ExitCircuit)

/-- The end of a circuit in `Close` and `CleanupOrphans`: the key stays. -/
def shut : ExitCircuit := { c with state := .closed, targetClosed := true }

def tearDown : ExitCircuit := { c with state := .closed, targetClosed := true, e2eKey := [] }

def IsShut : Prop := c.targetClosed = true ∧ c.state = .closed

def KeyWiped : Prop := c.e2eKey = []

instance (c : ExitCircuit) : Decidable c.IsShut := inferInstanceAs (Decidable (_ ∧ _))

instance (c : ExitCircuit) : Decidable c.KeyWiped := inferInstanceAs (Decidable (_ = _))

end ExitCircuit

/-- `objects` holds every circuit that was ever created, in this order; `circuits` refers to them by position. -/
structure ExitRegistry where
  cfg : ExitConfig
  ports : PortPolicy
  objects : List ExitCircuit
  circuits : Map Bytes ℕ
  closed : Bool

def newExitRegistry (cfg : ExitConfig) (ports : PortPolicy) : ExitRegistry := ⟨cfg, ports, [], ∅, false⟩

inductive ExitResult where
  | ok
  | acked (ack : Control.CircuitAck)
  | failed (e : SetupError)
  | notFound
  | removed (count : ℕ)
  deriving DecidableEq, Repr

/-- The critical sections, each with what the call has found out so far. -/
inductive ExitTask where
  | checkOpen (setup : CircuitSetup)
  | checkDuplicate (setup : CircuitSetup)
  | register (setup : CircuitSetup) (keys : ECDHKeyPair) (e2eKey : Bytes)
  | unlink (circuitID : Bytes)
  | tearDown (ref : ℕ)
  | closeRegistry
  | closeCircuits (refs : List ℕ)
  | cleanupOrphans
  | done (result : ExitResult)

structure ExitInput where
  now : Time
  env : SetupEnv

namespace ExitRegistry

variable (s : ExitRegistry) (now : Time)

def update (ref : ℕ) (f : ExitCircuit → ExitCircuit) : ExitRegistry :=
  { s with objects := s.objects.modify ref f }

def checkOpen (setup : CircuitSetup) : ExitTask :=
  if s.closed then .done (.failed .circuitClosed)
  else
    match checkSetup setup with
    | .error e => .done (.failed e)
    | .ok () => .checkDuplicate setup

def checkDuplicate (env : SetupEnv) (setup : CircuitSetup) : ExitTask :=
  if (s.circuits.lookup setup.circuitID).isSome then .done (.failed (.alreadyExists setup.circuitID))
  else
    match prepareCircuit s.ports env setup with
    | .error e => .done (.failed e)
    | .ok (.refused ack) => .done (.acked ack)
    | .ok (.ready keys e2eKey) => .register setup keys e2eKey

/-- The last section of `HandleCircuitSetup`. The circuit of a closed exit is dropped and its connection closed. -/
def register (setup : CircuitSetup) (keys : ECDHKeyPair) (e2eKey : Bytes) : ExitRegistry × List ExitTask :=
  let circuit := newExitCircuit setup.circuitID e2eKey s.cfg.chunkerCfg now
  if s.closed then
    ({ s with objects := s.objects ++ [{ circuit with targetClosed := true }] }, [.done (.failed .circuitClosed)])
  else
    ({ s with objects := s.objects ++ [circuit], circuits := s.circuits.insert setup.circuitID s.objects.length },
      [.done (.acked ⟨setup.circuitID, keys.publicKey, true, []⟩)])

def unlink (circuitID : Bytes) : ExitRegistry × List ExitTask :=
  match s.circuits.lookup circuitID with
  | none => (s, [.done .notFound])
  | some ref => ({ s with circuits := s.circuits.erase circuitID }, [.tearDown ref])

def cleanupCircuit (s : ExitRegistry) (circuitID : Bytes) : ExitRegistry :=
  match s.circuits.lookup circuitID with
  | none => s
  | some ref =>
    match s.objects[ref]? with
    | none => s
    | some c =>
      match c.cleanup s.cfg.circuitCfg now with
      | none => { s.update ref ExitCircuit.shut with circuits := s.circuits.erase circuitID }
      | some c' => s.update ref (fun _ => c')

def cleanupOrphans : ExitRegistry := s.circuits.keys.foldl (cleanupCircuit now) s

/-- Run a section. What a call does outside its sections is part of the section before. -/
def exec (input : ExitInput) : ExitTask → ExitRegistry × List ExitTask
  | .checkOpen setup => (s, [s.checkOpen setup])
  | .checkDuplicate setup => (s, [s.checkDuplicate input.env setup])
  | .register setup keys e2eKey => s.register input.now setup keys e2eKey
  | .unlink circuitID => s.unlink circuitID
  | .tearDown ref => (s.update ref ExitCircuit.tearDown, [.done .ok])
  | .closeRegistry =>
    ({ s with closed := true, circuits := ∅ }, [.closeCircuits (s.circuits.entries.map (fun e => e.2))])
  | .closeCircuits [] => (s, [.done .ok])
  | .closeCircuits (ref :: refs) => (s.update ref ExitCircuit.shut, [.closeCircuits refs])
  | .cleanupOrphans =>
    let s' := s.cleanupOrphans input.now
    (s', [.done (.removed (s.circuits.size - s'.circuits.size))])
  | .done _ => (s, [])

end ExitRegistry

inductive ExitCall where
  | handleCircuitSetup (setup : CircuitSetup)
  | handleTeardown (td : TeardownMsg)
  | cleanupOrphans
  | close
  deriving DecidableEq, Repr

def ExitCall.start : ExitCall → ExitTask
  | .handleCircuitSetup setup => .checkOpen setup
  | .handleTeardown td => .unlink td.circuitID
  | .cleanupOrphans => .cleanupOrphans
  | .close => .closeRegistry

def exitSections : Sections ExitRegistry ExitInput ExitCall ExitTask := ⟨ExitCall.start, ExitRegistry.exec⟩

def exitRun (cfg : ExitConfig) (ports : PortPolicy) (turns : List (Turn ExitInput ExitCall)) :
    Pool ExitRegistry ExitTask :=
  exitSections.run ⟨newExitRegistry cfg ports, []⟩ turns

namespace ExitTask

def checks : ExitTask → Option Bytes
  | .checkDuplicate setup => some setup.circuitID
  | _ => none

def registers : ExitTask → Option Bytes
  | .register setup _ _ => some setup.circuitID
  | _ => none

/-- The removed circuits that the section and its successors still have to close. -/
def removing : ExitTask → List ℕ
  | .tearDown ref => [ref]
  | .closeCircuits refs => refs
  | _ => []

theorem checks_of_registers {t : ExitTask} {circuitID : Bytes} (h : t.registers = some circuitID) :
    t.checks = none := by
  cases t with
  | checkDuplicate setup => cases h
  | _ => rfl

def unlinks : ExitTask → Bool
  | .unlink _ => true
  | _ => false

end ExitTask

/-! ### What a section does to the circuits -/

namespace ExitCircuit

/-- A circuit that was shut stays so, and a key that was wiped. -/
structure Onward (c c' : ExitCircuit) : Prop where
  isShut : c.IsShut → c'.IsShut
  keyWiped : c.KeyWiped → c'.KeyWiped

variable (c : ExitCircuit)

theorem Onward.refl : c.Onward c := ⟨id, id⟩

theorem Onward.trans {a b c : ExitCircuit} (h : a.Onward b) (h' : b.Onward c) : a.Onward c :=
  ⟨h'.isShut ∘ h.isShut, h'.keyWiped ∘ h.keyWiped⟩

theorem shut_isShut : c.shut.IsShut := ⟨rfl, rfl⟩

theorem tearDown_isShut : c.tearDown.IsShut := ⟨rfl, rfl⟩

theorem onward_shut : c.Onward c.shut := ⟨fun _ => c.shut_isShut, id⟩

theorem onward_tearDown : c.Onward c.tearDown := ⟨fun _ => c.tearDown_isShut, fun _ => rfl⟩

theorem onward_expireTimer (cfg : CircuitConfig) (now : Time) (c : ExitCircuit)
    (timer : Sigma fun _ : UInt32 => Time) : c.Onward (expireTimer cfg now c timer) := by
  unfold expireTimer
  by_cases h : cfg.streamTimeout < Time.sub now timer.2
  · rw [if_pos h]
    exact ⟨id, id⟩
  · rw [if_neg h]
    exact .refl c

theorem onward_cleanup {cfg : CircuitConfig} {now : Time} {c c' : ExitCircuit} (h : c.cleanup cfg now = some c') :
    c.Onward c' := by
  have hfold : ∀ (timers : List (Sigma fun _ : UInt32 => Time)) (c : ExitCircuit),
      c.Onward (timers.foldl (expireTimer cfg now) c) := by
    intro timers
    induction timers with
    | nil => exact fun c => .refl c
    | cons timer timers ih => exact fun c => (onward_expireTimer cfg now c timer).trans (ih _)
  unfold cleanup at h
  split_ifs at h
  obtain rfl := Option.some.inj h
  exact hfold _ c

end ExitCircuit

namespace ExitRegistry
variable {s s' : ExitRegistry} {ref : ℕ}

def Holds (s : ExitRegistry) (P : ExitCircuit → Prop) (ref : ℕ) : Prop := ∃ c, s.objects[ref]? = some c ∧ P c

def Registered (s : ExitRegistry) (ref : ℕ) : Prop := ∃ circuitID, s.circuits.lookup circuitID = some ref

/-- No circuit disappears, and each one only moves on. -/
def Grows (s s' : ExitRegistry) : Prop :=
  ∀ (ref : ℕ) (c : ExitCircuit), s.objects[ref]? = some c → ∃ c', s'.objects[ref]? = some c' ∧ c.Onward c'

theorem Grows.refl (s : ExitRegistry) : s.Grows s := fun _ c h => ⟨c, h, .refl c⟩

theorem Grows.trans {a b c : ExitRegistry} (h : a.Grows b) (h' : b.Grows c) : a.Grows c := by
  intro ref x hx
  obtain ⟨y, hy, hxy⟩ := h ref x hx
  obtain ⟨z, hz, hyz⟩ := h' ref y hy
  exact ⟨z, hz, hxy.trans hyz⟩

theorem Grows.isShut (h : s.Grows s') (hs : s.Holds IsShut ref) : s'.Holds IsShut ref := by
  obtain ⟨c, hc, hshut⟩ := hs
  obtain ⟨c', hc', hon⟩ := h ref c hc
  exact ⟨c', hc', hon.isShut hshut⟩

theorem Grows.keyWiped (h : s.Grows s') (hs : s.Holds KeyWiped ref) :
    s'.Holds KeyWiped ref := by
  obtain ⟨c, hc, hwiped⟩ := hs
  obtain ⟨c', hc', hon⟩ := h ref c hc
  exact ⟨c', hc', hon.keyWiped hwiped⟩

theorem Grows.lt (h : s.Grows s') (hs : ref < s.objects.length) : ref < s'.objects.length := by
  obtain ⟨c', hc', -⟩ := h ref _ (List.getElem?_eq_getElem hs)
  exact (List.getElem?_eq_some_iff.mp hc').1

variable {f : ExitCircuit → ExitCircuit} {t : ExitTask}

theorem update_holds {P : ExitCircuit → Prop} (hlt : ref < s.objects.length)
    (hf : ∀ c, P (f c)) : (s.update ref f).Holds P ref := by
  refine ⟨f (s.objects.get ⟨ref, hlt⟩), ?_, hf _⟩
  simp [update, List.getElem?_eq_getElem hlt]

theorem grows_update (h : ∀ c, s.objects[ref]? = some c → c.Onward (f c)) :
    s.Grows (s.update ref f) := by
  intro i c hc
  by_cases hi : ref = i
  · subst hi
    exact ⟨f c, by simp [update, hc], h c hc⟩
  · exact ⟨c, by simp [update, hi, hc], .refl c⟩

theorem grows_append (s : ExitRegistry) (c : ExitCircuit) (circuits : Map Bytes ℕ) :
    s.Grows { s with objects := s.objects ++ [c], circuits := circuits } := by
  intro i d hd
  have hlt := (List.getElem?_eq_some_iff.mp hd).1
  exact ⟨d, (getElem?_append_left hlt).trans hd, .refl d⟩

/-- What a cleanup does: it only removes circuits, and those it removes it shuts. -/
structure Cleans (s s' : ExitRegistry) : Prop where
  grows : s.Grows s'
  lookup_of : ∀ circuitID ref, s'.circuits.lookup circuitID = some ref → s.circuits.lookup circuitID = some ref
  lookup : ∀ circuitID ref, s.circuits.lookup circuitID = some ref →
    s'.circuits.lookup circuitID = some ref ∨ s'.Holds ExitCircuit.IsShut ref

theorem Cleans.refl (s : ExitRegistry) : s.Cleans s := ⟨.refl s, fun _ _ => id, fun _ _ => Or.inl⟩

theorem Cleans.trans {a b c : ExitRegistry} (h : a.Cleans b) (h' : b.Cleans c) : a.Cleans c where
  grows := h.grows.trans h'.grows
  lookup_of circuitID ref hc := h.lookup_of circuitID ref (h'.lookup_of circuitID ref hc)
  lookup circuitID ref ha := by
    rcases h.lookup circuitID ref ha with hb | hb
    · exact h'.lookup circuitID ref hb
    · exact Or.inr (h'.grows.isShut hb)

theorem cleanupCircuit_cleans (s : ExitRegistry) (now : Time) (circuitID : Bytes) :
    s.Cleans (cleanupCircuit now s circuitID) := by
  unfold cleanupCircuit
  cases hlookup : s.circuits.lookup circuitID with
  | none => exact .refl s
  | some ref =>
    dsimp only
    cases hc : s.objects[ref]? with
    | none => exact .refl s
    | some c =>
      dsimp only
      cases hclean : c.cleanup s.cfg.circuitCfg now with
      | some c' =>
        refine ⟨grows_update fun d hd => ?_, fun _ _ => id, fun _ _ => Or.inl⟩
        obtain rfl : c = d := Option.mem_unique hc hd
        exact onward_cleanup hclean
      | none =>
        have hgrows : s.Grows (s.update ref shut) := grows_update fun d _ => d.onward_shut
        refine ⟨hgrows, fun k r h => (Map.lookup_of_erase h).2, fun k r h => ?_⟩
        by_cases hk : k = circuitID
        · subst hk
          obtain rfl : ref = r := Option.mem_unique hlookup h
          right
          exact update_holds (List.getElem?_eq_some_iff.mp hc).1 shut_isShut
        · left
          exact (AList.lookup_erase_ne hk).trans h

theorem cleanupOrphans_cleans (s : ExitRegistry) (now : Time) : s.Cleans (s.cleanupOrphans now) := by
  have hfold : ∀ (keys : List Bytes) (s : ExitRegistry), s.Cleans (keys.foldl (cleanupCircuit now) s) := by
    intro keys
    induction keys with
    | nil => exact fun s => .refl s
    | cons k keys ih => exact fun s => (cleanupCircuit_cleans s now k).trans (ih _)
  exact hfold _ s

/-- Everything a section does to the registry and to the circuits, and the sections that follow. -/
structure SectionSpec (s : ExitRegistry) (t : ExitTask) (s' : ExitRegistry) (next : List ExitTask) : Prop where
  grows : s.Grows s'
  lookup_of : ∀ circuitID ref, s'.circuits.lookup circuitID = some ref →
    s.circuits.lookup circuitID = some ref ∨
      t.registers = some circuitID ∧ s.objects.length ≤ ref ∧ ref < s'.objects.length
  lookup : ∀ circuitID ref, s.circuits.lookup circuitID = some ref →
    s'.circuits.lookup circuitID = some ref ∨ t.registers = some circuitID ∨
      s'.circuits.lookup circuitID = none ∧ ((∃ u ∈ next, ref ∈ u.removing) ∨ s'.Holds ExitCircuit.IsShut ref)
  unlink : t.unlinks = true → ∀ circuitID ref, s.circuits.lookup circuitID = some ref →
    s'.circuits.lookup circuitID = some ref ∨ .tearDown ref ∈ next
  removing : ∀ ref ∈ t.removing, ref < s.objects.length →
    (∃ u ∈ next, ref ∈ u.removing) ∨ s'.Holds ExitCircuit.IsShut ref
  tearDown : ∀ ref, t = .tearDown ref → ref < s.objects.length → s'.Holds ExitCircuit.KeyWiped ref
  registers : next.filterMap ExitTask.registers = [] ∨ ∃ circuitID, t.checks = some circuitID ∧
    s.circuits.lookup circuitID = none ∧ next.filterMap ExitTask.registers = [circuitID]

/-- A section that has no removed circuit in hand and is not one of a teardown: what it does to the registry is all. -/
theorem SectionSpec.plain {next : List ExitTask} (hremoving : t.removing = [])
    (hunlinks : t.unlinks = false) (hgrows : s.Grows s')
    (hof : ∀ circuitID ref, s'.circuits.lookup circuitID = some ref →
      s.circuits.lookup circuitID = some ref ∨
      t.registers = some circuitID ∧ s.objects.length ≤ ref ∧ ref < s'.objects.length)
    (hlookup : ∀ circuitID ref, s.circuits.lookup circuitID = some ref →
      s'.circuits.lookup circuitID = some ref ∨ t.registers = some circuitID ∨
        s'.circuits.lookup circuitID = none ∧ ((∃ u ∈ next, ref ∈ u.removing) ∨ s'.Holds IsShut ref))
    (hregisters : next.filterMap ExitTask.registers = [] ∨ ∃ circuitID, t.checks = some circuitID ∧
      s.circuits.lookup circuitID = none ∧ next.filterMap ExitTask.registers = [circuitID]) :
    SectionSpec s t s' next where
  grows := hgrows
  lookup_of := hof
  lookup := hlookup
  unlink h := by
    rw [hunlinks] at h
    cases h
  removing ref href := by
    rw [hremoving] at href
    cases href
  tearDown ref ht := by
    subst ht
    cases hremoving
  registers := hregisters

theorem SectionSpec.idle {next : List ExitTask} (hremoving : t.removing = [])
    (hunlinks : t.unlinks = false) (hnext : next.filterMap ExitTask.registers = []) : SectionSpec s t s next :=
  .plain hremoving hunlinks (.refl s) (fun _ _ => Or.inl) (fun _ _ => Or.inl) (Or.inl hnext)

theorem checkOpen_registers (s : ExitRegistry) (setup : CircuitSetup) : (s.checkOpen setup).registers = none := by
  unfold checkOpen
  split_ifs
  · rfl
  · cases checkSetup setup with
    | error | ok => rfl

theorem checkDuplicate_registers (s : ExitRegistry) (env : SetupEnv) (setup : CircuitSetup) :
    (s.checkDuplicate env setup).registers = none ∨
      s.circuits.lookup setup.circuitID = none ∧ (s.checkDuplicate env setup).registers = some setup.circuitID := by
  unfold checkDuplicate
  split_ifs with hsome
  · exact Or.inl rfl
  · cases prepareCircuit s.ports env setup with
    | error e => exact Or.inl rfl
    | ok prepared =>
      cases prepared with
      | refused ack => exact Or.inl rfl
      | ready keys e2eKey => exact Or.inr ⟨Option.not_isSome_iff_eq_none.mp hsome, rfl⟩

theorem checkDuplicate_spec (s : ExitRegistry) (env : SetupEnv) (setup : CircuitSetup) :
    SectionSpec s (.checkDuplicate setup) s [s.checkDuplicate env setup] := by
  refine .plain rfl rfl (.refl s) (fun _ _ => Or.inl) (fun _ _ => Or.inl) ?_
  rcases checkDuplicate_registers s env setup with h | ⟨hnone, h⟩
  · exact Or.inl (by simp [h])
  · exact Or.inr ⟨setup.circuitID, rfl, hnone, by simp [h]⟩

theorem register_spec (s : ExitRegistry) (now : Time) (setup : CircuitSetup) (keys : ECDHKeyPair) (e2eKey : Bytes) :
    SectionSpec s (.register setup keys e2eKey) (s.register now setup keys e2eKey).1
      (s.register now setup keys e2eKey).2 := by
  unfold register
  split_ifs with hclosed
  · exact .plain rfl rfl (s.grows_append _ s.circuits) (fun _ _ => Or.inl) (fun _ _ => Or.inl) (Or.inl rfl)
  · refine .plain rfl rfl (s.grows_append _ _) (fun k r h => ?_) (fun k r h => ?_) (Or.inl rfl)
    · obtain ⟨rfl, rfl⟩ | ⟨-, hold⟩ := Map.lookup_of_insert h
      · exact Or.inr ⟨rfl, le_rfl, by simp⟩
      · exact Or.inl hold
    · by_cases hk : k = setup.circuitID
      · exact Or.inr (Or.inl (congrArg some hk.symm))
      · exact Or.inl ((AList.lookup_insert_ne hk).trans h)

theorem unlink_spec (s : ExitRegistry) (circuitID : Bytes) :
    SectionSpec s (.unlink circuitID) (s.unlink circuitID).1 (s.unlink circuitID).2 := by
  unfold unlink
  cases hlookup : s.circuits.lookup circuitID with
  | none =>
    refine ⟨.refl s, fun _ _ => Or.inl, fun _ _ => Or.inl, fun _ _ _ => Or.inl, fun _ h => ?_, fun _ h => ?_,
      Or.inl rfl⟩
    · cases h
    · cases h
  | some ref =>
    -- Only the entry of this circuit goes, and its reference passes to the second section.
    have hentry : ∀ k r, s.circuits.lookup k = some r →
        (s.circuits.erase circuitID).lookup k = some r ∨ k = circuitID ∧ r = ref := by
      intro k r h
      by_cases hk : k = circuitID
      · subst hk
        exact Or.inr ⟨rfl, Option.mem_unique h hlookup⟩
      · exact Or.inl ((AList.lookup_erase_ne hk).trans h)
    refine ⟨.refl _, fun k r h => Or.inl (Map.lookup_of_erase h).2, fun k r h => ?_, fun _ k r h => ?_, fun _ h => ?_,
      fun _ h => ?_, Or.inl rfl⟩
    · rcases hentry k r h with h | ⟨rfl, rfl⟩
      · exact Or.inl h
      · refine Or.inr (Or.inr ⟨AList.lookup_erase _ _, Or.inl ?_⟩)
        exact ⟨.tearDown r, mem_singleton_self _, mem_singleton_self _⟩
    · rcases hentry k r h with h | ⟨rfl, rfl⟩
      · exact Or.inl h
      · exact Or.inr (mem_singleton_self _)
    · cases h
    · cases h

theorem closeRegistry_spec (s : ExitRegistry) (input : ExitInput) :
    SectionSpec s .closeRegistry (s.exec input .closeRegistry).1 (s.exec input .closeRegistry).2 := by
  refine .plain rfl rfl (.refl _) nofun (fun k r h => ?_) (Or.inl rfl)
  refine Or.inr (Or.inr ⟨rfl, Or.inl ⟨_, mem_singleton_self _, ?_⟩⟩)
  exact mem_map.mpr ⟨⟨k, r⟩, Map.mem_entries_iff.mpr h, rfl⟩

theorem update_spec {u : ExitTask} (hf : ∀ c : ExitCircuit, c.Onward (f c))
    (hshut : ∀ c, (f c).IsShut) (hremoving : ∀ r ∈ t.removing, r = ref ∨ r ∈ u.removing)
    (hkey : ∀ r, t = .tearDown r → r = ref ∧ ∀ c, (f c).KeyWiped) (hu : u.registers = none) :
    SectionSpec s t (s.update ref f) [u] where
  grows := grows_update fun c _ => hf c
  lookup_of _ _ := Or.inl
  lookup _ _ := Or.inl
  unlink _ _ _ := Or.inl
  removing r hr hlt := by
    rcases hremoving r hr with rfl | hu'
    · exact Or.inr (update_holds hlt hshut)
    · exact Or.inl ⟨u, mem_singleton_self _, hu'⟩
  tearDown r ht hlt := by
    obtain ⟨rfl, hwiped⟩ := hkey r ht
    exact update_holds hlt hwiped
  registers := Or.inl (by simp [hu])

theorem cleanupOrphans_spec (s : ExitRegistry) (input : ExitInput) :
    SectionSpec s .cleanupOrphans (s.exec input .cleanupOrphans).1 (s.exec input .cleanupOrphans).2 := by
  have hclean := cleanupOrphans_cleans s input.now
  refine .plain rfl rfl hclean.grows (fun k r h => Or.inl (hclean.lookup_of k r h)) (fun k r h => ?_) (Or.inl rfl)
  rcases hclean.lookup k r h with h' | h'
  · exact Or.inl h'
  · cases hafter : (s.cleanupOrphans input.now).circuits.lookup k with
    | none => exact Or.inr (Or.inr ⟨hafter, Or.inr h'⟩)
    | some r' =>
      obtain rfl : r = r' := Option.mem_unique h (hclean.lookup_of k r' hafter)
      exact Or.inl hafter

theorem exec_spec (s : ExitRegistry) (input : ExitInput) (t : ExitTask) :
    SectionSpec s t (s.exec input t).1 (s.exec input t).2 := by
  cases t with
  | checkOpen setup => exact .idle rfl rfl (filterMap_cons_none (checkOpen_registers s setup))
  | checkDuplicate setup => exact checkDuplicate_spec s input.env setup
  | register setup keys e2eKey => exact register_spec s input.now setup keys e2eKey
  | unlink circuitID => exact unlink_spec s circuitID
  | tearDown ref =>
    refine update_spec onward_tearDown tearDown_isShut (fun r hr => ?_)
      (fun r hr => ?_) rfl
    · exact Or.inl (mem_singleton.mp hr)
    · exact ⟨(ExitTask.tearDown.inj hr).symm, fun _ => rfl⟩
  | closeRegistry => exact closeRegistry_spec s input
  | closeCircuits refs =>
    cases refs with
    | nil => exact .idle rfl rfl rfl
    | cons ref refs =>
      exact update_spec onward_shut shut_isShut (fun r hr => mem_cons.mp hr)
        nofun rfl
  | cleanupOrphans => exact cleanupOrphans_spec s input
  | done result => exact .idle rfl rfl rfl

end ExitRegistry
end MeshDesk.Proxy
