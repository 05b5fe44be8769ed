import MeshDesk.Proxy.CircuitManager

/-! Lifecycle invariants of the circuit manager. Every section is described by what it does to the
circuit objects, which only move forward; the maps and counters follow from that. -/
namespace MeshDesk.Proxy
open Lib List AList Option

namespace Circuit

variable (c : Circuit)

/-- Every key of the circuit consists of zero bytes, those of the relays included. -/
def AllKeysZero : Prop :=
  (∀ b ∈ c.e2eKey, b = 0) ∧ (∀ b ∈ c.paddingSeed, b = 0) ∧
    ∀ i p, c.paths i = some p → ∀ key ∈ p.relayKeys, ∀ b ∈ key, b = 0

/-- How an object may change: the state moves forward and zeroed keys stay zeroed. -/
structure Later (c c' : Circuit) : Prop where
  state : c.state.code ≤ c'.state.code
  exit : c'.exit = c.exit
  zeroed : c.AllKeysZero → c'.AllKeysZero

theorem Later.refl : c.Later c := ⟨le_rfl, rfl, id⟩

theorem Later.trans {a b c : Circuit} (h : a.Later b) (h' : b.Later c) : a.Later c :=
  ⟨h.state.trans h'.state, h'.exit.trans h.exit, h'.zeroed ∘ h.zeroed⟩

theorem forall_mem_zeroBytes (bs : Bytes) : ∀ b ∈ zeroBytes bs, b = 0 := forall_mem_map.mpr fun _ _ => rfl

theorem zeroKeys_allKeysZero : c.zeroKeys.AllKeysZero := by
  refine ⟨forall_mem_zeroBytes _, forall_mem_zeroBytes _, fun i p hp => ?_⟩
  obtain ⟨q, hq, rfl⟩ := map_eq_some_iff.mp hp
  exact forall_mem_map.mpr fun _ _ => forall_mem_zeroBytes _

theorem zeroKeys_later : c.Later c.zeroKeys :=
  ⟨le_rfl, rfl, fun _ => c.zeroKeys_allKeysZero⟩

theorem later_setState {s : CircuitState} (h : c.state.code ≤ s.code) : c.Later { c with state := s } := ⟨h, rfl, id⟩

theorem code_le_closed (s : CircuitState) : s.code ≤ CircuitState.code .closed := by
  cases s <;> decide

theorem beginTeardown_later (cid : CircuitIDType) (reason closeReason : String) :
    c.Later (c.beginTeardown cid reason closeReason).1 := by
  unfold beginTeardown
  split_ifs with h
  · exact .refl c
  · apply later_setState
    cases hs : c.state with
    | creating | active | teardown => decide
    | closed => exact absurd (Or.inl hs) h

theorem handleCircuitAck_later (now : Time) (cid : CircuitIDType) (ack : CircuitAck) :
    c.Later (c.handleCircuitAck now cid ack).1 := by
  unfold handleCircuitAck
  split_ifs with hs ha
  · exact .refl c
  · exact later_setState c (code_le_closed _)
  · have hcreating : c.state = .creating := not_not.mp hs
    refine ⟨?_, rfl, fun hz => ⟨hz.1, hz.2.1, ?_⟩⟩
    · rw [hcreating]
      exact show CircuitState.code .creating ≤ CircuitState.code .active by decide
    · -- The paths keep their keys: only the health fields are reset.
      intro i p hp
      obtain ⟨q, hq, hqp⟩ := map_eq_some_iff.mp hp
      rw [← hqp]
      exact hz.2.2 i q hq

theorem handle_later (now : Time) (cid : CircuitIDType) (h : Handler) : c.Later (c.handle now cid h).1 := by
  cases h with
  | ack msg => exact c.handleCircuitAck_later now cid msg
  | setupTimeout =>
    change c.Later (c.handleSetupTimeout cid).1
    unfold handleSetupTimeout
    split_ifs
    · exact .refl c
    · exact later_setState c (code_le_closed _)
  | teardown reason | exitTeardown reason => exact c.beginTeardown_later cid reason _
  | close reason => exact later_setState c (code_le_closed _)

end Circuit

def Task.Ready (m : CircuitManager) : Task → Prop
  | .handle cid _ => (m.objects.lookup cid).isSome
  | .zeroKeys cid _ _ => (m.objects.lookup cid).isSome
  | .remove cid _ _ => ∃ c, m.objects.lookup cid = some c ∧ c.AllKeysZero
  | .emit _ next => next.Ready m
  | _ => True

theorem Circuit.handle_ready {m : CircuitManager} {cid : CircuitIDType}
    (hm : (m.objects.lookup cid).isSome) (c : Circuit) (now : Time) (h : Handler) :
    (c.handle now cid h).2.Ready m := by
  cases h with
  | ack msg =>
    change (c.handleCircuitAck now cid msg).2.Ready m
    unfold Circuit.handleCircuitAck
    split_ifs
    · trivial
    · exact hm
    · trivial
  | setupTimeout =>
    change (c.handleSetupTimeout cid).2.Ready m
    unfold Circuit.handleSetupTimeout
    split_ifs
    · trivial
    · exact hm
  | teardown reason | exitTeardown reason =>
    change (c.beginTeardown cid reason _).2.Ready m
    unfold Circuit.beginTeardown
    split_ifs <;> trivial
  | close reason => exact hm

namespace CircuitManager

def Grows (m m' : CircuitManager) : Prop :=
  ∀ cid c, m.objects.lookup cid = some c → ∃ c', m'.objects.lookup cid = some c' ∧ c.Later c'

theorem Grows.refl (m : CircuitManager) : m.Grows m := fun _ c h => ⟨c, h, .refl c⟩

theorem Grows.trans {a b c : CircuitManager} (h : a.Grows b) (h' : b.Grows c) : a.Grows c := by
  intro cid x hx
  obtain ⟨y, hy, hxy⟩ := h cid x hx
  obtain ⟨z, hz, hyz⟩ := h' cid y hy
  exact ⟨z, hz, hxy.trans hyz⟩

variable {c c' : Circuit} {m : CircuitManager} {t : Task}

theorem Grows.isSome {m' : CircuitManager} (h : m.Grows m') {cid : CircuitIDType}
    (hm : (m.objects.lookup cid).isSome) : (m'.objects.lookup cid).isSome := by
  obtain ⟨c, hc⟩ := isSome_iff_exists.mp hm
  obtain ⟨c', hc', -⟩ := h cid c hc
  exact isSome_iff_exists.mpr ⟨c', hc'⟩

theorem Grows.ready {m' : CircuitManager} (h : m.Grows m') (ht : t.Ready m) : t.Ready m' := by
  induction t with
  | handle cid k | zeroKeys cid reason result => exact h.isSome ht
  | remove cid reason result =>
    obtain ⟨c, hc, hz⟩ := ht
    obtain ⟨c', hc', hl⟩ := h cid c hc
    exact ⟨c', hc', hl.zeroed hz⟩
  | emit event next ih => exact ih ht
  | checkLimits | store | find | scanIdle | scanAll | done => trivial

theorem setCircuit_grows {cid : CircuitIDType}
    (hc : m.objects.lookup cid = some c) (hl : c.Later c') : m.Grows (m.setCircuit cid c') := by
  intro k x hx
  by_cases hk : k = cid
  · subst hk
    obtain rfl : c = x := mem_unique hc hx
    exact ⟨c', lookup_insert m.objects, hl⟩
  · exact ⟨x, (lookup_insert_ne hk).trans hx, .refl x⟩

theorem insertCircuit_grows {cid : CircuitIDType}
    (hnew : m.objects.lookup cid = none) (c : Circuit) : m.Grows (m.insertCircuit cid c) := by
  intro k x hx
  have hk : k ≠ cid := by
    intro hk
    rw [hk, hnew] at hx
    cases hx
  exact ⟨x, (lookup_insert_ne hk).trans hx, .refl x⟩

theorem store_grows (m : CircuitManager) (sur : Surroundings) (exitID : GoString) :
    m.Grows (m.store sur exitID).1 := by
  unfold store
  cases sur.generated with
  | error text => exact .refl m
  | ok g =>
    dsimp only
    split_ifs with hg
    · exact .refl m
    · exact insertCircuit_grows (not_isSome_iff_eq_none.mp hg) _

theorem exec_grows (m : CircuitManager) (sur : Surroundings) (t : Task) : m.Grows (m.exec sur t).1 := by
  cases t with
  | store exitID => exact m.store_grows sur exitID
  | handle cid h =>
    cases hc : m.objects.lookup cid with
    | none =>
      simp only [exec, hc]
      exact .refl m
    | some c =>
      simp only [exec, hc]
      exact setCircuit_grows hc (c.handle_later sur.now cid h)
  | zeroKeys cid reason result =>
    cases hc : m.objects.lookup cid with
    | none =>
      simp only [exec, hc]
      exact .refl m
    | some c =>
      simp only [exec, hc]
      exact setCircuit_grows hc c.zeroKeys_later
  | remove cid reason result =>
    intro k x hx
    exact ⟨x, (congrArg (AList.lookup k) (m.removeCircuit_objects cid)).trans hx, .refl x⟩
  | checkLimits | find | emit | scanIdle | scanAll | done => exact .refl m

structure Consistent (m : CircuitManager) : Prop where
  object : ∀ cid, m.tracked cid → (m.objects.lookup cid).isSome
  nodup : ∀ exit, (m.exitList exit).Nodup
  mem_exitList : ∀ exit cid, cid ∈ m.exitList exit ↔
    m.tracked cid ∧ ∃ c, m.objects.lookup cid = some c ∧ c.exit = exit
  counted : m.stats.totalCreated = m.stats.totalClosed + m.circuits.size
  zeroed : ∀ cid c, m.objects.lookup cid = some c → ¬ m.tracked cid → c.AllKeysZero

theorem consistent_new (cfg : CircuitManagerConfig) : (newCircuitManager cfg).Consistent where
  object cid h := by
    cases h
  nodup exit := by
    exact nodup_nil
  mem_exitList exit cid := by
    simp [exitList, tracked, newCircuitManager]
  counted := rfl
  zeroed cid c h := by
    cases h

theorem exists_exit_setCircuit {cid : CircuitIDType}
    (hc : m.objects.lookup cid = some c) (hl : c.Later c') (k : CircuitIDType) (exit : GoString) :
    (∃ x, (m.setCircuit cid c').objects.lookup k = some x ∧ x.exit = exit) ↔
      ∃ x, m.objects.lookup k = some x ∧ x.exit = exit := by
  by_cases hk : k = cid
  · subst hk
    rw [setCircuit, lookup_insert, hc]
    simp only [some.injEq, exists_eq_left']
    rw [hl.exit]
  · rw [setCircuit, lookup_insert_ne hk]

theorem Consistent.setCircuit (h : m.Consistent) {cid : CircuitIDType} (hc : m.objects.lookup cid = some c) (hl : c.Later c') :
    (m.setCircuit cid c').Consistent where
  object k hk := (setCircuit_grows hc hl).isSome (h.object k hk)
  nodup := h.nodup
  mem_exitList exit k :=
    (h.mem_exitList exit k).trans (and_congr_right' (exists_exit_setCircuit hc hl k exit).symm)
  counted := h.counted
  zeroed k x hx hk := by
    obtain ⟨rfl, rfl⟩ | ⟨-, hold⟩ := Map.lookup_of_insert hx
    · exact hl.zeroed (h.zeroed k c hc hk)
    · exact h.zeroed k x hold hk

/-! ### Storing a new circuit -/

theorem exitList_insertCircuit (m : CircuitManager) (cid : CircuitIDType) (c : Circuit)
    (exit : GoString) : (m.insertCircuit cid c).exitList exit =
      if exit = c.exit then m.exitList exit ++ [cid] else m.exitList exit := by
  split_ifs with he
  · subst he
    rw [exitList, insertCircuit, lookup_insert]
    rfl
  · rw [exitList, insertCircuit, lookup_insert_ne he]
    rfl

theorem tracked_insertCircuit (m : CircuitManager) (cid k : CircuitIDType) (c : Circuit) :
    (m.insertCircuit cid c).tracked k ↔ k = cid ∨ m.tracked k := by
  by_cases hk : k = cid
  · subst hk
    simp [tracked, insertCircuit]
  · simp [tracked, insertCircuit, hk]

theorem Consistent.insertCircuit (h : m.Consistent) {cid : CircuitIDType}
    (hnew : m.objects.lookup cid = none) (c : Circuit) : (m.insertCircuit cid c).Consistent := by
  have huntracked : ¬ m.tracked cid := by
    intro ht
    have hsome := h.object cid ht
    rw [hnew] at hsome
    cases hsome
  have hlookup : m.circuits.lookup cid = none := not_isSome_iff_eq_none.mp huntracked
  have hunlisted : ∀ exit, cid ∉ m.exitList exit :=
    fun exit hmem => huntracked ((h.mem_exitList exit cid).mp hmem).1
  have hself : (m.insertCircuit cid c).objects.lookup cid = some c := lookup_insert m.objects
  have hother : ∀ k ≠ cid, (m.insertCircuit cid c).objects.lookup k = m.objects.lookup k :=
    fun k hk => lookup_insert_ne hk
  refine ⟨fun k hk => ?_, fun exit => ?_, fun exit k => ?_, ?_, fun k x hx hk => ?_⟩
  · rcases (m.tracked_insertCircuit cid k c).mp hk with rfl | hk
    · exact isSome_iff_exists.mpr ⟨c, hself⟩
    · exact (insertCircuit_grows hnew c).isSome (h.object k hk)
  · rw [exitList_insertCircuit]
    split_ifs
    · exact (h.nodup exit).append (nodup_singleton cid)
        (disjoint_singleton.mpr (hunlisted exit))
    · exact h.nodup exit
  · rw [exitList_insertCircuit, tracked_insertCircuit]
    by_cases hk : k = cid
    · subst hk
      rw [hself]
      have hun := hunlisted exit
      split_ifs with he
      · simp [he]
      · simp [hun, Ne.symm he]
    · rw [hother k hk]
      have hold := h.mem_exitList exit k
      split_ifs <;> simp [hk, hold]
  · have hsize := Map.size_insert_of_none hlookup ()
    have hcount := h.counted
    change m.stats.totalCreated + 1 = m.stats.totalClosed + Map.size (m.circuits.insert cid ())
    omega
  · have hne : ¬ (k = cid ∨ m.tracked k) := fun hor => hk ((m.tracked_insertCircuit cid k c).mpr hor)
    have hkc : k ≠ cid := fun he => hne (Or.inl he)
    exact h.zeroed k x ((hother k hkc).symm.trans hx) (fun ht => hne (Or.inr ht))

/-! ### Removing a circuit -/

theorem lookup_dropFromExit (m : CircuitManager) (exit e : GoString) (cid : CircuitIDType) :
    ((m.dropFromExit exit cid).lookup e).getD [] =
      if e = exit then (m.exitList exit).erase cid else m.exitList e := by
  unfold dropFromExit
  dsimp only
  by_cases he : e = exit
  · subst he
    rw [if_pos rfl]
    split_ifs with hrest
    · rw [lookup_erase, hrest]
      rfl
    · rw [lookup_insert]
      rfl
  · rw [if_neg he]
    split_ifs with hrest
    · rw [lookup_erase_ne he]
      rfl
    · rw [lookup_insert_ne he]
      rfl

theorem removeCircuit_of_untracked {cid : CircuitIDType} (h : ¬ m.tracked cid) :
    m.removeCircuit cid = m := if_neg h

theorem removeCircuit_of_tracked {cid : CircuitIDType}
    (h : m.tracked cid) (hc : m.objects.lookup cid = some c) : m.removeCircuit cid =
      { m with
        circuits := m.circuits.erase cid
        circuitsByExit := m.dropFromExit c.exit cid
        stats := m.stats.close c } := by
  rw [removeCircuit, if_pos h, hc]

section Removed
variable {m : CircuitManager} {cid : CircuitIDType} {c : Circuit}

theorem tracked_removeCircuit (ht : m.tracked cid) (hc : m.objects.lookup cid = some c)
    (k : CircuitIDType) : (m.removeCircuit cid).tracked k ↔ k ≠ cid ∧ m.tracked k := by
  rw [removeCircuit_of_tracked ht hc]
  by_cases hk : k = cid
  · subst hk
    simp [tracked]
  · simp [tracked, hk]

theorem exitList_removeCircuit (ht : m.tracked cid) (hc : m.objects.lookup cid = some c)
    (exit : GoString) : (m.removeCircuit cid).exitList exit =
      if exit = c.exit then (m.exitList c.exit).erase cid else m.exitList exit := by
  rw [removeCircuit_of_tracked ht hc]
  exact m.lookup_dropFromExit c.exit exit cid

theorem Consistent.counted_removeCircuit (h : m.Consistent) (ht : m.tracked cid)
    (hc : m.objects.lookup cid = some c) :
    (m.removeCircuit cid).stats.totalCreated =
      (m.removeCircuit cid).stats.totalClosed + (m.removeCircuit cid).circuits.size := by
  obtain ⟨u, hu⟩ := isSome_iff_exists.mp ht
  have hsize := Map.size_erase hu
  have hcount := h.counted
  rw [removeCircuit_of_tracked ht hc]
  change m.stats.totalCreated = m.stats.totalClosed + 1 + Map.size (m.circuits.erase cid)
  omega

end Removed

theorem Consistent.removeCircuit (h : m.Consistent) {cid : CircuitIDType} (hc : m.objects.lookup cid = some c) (hz : c.AllKeysZero) :
    (m.removeCircuit cid).Consistent := by
  by_cases ht : m.tracked cid
  swap
  · rw [removeCircuit_of_untracked ht]
    exact h
  have hobjects := m.removeCircuit_objects cid
  have htracked := tracked_removeCircuit ht hc
  refine ⟨fun k hk => ?_, fun exit => ?_, fun exit k => ?_, h.counted_removeCircuit ht hc,
    fun k x hx hk => ?_⟩
  · rw [hobjects]
    exact h.object k ((htracked k).mp hk).2
  · rw [exitList_removeCircuit ht hc]
    split_ifs
    · exact (h.nodup c.exit).erase cid
    · exact h.nodup exit
  · rw [exitList_removeCircuit ht hc, htracked, hobjects]
    have hold := h.mem_exitList exit k
    split_ifs with he
    · rw [← he, (h.nodup exit).mem_erase_iff, hold, and_assoc]
    · -- The removed circuit is under another exit, so it is not in this list.
      rw [hold]
      refine ⟨fun hk => ⟨⟨?_, hk.1⟩, hk.2⟩, fun hk => ⟨hk.1.2, hk.2⟩⟩
      rintro rfl
      obtain ⟨x, hx, hxe⟩ := hk.2
      obtain rfl : c = x := mem_unique hc hx
      exact he hxe.symm
  · rw [hobjects] at hx
    by_cases hkc : k = cid
    · subst hkc
      obtain rfl : c = x := mem_unique hc hx
      exact hz
    · exact h.zeroed k x hx (fun hkt => hk ((htracked k).mpr ⟨hkc, hkt⟩))

/-! ### Sections and runs -/

theorem Consistent.store (h : m.Consistent) (sur : Surroundings)
    (exitID : GoString) : (m.store sur exitID).1.Consistent := by
  unfold CircuitManager.store
  cases sur.generated with
  | error text => exact h
  | ok g =>
    dsimp only
    split_ifs with hg
    · exact h
    · exact h.insertCircuit (not_isSome_iff_eq_none.mp hg) _

theorem Consistent.exec (h : m.Consistent) (sur : Surroundings) (ht : t.Ready m) : (m.exec sur t).1.Consistent := by
  cases t with
  | store exitID => exact h.store sur exitID
  | handle cid k =>
    obtain ⟨c, hc⟩ := isSome_iff_exists.mp ht
    simp only [CircuitManager.exec, hc]
    exact h.setCircuit hc (c.handle_later sur.now cid k)
  | zeroKeys cid reason result =>
    obtain ⟨c, hc⟩ := isSome_iff_exists.mp ht
    simp only [CircuitManager.exec, hc]
    exact h.setCircuit hc c.zeroKeys_later
  | remove cid reason result =>
    obtain ⟨c, hc, hz⟩ := ht
    exact h.removeCircuit hc hz
  | emit event next => exact ⟨h.object, h.nodup, h.mem_exitList, h.counted, h.zeroed⟩
  | checkLimits | find | scanIdle | scanAll | done => exact h

theorem store_ready (m m' : CircuitManager) (sur : Surroundings) (exitID : GoString) :
    (m.store sur exitID).2.Ready m' := by
  unfold store
  cases sur.generated with
  | error text => trivial
  | ok g =>
    dsimp only
    split_ifs <;> trivial

theorem exec_ready (h : m.Consistent) (sur : Surroundings)
    (ht : t.Ready m) : ∀ u ∈ (m.exec sur t).2, u.Ready (m.exec sur t).1 := by
  intro u hu
  cases t with
  | checkLimits exitID =>
    obtain rfl := mem_singleton.mp hu
    unfold checkLimits
    split_ifs <;> trivial
  | store exitID =>
    obtain rfl := mem_singleton.mp hu
    exact m.store_ready _ sur exitID
  | find cid k =>
    obtain rfl := mem_singleton.mp hu
    split_ifs with htr
    · exact h.object cid htr
    · trivial
  | handle cid k =>
    obtain ⟨c, hc⟩ := isSome_iff_exists.mp ht
    simp only [exec, hc, mem_singleton] at hu ⊢
    subst hu
    have hsome : ((m.setCircuit cid (c.handle sur.now cid k).1).objects.lookup cid).isSome :=
      (setCircuit_grows hc (c.handle_later sur.now cid k)).isSome ht
    exact Circuit.handle_ready hsome c sur.now k
  | zeroKeys cid reason result =>
    obtain ⟨c, hc⟩ := isSome_iff_exists.mp ht
    simp only [exec, hc, mem_singleton] at hu ⊢
    subst hu
    exact ⟨c.zeroKeys, lookup_insert m.objects, c.zeroKeys_allKeysZero⟩
  | remove cid reason result =>
    obtain rfl := mem_singleton.mp hu
    trivial
  | emit event next =>
    obtain rfl := mem_singleton.mp hu
    have hready : u.Ready m := ht
    exact (m.exec_grows sur (.emit event u)).ready hready
  | scanIdle | scanAll =>
    obtain ⟨cid, hcid, rfl⟩ := mem_map.mp hu
    trivial
  | done result => cases hu

end CircuitManager

theorem ManagerCall.start_ready (k : ManagerCall) (m : CircuitManager) : k.start.Ready m := by
  cases k <;> trivial

theorem managerSections_preserves : managerSections.Preserves CircuitManager.Consistent (fun m t => t.Ready m) where
  start m k _ := k.start_ready m
  inv _ sur _ h ht := h.exec sur ht
  next _ sur _ h ht := CircuitManager.exec_ready h sur ht
  stable m sur t _ _ _ hu := (m.exec_grows sur t).ready hu

variable (cfg : CircuitManagerConfig) (turns : List (Turn Surroundings ManagerCall))

theorem managerRun_holds : (managerRun cfg turns).Holds CircuitManager.Consistent (fun m t => t.Ready m) :=
  managerSections_preserves.run ⟨CircuitManager.consistent_new cfg, fun _ ht => by cases ht⟩ turns

theorem managerRun_grows (more : List (Turn Surroundings ManagerCall)) :
    (managerRun cfg turns).state.Grows (managerRun cfg (turns ++ more)).state := by
  rw [managerRun, managerRun, Sections.run_append]
  exact managerSections_preserves.run_rel CircuitManager.Grows.refl (fun _ _ _ => CircuitManager.Grows.trans)
    (fun m sur t _ _ => m.exec_grows sur t) (managerRun_holds cfg turns) more

/-- The lifecycle along every schedule. States only move forward, the lists by exit hold the tracked
circuits once each and nothing else, the counters differ by the number of tracked circuits, and what
is no longer tracked has no keys left. -/
theorem managerRun_lifecycle (more : List (Turn Surroundings ManagerCall)) :
    let before := (managerRun cfg turns).state
    let m := (managerRun cfg (turns ++ more)).state
    (∀ cid c, before.objects.lookup cid = some c →
      ∃ c', m.objects.lookup cid = some c' ∧ c.state.code ≤ c'.state.code) ∧
    (∀ exit, (m.exitList exit).Nodup) ∧
    (∀ cid, m.tracked cid → ∃ c, m.objects.lookup cid = some c ∧ cid ∈ m.exitList c.exit) ∧
    (∀ exit, ∀ cid ∈ m.exitList exit,
      m.tracked cid ∧ ∃ c, m.objects.lookup cid = some c ∧ c.exit = exit) ∧
    m.stats.totalCreated = m.stats.totalClosed + m.circuits.size ∧
    ∀ cid c, m.objects.lookup cid = some c → ¬ m.tracked cid → c.AllKeysZero := by
  intro before m
  have hm : m.Consistent := (managerRun_holds cfg (turns ++ more)).1
  refine ⟨?_, hm.nodup, ?_, fun exit cid => (hm.mem_exitList exit cid).mp, hm.counted, hm.zeroed⟩
  · intro cid c hc
    obtain ⟨c', hc', hl⟩ := managerRun_grows cfg turns more cid c hc
    exact ⟨c', hc', hl.state⟩
  · intro cid ht
    obtain ⟨c, hc⟩ := isSome_iff_exists.mp (hm.object cid ht)
    exact ⟨c, hc, (hm.mem_exitList c.exit cid).mpr ⟨ht, c, hc, rfl⟩⟩

-- A circuit is created, acknowledged and closed by a shutdown.
example :
    let sur : Surroundings := ⟨0, .ok ⟨[7], [1], [2], []⟩⟩
    let m := (managerRun ⟨0, 1, 1⟩ [.call (.createCircuit [9]), .exec 0 sur, .exec 0 sur, .exec 0 sur,
      .exec 0 sur, .call (.handleCircuitAck [7] ⟨true, ""⟩), .exec 0 sur, .exec 0 sur, .exec 0 sur,
      .exec 0 sur, .call .shutdown, .exec 0 sur, .exec 0 sur, .exec 0 sur, .exec 0 sur, .exec 0 sur,
      .exec 0 sur]).state
    m.events.map (·.type) = [.created, .established, .closed] ∧ m.stats.totalClosed = 1 ∧
      m.tracked [7] = false ∧ m.exitList [9] = [] := by
  decide

end MeshDesk.Proxy
