import MeshDesk.Mesh.PeerOwnership

/-! When the active transport is given up. `stableBetter` counts the evaluations in a row that had some better
alternative, whichever it was, and it is kept while the transport is not active. -/
namespace MeshDesk.Mesh
open Lib

structure ProbeTick where
  now : ℤ
  order : List TransportName
  outcome : TransportName → ProbeOutcome

/-- The paths are compared in the state after the probes. -/
structure Evaluation where
  pm : PeerManager
  now : ℤ

namespace PeerManager
variable (pm : PeerManager) (t : ProbeTick) (now : ℤ) (active b : TransportName)

def probed : PeerManager :=
  t.order.foldl (fun pm' name => pm'.probeTransport t.now pm.currentTransport t.outcome name) pm

def tick : PeerManager := pm.probeAndEvaluate t.now t.order t.outcome

def Scored : Prop :=
  ∃ ts ∈ pm.transportStates.lookup active, ¬ ((ts.latency.count : ℤ) < pm.cfg.minSamplesForScoring ∨
    ts.computeScore pm.cfg now = 0)

def Eligible (alt : TransportState) : Prop :=
  ¬ (b = active ∨ alt.isUsable = false ∨ (alt.latency.count : ℤ) < pm.cfg.minSamplesForScoring ∨
    alt.computeScore pm.cfg now = 0)

instance (alt : TransportState) : Decidable (pm.Eligible now active b alt) := by
  unfold Eligible
  infer_instance

/-- `b` is an eligible alternative, and its score is significantly below that of the active transport. -/
def Beats : Prop :=
  ∃ ts ∈ pm.transportStates.lookup active, ∃ alt ∈ pm.transportStates.lookup b, pm.Eligible now active b alt ∧
    alt.computeScore pm.cfg now < (ts.computeScore pm.cfg now - pm.cfg.hysteresisBonusFor ts.eLat) *
      (1 - pm.cfg.scoreSwitchThreshold)

instance : Decidable (pm.Scored now active) := by
  unfold Scored
  infer_instance

instance : Decidable (pm.Beats now active b) := by
  unfold Beats
  infer_instance

end PeerManager

/-- The manager, and its evaluations with the last one first. -/
def evaluateNext (x : PeerManager × List Evaluation) (t : ProbeTick) : PeerManager × List Evaluation :=
  (x.1.tick t, ⟨x.1.probed t, t.now⟩ :: x.2)

/-- The transport is active, it has a score when the paths are compared, and no alternative but `b` is the best one and
beats it. -/
def Steady (active b : TransportName) (x : PeerManager × List Evaluation) (t : ProbeTick) : Prop :=
  x.1.currentTransport = some active ∧ (x.1.probed t).Scored t.now active ∧
    ∀ best ∈ (x.1.probed t).bestAlternative t.now active t.order,
      (x.1.probed t).Beats t.now active best.1 → best.1 = b

instance (active b : TransportName) (x : PeerManager × List Evaluation) (t : ProbeTick) :
    Decidable (Steady active b x t) := by
  unfold Steady
  infer_instance

namespace PeerManager
variable {pm : PeerManager} {now : ℤ} {active b : TransportName} {order : List TransportName}

theorem bestAlternative_spec : ∀ best ∈ pm.bestAlternative now active order, ∃ alt ∈ pm.transportStates.lookup best.1,
    best.2 = alt.computeScore pm.cfg now ∧ pm.Eligible now active best.1 alt := by
  refine List.foldlRecOn (motive := fun o : Option (TransportName × ℚ) => ∀ best ∈ o,
    ∃ alt ∈ pm.transportStates.lookup best.1, best.2 = alt.computeScore pm.cfg now ∧
      pm.Eligible now active best.1 alt) order _ nofun fun old hold name _ => ?_
  split
  · exact hold
  rename_i alt halt
  dsimp only
  split_ifs with hnot
  · exact hold
  · rintro best ⟨⟩
    exact ⟨alt, halt, rfl, hnot⟩
  · exact hold

def stableOf (pm : PeerManager) (name : TransportName) : Option ℕ :=
  (pm.transportStates.lookup name).map TransportState.stableBetter

theorem stableOf_setTransport (pm : PeerManager) (name : TransportName) (ts : TransportState) :
    (pm.setTransport name ts).stableOf name = some ts.stableBetter := by
  rw [stableOf, setTransport, AList.lookup_insert, Option.map_some]

theorem evaluatePathSwitching_cases (order : List TransportName) (h : pm.Scored now active) :
    let pm' := pm.evaluatePathSwitching now (some active) order
    ∃ n, pm.stableOf active = some n ∧ (pm'.currentTransport = pm.currentTransport ∧ pm'.stableOf active = some 0 ∨
      ∃ best ∈ pm.bestAlternative now active order, pm.Beats now active best.1 ∧
        (pm'.currentTransport = pm.currentTransport ∧ pm'.stableOf active = some (n + 1) ∨
          pm.cfg.scoreStableProbes ≤ (n + 1 : ℕ) ∧ ∃ s : PeerManager, pm' = s.triggerSwitch best.1)) := by
  obtain ⟨ts, hts, hgood⟩ := h
  intro pm'
  refine ⟨ts.stableBetter, by rw [stableOf, hts]; rfl, ?_⟩
  unfold pm' evaluatePathSwitching
  dsimp only
  rw [Option.mem_def.mp hts]
  dsimp only
  rw [if_neg hgood]
  cases hbest : pm.bestAlternative now active order with
  | none => exact .inl ⟨rfl, stableOf_setTransport ..⟩
  | some best =>
    obtain ⟨alt, halt, hscore, helig⟩ := bestAlternative_spec best hbest
    dsimp only
    split_ifs with hless hstable
    · exact .inr ⟨best, rfl, ⟨ts, hts, alt, halt, helig, hscore ▸ hless⟩, .inr ⟨hstable, _, rfl⟩⟩
    · exact .inr ⟨best, rfl, ⟨ts, hts, alt, halt, helig, hscore ▸ hless⟩, .inl ⟨rfl, stableOf_setTransport ..⟩⟩
    · exact .inl ⟨rfl, stableOf_setTransport ..⟩

theorem probeTransport_keeps (pm : PeerManager) (current : Option TransportName)
    (outcome : TransportName → ProbeOutcome) (name : TransportName) :
    (pm.probeTransport now current outcome name).cfg = pm.cfg ∧
      (pm.probeTransport now current outcome name).stableOf active = pm.stableOf active := by
  have hset : ∀ {ts ts' : TransportState}, pm.transportStates.lookup name = some ts →
      ts'.stableBetter = ts.stableBetter → (pm.setTransport name ts').stableOf active = pm.stableOf active := by
    intro ts ts' hts hstable
    by_cases hname : active = name
    · rw [hname, stableOf_setTransport, stableOf, hts, Option.map_some, hstable]
    · rw [stableOf, setTransport, AList.lookup_insert_ne hname, stableOf]
  unfold probeTransport
  split
  · exact ⟨rfl, rfl⟩
  rename_i ts hts
  dsimp only
  split
  · split
    · exact ⟨rfl, rfl⟩
    · exact ⟨rfl, hset hts rfl⟩
    · exact ⟨rfl, hset hts rfl⟩
  · exact ⟨rfl, rfl⟩

theorem probed_keeps (pm : PeerManager) (t : ProbeTick) (active : TransportName) :
    (pm.probed t).cfg = pm.cfg ∧ (pm.probed t).stableOf active = pm.stableOf active := by
  refine List.foldlRecOn (motive := fun pm' : PeerManager => pm'.cfg = pm.cfg ∧
    pm'.stableOf active = pm.stableOf active) t.order _ ⟨rfl, rfl⟩ fun pm' h name _ => ?_
  obtain ⟨hcfg, hstable⟩ := pm'.probeTransport_keeps pm.currentTransport t.outcome name
  exact ⟨hcfg.trans h.1, hstable.trans h.2⟩

theorem triggerSwitch_currentTransport (pm : PeerManager) (target : TransportName) :
    (pm.triggerSwitch target).currentTransport = none := by
  unfold triggerSwitch
  rw [(startConnectCycle_same _).currentTransport]

end PeerManager

/-- The evaluations that are counted are the last ones, and `b` beats the active transport in each of them. -/
def Counted (active b : TransportName) (x : PeerManager × List Evaluation) : Prop :=
  x.1.currentTransport = some active → ∀ n ∈ x.1.stableOf active, n ≤ x.2.length ∧
    ∀ e ∈ x.2.take n, e.pm.Beats e.now active b

section Ticks
variable {active b : TransportName} {x : PeerManager × List Evaluation} {t : ProbeTick}

theorem Steady.tick_cases (h : Steady active b x t) : ∃ n, x.1.stableOf active = some n ∧
    ((x.1.tick t).currentTransport = some active ∧ (x.1.tick t).stableOf active = some 0 ∨
      (x.1.probed t).Beats t.now active b ∧
        ((x.1.tick t).currentTransport = some active ∧ (x.1.tick t).stableOf active = some (n + 1) ∨
          x.1.cfg.scoreStableProbes ≤ (n + 1 : ℕ) ∧ ∃ s : PeerManager, x.1.tick t = s.triggerSwitch b)) := by
  obtain ⟨hcurrent, hscored, hbest⟩ := h
  have htick : x.1.tick t = (x.1.probed t).evaluatePathSwitching t.now (some active) t.order := by
    rw [← hcurrent]
    rfl
  obtain ⟨hcfg, hstable⟩ := x.1.probed_keeps t active
  have hkept : (x.1.probed t).currentTransport = some active :=
    (x.1.probeAll_same t.now x.1.currentTransport t.outcome t.order).currentTransport.trans hcurrent
  obtain ⟨n, hn, hcases⟩ := PeerManager.evaluatePathSwitching_cases t.order hscored
  rw [← htick, hcfg, hkept] at hcases
  refine ⟨n, hstable ▸ hn, hcases.imp_right fun ⟨best, hmem, hbeats, hnext⟩ => ?_⟩
  obtain rfl := hbest best hmem hbeats
  exact ⟨hbeats, hnext⟩

theorem Counted.evaluateNext (hsteady : Steady active b x t) (h : Counted active b x) :
    Counted active b (evaluateNext x t) := by
  intro hcurrent n hn
  obtain ⟨m, hm, ⟨-, hzero⟩ | ⟨hbeats, ⟨-, hcounts⟩ | ⟨-, s, hswitch⟩⟩⟩ := hsteady.tick_cases
  · obtain rfl := Option.mem_unique hzero hn
    exact ⟨Nat.zero_le _, by simp⟩
  · obtain rfl := Option.mem_unique hcounts hn
    obtain ⟨hlen, hall⟩ := h hsteady.1 m hm
    exact ⟨Nat.succ_le_succ hlen, List.forall_mem_cons.mpr ⟨hbeats, hall⟩⟩
  · have hnone := PeerManager.triggerSwitch_currentTransport s b
    rw [← hswitch] at hnone
    cases hnone.symm.trans hcurrent

end Ticks

/-- The switch of a steady run from the time when the transport became active with a count of 0: it goes to `b`, after
as many evaluations as the configuration asks for, and `b` beats the active transport in each of the last of them. -/
theorem switch_stable {pm : PeerManager} {active b : TransportName} {ticks : List ProbeTick} {t : ProbeTick}
    (hzero : pm.stableOf active = some 0)
    (hsteady : Meets evaluateNext (Steady active b) (pm, []) (ticks ++ [t])) :
    let x := ticks.foldl evaluateNext (pm, [])
    (x.1.tick t).currentTransport = none → (∃ s : PeerManager, x.1.tick t = s.triggerSwitch b) ∧
      x.1.cfg.scoreStableProbes ≤ (evaluateNext x t).2.length ∧
      ∀ e ∈ (evaluateNext x t).2.take x.1.cfg.scoreStableProbes.toNat, e.pm.Beats e.now active b := by
  intro x hswitch
  obtain ⟨hticks, hlast⟩ := Meets.concat_iff.mp hsteady
  have hcounted : Counted active b x := by
    refine hticks.invariant (fun _ _ hs h => h.evaluateNext hs) fun _ n hn => ?_
    obtain rfl := Option.mem_unique hzero hn
    exact ⟨le_rfl, by simp⟩
  obtain ⟨n, hn, ⟨hstays, -⟩ | ⟨hbeats, ⟨hstays, -⟩ | ⟨henough, hto⟩⟩⟩ := hlast.tick_cases
  · cases hstays.symm.trans hswitch
  · cases hstays.symm.trans hswitch
  · obtain ⟨hlen, hall⟩ := hcounted hlast.1 n hn
    have hlast : ∀ e ∈ (evaluateNext x t).2.take (n + 1), e.pm.Beats e.now active b :=
      List.forall_mem_cons.mpr ⟨hbeats, hall⟩
    refine ⟨hto, henough.trans (Int.ofNat_le.mpr (Nat.succ_le_succ hlen)), fun e he => hlast e ?_⟩
    exact (List.take_prefix_take_left (Int.toNat_le.mpr henough)).subset he

/-- A peer with three transports, of which `udp` was dialled with a latency of 100 ms. -/
def overUdp : PeerManager :=
  (newPeerManager { defaultPeerManagerConfig with
    transportNames := [.udp, .reality, .websocket], scoreStableProbes := 2,
    minSamplesForScoring := 1 }).startConnectCycle.run [.dialReturns 0 true, .offer 0 true, .result 0 100000000]

def probeOf (now : ℤ) (name : TransportName) (rtt : ℤ) : ProbeTick :=
  ⟨now * second, [.udp, .reality, .websocket], fun n => if n = name then .ok rtt else .unavailable⟩

theorem switch_stable_reality : ∃ s : PeerManager,
    (overUdp.tick (probeOf 40 .reality 10000000)).tick (probeOf 80 .reality 10000000) = s.triggerSwitch .reality := by
  have hstate : overUdp.stableOf .udp = some 0 ∧ Meets evaluateNext (Steady .udp .reality) (overUdp, [])
      ([probeOf 40 .reality 10000000] ++ [probeOf 80 .reality 10000000]) := by with_unfolding_all decide
  exact (switch_stable hstate.1 hstate.2 (by with_unfolding_all decide)).1

/-- `reality` is better in the first evaluation and `websocket`, which had no sample then, in the second. The manager
switches to `websocket`. -/
theorem switch_unstable :
    ¬ (overUdp.probed (probeOf 40 .reality 10000000)).Beats (40 * second) .udp .websocket ∧
      (overUdp.tick (probeOf 40 .reality 10000000)).currentTransport = some .udp ∧
      ((overUdp.tick (probeOf 40 .reality 10000000)).tick (probeOf 80 .websocket 1000000)).currentTransport = none ∧
      ((overUdp.tick (probeOf 40 .reality 10000000)).tick (probeOf 80 .websocket 1000000)).cfg.transportNames.head? =
        some .websocket := by
  with_unfolding_all decide

end MeshDesk.Mesh
