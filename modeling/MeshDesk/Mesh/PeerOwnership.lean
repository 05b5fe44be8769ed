import MeshDesk.Lib.Runs
import MeshDesk.Lib.Table
import MeshDesk.Mesh.PeerManager

/-! Who owns the connections that successful dials return: the current transport, the channel with the
dial goroutines that wait for it, or nobody once they are closed. -/
namespace MeshDesk.Mesh
open Lib PeerManager
open List

namespace PeerManager

def connOf (pm : PeerManager) (name : TransportName) : Option ℕ :=
  (pm.transportStates.lookup name).bind TransportState.conn

end PeerManager

/-- Dial goroutines belong to the current cycle, or their context is cancelled. -/
structure Cycles (pm : PeerManager) : Prop where
  dialing : ∀ d ∈ pm.dialing, d.1 ∈ pm.cancelledGens ∨ d.1 = pm.connectGen
  offering : ∀ r ∈ pm.offering, r.gen ∈ pm.cancelledGens ∨ r.gen = pm.connectGen

/-! ### Turns that leave the connections alone -/

structure SameConns (pm pm' : PeerManager) : Prop where
  connOf : ∀ name, pm'.connOf name = pm.connOf name
  currentTransport : pm'.currentTransport = pm.currentTransport
  dialResultCh : pm'.dialResultCh = pm.dialResultCh
  offering : pm'.offering = pm.offering
  exited : pm'.exited = pm.exited
  conns : pm'.conns = pm.conns
  forceClosed : pm'.forceClosed = pm.forceClosed
  cycles : Cycles pm → Cycles pm'

theorem SameConns.refl (pm : PeerManager) : SameConns pm pm := ⟨fun _ => rfl, rfl, rfl, rfl, rfl, rfl, rfl, id⟩

theorem SameConns.trans {a b c : PeerManager} (h : SameConns a b) (h' : SameConns b c) : SameConns a c where
  connOf := fun name => (h'.connOf name).trans (h.connOf name)
  currentTransport := h'.currentTransport.trans h.currentTransport
  dialResultCh := h'.dialResultCh.trans h.dialResultCh
  offering := h'.offering.trans h.offering
  exited := h'.exited.trans h.exited
  conns := h'.conns.trans h.conns
  forceClosed := h'.forceClosed.trans h.forceClosed
  cycles := fun hc => h'.cycles (h.cycles hc)

namespace PeerManager
variable (pm : PeerManager)

variable {pm} in
theorem connOf_of_lookup {name : TransportName} {ts : TransportState} (h : pm.transportStates.lookup name = some ts) :
    pm.connOf name = ts.conn := by
  rw [connOf, h]
  rfl

variable (name : TransportName) (now : ℤ)

theorem connOf_setTransport (n : TransportName) (ts : TransportState) :
    (pm.setTransport name ts).connOf n = if n = name then ts.conn else pm.connOf n := by
  unfold connOf setTransport
  split_ifs with hn
  · rw [hn, AList.lookup_insert]
    rfl
  · rw [AList.lookup_insert_ne hn]

theorem connOf_mapTransports (f : TransportState → TransportState) (n : TransportName) :
    (pm.mapTransports f).connOf n = (pm.transportStates.lookup n).bind (fun ts => (f ts).conn) := by
  unfold connOf mapTransports
  rw [Map.lookup_filterMapVals]
  cases pm.transportStates.lookup n <;> rfl

theorem getOrCreateTransportState_conn : (pm.getOrCreateTransportState name).conn = pm.connOf name := by
  unfold getOrCreateTransportState connOf
  cases pm.transportStates.lookup name <;> rfl

theorem setTransport_same {name : TransportName} {ts : TransportState} (h : ts.conn = pm.connOf name) :
    SameConns pm (pm.setTransport name ts) := by
  refine ⟨fun n => ?_, rfl, rfl, rfl, rfl, rfl, rfl, fun hc => ⟨hc.dialing, hc.offering⟩⟩
  rw [connOf_setTransport]
  split_ifs with hn
  · rw [h, hn]
  · rfl

theorem mapTransports_same {f : TransportState → TransportState} (h : ∀ ts, (f ts).conn = ts.conn) :
    SameConns pm (pm.mapTransports f) := by
  refine ⟨fun n => ?_, rfl, rfl, rfl, rfl, rfl, rfl, fun hc => ⟨hc.dialing, hc.offering⟩⟩
  rw [connOf_mapTransports, connOf]
  cases pm.transportStates.lookup n with
  | none => rfl
  | some ts => exact h ts

theorem bookkeeping_same (state : PeerState) (lastLatency : ℤ) (inFlight : List TransportName)
    (happyEyeballsTimer retryTimer : Bool) :
    SameConns pm { pm with
      state := state, lastLatency := lastLatency, inFlight := inFlight
      happyEyeballsTimer := happyEyeballsTimer, retryTimer := retryTimer } :=
  ⟨fun _ => rfl, rfl, rfl, rfl, rfl, rfl, rfl, fun hc => ⟨hc.dialing, hc.offering⟩⟩

theorem stopHappyEyeballs_same : SameConns pm pm.stopHappyEyeballs := pm.bookkeeping_same _ _ _ _ _

theorem stopRetry_same : SameConns pm pm.stopRetry := pm.bookkeeping_same _ _ _ _ _

theorem cancelInFlight_same : SameConns pm pm.cancelInFlight := by
  refine ⟨fun _ => rfl, rfl, rfl, rfl, rfl, rfl, rfl, fun hc => ⟨fun d hd => ?_, fun r hr => ?_⟩⟩
  · exact (hc.dialing d hd).imp_left (mem_cons_of_mem _)
  · exact (hc.offering r hr).imp_left (mem_cons_of_mem _)

theorem startDial_same : SameConns pm (pm.startDial pm.connectGen name) := by
  have hset : SameConns pm (pm.setTransport name
      { pm.getOrCreateTransportState name with subState := .connecting }) :=
    pm.setTransport_same (pm.getOrCreateTransportState_conn name)
  refine ⟨hset.connOf, rfl, rfl, rfl, rfl, rfl, rfl, fun hc => ⟨?_, hc.offering⟩⟩
  exact forall_mem_append.mpr ⟨hc.dialing, forall_mem_singleton.mpr (.inr rfl)⟩

theorem nextCycle_same (state : PeerState) :
    SameConns pm { pm.cancelInFlight with state := state, connectGen := pm.connectGen + 1 } := by
  have hcancelled : ∀ gen, gen ∈ pm.cancelledGens ∨ gen = pm.connectGen → gen ∈ pm.connectGen :: pm.cancelledGens :=
    fun gen hgen => mem_cons.mpr hgen.symm
  refine ⟨fun _ => rfl, rfl, rfl, rfl, rfl, rfl, rfl, fun hc => ⟨fun d hd => .inl ?_, fun r hr => .inl ?_⟩⟩
  · exact hcancelled d.1 (hc.dialing d hd)
  · exact hcancelled r.gen (hc.offering r hr)

theorem startConnectCycle_same : SameConns pm pm.startConnectCycle := by
  unfold startConnectCycle
  dsimp only
  split
  · exact pm.cancelInFlight_same.trans (bookkeeping_same _ _ _ _ _ _)
  · rename_i primary fallbacks _
    have hnext := pm.nextCycle_same (if pm.cancelInFlight.state = .connected then .connected else .connecting)
    have hdial := hnext.trans (startDial_same _ primary)
    exact hdial.trans (bookkeeping_same _ _ _ _ _ _)

theorem startFallbackDial_same : SameConns pm pm.startFallbackDial := by
  unfold startFallbackDial
  split
  · exact .refl pm
  · exact pm.startDial_same _

theorem expire_conn (ts : TransportState) (now : ℤ) : (ts.expire now).conn = ts.conn := by
  unfold TransportState.expire
  split_ifs <;> rfl

theorem fail_conn (ts : TransportState) (cfg : PeerManagerConfig) (name : TransportName) (now : ℤ) :
    (ts.fail cfg name now).conn = ts.conn := by
  unfold TransportState.fail
  dsimp only
  split_ifs <;> rfl

theorem checkQuarantineExpiry_same : SameConns pm (pm.checkQuarantineExpiry now) := by
  have hmap := pm.mapTransports_same (fun ts => expire_conn ts now)
  unfold checkQuarantineExpiry
  dsimp only
  split_ifs
  · exact hmap.trans (startConnectCycle_same _)
  · exact hmap

theorem onAllDialsFailed_same : SameConns pm (pm.onAllDialsFailed now) := by
  unfold onAllDialsFailed
  split_ifs
  · exact pm.bookkeeping_same _ _ _ _ _
  · exact pm.checkQuarantineExpiry_same now

theorem dialFailed_same : SameConns pm (pm.dialFailed name now) := by
  have hset : SameConns pm (pm.setTransport name ((pm.getOrCreateTransportState name).fail pm.cfg name now)) :=
    pm.setTransport_same ((fail_conn _ _ _ _).trans (pm.getOrCreateTransportState_conn name))
  unfold dialFailed
  dsimp only
  split_ifs
  · have hstop := hset.trans (stopHappyEyeballs_same _)
    exact hstop.trans (onAllDialsFailed_same _ now)
  · exact hset

theorem probeTransport_same (active : Option TransportName) (outcome : TransportName → ProbeOutcome)
    (name : TransportName) : SameConns pm (pm.probeTransport now active outcome name) := by
  unfold probeTransport
  cases hts : pm.transportStates.lookup name with
  | none => exact .refl pm
  | some ts =>
    have hconn : ts.conn = pm.connOf name := (connOf_of_lookup hts).symm
    dsimp only
    split
    · cases outcome name with
      | unavailable => exact .refl pm
      | failed permanent => exact pm.setTransport_same hconn
      | ok rtt =>
        have hset : SameConns pm (pm.setTransport name
            { ts with subState := .active, latency := ts.latency.push rtt, lastProbeAt := now }) :=
          pm.setTransport_same hconn
        exact hset.trans (bookkeeping_same _ _ _ _ _ _)
    · exact .refl pm

theorem probeAll_same (active : Option TransportName) (outcome : TransportName → ProbeOutcome)
    (order : List TransportName) :
    SameConns pm (order.foldl (fun pm' name => pm'.probeTransport now active outcome name) pm) := by
  induction order generalizing pm with
  | nil => exact .refl pm
  | cons name order ih => exact (pm.probeTransport_same now active outcome name).trans (ih _)

/-! ### Turns that close connections -/

theorem closeCurrent_cases :
    (pm.closeCurrent = pm ∧ ∀ n, pm.currentTransport = some n → pm.connOf n = none) ∨
      ∃ n c, ∃ old : TransportState, pm.currentTransport = some n ∧ pm.connOf n = some c ∧
        pm.closeCurrent = (pm.forceClose (some c)).setTransport n { old with conn := none, subState := .active } := by
  cases hcur : pm.currentTransport with
  | none => exact .inl ⟨by simp only [closeCurrent, hcur], nofun⟩
  | some current =>
    cases hts : pm.transportStates.lookup current with
    | none =>
      refine .inl ⟨by simp only [closeCurrent, hcur, hts], fun n hn => ?_⟩
      cases hn
      rw [connOf, hts]
      rfl
    | some old =>
      have hconn : pm.connOf current = old.conn := connOf_of_lookup hts
      cases hc : old.conn with
      | none =>
        refine .inl ⟨by simp [closeCurrent, hcur, hts, hc], fun n hn => ?_⟩
        cases hn
        exact hconn.trans hc
      | some c => exact .inr ⟨current, c, old, rfl, hconn.trans hc, by simp [closeCurrent, hcur, hts, hc]⟩

theorem connOf_closeCurrent (n : TransportName) :
    pm.closeCurrent.connOf n = if pm.currentTransport = some n then none else pm.connOf n := by
  rcases pm.closeCurrent_cases with ⟨heq, hnone⟩ | ⟨current, c, old, hcur, -, heq⟩
  · rw [heq]
    split_ifs with hn
    · exact hnone n hn
    · rfl
  · rw [heq, connOf_setTransport, hcur]
    by_cases hn : n = current
    · rw [if_pos hn, if_pos (congrArg some hn.symm)]
    · rw [if_neg hn, if_neg (fun he => hn (Option.some.inj he).symm)]
      rfl

theorem mem_closeCurrent (c : ℕ) : c ∈ pm.closeCurrent.forceClosed ↔
    c ∈ pm.forceClosed ∨ ∃ n, pm.currentTransport = some n ∧ pm.connOf n = some c := by
  rcases pm.closeCurrent_cases with ⟨heq, hnone⟩ | ⟨current, held, old, hcur, hheld, heq⟩
  · rw [heq]
    refine ⟨.inl, fun h => h.resolve_right fun ⟨n, hn, hc⟩ => ?_⟩
    rw [hnone n hn] at hc
    cases hc
  · rw [heq]
    change c ∈ held :: pm.forceClosed ↔ _
    rw [mem_cons, hcur]
    constructor
    · rintro (rfl | hc)
      · exact .inr ⟨current, rfl, hheld⟩
      · exact .inl hc
    · rintro (hc | ⟨n, hn, hc⟩)
      · exact .inr hc
      · cases hn
        exact .inl (Option.mem_unique hc hheld)

theorem closeCurrent_rest (hc : Cycles pm) : pm.closeCurrent.dialResultCh = pm.dialResultCh ∧
    pm.closeCurrent.offering = pm.offering ∧ pm.closeCurrent.exited = pm.exited ∧
    pm.closeCurrent.conns = pm.conns ∧ Cycles pm.closeCurrent := by
  rcases pm.closeCurrent_cases with ⟨heq, -⟩ | ⟨n, c, old, -, -, heq⟩ <;> rw [heq]
  · exact ⟨rfl, rfl, rfl, rfl, hc⟩
  · exact ⟨rfl, rfl, rfl, rfl, hc.dialing, hc.offering⟩

theorem mem_closeAll (c : ℕ) : c ∈ pm.closeAll.forceClosed ↔ c ∈ pm.forceClosed ∨ ∃ n, pm.connOf n = some c := by
  change c ∈ pm.transportStates.entries.filterMap (fun e => e.2.conn) ++ pm.forceClosed ↔ _
  rw [mem_append, mem_filterMap, or_comm]
  refine or_congr_right ⟨fun ⟨e, he, hconn⟩ => ⟨e.1, ?_⟩, fun ⟨n, hn⟩ => ?_⟩
  · rw [connOf, Map.mem_entries_iff.mp he]
    exact hconn
  · obtain ⟨ts, hts, hconn⟩ := Option.bind_eq_some_iff.mp hn
    exact ⟨⟨n, ts⟩, Map.mem_entries_iff.mpr hts, hconn⟩

end PeerManager

/-! ### Ownership -/

/-- Every connection is closed, on its way to the loop, held by a transport, or the one in the loop's
hand; only the current transport holds one. After the exit no connection is held or queued, and the last
cycle is cancelled. -/
structure Owned (pm : PeerManager) (hand : Option ℕ) : Prop where
  cycles : Cycles pm
  held : ∀ name c, pm.connOf name = some c → pm.currentTransport = some name
  owned : ∀ c < pm.conns, c ∈ pm.forceClosed ∨ (∃ r ∈ pm.dialResultCh ++ pm.offering, r.conn = some c) ∨
    (∃ name, pm.connOf name = some c) ∨ hand = some c
  ended : pm.exited = true → pm.currentTransport = none ∧ (∀ r ∈ pm.dialResultCh, r.conn = none) ∧
    pm.connectGen ∈ pm.cancelledGens

section Ownership
variable {pm pm' : PeerManager} {hand : Option ℕ}

theorem Owned.same (h : Owned pm hand) (hrunning : pm.exited = false) (hs : SameConns pm pm') : Owned pm' hand where
  cycles := hs.cycles h.cycles
  held := fun name c hc => by
    rw [hs.connOf] at hc
    rw [hs.currentTransport]
    exact h.held name c hc
  owned := fun c hc => by
    rw [hs.conns] at hc
    rw [hs.forceClosed, hs.dialResultCh, hs.offering]
    simp only [hs.connOf]
    exact h.owned c hc
  ended := fun hexit => nomatch hrunning.symm.trans (hs.exited.symm.trans hexit)

theorem Owned.forceClose (h : Owned pm hand) : Owned (pm.forceClose hand) none where
  cycles := ⟨h.cycles.dialing, h.cycles.offering⟩
  held := h.held
  owned := fun c hc => by
    change c ∈ hand.toList ++ pm.forceClosed ∨ _
    rw [mem_append, Option.mem_toList]
    rcases h.owned c hc with hclosed | hqueued | hheld | hhand
    · exact .inl (.inr hclosed)
    · exact .inr (.inl hqueued)
    · exact .inr (.inr (.inl hheld))
    · exact .inl (.inl hhand)
  ended := h.ended

/-- The transports have closed what they held, and one of them may have taken the connection in the loop's hand. -/
theorem Owned.settle (h : Owned pm hand)
    (hheld : ∀ name c, pm'.connOf name = some c → pm'.currentTransport = some name)
    (htaken : ∀ c, hand = some c → ∃ name, pm'.connOf name = some c)
    (hclosed : ∀ c, c ∈ pm'.forceClosed ↔ c ∈ pm.forceClosed ∨ ∃ name, pm.connOf name = some c)
    (hqueue : pm'.dialResultCh = pm.dialResultCh) (hoffering : pm'.offering = pm.offering)
    (hconns : pm'.conns = pm.conns) (hcycles : Cycles pm')
    (hended : pm'.exited = true → pm'.currentTransport = none ∧ (∀ r ∈ pm'.dialResultCh, r.conn = none) ∧
      pm'.connectGen ∈ pm'.cancelledGens) : Owned pm' none where
  cycles := hcycles
  held := hheld
  owned := fun c hc => by
    rw [hconns] at hc
    rw [hqueue, hoffering, hclosed]
    rcases h.owned c hc with hold | hqueued | hheld | hhand
    · exact .inl (.inl hold)
    · exact .inr (.inl hqueued)
    · exact .inl (.inr hheld)
    · exact .inr (.inr (.inl (htaken c hhand)))
  ended := hended

variable {name : TransportName}

theorem PeerManager.connOf_idle (hheld : ∀ name c, pm.connOf name = some c → pm.currentTransport = some name)
    (hname : pm.currentTransport ≠ some name) : pm.connOf name = none := by
  cases hc : pm.connOf name with
  | none => rfl
  | some c => exact absurd (hheld name c hc) hname

theorem Owned.triggerSwitch (h : Owned pm none) (hrunning : pm.exited = false) (target : TransportName) :
    Owned (pm.triggerSwitch target) none := by
  obtain ⟨hqueue, hoffering, hexited, hconns, hcycles⟩ := pm.closeCurrent_rest h.cycles
  have hnone : ∀ name, pm.closeCurrent.connOf name = none := by
    intro name
    rw [pm.connOf_closeCurrent]
    split_ifs with hn
    · rfl
    · exact connOf_idle h.held hn
  have hclosed : Owned { pm.closeCurrent with
      cfg := { pm.closeCurrent.cfg with transportNames := pm.closeCurrent.reorderTransports target }
      currentTransport := none
      state := .connecting } none := by
    refine h.settle (fun name c hc => nomatch (hnone name).symm.trans hc) nofun (fun c => ?_) hqueue hoffering hconns
      ⟨hcycles.dialing, hcycles.offering⟩ (fun hexit => nomatch hrunning.symm.trans (hexited.symm.trans hexit))
    refine (pm.mem_closeCurrent c).trans (or_congr_right ⟨fun ⟨n, _, hc⟩ => ⟨n, hc⟩, fun ⟨n, hc⟩ => ?_⟩)
    exact ⟨n, h.held n c hc, hc⟩
  exact hclosed.same (hexited.trans hrunning) (startConnectCycle_same _)

theorem Owned.stopDials (h : Owned pm hand) (hrunning : pm.exited = false) (state : PeerState) :
    Owned { pm.cancelInFlight.stopHappyEyeballs.stopRetry with state := state } hand := by
  have hcancel := h.same hrunning pm.cancelInFlight_same
  exact hcancel.same hrunning (bookkeeping_same _ state _ _ _ _)

theorem Owned.closeAll (h : Owned pm none) {f : TransportState → TransportState} (hf : ∀ ts, (f ts).conn = none)
    (state : PeerState) (exited : Bool)
    (hended : exited = true → (∀ r ∈ pm.dialResultCh, r.conn = none) ∧ pm.connectGen ∈ pm.cancelledGens) :
    Owned { pm.closeAll.mapTransports f with currentTransport := none, state := state, exited := exited } none := by
  have hnone : ∀ name, (pm.closeAll.mapTransports f).connOf name = none := by
    intro name
    rw [connOf_mapTransports]
    exact Option.bind_eq_none_iff.mpr fun ts _ => hf ts
  exact h.settle (fun name c hc => nomatch (hnone name).symm.trans hc) nofun pm.mem_closeAll rfl rfl rfl
    ⟨h.cycles.dialing, h.cycles.offering⟩ fun hexit => ⟨rfl, hended hexit⟩

theorem Owned.handleReconnect (h : Owned pm none) (hrunning : pm.exited = false) : Owned pm.handleReconnect none := by
  have hclosed := h.closeAll (f := TransportState.restart) (fun _ => rfl) pm.state pm.exited
    (fun hexit => nomatch hrunning.symm.trans hexit)
  have hstopped := hclosed.stopDials hrunning .connecting
  exact hstopped.same hrunning (startConnectCycle_same _)

theorem Owned.cleanup (h : Owned pm none) (hrunning : pm.exited = false)
    (hqueue : ∀ r ∈ pm.dialResultCh, r.conn = none) : Owned pm.cleanup none := by
  have hstopped : Owned pm.cancelInFlight.stopHappyEyeballs.stopRetry none := h.stopDials hrunning pm.state
  exact hstopped.closeAll (fun _ => rfl) .disconnected true (fun _ => ⟨hqueue, mem_cons_self⟩)

theorem closePrevious_spec {c : ℕ}
    (hheld : ∀ n x, pm.connOf n = some x → pm.currentTransport = some n) (hfree : pm.connOf name = none)
    (htaken : ∀ n, pm'.connOf n = if n = name then some c else pm.connOf n)
    (hcurrent : pm'.currentTransport = pm.currentTransport) (hclosed : pm'.forceClosed = pm.forceClosed) :
    (∀ n, (if pm'.currentTransport = some name then pm' else pm'.closeCurrent).connOf n =
        if n = name then some c else none) ∧
      ∀ x, x ∈ (if pm'.currentTransport = some name then pm' else pm'.closeCurrent).forceClosed ↔
        x ∈ pm.forceClosed ∨ ∃ n, pm.connOf n = some x := by
  rw [hcurrent]
  by_cases hcur : pm.currentTransport = some name
  · have hall : ∀ n, pm.connOf n = none := by
      intro n
      by_cases hn : n = name
      · rw [hn]
        exact hfree
      · exact connOf_idle hheld fun he => hn (Option.mem_unique he hcur)
    rw [if_pos hcur]
    refine ⟨fun n => ?_, fun x => ?_⟩
    · rw [htaken, hall]
    · rw [hclosed]
      refine ⟨.inl, fun hx => hx.resolve_right fun ⟨n, hn⟩ => ?_⟩
      rw [hall] at hn
      cases hn
  · rw [if_neg hcur]
    refine ⟨fun n => ?_, fun x => ?_⟩
    · rw [pm'.connOf_closeCurrent, hcurrent, htaken]
      by_cases hn : n = name
      · rw [if_neg (hn ▸ hcur), if_pos hn, if_pos hn]
      · rw [if_neg hn, if_neg hn]
        split_ifs with hn'
        · rfl
        · exact connOf_idle hheld hn'
    · rw [pm'.mem_closeCurrent, hcurrent, hclosed]
      refine or_congr_right ⟨fun ⟨n, hn, hx⟩ => ⟨n, ?_⟩, fun ⟨n, hx⟩ => ⟨n, hheld n x hx, ?_⟩⟩
      · rw [htaken, if_neg (fun he : n = name => hcur (he ▸ hn))] at hx
        exact hx
      · rw [htaken, if_neg (fun he : n = name => hcur (he ▸ hheld n x hx))]
        exact hx

theorem Owned.dialSucceeded {c : ℕ} (h : Owned pm (some c)) (hrunning : pm.exited = false)
    (hfree : pm.connOf name = none) (latency : ℤ) : Owned (pm.dialSucceeded name c latency) none := by
  let taken := { pm.setTransport name ((pm.getOrCreateTransportState name).succeed c latency) with
    lastLatency := latency }
  have htaken : ∀ n, taken.connOf n = if n = name then some c else pm.connOf n :=
    fun n => pm.connOf_setTransport name n _
  obtain ⟨hconn, hclosed⟩ := closePrevious_spec h.held hfree htaken rfl rfl
  generalize hprev : (if taken.currentTransport = some name then taken else taken.closeCurrent) = prev at hconn hclosed
  obtain ⟨hqueue, hoffering, hexited, hconns, hcycles⟩ : prev.dialResultCh = pm.dialResultCh ∧
      prev.offering = pm.offering ∧ prev.exited = pm.exited ∧ prev.conns = pm.conns ∧ Cycles prev := by
    have hcycles : Cycles taken := ⟨h.cycles.dialing, h.cycles.offering⟩
    rw [← hprev]
    split_ifs
    · exact ⟨rfl, rfl, rfl, rfl, hcycles⟩
    · exact taken.closeCurrent_rest hcycles
  have hrunning' : prev.exited = false := hexited.trans hrunning
  have hkept : Owned { prev with currentTransport := some name } none := by
    refine h.settle (fun n x hx => ?_) (fun x hx => ⟨name, (hconn name).trans ((if_pos rfl).trans hx)⟩) hclosed hqueue
      hoffering hconns ⟨hcycles.dialing, hcycles.offering⟩ fun hexit => nomatch hrunning'.symm.trans hexit
    have hx' := (hconn n).symm.trans hx
    split_ifs at hx' with hn
    exact congrArg some hn.symm
  have hstopped := hkept.stopDials hrunning' .connected
  rw [← hprev] at hstopped
  exact hstopped

theorem Owned.handleDialResult {r : DialResult} (h : Owned pm r.conn) (hrunning : pm.exited = false)
    (hfree : r.gen = pm.connectGen → r.conn.isSome = true → pm.connOf r.transportName = none) (now latency : ℤ) :
    Owned (pm.handleDialResult r now latency) none := by
  unfold PeerManager.handleDialResult
  split_ifs with hgen
  · exact h.forceClose
  · have htracked := h.same hrunning
      (pm.bookkeeping_same pm.state pm.lastLatency (pm.inFlight.erase r.transportName) pm.happyEyeballsTimer
        pm.retryTimer)
    cases hconn : r.conn with
    | none =>
      rw [hconn] at htracked
      exact htracked.same hrunning (PeerManager.dialFailed_same _ _ _)
    | some c =>
      rw [hconn] at htracked hfree
      exact htracked.dialSucceeded hrunning (hfree (not_not.mp hgen) rfl) latency

theorem Owned.evaluatePathSwitching (h : Owned pm none) (hrunning : pm.exited = false) (now : ℤ)
    (active : Option TransportName) (order : List TransportName) :
    Owned (pm.evaluatePathSwitching now active order) none := by
  unfold PeerManager.evaluatePathSwitching
  split
  · exact h
  · rename_i active
    split
    · exact h
    · rename_i ts hts
      have hstable : ∀ n, SameConns pm (pm.setTransport active { ts with stableBetter := n }) :=
        fun n => pm.setTransport_same (PeerManager.connOf_of_lookup hts).symm
      dsimp only
      split
      · exact h
      · split
        · exact h.same hrunning (hstable 0)
        · split_ifs
          · exact (h.same hrunning (hstable _)).triggerSwitch hrunning _
          · exact h.same hrunning (hstable _)
          · exact h.same hrunning (hstable 0)

theorem Owned.onProbeTick (h : Owned pm none) (hrunning : pm.exited = false) (now : ℤ) (order : List TransportName)
    (outcome : TransportName → ProbeOutcome) : Owned (pm.onProbeTick now order outcome) none := by
  unfold PeerManager.onProbeTick
  split
  · have hsame := pm.checkQuarantineExpiry_same now
    have hexpired := h.same hrunning hsame
    dsimp only
    split_ifs
    · exact hexpired.same (hsame.exited.trans hrunning) (PeerManager.startConnectCycle_same _)
    · exact hexpired
  · have hsame := pm.probeAll_same now pm.currentTransport outcome order
    exact (h.same hrunning hsame).evaluatePathSwitching (hsame.exited.trans hrunning) now _ order
  · exact h

/-! ### Steps and runs -/

theorem Owned.requeue (h : Owned pm none) {queue offering : List DialResult}
    (hkeep : ∀ r ∈ pm.dialResultCh ++ pm.offering, r ∈ queue ++ offering ∨ r.conn = hand)
    (hoffering : ∀ r ∈ offering, r ∈ pm.offering) (hended : pm.exited = true → ∀ r ∈ queue, r.conn = none) :
    Owned { pm with dialResultCh := queue, offering := offering } hand where
  cycles := ⟨h.cycles.dialing, fun r hr => h.cycles.offering r (hoffering r hr)⟩
  held := h.held
  owned := fun c hc => by
    rcases h.owned c hc with hclosed | ⟨r, hr, hrc⟩ | hheld | hhand
    · exact .inl hclosed
    · rcases hkeep r hr with hkept | hgone
      · exact .inr (.inl ⟨r, hkept, hrc⟩)
      · exact .inr (.inr (.inr (hgone.symm.trans hrc)))
    · exact .inr (.inr (.inl hheld))
    · cases hhand
  ended := fun hexit => ⟨(h.ended hexit).1, hended hexit, (h.ended hexit).2.2⟩

theorem Owned.dialReturns (h : Owned pm none) (i : ℕ) (ok : Bool) : Owned (pm.dialReturns i ok) none := by
  unfold PeerManager.dialReturns
  split
  · exact h
  · rename_i gen name hdial
    refine ⟨⟨fun d hd => h.cycles.dialing d (mem_of_mem_eraseIdx hd), ?_⟩, h.held, fun c hc => ?_, h.ended⟩
    · exact forall_mem_append.mpr ⟨h.cycles.offering, forall_mem_singleton.mpr (h.cycles.dialing _ (mem_of_getElem? hdial))⟩
    have hqueue : ∀ r ∈ pm.dialResultCh ++ pm.offering,
        r ∈ pm.dialResultCh ++ (pm.offering ++ [⟨gen, name, if ok then some pm.conns else none⟩]) := by
      intro r hr
      rw [← append_assoc]
      exact mem_append_left _ hr
    by_cases hlt : c < pm.conns
    · exact (h.owned c hlt).imp_right (Or.imp_left fun ⟨r, hr, hrc⟩ => ⟨r, hqueue r hr, hrc⟩)
    · -- the connection that this dial returned
      cases ok with
      | false => exact absurd hc hlt
      | true =>
        have hnew : c = pm.conns := Nat.le_antisymm (Nat.le_of_lt_succ hc) (Nat.le_of_not_lt hlt)
        refine .inr (.inl ⟨⟨gen, name, some pm.conns⟩, ?_, congrArg some hnew.symm⟩)
        exact mem_append_right _ (mem_append_right _ mem_cons_self)

theorem Owned.offer (h : Owned pm none) (i : ℕ) (send : Bool)
    (hafter : send = true → pm.exited = true → ∀ r ∈ pm.offering[i]?, r.conn = none) :
    Owned (pm.offer i send) none := by
  unfold PeerManager.offer
  split
  · exact h
  · rename_i r hr
    split_ifs with hsend hroom hdone
    · refine h.requeue (fun x hx => .inl ?_) (fun x hx => mem_of_mem_eraseIdx hx) (fun hexit => ?_)
      · rcases mem_append.mp hx with hx | hx
        · exact mem_append_left _ (mem_append_left _ hx)
        · rcases Table.eq_or_mem_eraseIdx hr hx with rfl | hx
          · exact mem_append_left _ (mem_append_right _ mem_cons_self)
          · exact mem_append_right _ hx
      · exact forall_mem_append.mpr ⟨(h.ended hexit).2.1, forall_mem_singleton.mpr (hafter hsend hexit r hr)⟩
    · exact h
    · have hgiven : Owned { pm with dialResultCh := pm.dialResultCh, offering := pm.offering.eraseIdx i } r.conn := by
        refine h.requeue (fun x hx => ?_) (fun x hx => mem_of_mem_eraseIdx hx) (fun hexit => (h.ended hexit).2.1)
        rcases mem_append.mp hx with hx | hx
        · exact .inl (mem_append_left _ hx)
        · rcases Table.eq_or_mem_eraseIdx hr hx with rfl | hx
          · exact .inr rfl
          · exact .inl (mem_append_right _ hx)
      exact hgiven.forceClose
    · exact h

end Ownership

namespace PeerManager

/-- A successful result of the current cycle is handled only if its transport holds no connection; the
loop exits only if no successful result is queued; and after the exit a dial goroutine does not send a
connection. -/
def Careful (pm : PeerManager) : PeerStep → Prop
  | .result _ _ => ∀ r ∈ pm.dialResultCh.head?, r.gen = pm.connectGen → r.conn.isSome = true →
      pm.connOf r.transportName = none
  | .offer i send => send = true → pm.exited = true → ∀ r ∈ pm.offering[i]?, r.conn = none
  | .shutdown => ∀ r ∈ pm.dialResultCh, r.conn = none
  | .exit => pm.ctxDone = true → ∀ r ∈ pm.dialResultCh, r.conn = none
  | _ => True

instance (pm : PeerManager) (s : PeerStep) : Decidable (pm.Careful s) := by
  unfold Careful
  split <;> infer_instance

theorem loopStep_owned {pm : PeerManager} {s : PeerStep} (h : Owned pm none) (hrunning : pm.exited = false)
    (hcareful : pm.Careful s) : Owned (pm.loopStep s) none := by
  cases s with
  | result now latency =>
    unfold loopStep
    dsimp only
    split
    · exact h
    · rename_i r rest hqueue
      have hfree := hcareful r (by rw [hqueue]; rfl)
      have htaken : Owned { pm with dialResultCh := rest, offering := pm.offering } r.conn := by
        refine h.requeue (fun x hx => ?_) (fun x hx => hx) (fun hexit => nomatch hrunning.symm.trans hexit)
        rw [hqueue] at hx
        rcases mem_cons.mp hx with rfl | hx
        · exact .inr rfl
        · exact .inl hx
      exact htaken.handleDialResult hrunning hfree now latency
  | probeTick now order outcome => exact h.onProbeTick hrunning now order outcome
  | happyEyeballs =>
    unfold loopStep
    dsimp only
    split
    · exact (h.same hrunning pm.stopHappyEyeballs_same).same hrunning (startFallbackDial_same _)
    · exact h
  | retry =>
    unfold loopStep
    dsimp only
    split
    · exact (h.same hrunning pm.stopRetry_same).same hrunning (startConnectCycle_same _)
    · exact h
  | reconnect => exact h.handleReconnect hrunning
  | shutdown => exact h.cleanup hrunning hcareful
  | exit =>
    unfold loopStep
    dsimp only
    split
    · rename_i hdone
      exact h.cleanup hrunning (hcareful hdone)
    · exact h
  | _ => exact h

theorem step_owned (pm : PeerManager) (s : PeerStep) (hcareful : pm.Careful s) (h : Owned pm none) :
    Owned (pm.step s) none := by
  have hloop : Owned (if pm.exited then pm else pm.loopStep s) none := by
    split_ifs with hexit
    · exact h
    · exact loopStep_owned h (Bool.eq_false_iff.mpr hexit) hcareful
  cases s with
  | dialReturns i ok => exact h.dialReturns i ok
  | offer i send => exact h.offer i send hcareful
  | cancel => exact ⟨⟨h.cycles.dialing, h.cycles.offering⟩, h.held, h.owned, h.ended⟩
  | _ => exact hloop

def CarefulRun (pm : PeerManager) (steps : List PeerStep) : Prop := Meets step Careful pm steps

instance (pm : PeerManager) (steps : List PeerStep) : Decidable (pm.CarefulRun steps) :=
  inferInstanceAs (Decidable (Meets step Careful pm steps))

end PeerManager

theorem newTransportStates_conn (cfg : PeerManagerConfig) (names : List TransportName)
    {states : Map TransportName TransportState} (h : ∀ n ts, states.lookup n = some ts → ts.conn = none)
    (n : TransportName) {ts : TransportState}
    (hts : (names.foldl (fun states name => states.insert name (newTransportState cfg)) states).lookup n = some ts) :
    ts.conn = none := by
  induction names generalizing states with
  | nil => exact h n ts hts
  | cons name names ih =>
    refine ih (fun m ts' hm => ?_) hts
    obtain ⟨-, rfl⟩ | ⟨-, hold⟩ := Map.lookup_of_insert hm
    · rfl
    · exact h m ts' hold

theorem owned_start {cfg : PeerManagerConfig} {pm : PeerManager} (h : (newPeerManager cfg).start = .ok pm) :
    Owned pm none := by
  have hnone : ∀ n, (newPeerManager cfg).connOf n = none := by
    intro n
    cases hts : (newPeerManager cfg).transportStates.lookup n with
    | none =>
      rw [connOf, hts]
      rfl
    | some ts =>
      rw [connOf_of_lookup hts]
      exact newTransportStates_conn cfg.fill cfg.transportNames (fun m ts hm => (by cases hm)) n hts
  have hnew : Owned { newPeerManager cfg with started := true, state := .connecting } none := by
    refine ⟨⟨forall_mem_nil _, forall_mem_nil _⟩, fun n c hc => ?_,
      fun c hc => absurd hc (Nat.not_lt_zero c), nofun⟩
    have hc' : (newPeerManager cfg).connOf n = some c := hc
    rw [hnone] at hc'
    cases hc'
  unfold start at h
  split_ifs at h
  cases h
  exact hnew.same rfl (startConnectCycle_same _)

/-- In every careful run of a started manager, a connection that a dial returned is the one of the
current transport, on its way to the loop, or closed; after the exit it is closed, or in the hands of its
dial goroutine whose context is cancelled. -/
theorem peerRun_owned (cfg : PeerManagerConfig) (pm : PeerManager) (hstart : (newPeerManager cfg).start = .ok pm)
    (steps : List PeerStep) (hcareful : pm.CarefulRun steps) (c : ℕ) (hc : c < (pm.run steps).conns) :
    ((∃ name, (pm.run steps).currentTransport = some name ∧ (pm.run steps).connOf name = some c) ∨
      (∃ r ∈ (pm.run steps).dialResultCh ++ (pm.run steps).offering, r.conn = some c) ∨
      c ∈ (pm.run steps).forceClosed) ∧
    ((pm.run steps).exited = true →
      c ∈ (pm.run steps).forceClosed ∨
        ∃ r ∈ (pm.run steps).offering, r.conn = some c ∧ r.gen ∈ (pm.run steps).cancelledGens) := by
  have h : Owned (pm.run steps) none := hcareful.invariant
    step_owned (owned_start hstart)
  rcases h.owned c hc with hclosed | hqueued | ⟨name, hname⟩ | hhand
  · exact ⟨.inr (.inr hclosed), fun _ => .inl hclosed⟩
  · refine ⟨.inr (.inl hqueued), fun hexit => ?_⟩
    obtain ⟨r, hr, hrc⟩ := hqueued
    rcases mem_append.mp hr with hr | hr
    · rw [(h.ended hexit).2.1 r hr] at hrc
      cases hrc
    · refine .inr ⟨r, hr, hrc, ?_⟩
      rcases h.cycles.offering r hr with hcancelled | hlast
      · exact hcancelled
      · rw [hlast]
        exact (h.ended hexit).2.2
  · have hcurrent := h.held name c hname
    refine ⟨.inl ⟨name, hcurrent, hname⟩, fun hexit => ?_⟩
    rw [(h.ended hexit).1] at hcurrent
    cases hcurrent
  · cases hhand

def hedgedConfig : PeerManagerConfig := { defaultPeerManagerConfig with transportNames := [.reality, .udp] }

def hedgedManager : PeerManager :=
  PeerManager.startConnectCycle { newPeerManager hedgedConfig with started := true, state := .connecting }

/-- Both dials of a cycle succeed, one after the other, and the manager is stopped. -/
def bothSucceed : List PeerStep :=
  [.happyEyeballs, .dialReturns 0 true, .offer 0 true, .result 0 5, .dialReturns 0 true, .offer 0 true, .result 0 7,
    .cancel, .exit]

theorem peerRun_owned_bothSucceed :
    hedgedManager.CarefulRun bothSucceed ∧ (hedgedManager.run bothSucceed).conns = 2 ∧
      (hedgedManager.run bothSucceed).exited = true ∧ (hedgedManager.run bothSucceed).forceClosed = [1, 0] ∧
      ∀ c < 2, c ∈ (hedgedManager.run bothSucceed).forceClosed ∨
        ∃ r ∈ (hedgedManager.run bothSucceed).offering,
          r.conn = some c ∧ r.gen ∈ (hedgedManager.run bothSucceed).cancelledGens := by
  have hcareful : hedgedManager.CarefulRun bothSucceed := by decide
  have hconns : (hedgedManager.run bothSucceed).conns = 2 := by decide
  have hexited : (hedgedManager.run bothSucceed).exited = true := by decide
  refine ⟨hcareful, hconns, hexited, by decide, fun c hc => ?_⟩
  have hc' : c < (hedgedManager.run bothSucceed).conns := by
    exact hc
  exact (peerRun_owned hedgedConfig hedgedManager rfl bothSucceed hcareful c hc').2 hexited

/-- The primary succeeds; the cancelled fallback reports its failure, which starts the retry timer; the
next cycle dials the transport that is connected. -/
def lateFailure : List PeerStep :=
  [.happyEyeballs, .dialReturns 0 true, .offer 0 true, .result 0 5, .dialReturns 0 false, .offer 0 true, .result 0 0,
    .retry, .dialReturns 0 true, .offer 0 true, .result 0 5]

def queuedAtExit : List PeerStep := [.dialReturns 0 true, .offer 0 true, .cancel, .exit]

/-- The new connection of the same transport overwrites the first one, which nobody owns or closes, also
not at the exit; and a connection that is queued at the exit is never closed. -/
theorem peerRun_leaks :
    ((hedgedManager.run lateFailure).conns = 2 ∧
      (hedgedManager.run lateFailure).currentTransport = some .reality ∧
      (hedgedManager.run lateFailure).connOf .reality = some 1 ∧
      (hedgedManager.run lateFailure).dialResultCh = [] ∧ (hedgedManager.run lateFailure).offering = [] ∧
      (hedgedManager.run lateFailure).forceClosed = [] ∧
      (hedgedManager.run (lateFailure ++ [.cancel, .exit])).exited = true ∧
      (hedgedManager.run (lateFailure ++ [.cancel, .exit])).forceClosed = [1]) ∧
    (hedgedManager.run queuedAtExit).conns = 1 ∧ (hedgedManager.run queuedAtExit).exited = true ∧
      (hedgedManager.run queuedAtExit).dialResultCh.map DialResult.conn = [some 0] ∧
      (hedgedManager.run queuedAtExit).forceClosed = [] := by
  decide

end MeshDesk.Mesh
