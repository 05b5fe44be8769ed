import MeshDesk.Proxy.Chunk

/-! The health of relays as their probes report it. -/
namespace MeshDesk.Proxy
open Lib

inductive RelayHealthState where
  | healthy
  | degraded
  | unhealthy
  deriving DecidableEq, Repr

structure RelayHealthEntry where
  state : RelayHealthState
  consecutiveFail : ℕ
  lastFailure : Time
  deriving DecidableEq, Repr

structure RelayHealthTracker where
  health : Map GoString RelayHealthEntry
  healthRecoveryDelay : Duration
  unhealthyThreshold : ℕ
  degradedThreshold : ℕ

def defaultHealthRecoveryDelay : Duration := 30 * second

def newRelayHealthTracker : RelayHealthTracker := ⟨∅, defaultHealthRecoveryDelay, 3, 1⟩

namespace RelayHealthTracker
variable (h : RelayHealthTracker)

variable (nodeID : GoString)

def getOrCreate : RelayHealthEntry := (h.health.lookup nodeID).getD ⟨.healthy, 0, 0⟩

def recordSuccess : RelayHealthTracker :=
  let entry := h.getOrCreate nodeID
  { h with health := h.health.insert nodeID { entry with consecutiveFail := 0, state := .healthy } }

def recordFailure (now : Time) : RelayHealthTracker :=
  let entry := h.getOrCreate nodeID
  let fails := entry.consecutiveFail + 1
  let state :=
    if h.unhealthyThreshold ≤ fails then .unhealthy
    else if h.degradedThreshold ≤ fails then .degraded
    else entry.state
  { h with health := h.health.insert nodeID ⟨state, fails, now⟩ }

def isUnhealthy : Bool :=
  (h.health.lookup nodeID).any (fun entry => entry.state = .unhealthy)

def canRetry (now : Time) : Bool :=
  match h.health.lookup nodeID with
  | none => true
  | some entry => entry.state ≠ .unhealthy || h.healthRecoveryDelay ≤ Time.sub now entry.lastFailure

def healthPenalty : ℚ :=
  match h.health.lookup nodeID with
  | none => 1
  | some entry =>
    match entry.state with
    | .healthy => 1
    | .degraded => 3 / 2
    | .unhealthy => 2 ^ 30

def reset : RelayHealthTracker := { h with health := h.health.erase nodeID }

def resetAll : RelayHealthTracker := { h with health := ∅ }

end RelayHealthTracker

inductive HealthCall where
  | recordSuccess (nodeID : GoString)
  | recordFailure (nodeID : GoString) (now : Time)
  | reset (nodeID : GoString)
  | resetAll
  deriving DecidableEq, Repr

def RelayHealthTracker.exec (h : RelayHealthTracker) : HealthCall → RelayHealthTracker
  | .recordSuccess nodeID => h.recordSuccess nodeID
  | .recordFailure nodeID now => h.recordFailure nodeID now
  | .reset nodeID => h.reset nodeID
  | .resetAll => h.resetAll

/-! ### The states count failures -/

/-- The state that a number of consecutive failures stands for. -/
def stateOf (fails : ℕ) : RelayHealthState :=
  if 3 ≤ fails then .unhealthy else if 1 ≤ fails then .degraded else .healthy

/-- The thresholds are the default ones, and every relay is in the state of its failures. -/
structure RelayHealthTracker.Counts (h : RelayHealthTracker) : Prop where
  unhealthy : h.unhealthyThreshold = 3
  degraded : h.degradedThreshold = 1
  state : ∀ nodeID entry, h.health.lookup nodeID = some entry → entry.state = stateOf entry.consecutiveFail

namespace RelayHealthTracker
variable {h : RelayHealthTracker}

theorem Counts.insert (hc : h.Counts) (nodeID : GoString) {entry : RelayHealthEntry}
    (hentry : entry.state = stateOf entry.consecutiveFail) :
    Counts { h with health := h.health.insert nodeID entry } := by
  refine ⟨hc.unhealthy, hc.degraded, fun id e he => ?_⟩
  obtain ⟨-, rfl⟩ | ⟨-, hold⟩ := Map.lookup_of_insert he
  · exact hentry
  · exact hc.state id e hold

theorem Counts.exec (hc : h.Counts) (call : HealthCall) : (h.exec call).Counts := by
  cases call with
  | recordSuccess nodeID => exact hc.insert nodeID rfl
  | recordFailure nodeID now =>
    -- a failure is always enough for the lower threshold, so the old state is never kept
    refine hc.insert nodeID ?_
    rw [hc.unhealthy, hc.degraded, stateOf]
    split_ifs with hun hdeg
    · rfl
    · rfl
    · omega
  | reset nodeID =>
    refine ⟨hc.unhealthy, hc.degraded, fun id e he => ?_⟩
    obtain rfl | hne := eq_or_ne id nodeID
    · cases (AList.lookup_erase id h.health).symm.trans he
    · exact hc.state id e ((AList.lookup_erase_ne hne).symm.trans he)
  | resetAll => exact ⟨hc.unhealthy, hc.degraded, nofun⟩

end RelayHealthTracker
end MeshDesk.Proxy
