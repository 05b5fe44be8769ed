import MeshDesk.Lib.Maps

/-! What a `PeerManager` keeps about one transport, and how it scores it. Times and durations are in
nanoseconds; the floating-point numbers of the code are exact rationals here. -/
namespace MeshDesk.Mesh
open Lib

/-- The code uses the empty string for "no transport", so a name is not empty. -/
abbrev TransportName := { s : String // s ≠ "" }

namespace TransportName

def udp : TransportName := ⟨"udp", by decide⟩

def reality : TransportName := ⟨"reality", by decide⟩

def websocket : TransportName := ⟨"websocket", by decide⟩

def relay : TransportName := ⟨"relay", by decide⟩

end TransportName

inductive TransportSubState where
  | active
  | connecting
  | probing
  | quarantined
  | failed
  deriving DecidableEq, Repr

def zeroTime : ℤ := -62135596800000000000

/-! ### Latency -/

structure LatencyEWMA where
  value : ℚ
  hasValue : Bool
  count : ℕ
  alphaRise : ℚ
  alphaFall : ℚ
  deriving DecidableEq

def defaultAlphaRise : ℚ := 7 / 10

def defaultAlphaFall : ℚ := 3 / 10

def newLatencyEWMA (alphaRise alphaFall : ℚ) : LatencyEWMA where
  value := 0
  hasValue := false
  count := 0
  alphaRise := if alphaRise ≤ 0 then defaultAlphaRise else alphaRise
  alphaFall := if alphaFall ≤ 0 then defaultAlphaFall else alphaFall

namespace LatencyEWMA
variable (e : LatencyEWMA)

def push (d : ℤ) : LatencyEWMA :=
  if e.hasValue then
    { e with
      count := e.count + 1
      value := e.value + (if e.value < d then e.alphaRise else e.alphaFall) * (d - e.value) }
  else { e with value := d, hasValue := true, count := 1 }

/-- The conversion to a duration cuts the fraction off. -/
def current : ℤ := if e.hasValue then e.value.num.tdiv e.value.den else 0

def reset : LatencyEWMA := { e with value := 0, hasValue := false, count := 0 }

end LatencyEWMA

/-! ### Configuration -/

/-- `QuarantineThreshold` may be nil. -/
structure PeerManagerConfig where
  transportNames : List TransportName
  quarantineThreshold : Option (Map TransportName ℤ)
  quarantineBaseCooldown : ℤ
  quarantineMaxCooldown : ℤ
  probeInterval : ℤ
  probeIntervalQuarantinedReality : ℤ
  alphaRise : ℚ
  alphaFall : ℚ
  failureLookback : ℤ
  blackoutThreshold : ℤ
  scoreSwitchThreshold : ℚ
  scoreStableProbes : ℤ
  minSamplesForScoring : ℤ
  hysteresisBonus : ℚ

def second : ℤ := 1000000000

def defaultUDPFailureThreshold : ℤ := 3

def defaultWSFailureThreshold : ℤ := 2

def defaultRealityFailureThreshold : ℤ := 2

def defaultRelayFailureThreshold : ℤ := 3

def defaultPeerManagerConfig : PeerManagerConfig where
  transportNames := []
  quarantineThreshold := some ((((∅ : Map TransportName ℤ).insert .udp defaultUDPFailureThreshold).insert .reality
    defaultRealityFailureThreshold).insert .websocket defaultWSFailureThreshold |>.insert .relay
    defaultRelayFailureThreshold)
  quarantineBaseCooldown := 30 * second
  quarantineMaxCooldown := 300 * second
  probeInterval := 30 * second
  probeIntervalQuarantinedReality := 300 * second
  alphaRise := defaultAlphaRise
  alphaFall := defaultAlphaFall
  failureLookback := 60 * second
  blackoutThreshold := 5
  scoreSwitchThreshold := 1 / 4
  scoreStableProbes := 3
  minSamplesForScoring := 3
  hysteresisBonus := 1 / 10

def orDefault {α : Type*} [Zero α] [DecidableEq α] (value default : α) : α := if value = 0 then default else value

namespace PeerManagerConfig
variable (cfg : PeerManagerConfig)

/-- `NewPeerManager` fills in the defaults. The bonus of the active transport is left at zero. -/
def fill : PeerManagerConfig :=
  let def_ := defaultPeerManagerConfig
  { cfg with
    quarantineThreshold := cfg.quarantineThreshold.or def_.quarantineThreshold
    quarantineBaseCooldown := orDefault cfg.quarantineBaseCooldown def_.quarantineBaseCooldown
    quarantineMaxCooldown := orDefault cfg.quarantineMaxCooldown def_.quarantineMaxCooldown
    probeInterval := orDefault cfg.probeInterval def_.probeInterval
    probeIntervalQuarantinedReality :=
      orDefault cfg.probeIntervalQuarantinedReality def_.probeIntervalQuarantinedReality
    alphaRise := orDefault cfg.alphaRise def_.alphaRise
    alphaFall := orDefault cfg.alphaFall def_.alphaFall
    failureLookback := orDefault cfg.failureLookback def_.failureLookback
    blackoutThreshold := orDefault cfg.blackoutThreshold def_.blackoutThreshold
    scoreSwitchThreshold := orDefault cfg.scoreSwitchThreshold def_.scoreSwitchThreshold
    scoreStableProbes := orDefault cfg.scoreStableProbes def_.scoreStableProbes
    minSamplesForScoring := orDefault cfg.minSamplesForScoring def_.minSamplesForScoring }

def failureThreshold (name : TransportName) : ℤ :=
  match (cfg.quarantineThreshold.bind (fun thresholds => thresholds.lookup name)).filter (fun t => decide (0 < t)) with
  | some t => t
  | none =>
    if name = .udp then defaultUDPFailureThreshold
    else if name = .websocket then defaultWSFailureThreshold
    else if name = .reality then defaultRealityFailureThreshold
    else defaultUDPFailureThreshold

def cooldownFrom (d : ℤ) : ℕ → ℤ
  | 0 => if cfg.quarantineMaxCooldown < d then cfg.quarantineMaxCooldown else d
  | n + 1 => if cfg.quarantineMaxCooldown < d * 2 then cfg.quarantineMaxCooldown else cooldownFrom (d * 2) n

def cooldownDuration (n : ℕ) : ℤ := cfg.cooldownFrom cfg.quarantineBaseCooldown n

/-- `hysteresisBonus`: what the score of the active transport is reduced by. -/
def hysteresisBonusFor (eLat : ℚ) : ℚ := if cfg.hysteresisBonus ≤ 0 then 0 else cfg.hysteresisBonus * eLat

end PeerManagerConfig

/-! ### A transport -/

/-- `conn` is the number of the connection that is held. -/
structure TransportState where
  subState : TransportSubState
  conn : Option ℕ
  latency : LatencyEWMA
  failures : ℕ
  quarantineN : ℕ
  quarantinedAt : ℤ
  cooldownUntil : ℤ
  stableBetter : ℕ
  lastProbeAt : ℤ
  failureTimes : List ℤ
  deriving DecidableEq

def newTransportState (cfg : PeerManagerConfig) : TransportState where
  subState := .active
  conn := none
  latency := newLatencyEWMA cfg.alphaRise cfg.alphaFall
  failures := 0
  quarantineN := 0
  quarantinedAt := zeroTime
  cooldownUntil := zeroTime
  stableBetter := 0
  lastProbeAt := zeroTime
  failureTimes := []

namespace TransportState
variable (cfg : PeerManagerConfig) (ts : TransportState)

def isUsable : Bool := decide (ts.subState ≠ .quarantined ∧ ts.subState ≠ .failed)

def succeed (conn : ℕ) (latency : ℤ) : TransportState :=
  { ts with subState := .active, failures := 0, quarantineN := 0, conn := some conn, latency := ts.latency.push latency }

def trimFailures (now : ℤ) : TransportState :=
  { ts with failureTimes := ts.failureTimes.filter (fun ft => decide (now - cfg.failureLookback < ft)) }

def fail (name : TransportName) (now : ℤ) : TransportState :=
  let ts := trimFailures cfg { ts with failures := ts.failures + 1, failureTimes := ts.failureTimes ++ [now] } now
  if cfg.failureThreshold name ≤ ts.failures then
    { ts with
      quarantineN := ts.quarantineN + 1
      subState := if cfg.blackoutThreshold ≤ (ts.quarantineN + 1 : ℕ) then .failed else .quarantined
      quarantinedAt := now
      cooldownUntil := now + cfg.cooldownDuration (ts.quarantineN + 1) }
  else { ts with subState := .active }

def isExpired (now : ℤ) : Bool := decide (ts.subState = .quarantined ∧ ts.cooldownUntil < now)

def expire (now : ℤ) : TransportState :=
  if ts.isExpired now then { ts with subState := .active, failures := 0, quarantinedAt := zeroTime } else ts

def restart : TransportState :=
  { ts with
    subState := .active
    quarantineN := 0
    failures := 0
    quarantinedAt := zeroTime
    cooldownUntil := zeroTime
    failureTimes := []
    latency := ts.latency.reset
    stableBetter := 0
    conn := none }

def eLat : ℚ := (ts.latency.current.tdiv 1000000 : ℤ)

/-- The smoothed latency and a penalty for recent failures; 0 without a measurement. -/
def computeScore (now : ℤ) : ℚ :=
  if ts.latency.current = 0 then 0
  else
    let recent := ts.failureTimes.countP (fun ft => decide (now - ft ≤ cfg.failureLookback))
    let recent := if recent < ts.failures then ts.failures else recent
    let attempts := if 10 < ts.latency.count + recent then ts.latency.count + recent else 10
    ts.eLat + ts.eLat * (recent / attempts)

end TransportState
end MeshDesk.Mesh
