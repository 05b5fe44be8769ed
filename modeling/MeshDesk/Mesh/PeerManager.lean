import MeshDesk.Mesh.PeerTransport

/-! `PeerManager`: the loop that dials the transports of a peer, keeps one connection, probes and switches, with the
dial goroutines and the channel that brings their results. A step is one turn of the loop's select or of a dial
goroutine. Connections are numbered as dials return them. -/
namespace MeshDesk.Mesh
open Lib

inductive PeerState where
  | disconnected
  | connecting
  | connected
  deriving DecidableEq, Repr

/-- The error of a failed dial is not looked at. -/
structure DialResult where
  gen : ℕ
  transportName : TransportName
  conn : Option ℕ
  deriving DecidableEq

def dialResultCap : ℕ := 4

/-- The dial context of a cycle is known by the cycle's generation. `dialing` are the goroutines whose
dial has not returned, `offering` those that are at their select with a result. `exited` says that the
loop has returned. -/
structure PeerManager where
  cfg : PeerManagerConfig
  started : Bool
  state : PeerState
  transportStates : Map TransportName TransportState
  currentTransport : Option TransportName
  lastLatency : ℤ
  connectGen : ℕ
  inFlight : List TransportName
  happyEyeballsTimer : Bool
  retryTimer : Bool
  dialResultCh : List DialResult
  dialing : List (ℕ × TransportName)
  offering : List DialResult
  cancelledGens : List ℕ
  ctxDone : Bool
  exited : Bool
  conns : ℕ
  forceClosed : List ℕ

def newPeerManager (cfg : PeerManagerConfig) : PeerManager where
  cfg := cfg.fill
  started := false
  state := .disconnected
  transportStates := cfg.transportNames.foldl (fun states name => states.insert name (newTransportState cfg.fill)) ∅
  currentTransport := none
  lastLatency := 0
  connectGen := 0
  inFlight := []
  happyEyeballsTimer := false
  retryTimer := false
  dialResultCh := []
  dialing := []
  offering := []
  cancelledGens := []
  ctxDone := false
  exited := false
  conns := 0
  forceClosed := []

/-- What a latency probe of a transport gives: nothing for a transport that cannot be made or is not
healthy, an error that may be permanent, or a round-trip time. -/
inductive ProbeOutcome where
  | unavailable
  | failed (permanent : Bool)
  | ok (rtt : ℤ)
  deriving DecidableEq, Repr

inductive StartError where
  | alreadyStarted
  | noTransports
  deriving DecidableEq, Repr

def StartError.text : StartError → String
  | .alreadyStarted => "peermanager: already started"
  | .noTransports => "peermanager: no transports configured"

namespace PeerManager
variable (pm : PeerManager)

/-! ### Helpers -/

def forceClose (conn : Option ℕ) : PeerManager := { pm with forceClosed := conn.toList ++ pm.forceClosed }

def cancelInFlight : PeerManager := { pm with cancelledGens := pm.connectGen :: pm.cancelledGens, inFlight := [] }

def stopHappyEyeballs : PeerManager := { pm with happyEyeballsTimer := false }

def stopRetry : PeerManager := { pm with retryTimer := false }

variable (name : TransportName) (now : ℤ)

def getOrCreateTransportState : TransportState :=
  (pm.transportStates.lookup name).getD (newTransportState pm.cfg)

def setTransport (ts : TransportState) : PeerManager :=
  { pm with transportStates := pm.transportStates.insert name ts }

def mapTransports (f : TransportState → TransportState) : PeerManager :=
  { pm with transportStates := Map.filterMapVals (fun ts => some (f ts)) pm.transportStates }

/-- A transport that was never tried is eligible. -/
def candidateTransports : List TransportName :=
  pm.cfg.transportNames.filter (fun name => (pm.transportStates.lookup name).all TransportState.isUsable)

/-- The transport that has been quarantined the longest, or one that was never tried. -/
def escapeFrom : List TransportName → Option (TransportName × ℤ) → List TransportName
  | [], best => (best.map Prod.fst).toList
  | name :: names, best =>
    match pm.transportStates.lookup name with
    | none => [name]
    | some ts =>
      if ts.subState = .quarantined ∧ best.all (fun b => decide (ts.quarantinedAt < b.2)) = true then
        escapeFrom names (some (name, ts.quarantinedAt))
      else escapeFrom names best

def blackoutEscapeCandidates : List TransportName := pm.escapeFrom pm.cfg.transportNames none

def reorderTransports (target : TransportName) : List TransportName :=
  target :: pm.cfg.transportNames.filter (fun name => decide (name ≠ target))

/-! ### Connect cycles -/

def startDial (gen : ℕ) (name : TransportName) : PeerManager :=
  let pm := pm.setTransport name { pm.getOrCreateTransportState name with subState := .connecting }
  { pm with inFlight := pm.inFlight.insert name, dialing := pm.dialing ++ [(gen, name)] }

/-- The fallback timer is set for slow and fast primaries alike. -/
def startConnectCycle : PeerManager :=
  let pm := pm.cancelInFlight
  let pm := { pm with state := if pm.state = .connected then .connected else .connecting }
  match if pm.candidateTransports = [] then pm.blackoutEscapeCandidates else pm.candidateTransports with
  | [] => pm
  | primary :: fallbacks =>
    let pm := { pm with connectGen := pm.connectGen + 1 }
    let pm := pm.startDial pm.connectGen primary
    { pm with happyEyeballsTimer := !fallbacks.isEmpty || pm.happyEyeballsTimer }

def startFallbackDial : PeerManager :=
  match pm.candidateTransports.find? (fun name => !pm.inFlight.contains name) with
  | none => pm
  | some name => pm.startDial pm.connectGen name

/-- `Start` and the first turn of `run`. -/
def start : Except StartError PeerManager :=
  if pm.started then .error .alreadyStarted
  else if pm.cfg.transportNames = [] then .error .noTransports
  else .ok { pm with started := true, state := .connecting }.startConnectCycle

def checkQuarantineExpiry : PeerManager :=
  let anyExpired := pm.transportStates.entries.any (fun e => e.2.isExpired now)
  let pm := pm.mapTransports (fun ts => ts.expire now)
  if anyExpired = true ∧ pm.state = .connecting ∧ pm.inFlight = [] then pm.startConnectCycle else pm

def onAllDialsFailed : PeerManager :=
  if pm.candidateTransports ≠ [] then { pm with retryTimer := true } else pm.checkQuarantineExpiry now

def closeCurrent : PeerManager :=
  match pm.currentTransport with
  | none => pm
  | some current =>
    match pm.transportStates.lookup current with
    | none => pm
    | some old =>
      if old.conn.isSome then
        (pm.forceClose old.conn).setTransport current { old with conn := none, subState := .active }
      else pm

def dialSucceeded (conn : ℕ) (latency : ℤ) : PeerManager :=
  let pm := pm.setTransport name ((pm.getOrCreateTransportState name).succeed conn latency)
  let pm := { pm with lastLatency := latency }
  let pm := if pm.currentTransport = some name then pm else pm.closeCurrent
  let pm := { pm with currentTransport := some name }
  { pm.cancelInFlight.stopHappyEyeballs.stopRetry with state := .connected }

def dialFailed : PeerManager :=
  let pm := pm.setTransport name ((pm.getOrCreateTransportState name).fail pm.cfg name now)
  if pm.inFlight = [] then pm.stopHappyEyeballs.onAllDialsFailed now else pm

def handleDialResult (result : DialResult) (now latency : ℤ) : PeerManager :=
  if result.gen ≠ pm.connectGen then pm.forceClose result.conn
  else
    let pm := { pm with inFlight := pm.inFlight.erase result.transportName }
    match result.conn with
    | some conn => pm.dialSucceeded result.transportName conn latency
    | none => pm.dialFailed result.transportName now

/-! ### Probes and switching -/

/-- The probe of one transport; a quarantined `reality` is probed at longer intervals. -/
def probeTransport (active : Option TransportName) (outcome : TransportName → ProbeOutcome) (name : TransportName) :
    PeerManager :=
  match pm.transportStates.lookup name with
  | none => pm
  | some ts =>
    let allowed := ts.isUsable || (decide (name = .reality ∧ ts.subState = .quarantined) &&
      decide (ts.lastProbeAt + pm.cfg.probeIntervalQuarantinedReality < now))
    if allowed = true ∧ ts.lastProbeAt + pm.cfg.probeInterval < now then
      match outcome name with
      | .unavailable => pm
      | .failed permanent =>
        pm.setTransport name { ts with subState := if permanent then .failed else ts.subState, lastProbeAt := now }
      | .ok rtt =>
        let pm := pm.setTransport name
          { ts with subState := .active, latency := ts.latency.push rtt, lastProbeAt := now }
        { pm with lastLatency := if active = some name then rtt else pm.lastLatency }
    else pm

def triggerSwitch (target : TransportName) : PeerManager :=
  let pm := pm.closeCurrent
  let pm := { pm with cfg := { pm.cfg with transportNames := pm.reorderTransports target }, currentTransport := none }
  { pm with state := .connecting }.startConnectCycle

/-- The alternative with the lowest score, in the order in which the map gives them. -/
def bestAlternative (active : TransportName) (order : List TransportName) : Option (TransportName × ℚ) :=
  order.foldl (fun best name =>
    match pm.transportStates.lookup name with
    | none => best
    | some ts =>
      let score := ts.computeScore pm.cfg now
      if name = active ∨ ts.isUsable = false ∨ (ts.latency.count : ℤ) < pm.cfg.minSamplesForScoring ∨ score = 0 then best
      else if best.all (fun b => decide (score < b.2)) = true then some (name, score) else best) none

def evaluatePathSwitching (active : Option TransportName) (order : List TransportName) : PeerManager :=
  match active with
  | none => pm
  | some active =>
    match pm.transportStates.lookup active with
    | none => pm
    | some ts =>
      let activeScore := ts.computeScore pm.cfg now
      if (ts.latency.count : ℤ) < pm.cfg.minSamplesForScoring ∨ activeScore = 0 then pm
      else
        match pm.bestAlternative now active order with
        | none => pm.setTransport active { ts with stableBetter := 0 }
        | some best =>
          let effective := activeScore - pm.cfg.hysteresisBonusFor ts.eLat
          if best.2 < effective * (1 - pm.cfg.scoreSwitchThreshold) then
            let pm := pm.setTransport active { ts with stableBetter := ts.stableBetter + 1 }
            if pm.cfg.scoreStableProbes ≤ (ts.stableBetter + 1 : ℕ) then pm.triggerSwitch best.1 else pm
          else pm.setTransport active { ts with stableBetter := 0 }

/-- The transports are probed one after the other, then the paths are compared. -/
def probeAndEvaluate (order : List TransportName) (outcome : TransportName → ProbeOutcome) : PeerManager :=
  let probed := order.foldl (fun pm' name => pm'.probeTransport now pm.currentTransport outcome name) pm
  probed.evaluatePathSwitching now pm.currentTransport order

def onProbeTick (order : List TransportName) (outcome : TransportName → ProbeOutcome) : PeerManager :=
  match pm.state with
  | .connecting =>
    let pm := pm.checkQuarantineExpiry now
    if pm.retryTimer = false ∧ pm.inFlight = [] ∧ pm.candidateTransports ≠ [] then pm.startConnectCycle else pm
  | .connected => pm.probeAndEvaluate now order outcome
  | .disconnected => pm

/-! ### Reconnect and clean-up -/

def closeAll : PeerManager :=
  { pm with forceClosed := pm.transportStates.entries.filterMap (fun e => e.2.conn) ++ pm.forceClosed }

def handleReconnect : PeerManager :=
  let pm := { pm.closeAll.mapTransports TransportState.restart with currentTransport := none }
  { pm.cancelInFlight.stopHappyEyeballs.stopRetry with state := .connecting }.startConnectCycle

/-- `cleanup`. What is queued in `dialResultCh` is left there. -/
def cleanup : PeerManager :=
  let pm := pm.cancelInFlight.stopHappyEyeballs.stopRetry.closeAll
  let pm := pm.mapTransports (fun ts => { ts with conn := none })
  { pm with currentTransport := none, state := .disconnected, exited := true }

end PeerManager

/-! ### Steps -/

/-- `dialReturns` and `offer` are turns of the dial goroutine at that place; an offer is sent to the channel or given
up because the context is cancelled. `cancel` comes from outside; the others are turns of the loop. -/
inductive PeerStep where
  | dialReturns (i : ℕ) (ok : Bool)
  | offer (i : ℕ) (send : Bool)
  | result (now latency : ℤ)
  | probeTick (now : ℤ) (order : List TransportName) (outcome : TransportName → ProbeOutcome)
  | happyEyeballs
  | retry
  | reconnect
  | shutdown
  | cancel
  | exit

namespace PeerManager
variable (pm : PeerManager)

def dialReturns (i : ℕ) (ok : Bool) : PeerManager :=
  match pm.dialing[i]? with
  | none => pm
  | some (gen, name) =>
    { pm with
      dialing := pm.dialing.eraseIdx i
      offering := pm.offering ++ [⟨gen, name, if ok then some pm.conns else none⟩]
      conns := if ok then pm.conns + 1 else pm.conns }

def offer (i : ℕ) (send : Bool) : PeerManager :=
  match pm.offering[i]? with
  | none => pm
  | some r =>
    if send then
      if pm.dialResultCh.length < dialResultCap then
        { pm with offering := pm.offering.eraseIdx i, dialResultCh := pm.dialResultCh ++ [r] }
      else pm
    else if pm.ctxDone = true ∨ r.gen ∈ pm.cancelledGens then
      { pm with offering := pm.offering.eraseIdx i }.forceClose r.conn
    else pm

def loopStep : PeerStep → PeerManager
  | .result now latency =>
    match pm.dialResultCh with
    | [] => pm
    | r :: rest => { pm with dialResultCh := rest }.handleDialResult r now latency
  | .probeTick now order outcome => pm.onProbeTick now order outcome
  | .happyEyeballs =>
    if pm.happyEyeballsTimer then { pm with happyEyeballsTimer := false }.startFallbackDial else pm
  | .retry => if pm.retryTimer then { pm with retryTimer := false }.startConnectCycle else pm
  | .reconnect => pm.handleReconnect
  | .shutdown => pm.cleanup
  | .exit => if pm.ctxDone then pm.cleanup else pm
  | _ => pm

def step : PeerStep → PeerManager
  | .dialReturns i ok => pm.dialReturns i ok
  | .offer i send => pm.offer i send
  | .cancel => { pm with ctxDone := true }
  | s => if pm.exited then pm else pm.loopStep s

def run (steps : List PeerStep) : PeerManager := steps.foldl step pm

end PeerManager
end MeshDesk.Mesh
