import Mathlib.Data.List.Sort
import MeshDesk.Lib.Bytes
import MeshDesk.Proxy.Chunk

/-! Relayed dials: a node asks one relay after another for a tunnel to a target. The outcomes of streams and
whatever else happens in the mesh meanwhile are read from an environment, one moment at a time. -/
namespace MeshDesk.Mesh
open Lib (Map)
open Proxy (Time Duration)

/-! ### Cooldowns -/

def relayBackoffWindow : Duration := 30 * Proxy.second

def maxRelayBackoffWindow : Duration := 10 * 60 * Proxy.second

/-- Cooldowns and counts of consecutive failures, per target and relay. -/
structure RelayBackoff where
  nextTry : Map String Time := ∅
  fails : Map String Int64 := ∅

def relayBackoffKey (targetKey relayKey : String) : String :=
  .ofList (targetKey.toList.take 16) ++ "|" ++ .ofList (relayKey.toList.take 16)

namespace RelayBackoff

/-- Whether the relay may be tried; a large map is first cleared of expired cooldowns. -/
def allowed (b : RelayBackoff) (now : Time) (targetKey relayKey : String) : Bool × RelayBackoff :=
  let expired (k : String) : Bool := (b.nextTry.lookup k).any (· < now)
  let b := if b.nextTry.size > 1024 then ⟨b.nextTry.filterKeys (!expired ·), b.fails.filterKeys (!expired ·)⟩ else b
  ((b.nextTry.lookup (relayBackoffKey targetKey relayKey)).all (· < now), b)

/-- The cooldown after the `n`-th failure in a row. A negative shift count, which panics, is reached only when the
count itself has wrapped around. -/
def window (n : Int64) : Duration :=
  let window := Lib.shiftLeft64 relayBackoffWindow (n - 1).toUInt64.toNat
  let window := if n > 1 ∧ window < relayBackoffWindow then maxRelayBackoffWindow else window
  min window maxRelayBackoffWindow

def markFailed (b : RelayBackoff) (now : Time) (targetKey relayKey : String) : RelayBackoff :=
  let key := relayBackoffKey targetKey relayKey
  let n := (b.fails.lookup key).getD 0 + 1
  ⟨b.nextTry.insert key (now + window n), b.fails.insert key n⟩

def markSuccess (b : RelayBackoff) (targetKey relayKey : String) : RelayBackoff :=
  let key := relayBackoffKey targetKey relayKey
  ⟨b.nextTry.erase key, b.fails.erase key⟩

end RelayBackoff

/-! ### Nodes -/

structure RelayPeerInfo where
  peerKey : String
  rtt : Duration := 0
  capRelay : Bool := true
  maxCircuits : ℤ := 0
  loadCircuits : ℤ := 0

structure RelaySuccessEntry where
  relayKey : String
  since : Time

def relaySuccessTTL : Duration := 60 * Proxy.second

/-- What a node dials relays by. The session maps say whether a session is closed. -/
structure RelayNode where
  sessions : Map String Bool := ∅
  clientSessions : Map String Bool := ∅
  relayMetaProvider : Option (List RelayPeerInfo) := none
  relayLastSuccess : Map String RelaySuccessEntry := ∅
  relayBackoff : RelayBackoff := {}
  queryingPath : Bool := false

namespace RelayNode

variable (n : RelayNode)

def getSession (key : String) : Option Bool :=
  (n.clientSessions.lookup key).or (n.sessions.lookup key)

def sessionOK (key : String) : Bool :=
  n.sessions.lookup key = some false ∨ n.clientSessions.lookup key = some false

def eligible (localKey targetKey : String) (rp : RelayPeerInfo) : Bool :=
  rp.peerKey ≠ localKey ∧ rp.peerKey ≠ targetKey ∧ rp.capRelay ∧
    ¬(rp.maxCircuits > 0 ∧ rp.loadCircuits ≥ rp.maxCircuits) ∧ n.sessionOK rp.peerKey

/-- An unknown round-trip time comes last. -/
def rttRank (rp : RelayPeerInfo) : Duration := if rp.rtt = 0 then 2 ^ 63 - 1 else rp.rtt

def relayCandidates (sessionOrder clientOrder : List String) (localKey targetKey : String) : List String :=
  let other (key : String) : Bool := key ≠ targetKey ∧ key ≠ localKey
  match n.relayMetaProvider with
  | some relayPeers =>
    let candidates := (relayPeers.filter (n.eligible localKey targetKey)).insertionSort
      (fun a b => rttRank a ≤ rttRank b)
    if candidates ≠ [] then candidates.map (·.peerKey)
    else sessionOrder.filter (fun key => key ∈ n.sessions ∧ other key) ++
      clientOrder.filter (fun key => key ∈ n.clientSessions ∧ other key)
  | none =>
    let first := sessionOrder.filter (fun key => n.sessions.lookup key = some false ∧ other key)
    first ++ clientOrder.filter (fun key => n.clientSessions.lookup key = some false ∧ other key ∧ key ∉ first)

end RelayNode

/-! ### Messages, and what happens around a dial -/

structure MeshRelayRequest where
  tunnelID : String
  targetKey : String
  initiatorKey : String
  port : UInt16
  path : List String
  deriving DecidableEq, Repr

structure MeshRelayDial where
  tunnelID : String
  initiatorKey : String
  port : UInt16
  deriving DecidableEq, Repr

def relayRejectAtCapacity : String := "at_capacity"

def relayRejectNoSessionToTarget : String := "no_session_to_target"

def relayRejectTargetRejected : String := "target_rejected"

def relayRejectDuplicateTunnel : String := "duplicate_tunnel"

def maxHops : ℕ := 2

inductive StreamFault
  | openStream | portFrame | send | response | unexpected
  | reject (reason : String)
  deriving DecidableEq, Repr

/-- The environment at one moment: what other activity has made of the nodes, the time, whether a stream fails,
whether a relay's tunnel table refuses a request or has lost a tunnel, a random tunnel ID, a path server's answer, and
the orders in which the session maps are read. -/
structure Moment where
  change : (String → RelayNode) → String → RelayNode := id
  now : Time := 0
  fault : Option StreamFault := none
  refusal : Option String := none
  evicted : Bool := false
  tunnelID : String := ""
  answer : List String := []
  sessionOrder : List String := []
  clientOrder : List String := []

/-- A request that a relay has looked up a session to the target for. -/
structure Asked where
  relay : String
  path : List String
  hasSession : Bool
  deriving DecidableEq, Repr

/-- A dial that was sent to the target, and the nodes it came through: the one that started it and the
relays. -/
structure Delivered where
  trail : List String
  dial : MeshRelayDial
  deriving DecidableEq, Repr

structure RelayLog where
  asked : List Asked := []
  dials : List Delivered := []
  stuck : Bool := false

structure RelayWorld where
  nodes : String → RelayNode
  env : ℕ → Moment
  pos : ℕ := 0
  log : RelayLog := {}

namespace RelayWorld

def next (w : RelayWorld) : Moment × RelayWorld :=
  (w.env w.pos, { w with nodes := (w.env w.pos).change w.nodes, pos := w.pos + 1 })

def updateNode (w : RelayWorld) (key : String) (f : RelayNode → RelayNode) : RelayWorld :=
  { w with nodes := Function.update w.nodes key (f (w.nodes key)) }

end RelayWorld

inductive RelayError
  | noSession (relayKey : String)
  | openStream | portFrame | send | response | unexpected
  | rejected (reason : String)
  | noCandidates
  | allInCooldown (skipped : ℕ) (targetKey : String)
  | allFailed (last : RelayError)
  | noSuitable
  | noEligible
  | noActiveSessions
  deriving DecidableEq, Repr

/-- What a relay does with a request that came along a trail of nodes, itself the last: it accepts, rejects
with a reason, or closes the stream without an answer. -/
abbrev RelayHandling :=
  List String → String → MeshRelayRequest → RelayWorld → Except (Option String) Delivered × RelayWorld

section Dialling
variable (handle : RelayHandling) (trail : List String) (localKey targetKey : String) (port : UInt16)
  (path : Option (List String))

def RelayDialer.dialViaRelay (relayKey : String) (w : RelayWorld) : Except RelayError Delivered × RelayWorld :=
  let (m, w) := w.next
  match (w.nodes localKey).getSession relayKey with
  | none => (.error (.noSession relayKey), w)
  | some closed =>
    if closed = true ∨ m.fault = some .openStream then (.error .openStream, w)
    else if m.fault = some .portFrame then (.error .portFrame, w)
    else if m.fault = some .send then (.error .send, w)
    -- the relay's end of the stream is closed before the request is read
    else if m.fault = some .response then (.error .response, w)
    else
      let req : MeshRelayRequest := ⟨m.tunnelID, targetKey, localKey, port, path.getD []⟩
      match handle (trail ++ [relayKey]) relayKey req w with
      | (.error none, w) => (.error .response, w)
      | (.error (some reason), w) => (.error (.rejected reason), w)
      | (.ok d, w) =>
        let (m, w) := w.next
        if m.fault = some .response then (.error .response, w)
        else if m.fault = some .unexpected then (.error .unexpected, w)
        else (.ok d, w.updateNode localKey fun n =>
          { n with relayLastSuccess := n.relayLastSuccess.insert targetKey ⟨relayKey, m.now⟩ })

namespace MeshNode

/-- The loop over the candidates, with the last error and the number of candidates skipped. -/
def tryCandidates : List String → Option RelayError → ℕ → RelayWorld → Except RelayError Delivered × RelayWorld
  | [], lastErr, skipped, w =>
    (.error (match lastErr with
      | some e => .allFailed e
      | none => if skipped > 0 then .allInCooldown skipped targetKey else .noSuitable), w)
  | relayKey :: rest, lastErr, skipped, w =>
    if relayKey = localKey then tryCandidates rest lastErr skipped w
    else if relayKey ∈ path.getD [] then tryCandidates rest lastErr (skipped + 1) w
    else
      let (m, w) := w.next
      let (allowed, backoff) := (w.nodes localKey).relayBackoff.allowed m.now targetKey relayKey
      let w := w.updateNode localKey fun n => { n with relayBackoff := backoff }
      if !allowed then tryCandidates rest lastErr (skipped + 1) w
      else
        match RelayDialer.dialViaRelay handle trail localKey targetKey port path relayKey w with
        | (.ok d, w) => (.ok d, w.updateNode localKey fun n =>
          { n with relayBackoff := n.relayBackoff.markSuccess targetKey relayKey })
        | (.error e, w) =>
          let (m, w) := w.next
          tryCandidates rest (some e) skipped (w.updateNode localKey fun n =>
            { n with relayBackoff := n.relayBackoff.markFailed m.now targetKey relayKey })

def dialViaRelay (relayCandidates : List String) (w : RelayWorld) : Except RelayError Delivered × RelayWorld :=
  if relayCandidates = [] then (.error .noCandidates, w)
  else tryCandidates handle trail localKey targetKey port path relayCandidates none 0 w

variable (w : RelayWorld)

def tryQueriedPath : Option Delivered × RelayWorld :=
  let (_, w) := w.next
  if (w.nodes localKey).queryingPath then (none, w)
  else
    let w := w.updateNode localKey fun n => { n with queryingPath := true }
    let (m, w) := w.next
    let w := w.updateNode localKey fun n => { n with queryingPath := false }
    match dialViaRelay handle trail localKey targetKey port path m.answer.tail.dropLast w with
    | (.ok d, w) => (some d, w)
    | (.error _, w) => (none, w)

def tryLastSuccess : Option Delivered × RelayWorld :=
  let (m, w) := w.next
  match (w.nodes localKey).relayLastSuccess.lookup targetKey with
  | none => (none, w)
  | some last =>
    if Time.sub m.now last.since < relaySuccessTTL then
      match dialViaRelay handle trail localKey targetKey port path [last.relayKey] w with
      | (.ok d, w) => (some d, w)
      | (.error _, w) => (none, w.next.2.updateNode localKey fun n =>
        { n with relayLastSuccess := n.relayLastSuccess.erase targetKey })
    else (none, w)

def tryRelayCandidates : Except RelayError Delivered × RelayWorld :=
  let (m, w) := w.next
  let n := w.nodes localKey
  let candidates := n.relayCandidates m.sessionOrder m.clientOrder localKey targetKey
  if candidates = [] then (.error (if n.relayMetaProvider.isSome then .noEligible else .noActiveSessions), w)
  else dialViaRelay handle trail localKey targetKey port path candidates w

/-- A dial through relays; the path is absent where the dial starts. -/
def tryRelayFallback : Except RelayError Delivered × RelayWorld :=
  let (queried, w) :=
    if path = none then tryQueriedPath handle trail localKey targetKey port path w else (none, w)
  match queried with
  | some d => (.ok d, w)
  | none =>
    match tryLastSuccess handle trail localKey targetKey port path w with
    | (some d, w) => (.ok d, w)
    | (none, w) => tryRelayCandidates handle trail localKey targetKey port path w

end MeshNode
end Dialling
end MeshDesk.Mesh
