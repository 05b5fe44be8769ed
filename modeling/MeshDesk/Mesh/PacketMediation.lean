import MeshDesk.Lib.Runs
import MeshDesk.Mesh.AntiSpoof

/-! Packets through a node: from streams of peers and from hole-punched data planes to the TUN device, and
from the device to peers. Streams are checked against spoofing and against the ACL; data planes only against
spoofing, and packets from the device against neither. -/
namespace MeshDesk.Mesh
open Lib (Meets)
open Net (IP NetText)
open Proxy (Bytes)
open Tun (Router RouteManager)

structure PunchDataplane where
  peerKey : String
  closed : Bool := false
  tunFailures : ℕ := 0
  deriving DecidableEq

/-- The plane after a write to the device; ten failures in a row close it. -/
def PunchDataplane.afterWrite (pd : PunchDataplane) (tunOk : Bool) : PunchDataplane :=
  if tunOk then { pd with tunFailures := 0 }
  else { pd with tunFailures := pd.tunFailures + 1, closed := pd.closed || decide (pd.tunFailures + 1 ≥ 10) }

/-- A packet handed to the TUN device for a peer, or to a peer, with what the two checks say about it in the
state it is handed over in. -/
inductive Passage where
  | toTun (peer : String) (packet : Bytes) (validated allowed : Bool)
  | toPeer (peer : String) (packet : Bytes) (allowed : Bool)
  deriving DecidableEq

def Passage.Accepted : Passage → Prop
  | .toTun _ _ validated allowed => validated = true ∧ allowed = true
  | .toPeer _ _ allowed => allowed = true

instance : (p : Passage) → Decidable p.Accepted
  | .toTun _ _ validated allowed => inferInstanceAs (Decidable (validated = true ∧ allowed = true))
  | .toPeer _ _ allowed => inferInstanceAs (Decidable (allowed = true))

/-- The forwarder with the data planes of its node, and the packets that have passed. -/
structure TunForwarder where
  routing : Routing
  aclEngine : Option ACLEngine
  planes : List PunchDataplane := []
  passed : List Passage := []

/-- What becomes of a packet for a peer: there is no stream to it, or the packet is written to one. -/
inductive SendOutcome where
  | noStream
  | written (ok : Bool)
  deriving DecidableEq

/-- One thing that happens at the node; maps are iterated in the order given. -/
inductive ForwarderStep where
  | inbound (peerID : String) (order : List String) (packet : Bytes)
  | feed (plane : ℕ) (order : List String) (data : Bytes) (tunOk : Bool)
  | tunRead (order : List String) (packet : Bytes) (outcome : SendOutcome)
  | register (peerKey : String)
  | close (plane : ℕ)
  | updateRules (cfg : ACLConfig)
  | reroute (routing : Routing)

def isProbePacket (data : Bytes) : Bool := data == [0x50, 0x4a]

namespace TunForwarder
variable (T : NetText) (L : Casing)

variable (f : TunForwarder) (order : List String) (packet : Bytes) (peerID : String)

def allows : Bool :=
  match f.aclEngine with
  | none => true
  | some e => (e.check packet peerID).1

def checked : TunForwarder :=
  { f with aclEngine := f.aclEngine.map fun e => (e.check packet peerID).2 }

def validates : Bool :=
  f.routing.validateSourceIP T order packet peerID

/-- The packet goes to the device; the checks are evaluated in the state `g` it arrived in. -/
def writeTun (g : TunForwarder) (order : List String) (packet : Bytes) (peerID : String) : TunForwarder :=
  { f with passed := f.passed ++ [.toTun peerID packet (g.validates T order packet peerID) (g.allows packet peerID)] }

/-- One round of `handleInboundStream` with a packet it has read. -/
def handleInbound : TunForwarder :=
  if peerID = "" then f
  else if !f.validates T order packet peerID then f
  else if !f.allows packet peerID then f.checked packet peerID
  else (f.checked packet peerID).writeTun T f order packet peerID

def feed (i : ℕ) (order : List String) (data : Bytes) (tunOk : Bool) : TunForwarder :=
  match f.planes[i]? with
  | none => f
  | some pd =>
    if pd.closed then f
    else if isProbePacket data then f
    else if !f.validates T order data pd.peerKey then f
    else { f.writeTun T f order data pd.peerKey with
           planes := f.planes.set i (pd.afterWrite tunOk) }

def remote (r : Router) : Option String → Option String
  | some key => if r.isSelf key then none else some key
  | none => none

/-- The peer a packet from the device goes to, or none if it is dropped. -/
def nextHop (dstIP : IP) : Option String :=
  let r := f.routing.router
  if r.isLocalIP dstIP ∧ remote r (r.resolveIP dstIP) = none then none
  else if !r.isInSubnet dstIP then
    match (f.routing.gateway order dstIP).bind T.parseIP with
    | some gw => remote r (r.resolveIP gw)
    | none => none
  else remote r (r.resolveIP dstIP)

def tunRead (outcome : SendOutcome) : TunForwarder :=
  match parseDstIP packet with
  | .error _ => f
  | .ok dstIP =>
    match f.nextHop T order dstIP, outcome with
    | some peerKey, .written _ => { f with passed := f.passed ++ [.toPeer peerKey packet (f.allows packet peerKey)] }
    | _, _ => f

def step : ForwarderStep → TunForwarder
  | .inbound peerID order packet => f.handleInbound T order packet peerID
  | .feed i order data tunOk => f.feed T i order data tunOk
  | .tunRead order packet outcome => f.tunRead T order packet outcome
  | .register peerKey => { f with planes := f.planes ++ [{ peerKey := peerKey }] }
  | .close i => { f with planes := f.planes.modify i fun pd => { pd with closed := true } }
  | .updateRules cfg =>
    { f with aclEngine := f.aclEngine.map fun e => ((e.updateRules T L cfg).toOption).getD e }
  | .reroute routing => { f with routing := routing }

def run (steps : List ForwarderStep) : TunForwarder := steps.foldl (step T L) f

/-- The ACL would let pass what a data plane writes to the device and what is sent to a peer. -/
def Harmless : ForwarderStep → Prop
  | .feed i order data _ =>
    ∀ pd ∈ f.planes[i]?, pd.closed = false → isProbePacket data = false → f.validates T order data pd.peerKey = true →
      f.allows data pd.peerKey = true
  | .tunRead order packet outcome =>
    outcome ≠ .noStream → ∀ dstIP ∈ (parseDstIP packet).toOption, ∀ peerKey ∈ f.nextHop T order dstIP,
      f.allows packet peerKey = true
  | _ => True

instance (f : TunForwarder) : (a : ForwarderStep) → Decidable (f.Harmless T a)
  | .feed i order data _ => inferInstanceAs (Decidable (∀ pd ∈ f.planes[i]?, pd.closed = false →
      isProbePacket data = false → f.validates T order data pd.peerKey = true → f.allows data pd.peerKey = true))
  | .tunRead order packet outcome => inferInstanceAs (Decidable (outcome ≠ .noStream →
      ∀ dstIP ∈ (parseDstIP packet).toOption, ∀ peerKey ∈ f.nextHop T order dstIP, f.allows packet peerKey = true))
  | .inbound .. | .register _ | .close _ | .updateRules _ | .reroute _ => isTrue trivial

variable {T : NetText} {L : Casing} {f : TunForwarder}

def Mediated (f : TunForwarder) : Prop := ∀ p ∈ f.passed, p.Accepted

theorem mediated_append {ps : List Passage} (h : f.Mediated) {p : Passage} (hp : p.Accepted)
    (hps : ps = f.passed ++ [p]) : ∀ q ∈ ps, q.Accepted := by
  rw [hps]
  exact List.forall_mem_append.mpr ⟨h, List.forall_mem_singleton.mpr hp⟩

theorem Mediated.handleInbound (h : f.Mediated) (order : List String) (packet : Bytes) (peerID : String) :
    (f.handleInbound T order packet peerID).Mediated := by
  unfold TunForwarder.handleInbound
  split_ifs with hempty hval hacl
  · exact h
  · exact h
  · exact h
  · refine mediated_append h ?_ rfl
    exact ⟨by simpa using hval, by simpa using hacl⟩

theorem Mediated.feed (h : f.Mediated) {i : ℕ} {order : List String} {data : Bytes} {tunOk : Bool}
    (ha : f.Harmless T (.feed i order data tunOk)) : (f.feed T i order data tunOk).Mediated := by
  cases hp : f.planes[i]? with
  | none =>
    have hfeed : f.feed T i order data tunOk = f := by simp only [TunForwarder.feed, hp]
    rw [hfeed]
    exact h
  | some pd =>
    simp only [TunForwarder.feed, hp]
    split_ifs with hclosed hprobe hval
    · exact h
    · exact h
    · exact h
    · have hval : f.validates T order data pd.peerKey = true := by simpa using hval
      have haccepted : (Passage.toTun pd.peerKey data (f.validates T order data pd.peerKey)
          (f.allows data pd.peerKey)).Accepted :=
        ⟨hval, ha pd hp (by simpa using hclosed) (by simpa using hprobe) hval⟩
      exact mediated_append h haccepted rfl

theorem Mediated.tunRead (h : f.Mediated) {order : List String} {packet : Bytes} {outcome : SendOutcome}
    (ha : f.Harmless T (.tunRead order packet outcome)) : (f.tunRead T order packet outcome).Mediated := by
  unfold TunForwarder.tunRead
  cases hd : parseDstIP packet with
  | error e => exact h
  | ok dstIP =>
    dsimp only
    cases hn : f.nextHop T order dstIP with
    | none => exact h
    | some peerKey =>
      cases outcome with
      | noStream => exact h
      | written ok =>
        have hallows : (Passage.toPeer peerKey packet (f.allows packet peerKey)).Accepted :=
          ha (by simp) dstIP (by rw [hd]; rfl) peerKey hn
        exact mediated_append h hallows rfl

theorem Mediated.step (a : ForwarderStep) (ha : f.Harmless T a) (h : f.Mediated) : (f.step T L a).Mediated := by
  cases a with
  | inbound peerID order packet => exact h.handleInbound order packet peerID
  | feed i order data tunOk => exact h.feed ha
  | tunRead order packet outcome => exact h.tunRead ha
  | register | close | updateRules | reroute => exact h

/-- A node at 10.10.0.1 with a peer at 10.10.0.2, and an ACL of the given policy without rules. -/
def guarded (policy : ACLAction) : TunForwarder where
  routing := Routing.twoMembers
  aclEngine := some { snapshot := some ⟨true, policy, [], []⟩ }

end TunForwarder
end MeshDesk.Mesh
