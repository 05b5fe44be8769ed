import MeshDesk.Ipam.Allocator
import MeshDesk.Tun.Router

/-! The virtual address of a node and the routes to its peers' addresses, on a node whose TUN device is up:
the first allocation, routes learned from metadata, and the reallocation after a conflict. -/
namespace MeshDesk.Mesh
open Ipam (Allocator AllocError SlotHash)
open Lib (Map)
open Net (IP IPNet NetText)
open Tun (Router)

structure TunConfig where
  meshCIDR : String
  staticVirtualIP : String := ""
  deriving DecidableEq, Repr

structure TunNode where
  publicKey : String
  cfg : TunConfig
  allocator : Allocator
  router : Router
  virtualIP : IP

inductive TunError where
  | allocator (e : AllocError)
  | invalidMeshCIDR (cidr : String)
  | invalidStatic (ip : String)
  | staticOutside (ip cidr : String)
  | allocate (e : AllocError)
  deriving DecidableEq, Repr

def TunError.text (quote : String → String) (subnet : String) : TunError → String
  | .allocator e => s!"tun: create IPAM allocator: {e.text quote subnet}"
  | .invalidMeshCIDR c => s!"tun: invalid mesh_cidr {quote c}: invalid CIDR address: {c}"
  | .invalidStatic ip => s!"tun: invalid static_virtual_ip {quote ip}: not a valid IP address"
  | .staticOutside ip cidr => s!"tun: static_virtual_ip {ip} is outside mesh_cidr {cidr}"
  | .allocate e => s!"tun: IPAM allocate: {e.text quote subnet}"

section Setup
variable (T : NetText) (H : SlotHash)

/-- The host count the allocation hashes into: all usable hosts, or 254 where the subnet has none. -/
def usableHostsInSubnet (cidr : String) : ℤ :=
  match T.parseCIDR cidr with
  | none => 254
  | some (_, ipNet) =>
    if ipNet.ones ≥ ipNet.bits then 254
    else
      let hosts := ((1#64 <<< (ipNet.bits - ipNet.ones)) - 2#64).toInt
      if hosts < 1 then 254 else hosts

def firstAddress (cfg : TunConfig) (publicKey : String) (alloc : Allocator) (ipNet : IPNet)
    (peerIPs : Map String IP) : Except TunError IP :=
  if cfg.staticVirtualIP ≠ "" then
    match T.parseIP cfg.staticVirtualIP with
    | none => .error (.invalidStatic cfg.staticVirtualIP)
    | some staticIP =>
      if !ipNet.contains staticIP then .error (.staticOutside (T.ipString staticIP) cfg.meshCIDR) else .ok staticIP
  else
    (alloc.allocateWithPeers H publicKey (usableHostsInSubnet T cfg.meshCIDR) peerIPs).mapError .allocate

def setupTUN (cfg : TunConfig) (publicKey : String) (peerIPs : Map String IP) : Except TunError TunNode :=
  ((Allocator.new T cfg.meshCIDR).mapError .allocator).bind fun alloc =>
    match T.parseCIDR cfg.meshCIDR with
    | none => .error (.invalidMeshCIDR cfg.meshCIDR)
    | some (_, ipNet) =>
      (firstAddress T H cfg publicKey alloc ipNet peerIPs).bind fun virtualIP =>
        .ok ⟨publicKey, cfg, alloc, (Router.new (some ipNet) publicKey).setLocalIP virtualIP, virtualIP⟩

end Setup

namespace TunNode
variable (T : NetText) (H : SlotHash)

variable (n : TunNode)

def addPeerVirtualIPRoute (peerPubKey virtualIP : String) : TunNode :=
  match T.parseIP virtualIP with
  | none => n
  | some ip =>
    if !n.router.isInSubnet ip then n
    else if n.virtualIP = ip then n
    else { n with router := n.router.addRoute ip peerPubKey }

def removePeerVirtualIPRoute (peerPubKey : String) : TunNode :=
  { n with router := (n.router.removeRoute peerPubKey).2 }

/-- The address after the reallocation and whether it changed, and the node. -/
def reallocateAfterMeta (peerIPs : Map String IP) : (IP × Bool) × TunNode :=
  if n.cfg.staticVirtualIP ≠ "" then ((n.virtualIP, false), n)
  else
    match n.allocator.allocateWithPeers H n.publicKey (usableHostsInSubnet T n.cfg.meshCIDR) peerIPs with
    | .error _ => ((n.virtualIP, false), n)
    | .ok newIP =>
      if newIP = n.virtualIP then ((n.virtualIP, false), n)
      else ((newIP, true), { n with router := n.router.setLocalIP newIP, virtualIP := newIP })

/-- The routes to other nodes, as addresses per key; the routing table is read in the given order. -/
def peerVirtualIPs (order : List IP) : Map String IP :=
  order.foldl (fun out ip =>
    match n.router.resolveIP ip with
    | some pubKey => if pubKey = n.publicKey then out else out.insert pubKey ip
    | none => out) ∅

/-- A reported address that reads like the node's own one starts a reallocation. -/
def checkVIPConflict (order : List IP) (peerVIP : String) : TunNode :=
  if peerVIP = "" then n
  else if T.ipString n.virtualIP ≠ peerVIP then n
  else (n.reallocateAfterMeta T H (n.peerVirtualIPs order)).2

section Outcomes
variable {T : NetText} {H : SlotHash} {n : TunNode}

theorem addPeerVirtualIPRoute_cases (n : TunNode) (key vip : String) :
    n.addPeerVirtualIPRoute T key vip = n ∨
      ∃ ip, T.parseIP vip = some ip ∧ n.router.isInSubnet ip = true ∧ n.virtualIP ≠ ip ∧
        n.addPeerVirtualIPRoute T key vip = { n with router := n.router.addRoute ip key } := by
  cases hp : T.parseIP vip with
  | none => exact .inl (by simp only [addPeerVirtualIPRoute, hp])
  | some ip =>
    by_cases hin : n.router.isInSubnet ip = true
    · by_cases hown : n.virtualIP = ip
      · exact .inl (by simp [addPeerVirtualIPRoute, hp, hin, hown])
      · exact .inr ⟨ip, rfl, hin, hown, by simp [addPeerVirtualIPRoute, hp, hin, hown]⟩
    · exact .inl (by simp [addPeerVirtualIPRoute, hp, hin])

theorem reallocateAfterMeta_cases (n : TunNode) (peerIPs : Map String IP) :
    n.reallocateAfterMeta T H peerIPs = ((n.virtualIP, false), n) ∨
      ∃ newIP, newIP ≠ n.virtualIP ∧ n.cfg.staticVirtualIP = "" ∧
        n.allocator.allocateWithPeers H n.publicKey (usableHostsInSubnet T n.cfg.meshCIDR) peerIPs = .ok newIP ∧
        n.reallocateAfterMeta T H peerIPs =
          ((newIP, true), { n with router := n.router.setLocalIP newIP, virtualIP := newIP }) := by
  unfold reallocateAfterMeta
  split_ifs with hstatic
  · exact .inl rfl
  · cases ha : n.allocator.allocateWithPeers H n.publicKey (usableHostsInSubnet T n.cfg.meshCIDR) peerIPs with
    | error e => exact .inl rfl
    | ok newIP =>
      by_cases heq : newIP = n.virtualIP
      · exact .inl (if_pos heq)
      · exact .inr ⟨newIP, heq, not_not.mp hstatic, rfl, if_neg heq⟩

end Outcomes
end TunNode
end MeshDesk.Mesh
