import MeshDesk.Mesh.Acl
import MeshDesk.Tun.Router
import MeshDesk.Tun.RouteManager

/-! The anti-spoofing check of the TUN forwarder: which source addresses a packet of a peer may carry. -/
namespace MeshDesk.Mesh
open Net (IP NetText)
open Proxy (Bytes)
open Tun (Router RouteManager)

inductive PacketError where
  | empty
  | ipv4TooShort
  | ipv6TooShort
  | unknownVersion (version : ℕ)
  deriving DecidableEq, Repr

def PacketError.text : PacketError → String
  | .empty => "empty packet"
  | .ipv4TooShort => "IPv4 packet too short"
  | .ipv6TooShort => "IPv6 packet too short"
  | .unknownVersion v => s!"unknown IP version {v}"

def parseIPAt (v4 v6 : ℕ) (packet : Bytes) : Except PacketError IP :=
  if packet.length < 1 then .error .empty
  else match byteAt packet 0 / 16 with
    | 4 => if packet.length < 20 then .error .ipv4TooShort else .ok (v4At packet v4)
    | 6 => if packet.length < 40 then .error .ipv6TooShort else .ok (v6At packet v6)
    | v => .error (.unknownVersion v)

def parseSrcIP : Bytes → Except PacketError IP := parseIPAt 12 8

def parseDstIP : Bytes → Except PacketError IP := parseIPAt 16 24

structure Routing where
  router : Router
  routeManager : Option RouteManager

namespace Routing
variable (T : NetText)

/-- The gateway of an address outside the mesh subnet, if there is a route manager and it knows one. -/
def gateway (g : Routing) (order : List String) (ip : IP) : Option String :=
  g.routeManager.bind (·.resolveSubnetProxy order ip)

def validateSourceIP (g : Routing) (order : List String) (packet : Bytes) (peerID : String) : Bool :=
  match parseSrcIP packet with
  | .error _ => false
  | .ok srcIP =>
    match g.router.resolvePeer peerID with
    | none => if peerID = "" then false else g.router.isInSubnet srcIP
    | some expectedIP =>
      if expectedIP = srcIP then true
      else if g.router.isInSubnet srcIP && (g.router.resolveIP srcIP).isSome then true
      else if !g.router.isInSubnet srcIP then g.gateway order srcIP == some (T.ipString expectedIP)
      else false

variable {T : NetText} {g : Routing} {order : List String} {packet : Bytes} {peerID : String}

inductive Accepts (T : NetText) (g : Routing) (order : List String) (peerID : String) (srcIP : IP) : Prop
  | own (h : g.router.resolvePeer peerID = some srcIP)
  | member (key : String) (hin : g.router.isInSubnet srcIP) (h : g.router.resolveIP srcIP = some key)
  | unknownPeer (hpeer : g.router.resolvePeer peerID = none) (hin : g.router.isInSubnet srcIP)
  | proxy (vip : IP) (hpeer : g.router.resolvePeer peerID = some vip) (hout : ¬ g.router.isInSubnet srcIP)
      (hgw : g.gateway order srcIP = some (T.ipString vip))

theorem validateSourceIP_accepts (h : g.validateSourceIP T order packet peerID = true) :
    ∃ srcIP, parseSrcIP packet = .ok srcIP ∧ g.Accepts T order peerID srcIP := by
  unfold validateSourceIP at h
  split at h
  · cases h
  · next srcIP hp =>
    refine ⟨srcIP, hp, ?_⟩
    split at h
    · next hr =>
      split_ifs at h
      exact .unknownPeer hr h
    · next expectedIP hr =>
      split_ifs at h with hown hmember hout
      · subst hown
        exact .own hr
      · obtain ⟨hin, hsome⟩ := (Bool.and_eq_true _ _).mp hmember
        obtain ⟨key, hkey⟩ := Option.isSome_iff_exists.mp hsome
        exact .member key hin hkey
      · refine .proxy expectedIP hr ?_ (beq_iff_eq.mp h)
        simpa using hout

def twoMembers : Routing where
  router := ((Router.new (some (.ofPrefix (.ofV4 0x0a0a0000) 24)) "self").setLocalIP (.ofV4 0x0a0a0001)).addRoute
    (.ofV4 0x0a0a0002) "peer"
  routeManager := none

def headerOf (src dst : BitVec 32) : Bytes :=
  0x45 :: List.replicate 11 0 ++ Lib.toBE 4 src.toNat ++ Lib.toBE 4 dst.toNat

end Routing
end MeshDesk.Mesh
