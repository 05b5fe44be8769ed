import MeshDesk.Lib.Maps
import MeshDesk.Net.Address

/-! Subnet proxies: networks behind a peer, and the gateway a destination is sent to. Maps are iterated in
any order, which a function that depends on it takes as an argument. -/
namespace MeshDesk.Tun
open Lib (Map)
open Net (IP IPNet NetText)

structure RouteManager where
  routes : Map String (List String)
  subnetToPeer : Map String String
  subnetNets : Map String IPNet

namespace RouteManager

def new : RouteManager := ⟨∅, ∅, ∅⟩

variable (rm : RouteManager) (order : List String)

/-- Take the network from the first peer, in the order given, whose set has it. -/
def disown (cidr : String) : RouteManager :=
  match order.find? (fun k => (rm.routes.lookup k).any (cidr ∈ ·)) with
  | some k => { rm with routes := rm.routes.insert k (((rm.routes.lookup k).getD []).filter (· ≠ cidr)) }
  | none => rm

def claim (virtualIP cidr : String) (ipNet : IPNet) : RouteManager :=
  let rm :=
    match rm.subnetToPeer.lookup cidr with
    | some existingGW => if existingGW ≠ virtualIP then rm.disown order cidr else rm
    | none => rm
  { rm with subnetToPeer := rm.subnetToPeer.insert cidr virtualIP
            subnetNets := rm.subnetNets.insert cidr ipNet }

/-- One round of the loop over the advertised networks, with the networks accepted so far. -/
def advertise (T : NetText) (order oldSubnets : List String) (virtualIP : String) (s : RouteManager × List String)
    (cidr : String) : RouteManager × List String :=
  match T.parseCIDR cidr with
  | none => s
  | some (_, ipNet) =>
    (if cidr ∈ oldSubnets then s.1 else s.1.claim order virtualIP cidr ipNet, cidr :: s.2)

def withdraw (cidr : String) : RouteManager :=
  { rm with subnetToPeer := rm.subnetToPeer.erase cidr, subnetNets := rm.subnetNets.erase cidr }

def addPeerSubnets (T : NetText) (rm : RouteManager) (order : List String) (pubKey virtualIP : String)
    (subnets : List String) : RouteManager :=
  let oldSubnets := (rm.routes.lookup pubKey).getD []
  let s := subnets.foldl (advertise T order oldSubnets virtualIP) (rm, [])
  let rm := (oldSubnets.filter (· ∉ s.2)).foldl withdraw s.1
  { rm with routes := rm.routes.insert pubKey s.2 }

def removePeerSubnets (pubKey : String) : RouteManager :=
  match rm.routes.lookup pubKey with
  | none => rm
  | some subnets =>
    let rm := subnets.foldl withdraw rm
    { rm with routes := rm.routes.erase pubKey }

def better (dstIP : IP) (best : String × ℤ) (cidr : String) : String × ℤ :=
  match rm.subnetNets.lookup cidr with
  | some ipNet =>
    if ipNet.contains dstIP ∧ best.2 < ipNet.ones then ((rm.subnetToPeer.lookup cidr).getD "", ipNet.ones) else best
  | none => best

def resolveSubnetProxy (dstIP : IP) : Option String :=
  let best := order.foldl (rm.better dstIP) ("", -1)
  if best.1 = "" then none else some best.1

section Search
variable {rm : RouteManager} {dstIP : IP} {best : String × ℤ} {pre : List String}

def Covers (rm : RouteManager) (dstIP : IP) (cidr : String) (ipNet : IPNet) : Prop :=
  rm.subnetNets.lookup cidr = some ipNet ∧ ipNet.contains dstIP = true

/-- The best after looking at the networks of `pre`. -/
structure Longest (rm : RouteManager) (dstIP : IP) (pre : List String) (best : String × ℤ) : Prop where
  found : best = ("", -1) ∨
    ∃ cidr ∈ pre, ∃ n, rm.Covers dstIP cidr n ∧ best = ((rm.subnetToPeer.lookup cidr).getD "", (n.ones : ℤ))
  longest : ∀ cidr ∈ pre, ∀ n, rm.Covers dstIP cidr n → (n.ones : ℤ) ≤ best.2

theorem better_cases (rm : RouteManager) (dstIP : IP) (best : String × ℤ) (cidr : String) :
    (rm.better dstIP best cidr = best ∧ ∀ n, rm.Covers dstIP cidr n → (n.ones : ℤ) ≤ best.2) ∨
      ∃ n, rm.Covers dstIP cidr n ∧ best.2 < n.ones ∧
        rm.better dstIP best cidr = ((rm.subnetToPeer.lookup cidr).getD "", (n.ones : ℤ)) := by
  cases hn : rm.subnetNets.lookup cidr with
  | none =>
    refine .inl ⟨by simp only [better, hn], fun n hc => ?_⟩
    rw [hc.1] at hn
    cases hn
  | some ipNet =>
    by_cases hcond : ipNet.contains dstIP ∧ best.2 < ipNet.ones
    · exact .inr ⟨ipNet, ⟨hn, hcond.1⟩, hcond.2, by simp only [better, hn, if_pos hcond]⟩
    · refine .inl ⟨by simp only [better, hn, if_neg hcond], fun n hc => ?_⟩
      cases hn.symm.trans hc.1
      exact not_lt.mp fun hlt => hcond ⟨hc.2, hlt⟩

theorem Longest.better (h : rm.Longest dstIP pre best) (cidr : String) :
    rm.Longest dstIP (pre ++ [cidr]) (rm.better dstIP best cidr) := by
  obtain ⟨hsame, hle⟩ | ⟨n, hc, hlt, hnew⟩ := better_cases rm dstIP best cidr
  · rw [hsame]
    constructor
    · rcases h.found with hb | ⟨c, hmem, hrest⟩
      · exact .inl hb
      · exact .inr ⟨c, List.mem_append_left _ hmem, hrest⟩
    · exact List.forall_mem_append.mpr ⟨h.longest, List.forall_mem_singleton.mpr hle⟩
  · rw [hnew]
    refine ⟨.inr ⟨cidr, by simp, n, hc, rfl⟩, fun c hmem m hcm => ?_⟩
    rcases List.mem_append.mp hmem with hmem | hmem
    · exact (h.longest c hmem m hcm).trans hlt.le
    · cases List.mem_singleton.mp hmem
      cases hc.1.symm.trans hcm.1
      exact le_rfl

theorem longest_foldl (rm : RouteManager) (dstIP : IP) (order : List String) :
    rm.Longest dstIP order (order.foldl (rm.better dstIP) ("", -1)) := by
  induction order using List.reverseRecOn with
  | nil => exact ⟨.inl rfl, fun c hc => absurd hc List.not_mem_nil⟩
  | append_singleton pre cidr ih =>
    rw [List.foldl_append]
    exact ih.better cidr

end Search
end RouteManager
end MeshDesk.Tun
