import Mathlib.Data.Finset.Insert
import Mathlib.Data.Finset.Erase
import MeshDesk.Mesh.VipTable

/-! The `/32` routes that a node installs in the kernel, beside its routing table. The table drops the old address of
a peer that announces a new one; the kernel route stays. -/
namespace MeshDesk.Mesh
open Lib (Map Meets)
open Ipam (SlotHash)
open Net (IP NetText)
open Tun (Router)

structure RoutedNode where
  node : TunNode
  routes : Finset IP := ∅

inductive RouteCall
  | add (peerPubKey virtualIP : String)
  | remove (peerPubKey : String)

namespace RoutedNode
variable (T : NetText)

/-- The address for which `AddPeerVirtualIPRoute` calls `addKernelRoute`. -/
def installed (n : TunNode) (virtualIP : String) : Option IP :=
  (T.parseIP virtualIP).filter fun ip => n.router.isInSubnet ip && n.virtualIP != ip

def step (n : RoutedNode) : RouteCall → RoutedNode
  | .add peerPubKey virtualIP =>
    match installed T n.node virtualIP with
    | none => n
    | some ip => ⟨{ n.node with router := n.node.router.addRoute ip peerPubKey }, insert ip n.routes⟩
  | .remove peerPubKey =>
    match n.node.router.removeRoute peerPubKey with
    | (none, _) => n
    | (some ip, router) => ⟨{ n.node with router := router }, n.routes.erase ip⟩

theorem step_node_add (n : RoutedNode) (peerPubKey virtualIP : String) :
    (n.step T (.add peerPubKey virtualIP)).node = n.node.addPeerVirtualIPRoute T peerPubKey virtualIP := by
  unfold step TunNode.addPeerVirtualIPRoute installed
  dsimp only
  cases hp : T.parseIP virtualIP with
  | none => rfl
  | some ip =>
    cases hin : n.node.router.isInSubnet ip with
    | false => simp [Option.filter, hin]
    | true => by_cases hown : n.node.virtualIP = ip <;> simp [Option.filter, hin, hown]

theorem step_node_remove (n : RoutedNode) (peerPubKey : String) :
    (n.step T (.remove peerPubKey)).node = n.node.removePeerVirtualIPRoute peerPubKey := by
  unfold step TunNode.removePeerVirtualIPRoute Router.removeRoute
  dsimp only
  split_ifs with hself
  · rfl
  · cases n.node.router.peerToIP.lookup peerPubKey <;> rfl

/-- The kernel has the routes to the addresses of the other nodes. -/
def Mirrors (n : RoutedNode) : Prop :=
  ∀ ip, ip ∈ n.routes ↔ ∃ key ∈ n.node.router.resolveIP ip, key ≠ n.node.router.localPubKey

/-- The call is for another node, and gives it no address beside the one it has. -/
def Settled (n : RoutedNode) : RouteCall → Prop
  | .add peerPubKey virtualIP => peerPubKey ≠ n.node.router.localPubKey ∧
    ∀ ip ∈ installed T n.node virtualIP, ∀ old ∈ n.node.router.resolvePeer peerPubKey, old = ip
  | .remove _ => True

instance (n : RoutedNode) : (call : RouteCall) → Decidable (n.Settled T call)
  | .add _ _ => inferInstanceAs (Decidable (_ ∧ _))
  | .remove _ => isTrue trivial

variable {T} {n : RoutedNode}

theorem mirrors_setup {H : SlotHash} {cfg : TunConfig} {key : String} {peerIPs : Map String IP} {n : TunNode}
    (h : setupTUN T H cfg key peerIPs = .ok n) : Mirrors ⟨n, ∅⟩ := by
  obtain ⟨alloc, -, h⟩ := Lib.bind_eq_ok.mp h
  split at h
  · cases h
  obtain ⟨vip, -, h⟩ := Lib.bind_eq_ok.mp h
  cases h
  refine fun ip => iff_of_false (Finset.notMem_empty ip) fun ⟨k, hk, hne⟩ => hne ?_
  have hk : ((Router.new (some _) key).setLocalIP vip).ipToPeer.lookup ip = some k := hk
  rw [Router.setLocalIP_ipToPeer] at hk
  split_ifs at hk
  · exact (Option.some.inj hk).symm
  · cases hk

theorem Mirrors.step {call : RouteCall} (hset : n.Settled T call) (h : n.Mirrors) : (n.step T call).Mirrors := by
  cases call with
  | add peerPubKey virtualIP =>
    unfold RoutedNode.step
    dsimp only
    split
    · exact h
    rename_i ip hip
    intro x
    change x ∈ insert ip n.routes ↔
      ∃ key ∈ (n.node.router.addRoute ip peerPubKey).ipToPeer.lookup x, key ≠ n.node.router.localPubKey
    rw [Router.addRoute_ipToPeer, Finset.mem_insert]
    by_cases hx : x = ip
    · simpa [hx] using hset.1
    · -- the peer has no other address, so none is dropped
      have hkept : n.node.router.peerToIP.lookup peerPubKey ≠ some x := fun hold => hx (hset.2 ip hip x hold)
      rw [if_neg hx, if_neg hkept, or_iff_right hx]
      exact h x
  | remove peerPubKey =>
    unfold RoutedNode.step Router.removeRoute
    dsimp only
    split_ifs with hself
    · exact h
    cases n.node.router.peerToIP.lookup peerPubKey with
    | none => exact h
    | some ip =>
      intro x
      change x ∈ n.routes.erase ip ↔ ∃ key ∈ (n.node.router.ipToPeer.erase ip).lookup x, _
      rw [Finset.mem_erase]
      by_cases hx : x = ip
      · subst hx
        simp
      · rw [AList.lookup_erase_ne hx, and_iff_right hx]
        exact h x

end RoutedNode

/-- After every sequence of calls for other nodes in which no node is given a second address, the kernel has exactly
the routes to the addresses that the table maps to other nodes. -/
theorem kernelRoutes_mirror {T : NetText} {H : SlotHash} {cfg : TunConfig} {key : String} {peerIPs : Map String IP}
    {n : TunNode} (hsetup : setupTUN T H cfg key peerIPs = .ok n) {calls : List RouteCall}
    (hcalls : Meets (RoutedNode.step T) (RoutedNode.Settled T) ⟨n, ∅⟩ calls) :
    (calls.foldl (RoutedNode.step T) ⟨n, ∅⟩).Mirrors :=
  hcalls.invariant (fun _ _ hset h => h.step hset) (RoutedNode.mirrors_setup hsetup)

def address (host : BitVec 32) : IP := .ofV4 (0x0a0a0000 + host)

def announce (peer : String) (host : BitVec 32) : RouteCall := .add peer (Net.byteText.ipString (address host))

/-- `b` takes the address of `a`, and leaves. -/
theorem kernelRoutes_mirror_takeover :
    ([announce "a" 2, announce "b" 2, .remove "b"].foldl (RoutedNode.step Net.byteText)
      ⟨TunNode.staticNode, ∅⟩).Mirrors := by
  have hsetup : setupTUN Net.byteText (fun _ _ => 0) TunNode.staticConfig "self" ∅ = .ok TunNode.staticNode := rfl
  exact kernelRoutes_mirror hsetup (by decide)

/-- `a` announces a new address: the table has dropped the old one, and the kernel still routes to it. -/
theorem kernelRoutes_stale :
    let n := [announce "a" 2, announce "a" 3].foldl (RoutedNode.step Net.byteText) ⟨TunNode.staticNode, ∅⟩
    setupTUN Net.byteText (fun _ _ => 0) TunNode.staticConfig "self" ∅ = .ok TunNode.staticNode ∧
      address 2 ∈ n.routes ∧ n.node.router.resolveIP (address 2) = none :=
  ⟨rfl, by decide⟩

end MeshDesk.Mesh
