import MeshDesk.Lib.Runs
import MeshDesk.Mesh.TunIntegration

/-! The routing table of a node over every sequence of learned routes, removals and reallocations: its two maps stay
inverse and hold the node's own address, as long as no route is added for the node's own key and no reallocation takes
an address routed to a peer. -/
namespace MeshDesk.Mesh
open Ipam (Allocator SlotHash)
open Lib (Map Meets)
open Net (IP IPNet NetText)
open Tun (Router)

inductive VipCall where
  | addRoute (peerPubKey virtualIP : String)
  | removeRoute (peerPubKey : String)
  | reallocate (peerIPs : Map String IP)

namespace TunNode
variable (T : NetText) (H : SlotHash)

def vipStep (n : TunNode) : VipCall → TunNode
  | .addRoute key vip => n.addPeerVirtualIPRoute T key vip
  | .removeRoute key => n.removePeerVirtualIPRoute key
  | .reallocate peerIPs => (n.reallocateAfterMeta T H peerIPs).2

/-- The node's own key comes with no other address of the subnet than its own, and the node moves to no
address that another key has. -/
def VipAllowed (n : TunNode) : VipCall → Prop
  | .addRoute key vip =>
    key = n.publicKey → ∀ ip ∈ T.parseIP vip, n.router.isInSubnet ip = true → n.virtualIP = ip
  | .removeRoute _ => True
  | .reallocate peerIPs => ∀ key ∈ n.router.resolveIP (n.reallocateAfterMeta T H peerIPs).1.1, key = n.publicKey

instance (n : TunNode) : (call : VipCall) → Decidable (n.VipAllowed T H call)
  | .addRoute key vip => inferInstanceAs (Decidable (key = n.publicKey →
      ∀ ip ∈ T.parseIP vip, n.router.isInSubnet ip = true → n.virtualIP = ip))
  | .removeRoute _ => isTrue trivial
  | .reallocate _ => inferInstanceAs (Decidable (∀ key ∈ n.router.resolveIP _, key = n.publicKey))

/-- The table is a bijection that pairs the node's key with its address. -/
structure VipConsistent (n : TunNode) : Prop where
  inverse : n.router.Consistent
  own : n.router.resolvePeer n.publicKey = some n.virtualIP
  localIP : n.router.localIP = some n.virtualIP
  localPubKey : n.router.localPubKey = n.publicKey

variable {T : NetText} {H : SlotHash} {n : TunNode}

theorem VipConsistent.owned (h : n.VipConsistent) : n.router.resolveIP n.virtualIP = some n.publicKey :=
  (h.inverse _ _).mpr h.own

theorem vipConsistent_setup {cfg : TunConfig} {key : String} {peerIPs : Map String IP}
    (h : setupTUN T H cfg key peerIPs = .ok n) : n.VipConsistent := by
  obtain ⟨alloc, _, h⟩ := Lib.bind_eq_ok.mp h
  cases hp : T.parseCIDR cfg.meshCIDR with
  | none =>
    rw [hp] at h
    cases h
  | some p =>
    rw [hp] at h
    obtain ⟨vip, _, h⟩ := Lib.bind_eq_ok.mp h
    cases h
    have hnew : (Router.new (some p.2) key).Consistent := Map.inverse_empty
    refine ⟨hnew.setLocalIP rfl ?_, ?_, rfl, rfl⟩
    · intro k hk
      cases hk
    · change ((Router.new (some p.2) key).setLocalIP vip).peerToIP.lookup key = some vip
      rw [Router.setLocalIP_peerToIP]
      exact if_pos rfl

theorem VipConsistent.addRoute (h : n.VipConsistent) {key vip : String}
    (hallowed : key = n.publicKey → ∀ ip ∈ T.parseIP vip, n.router.isInSubnet ip = true → n.virtualIP = ip) :
    (n.addPeerVirtualIPRoute T key vip).VipConsistent := by
  obtain hsame | ⟨ip, hip, hin, hown, hadd⟩ := addPeerVirtualIPRoute_cases n key vip
  · rw [hsame]
    exact h
  · have hkey : key ≠ n.publicKey := fun hkey => hown (hallowed hkey ip hip hin)
    rw [hadd]
    refine ⟨h.inverse.addRoute ip key, ?_, h.localIP, h.localPubKey⟩
    -- the node's own address is not the one taken, so its pair stays
    have hfree : n.router.ipToPeer.lookup ip ≠ some n.publicKey := by
      intro hip
      have hpeer := (h.inverse ip n.publicKey).mp hip
      rw [show n.router.peerToIP.lookup n.publicKey = some n.virtualIP from h.own] at hpeer
      exact hown (Option.some.inj hpeer)
    change (n.router.addRoute ip key).peerToIP.lookup n.publicKey = some n.virtualIP
    rw [Router.addRoute_peerToIP, if_neg (Ne.symm hkey), if_neg hfree]
    exact h.own

theorem VipConsistent.removeRoute (h : n.VipConsistent) (key : String) :
    (n.removePeerVirtualIPRoute key).VipConsistent := by
  have hinv := h.inverse.removeRoute key
  unfold removePeerVirtualIPRoute
  obtain hsame | ⟨ip, hkey, _, hrem⟩ := n.router.removeRoute_cases key
  · rw [hsame]
    exact h
  · refine ⟨hinv, ?_, ?_, ?_⟩
    · rw [h.localPubKey] at hkey
      rw [hrem]
      change (n.router.peerToIP.erase key).lookup n.publicKey = some n.virtualIP
      rw [AList.lookup_erase_ne (Ne.symm hkey)]
      exact h.own
    · rw [hrem]
      exact h.localIP
    · rw [hrem]
      exact h.localPubKey

theorem VipConsistent.reallocate (h : n.VipConsistent) {peerIPs : Map String IP}
    (hfree : ∀ key ∈ n.router.resolveIP (n.reallocateAfterMeta T H peerIPs).1.1, key = n.publicKey) :
    (n.reallocateAfterMeta T H peerIPs).2.VipConsistent := by
  obtain hsame | ⟨newIP, _, _, _, hmove⟩ := reallocateAfterMeta_cases n peerIPs
  · rw [hsame]
    exact h
  · rw [hmove] at hfree ⊢
    have hlocal : n.router.peerToIP.lookup n.router.localPubKey = n.router.localIP := by
      rw [h.localPubKey, h.localIP]
      exact h.own
    refine ⟨h.inverse.setLocalIP hlocal (fun k hk => ?_), ?_, rfl, h.localPubKey⟩
    · rw [h.localPubKey]
      exact hfree k hk
    · change (n.router.setLocalIP newIP).peerToIP.lookup n.publicKey = some newIP
      rw [Router.setLocalIP_peerToIP, if_pos h.localPubKey.symm]

theorem VipConsistent.step (call : VipCall) (ha : n.VipAllowed T H call) (h : n.VipConsistent) :
    (n.vipStep T H call).VipConsistent := by
  cases call with
  | addRoute key vip => exact h.addRoute ha
  | removeRoute key => exact h.removeRoute key
  | reallocate peerIPs => exact h.reallocate ha

/-- The two maps of the table stay mutually inverse and keep the node's own pair, over every run from the
setup in which the own key is reported at no other address of the subnet and reallocations take unrouted
addresses only. -/
theorem table_consistent {cfg : TunConfig} {key : String} {peerIPs : Map String IP}
    (hsetup : setupTUN T H cfg key peerIPs = .ok n) {calls : List VipCall}
    (hcalls : Meets (vipStep T H) (VipAllowed T H) n calls) :
    let n' := calls.foldl (vipStep T H) n
    (∀ ip k, n'.router.resolveIP ip = some k ↔ n'.router.resolvePeer k = some ip) ∧
      n'.router.resolvePeer n'.publicKey = some n'.virtualIP ∧
      n'.router.resolveIP n'.virtualIP = some n'.publicKey := by
  intro n'
  have h : n'.VipConsistent :=
    hcalls.invariant (fun n call ha hn => VipConsistent.step call ha hn) (vipConsistent_setup hsetup)
  exact ⟨h.inverse, h.own, h.owned⟩

def staticConfig : TunConfig where
  meshCIDR := Net.byteText.netString (.ofV4 0x0a0a0000) 24
  staticVirtualIP := Net.byteText.ipString (.ofV4 0x0a0a0001)

def staticNode : TunNode where
  publicKey := "self"
  cfg := staticConfig
  allocator := ⟨.ofPrefix (.ofV4 0x0a0a0000) 24, 8, 254⟩
  router := (Router.new (some (.ofPrefix (.ofV4 0x0a0a0000) 24)) "self").setLocalIP (.ofV4 0x0a0a0001)
  virtualIP := .ofV4 0x0a0a0001

theorem table_consistent_static :
    let calls : List VipCall := [.addRoute "peer" (Net.byteText.ipString (.ofV4 0x0a0a0002)), .removeRoute "self",
      .reallocate ∅]
    let n' := calls.foldl (vipStep Net.byteText fun _ _ => 0) staticNode
    setupTUN Net.byteText (fun _ _ => 0) staticConfig "self" ∅ = .ok staticNode ∧
      n'.router.resolvePeer "peer" = some (.ofV4 0x0a0a0002) ∧
      n'.router.resolvePeer n'.publicKey = some n'.virtualIP := by
  intro calls n'
  have hsetup : setupTUN Net.byteText (fun _ _ => 0) staticConfig "self" ∅ = .ok staticNode := by rfl
  have hcalls : Meets (vipStep Net.byteText fun _ _ => 0) (VipAllowed Net.byteText fun _ _ => 0) staticNode calls := by
    decide
  exact ⟨hsetup, by decide, (table_consistent hsetup hcalls).2.1⟩

/-- A neighbour that reports the node's own key with another address takes the node's own route away. -/
theorem own_key_route_breaks_table :
    setupTUN Net.byteText (fun _ _ => 0) staticConfig "self" ∅ = .ok staticNode ∧
      let n' := staticNode.vipStep Net.byteText (fun _ _ => 0)
        (.addRoute "self" (Net.byteText.ipString (.ofV4 0x0a0a0009)))
      n'.virtualIP = .ofV4 0x0a0a0001 ∧ n'.router.resolveIP n'.virtualIP = none ∧
        n'.router.resolvePeer n'.publicKey = some (.ofV4 0x0a0a0009) :=
  ⟨by rfl, by decide⟩

end TunNode
end MeshDesk.Mesh
