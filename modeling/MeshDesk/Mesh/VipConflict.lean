import MeshDesk.Mesh.MetaExchange
import MeshDesk.Mesh.VipTable

/-! Two nodes with one virtual address: what a metadata message that names the other makes a node do. Routes to the
node's own address are refused before the conflict is looked at, so a reallocation does not see the competing claim;
it moves the node only if an earlier salt has become free. The salts of a node's addresses never grow, so it does not
come back. -/
namespace MeshDesk.Mesh
open Ipam Ipam.Allocator
open Lib (Map Meets)
open Net (IP NetText)
open Tun (Router)

namespace TunNode
variable (T : NetText) (H : SlotHash)

/-- An entry of the peer list: the route is learned, then the address compared with the own one. -/
def learnPeer (order : List IP) (n : TunNode) (pm : PeerMeta) : TunNode :=
  if pm.key ≠ "" ∧ pm.vip ≠ "" then
    (n.addPeerVirtualIPRoute T pm.key pm.vip).checkVIPConflict T H order pm.vip
  else n

variable (n : TunNode)

def learnSelf (pm : PeerMeta) : TunNode :=
  if pm.key ≠ "" ∧ pm.vip ≠ "" then n.addPeerVirtualIPRoute T pm.key pm.vip else n

/-- The addresses learned from an applied message; the routing table is read in the order `orders i` at the
`i`-th entry. -/
def learn (orders : ℕ → List IP) (n : TunNode) (msg : MetaMessage) : TunNode :=
  msg.peers.zipIdx.foldl (fun n e => n.learnPeer T H (orders e.2) e.1) (n.learnSelf T msg.self)

def Running : Prop :=
  ∃ cfg key peerIPs n₀ calls, setupTUN T H cfg key peerIPs = .ok n₀ ∧ n = List.foldl (vipStep T H) n₀ calls

def salted (salt : ℕ) : Option IP :=
  let count := usableHostsInSubnet T n.cfg.meshCIDR
  if 1 ≤ count ∧ count ≤ n.allocator.usableHosts ∧ salt ≤ maxSaltIterations then
    candidate H n.allocator n.publicKey count.toNat salt
  else none

/-- A peer with a smaller key is known at the address. -/
def HeldIn (peerIPs : Map String IP) (ip : IP) : Prop :=
  ∃ key < n.publicKey, peerIPs.lookup key = some ip

/-- The salt comes before every salt that gives the address. -/
def Before (salt : ℕ) (ip : IP) : Prop := ∀ i, n.salted T H i = some ip → salt < i

/-- The node has an address that it prefers to `ip`. -/
def Ahead (ip : IP) : Prop := ∃ salt, n.salted T H salt = some n.virtualIP ∧ n.Before T H salt ip

structure OwnRoute (n : TunNode) : Prop where
  localPubKey : n.router.localPubKey = n.publicKey
  own : ∀ key, n.router.resolveIP n.virtualIP = some key → key = n.publicKey

variable {T : NetText} {H : SlotHash} {n : TunNode}

/-! ### The own address is never taken by a peer's route -/

theorem OwnRoute.addRoute (h : n.OwnRoute) (key vip : String) : (n.addPeerVirtualIPRoute T key vip).OwnRoute := by
  obtain hsame | ⟨ip, _, _, hown, hadd⟩ := addPeerVirtualIPRoute_cases n key vip
  · rw [hsame]
    exact h
  · rw [hadd]
    refine ⟨h.localPubKey, fun k hk => h.own k ?_⟩
    have hk : (n.router.addRoute ip key).ipToPeer.lookup n.virtualIP = some k := hk
    rw [Router.addRoute_ipToPeer, if_neg hown] at hk
    split_ifs at hk
    exact hk

theorem OwnRoute.removeRoute (h : n.OwnRoute) (key : String) : (n.removePeerVirtualIPRoute key).OwnRoute := by
  unfold removePeerVirtualIPRoute
  obtain hsame | ⟨ip, _, _, hrem⟩ := n.router.removeRoute_cases key
  · rw [hsame]
    exact h
  · rw [hrem]
    refine ⟨h.localPubKey, fun k hk => h.own k ?_⟩
    exact (Map.lookup_of_erase hk).2

theorem OwnRoute.reallocate (h : n.OwnRoute) (peerIPs : Map String IP) :
    (n.reallocateAfterMeta T H peerIPs).2.OwnRoute := by
  obtain hsame | ⟨newIP, _, _, _, hmove⟩ := reallocateAfterMeta_cases n peerIPs
  · rw [hsame]
    exact h
  · rw [hmove]
    refine ⟨h.localPubKey, fun k hk => ?_⟩
    have hk : (n.router.setLocalIP newIP).ipToPeer.lookup newIP = some k := hk
    rw [Router.setLocalIP_ipToPeer, if_pos rfl, h.localPubKey] at hk
    exact (Option.some.inj hk).symm

theorem OwnRoute.vipStep (h : n.OwnRoute) (call : VipCall) : (n.vipStep T H call).OwnRoute := by
  cases call with
  | addRoute key vip => exact h.addRoute key vip
  | removeRoute key => exact h.removeRoute key
  | reallocate peerIPs => exact h.reallocate peerIPs

theorem Running.ownRoute (h : n.Running T H) : n.OwnRoute := by
  obtain ⟨cfg, key, peerIPs, n₀, calls, hsetup, rfl⟩ := h
  have hc := vipConsistent_setup hsetup
  have h₀ : n₀.OwnRoute := by
    refine ⟨hc.localPubKey, fun k hk => ?_⟩
    rw [hc.owned] at hk
    exact (Option.some.inj hk).symm
  exact List.foldlRecOn calls _ h₀ fun n h call _ => h.vipStep call

variable {ip : IP}

theorem lookup_peerVirtualIPs {order : List IP} {key : String}
    (h : (n.peerVirtualIPs order).lookup key = some ip) : n.router.resolveIP ip = some key ∧ key ≠ n.publicKey := by
  unfold peerVirtualIPs at h
  induction order using List.reverseRecOn with
  | nil => cases h
  | append_singleton order x ih =>
    rw [List.foldl_append, List.foldl_cons, List.foldl_nil] at h
    cases hx : n.router.resolveIP x with
    | none =>
      rw [hx] at h
      exact ih h
    | some k =>
      rw [hx] at h
      dsimp only at h
      split_ifs at h with hself
      · exact ih h
      · obtain ⟨rfl, rfl⟩ | ⟨-, hold⟩ := Map.lookup_of_insert h
        · exact ⟨hx, hself⟩
        · exact ih hold

theorem OwnRoute.not_heldIn (h : n.OwnRoute) (order : List IP) : ¬ n.HeldIn (n.peerVirtualIPs order) n.virtualIP := by
  rintro ⟨key, _, hlook⟩
  obtain ⟨hr, hne⟩ := lookup_peerVirtualIPs hlook
  exact hne (h.own key hr)

/-! ### Which salt a reallocation takes -/

theorem salted_iff {j : ℕ} : n.salted T H j = some ip ↔
    (1 ≤ usableHostsInSubnet T n.cfg.meshCIDR ∧ usableHostsInSubnet T n.cfg.meshCIDR ≤ n.allocator.usableHosts ∧
      j ≤ maxSaltIterations) ∧
      candidate H n.allocator n.publicKey (usableHostsInSubnet T n.cfg.meshCIDR).toNat j = some ip := by
  unfold salted
  dsimp only
  split_ifs with h
  · exact ⟨fun hc => ⟨h, hc⟩, fun hc => hc.2⟩
  · exact ⟨nofun, fun hc => absurd hc.1 h⟩

theorem reallocate_ok {peerIPs : Map String IP} (hstatic : n.cfg.staticVirtualIP = "")
    (h : n.allocator.allocateWithPeers H n.publicKey (usableHostsInSubnet T n.cfg.meshCIDR) peerIPs = .ok ip) :
    (n.reallocateAfterMeta T H peerIPs).2.virtualIP = ip := by
  unfold reallocateAfterMeta
  rw [if_neg (not_not.mpr hstatic), h]
  dsimp only
  split_ifs with heq
  · exact heq.symm
  · rfl

theorem reallocate_salted (peerIPs : Map String IP) (j : ℕ) :
    (n.reallocateAfterMeta T H peerIPs).2.salted T H j = n.salted T H j := by
  obtain hsame | ⟨newIP, _, _, _, hmove⟩ := reallocateAfterMeta_cases n peerIPs
  · rw [hsame]
  · rw [hmove]
    rfl

/-- A reallocation takes the address of the first salt that is free. If there is none, a smaller key holds
every address the salts give, and the node keeps its own. -/
theorem reallocate_salt (hstatic : n.cfg.staticVirtualIP = "") (peerIPs : Map String IP) :
    ((n.reallocateAfterMeta T H peerIPs).2.virtualIP = n.virtualIP ∧
        ∀ j ip, n.salted T H j = some ip → n.HeldIn peerIPs ip) ∨
      ∃ j, n.salted T H j = some (n.reallocateAfterMeta T H peerIPs).2.virtualIP ∧
        ¬ n.HeldIn peerIPs (n.reallocateAfterMeta T H peerIPs).2.virtualIP ∧
        ∀ i < j, ∀ ip, n.salted T H i = some ip → n.HeldIn peerIPs ip := by
  have htry : ∀ i ip, n.salted T H i = some ip → ¬ n.HeldIn peerIPs ip →
      trySalt H n.allocator n.publicKey (usableHostsInSubnet T n.cfg.meshCIDR).toNat peerIPs i = some ip := by
    intro i ip hs hfree
    exact trySalt_iff.mpr ⟨(salted_iff.mp hs).2, fun k hk hl => hfree ⟨k, hk, hl⟩⟩
  cases ha : n.allocator.allocateWithPeers H n.publicKey (usableHostsInSubnet T n.cfg.meshCIDR) peerIPs with
  | error e =>
    left
    refine ⟨?_, fun j ip hs => by_contra fun hfree => ?_⟩
    · unfold reallocateAfterMeta
      rw [if_neg (not_not.mpr hstatic), ha]
    · obtain ⟨⟨hlo, hhi, hj⟩, _⟩ := salted_iff.mp hs
      obtain ⟨ip', hok⟩ := allocateWithPeers_succeeds hlo hhi hj (htry j ip hs hfree)
      rw [ha] at hok
      cases hok
  | ok newIP =>
    right
    rw [reallocate_ok hstatic ha]
    obtain ⟨hlo, hhi, j, hj, hsome, hfirst⟩ := allocateWithPeers_ok ha
    obtain ⟨hcand, hfree⟩ := trySalt_iff.mp hsome
    refine ⟨j, salted_iff.mpr ⟨⟨hlo, hhi, hj⟩, hcand⟩, ?_, ?_⟩
    · rintro ⟨k, hk, hl⟩
      exact hfree k hk hl
    · intro i hi ip hs
      by_contra hnot
      have := htry i ip hs hnot
      rw [hfirst i hi] at this
      cases this

section Preference
variable {v : IP}

theorem Ahead.ne (h : n.Ahead T H v) : n.virtualIP ≠ v := by
  rintro rfl
  obtain ⟨j, hj, hbefore⟩ := h
  exact lt_irrefl j (hbefore j hj)

variable {j : ℕ} {peerIPs : Map String IP}

theorem before_congr {n' : TunNode} (h : ∀ j, n'.salted T H j = n.salted T H j) :
    n'.Before T H j v ↔ n.Before T H j v := by
  unfold Before
  simp only [h]

theorem before_own {ip : IP} (hown : ¬ n.HeldIn peerIPs n.virtualIP)
    (hj : n.salted T H j = some ip) (hfirst : ∀ i < j, ∀ ip, n.salted T H i = some ip → n.HeldIn peerIPs ip)
    (hne : ip ≠ n.virtualIP) : n.Before T H j n.virtualIP := by
  intro i hi
  by_contra hle
  rcases Nat.lt_or_eq_of_le (not_lt.mp hle) with hlt | rfl
  · exact hown (hfirst i hlt _ hi)
  · exact hne (Option.mem_unique hj hi)

section
variable (hstatic : n.cfg.staticVirtualIP = "")
include hstatic

theorem Ahead.reallocate
    (hown : ¬ n.HeldIn peerIPs n.virtualIP) (h : n.Ahead T H v) :
    (n.reallocateAfterMeta T H peerIPs).2.Ahead T H v := by
  have hsame := reallocate_salted (T := T) (H := H) (n := n) peerIPs
  obtain ⟨j₀, hj₀, hbefore⟩ := h
  obtain ⟨hkeep, _⟩ | ⟨j, hj, _, hfirst⟩ := reallocate_salt hstatic peerIPs
  · refine ⟨j₀, ?_, (before_congr hsame).mpr hbefore⟩
    rw [hsame, hkeep]
    exact hj₀
  · refine ⟨j, (hsame j).trans hj, (before_congr hsame).mpr fun i hi => ?_⟩
    have hle : j ≤ j₀ := by
      by_contra hlt
      exact hown (hfirst j₀ (not_le.mp hlt) _ hj₀)
    exact hle.trans_lt (hbefore i hi)

theorem reallocate_leaves
    (hown : ¬ n.HeldIn peerIPs n.virtualIP) (hne : (n.reallocateAfterMeta T H peerIPs).2.virtualIP ≠ n.virtualIP) :
    (n.reallocateAfterMeta T H peerIPs).2.Ahead T H n.virtualIP := by
  have hsame := reallocate_salted (T := T) (H := H) (n := n) peerIPs
  obtain ⟨hkeep, _⟩ | ⟨j, hj, _, hfirst⟩ := reallocate_salt hstatic peerIPs
  · exact absurd hkeep hne
  · exact ⟨j, (hsame j).trans hj, (before_congr hsame).mpr (before_own hown hj hfirst hne)⟩

theorem reallocate_yields {ip : IP}
    (hj : n.salted T H j = some ip) (hfree : ¬ n.HeldIn peerIPs ip) (hbefore : n.Before T H j n.virtualIP) :
    (n.reallocateAfterMeta T H peerIPs).2.virtualIP ≠ n.virtualIP := by
  intro heq
  obtain ⟨_, hall⟩ | ⟨i, hi, _, hfirst⟩ := reallocate_salt hstatic peerIPs
  · exact hfree (hall j ip hj)
  · rw [heq] at hi
    exact hfree (hfirst j (hbefore i hi) ip hj)

theorem reallocate_stays
    (hown : ¬ n.HeldIn peerIPs n.virtualIP)
    (hheld : ∀ j ip, n.salted T H j = some ip → n.Before T H j n.virtualIP → n.HeldIn peerIPs ip) :
    (n.reallocateAfterMeta T H peerIPs).2.virtualIP = n.virtualIP := by
  by_contra hne
  obtain ⟨hkeep, _⟩ | ⟨j, hj, hfree, hfirst⟩ := reallocate_salt hstatic peerIPs
  · exact hne hkeep
  · exact hfree (hheld j _ hj (before_own hown hj hfirst hne))

end

end Preference

section Learning
variable {v : IP} {order : List IP}

theorem addRoute_keeps (n : TunNode) (key vip : String) :
    ∃ router, n.addPeerVirtualIPRoute T key vip = { n with router := router } := by
  obtain hsame | ⟨ip, _, _, _, hadd⟩ := addPeerVirtualIPRoute_cases n key vip
  · exact ⟨n.router, hsame⟩
  · exact ⟨_, hadd⟩

theorem addRoute_own (n : TunNode) (key : String) : n.addPeerVirtualIPRoute T key (T.ipString n.virtualIP) = n := by
  obtain hsame | ⟨ip, hp, _, hne, _⟩ := addPeerVirtualIPRoute_cases n key (T.ipString n.virtualIP)
  · exact hsame
  · rw [T.parseIP_ipString] at hp
    exact absurd (Option.some.inj hp) hne

theorem checkVIPConflict_cases (n : TunNode) (order : List IP) (vip : String) :
    (n.checkVIPConflict T H order vip = n ∧ (vip ≠ "" → T.ipString n.virtualIP ≠ vip)) ∨
      (T.ipString n.virtualIP = vip ∧
        n.checkVIPConflict T H order vip = (n.reallocateAfterMeta T H (n.peerVirtualIPs order)).2) := by
  unfold checkVIPConflict
  split_ifs with hempty hne
  · exact .inl ⟨rfl, fun h => absurd hempty h⟩
  · exact .inl ⟨rfl, fun _ => hne⟩
  · exact .inr ⟨not_not.mp hne, rfl⟩

/-- A node without a static address whose own address is routed to nobody else. -/
structure Dynamic (n : TunNode) : Prop where
  static : n.cfg.staticVirtualIP = ""
  ownRoute : n.OwnRoute

theorem Dynamic.addRoute (h : n.Dynamic) (key vip : String) : (n.addPeerVirtualIPRoute T key vip).Dynamic := by
  obtain ⟨router, hadd⟩ := addRoute_keeps n key vip
  refine ⟨?_, h.ownRoute.addRoute key vip⟩
  rw [hadd]
  exact h.static

theorem Dynamic.reallocate (h : n.Dynamic) (peerIPs : Map String IP) :
    (n.reallocateAfterMeta T H peerIPs).2.Dynamic := by
  refine ⟨?_, h.ownRoute.reallocate peerIPs⟩
  obtain hsame | ⟨newIP, _, _, _, hmove⟩ := reallocateAfterMeta_cases n peerIPs
  · rw [hsame]
    exact h.static
  · rw [hmove]
    exact h.static

theorem learnPeer_keeps {P : TunNode → Prop} (hadd : ∀ n key vip, P n → P (n.addPeerVirtualIPRoute T key vip))
    (hre : ∀ n order, P n → P (n.reallocateAfterMeta T H (n.peerVirtualIPs order)).2) (h : P n) (pm : PeerMeta) :
    P (n.learnPeer T H order pm) := by
  unfold learnPeer
  split_ifs
  · have h' := hadd n pm.key pm.vip h
    obtain ⟨hsame, _⟩ | ⟨_, hcheck⟩ :=
      checkVIPConflict_cases (n.addPeerVirtualIPRoute T pm.key pm.vip) order pm.vip
    · rw [hsame]
      exact h'
    · rw [hcheck]
      exact hre _ order h'
  · exact h

theorem Ahead.addRoute (h : n.Ahead T H v) (key vip : String) : (n.addPeerVirtualIPRoute T key vip).Ahead T H v := by
  obtain ⟨router, hadd⟩ := addRoute_keeps n key vip
  rw [hadd]
  exact h

/-- The node holds the address, or has one it prefers. -/
def Leaning (T : NetText) (H : SlotHash) (v : IP) (n : TunNode) : Prop :=
  n.Dynamic ∧ (n.virtualIP = v ∨ n.Ahead T H v)

def Moved (T : NetText) (H : SlotHash) (v : IP) (n : TunNode) : Prop := n.Dynamic ∧ n.Ahead T H v

theorem Moved.learnPeer (h : n.Moved T H v) (pm : PeerMeta) : (n.learnPeer T H order pm).Moved T H v := by
  refine learnPeer_keeps (fun n key vip hn => ?_) (fun n order hn => ?_) h pm
  · exact ⟨hn.1.addRoute key vip, hn.2.addRoute key vip⟩
  · exact ⟨hn.1.reallocate _, hn.2.reallocate hn.1.static (hn.1.ownRoute.not_heldIn order)⟩

theorem Leaning.addRoute (h : n.Leaning T H v) (key vip : String) :
    (n.addPeerVirtualIPRoute T key vip).Leaning T H v := by
  refine ⟨h.1.addRoute key vip, h.2.imp (fun heq => ?_) fun ha => ha.addRoute key vip⟩
  obtain ⟨router, hadd⟩ := addRoute_keeps n key vip
  rw [hadd]
  exact heq

theorem Leaning.learnPeer (h : n.Leaning T H v) (pm : PeerMeta) : (n.learnPeer T H order pm).Leaning T H v := by
  refine learnPeer_keeps (fun n key vip hn => hn.addRoute key vip) (fun n order hn => ?_) h pm
  have hown := hn.1.ownRoute.not_heldIn order
  refine ⟨hn.1.reallocate _, ?_⟩
  rcases hn.2 with rfl | ha
  · by_cases hsame : (n.reallocateAfterMeta T H (n.peerVirtualIPs order)).2.virtualIP = n.virtualIP
    · exact .inl hsame
    · exact .inr (reallocate_leaves hn.1.static hown hsame)
  · exact .inr (ha.reallocate hn.1.static hown)

/-- The entry that names another node with the address moves a node that holds it, if a salt before those of
the address gives one that no smaller key is routed to. -/
theorem Leaning.named (h : n.Leaning T H v) {key : String} (hkey : key ≠ "")
    (hfree : n.virtualIP = v → ∃ j ip, n.salted T H j = some ip ∧ n.Before T H j v ∧
      ∀ k < n.publicKey, n.router.resolveIP ip ≠ some k) :
    (n.learnPeer T H order ⟨key, T.ipString v⟩).Moved T H v := by
  have hlean : (n.learnPeer T H order ⟨key, T.ipString v⟩).Leaning T H v := h.learnPeer _
  rcases h.2 with rfl | ha
  · refine ⟨hlean.1, hlean.2.resolve_left ?_⟩
    have hvip : T.ipString n.virtualIP ≠ "" := by
      intro hempty
      have hp := T.parseIP_ipString n.virtualIP
      rw [hempty, T.parseIP_empty] at hp
      cases hp
    have hlearn : n.learnPeer T H order ⟨key, T.ipString n.virtualIP⟩ =
        (n.reallocateAfterMeta T H (n.peerVirtualIPs order)).2 := by
      unfold TunNode.learnPeer
      rw [if_pos ⟨hkey, hvip⟩, addRoute_own]
      obtain ⟨_, hne⟩ | ⟨_, hcheck⟩ := checkVIPConflict_cases n order (T.ipString n.virtualIP)
      · exact absurd rfl (hne hvip)
      · exact hcheck
    obtain ⟨j, ip, hj, hbefore, hnone⟩ := hfree rfl
    rw [hlearn]
    refine reallocate_yields h.1.static hj ?_ hbefore
    rintro ⟨k, hk, hl⟩
    exact hnone k hk (lookup_peerVirtualIPs hl).1
  · exact Moved.learnPeer ⟨h.1, ha⟩ _

theorem Dynamic.learnSelf (h : n.Dynamic) (pm : PeerMeta) : (n.learnSelf T pm).Dynamic := by
  unfold TunNode.learnSelf
  split_ifs
  · exact h.addRoute _ _
  · exact h

theorem learnSelf_virtualIP (n : TunNode) (pm : PeerMeta) : (n.learnSelf T pm).virtualIP = n.virtualIP := by
  unfold learnSelf
  split_ifs
  · obtain ⟨router, hadd⟩ := addRoute_keeps n pm.key pm.vip
    rw [hadd]
  · rfl

variable (T H) in
/-- At the entry, the node's address is not the one reported, or smaller keys hold the addresses of all
earlier salts. -/
def Settled (orders : ℕ → List IP) (n : TunNode) (e : PeerMeta × ℕ) : Prop :=
  let n := n.addPeerVirtualIPRoute T e.1.key e.1.vip
  T.ipString n.virtualIP = e.1.vip →
    ∀ j ip, n.salted T H j = some ip → n.Before T H j n.virtualIP → n.HeldIn (n.peerVirtualIPs (orders e.2)) ip

theorem learnPeer_settled {orders : ℕ → List IP} {e : PeerMeta × ℕ} (h : n.Dynamic) (hs : n.Settled T H orders e) :
    (n.learnPeer T H (orders e.2) e.1).virtualIP = n.virtualIP := by
  unfold learnPeer
  split_ifs
  · obtain ⟨router, hadd⟩ := addRoute_keeps n e.1.key e.1.vip
    have hvip : (n.addPeerVirtualIPRoute T e.1.key e.1.vip).virtualIP = n.virtualIP := by rw [hadd]
    obtain ⟨hsame, _⟩ | ⟨heq, hcheck⟩ :=
      checkVIPConflict_cases (n.addPeerVirtualIPRoute T e.1.key e.1.vip) (orders e.2) e.1.vip
    · rw [hsame, hvip]
    · have hdyn := h.addRoute (T := T) e.1.key e.1.vip
      rw [hcheck, ← hvip]
      exact reallocate_stays hdyn.static (hdyn.ownRoute.not_heldIn _) (hs heq)
  · rfl

/-- Of two nodes with one address, the one with the larger key gives it up when a peer list names the other,
provided that a salt before those of the address gives one that no smaller key is routed to; the one with
the smaller key keeps it through every message, provided that smaller keys hold the addresses of its earlier
salts whenever its own address is reported. -/
theorem conflict_yields {larger smaller : TunNode} (hl : larger.Running T H) (hs : smaller.Running T H)
    (hlstatic : larger.cfg.staticVirtualIP = "") (hsstatic : smaller.cfg.staticVirtualIP = "")
    (_hkeys : smaller.publicKey < larger.publicKey) (hkey : smaller.publicKey ≠ "")
    (hsame : smaller.virtualIP = larger.virtualIP) (orders : ℕ → List IP) {msg : MetaMessage}
    (before after : List PeerMeta)
    (hmsg : msg.peers = before ++ ⟨smaller.publicKey, T.ipString smaller.virtualIP⟩ :: after)
    (hfree : let n := before.zipIdx.foldl (fun n e => n.learnPeer T H (orders e.2) e.1) (larger.learnSelf T msg.self)
      n.virtualIP = larger.virtualIP → ∃ j ip, n.salted T H j = some ip ∧ n.Before T H j larger.virtualIP ∧
        ∀ k < n.publicKey, n.router.resolveIP ip ≠ some k)
    (orders' : ℕ → List IP) {msg' : MetaMessage}
    (hsettled : Meets (fun n e => n.learnPeer T H (orders' e.2) e.1) (Settled T H orders') (smaller.learnSelf T msg'.self)
      msg'.peers.zipIdx) :
    (larger.learn T H orders msg).virtualIP ≠ smaller.virtualIP ∧
      (smaller.learn T H orders' msg').virtualIP = smaller.virtualIP := by
  constructor
  · have hlean : (larger.learnSelf T msg.self).Leaning T H larger.virtualIP :=
      ⟨Dynamic.learnSelf ⟨hlstatic, hl.ownRoute⟩ _, .inl (learnSelf_virtualIP _ _)⟩
    unfold learn
    rw [hmsg, List.zipIdx_append, List.zipIdx_cons, List.foldl_append, List.foldl_cons, hsame]
    have hbefore := List.foldlRecOn before.zipIdx (fun n e => n.learnPeer T H (orders e.2) e.1) hlean
      fun n h e _ => h.learnPeer e.1
    exact (List.foldlRecOn _ _ (hbefore.named hkey hfree) fun n h e _ => Moved.learnPeer h e.1).2.ne
  · have hinv := hsettled.invariant (I := fun n => n.Dynamic ∧ n.virtualIP = smaller.virtualIP) ?_
      ⟨Dynamic.learnSelf ⟨hsstatic, hs.ownRoute⟩ _, learnSelf_virtualIP _ _⟩
    · exact hinv.2
    · intro n e he hn
      refine ⟨?_, (learnPeer_settled hn.1 he).trans hn.2⟩
      exact learnPeer_keeps (fun n key vip h => h.addRoute key vip) (fun n order h => h.reallocate _) hn.1 e.1

/-! ### Short keys with their real hashes in 10.10.0.0/24 -/

/-- The first eight bytes of SHA-256, little endian, for the keys and salts below. -/
def sampleHash : SlotHash
  | "02", 0 => 2695240668312261545
  | "51", 0 => 775602210792413955
  | "51", 1 => 5657665740756872393
  | "42", 0 => 10200184810016360307
  | _, _ => 0

def officeConfig : TunConfig := ⟨Net.byteText.netString (.ofV4 0x0a0a0000) 24, ""⟩

/-- A node of the office subnet with the address it got at its setup. -/
def officeNode (key : String) (vip : IP) : TunNode where
  publicKey := key
  cfg := officeConfig
  allocator := ⟨.ofPrefix (.ofV4 0x0a0a0000) 24, 8, 254⟩
  router := (Router.new (some (.ofPrefix (.ofV4 0x0a0a0000) 24)) key).setLocalIP vip
  virtualIP := vip

theorem setup_office {key : String} {peerIPs : Map String IP} {vip : IP}
    (h : allocateWithPeers sampleHash ⟨.ofPrefix (.ofV4 0x0a0a0000) 24, 8, 254⟩ key 254 peerIPs = .ok vip) :
    setupTUN Net.byteText sampleHash officeConfig key peerIPs = .ok (officeNode key vip) := by
  have hnew : Allocator.new Net.byteText officeConfig.meshCIDR = .ok ⟨.ofPrefix (.ofV4 0x0a0a0000) 24, 8, 254⟩ := by
    decide
  have hcidr : Net.byteText.parseCIDR officeConfig.meshCIDR =
      some (.ofV4 0x0a0a0000, .ofPrefix (.ofV4 0x0a0a0000) 24) := by
    decide
  have hcount : usableHostsInSubnet Net.byteText officeConfig.meshCIDR = 254 := by decide
  have hfirst : firstAddress Net.byteText sampleHash officeConfig key ⟨.ofPrefix (.ofV4 0x0a0a0000) 24, 8, 254⟩
      (.ofPrefix (.ofV4 0x0a0a0000) 24) peerIPs = .ok vip := by
    have hstatic : officeConfig.staticVirtualIP = "" := rfl
    unfold firstAddress
    rw [if_neg (not_not.mpr hstatic), hcount, h]
    rfl
  unfold setupTUN
  rw [hnew, hcidr]
  simp only [Except.mapError, Except.bind, hfirst]
  rfl

def address186 : IP := .ofV4 0x0a0a00ba

def address110 : IP := .ofV4 0x0a0a006e

set_option maxRecDepth 4000

/-- Key `51` was set up while `00` held its first address; it leaves the second one, which `42` also has, for
the first, which is free by now. -/
theorem conflict_yields_office :
    let larger := officeNode "51" address110
    let smaller := officeNode "42" address110
    let msg : MetaMessage := { self := ⟨"aa", ""⟩, peers := [⟨"42", Net.byteText.ipString address110⟩], seq := 1 }
    (larger.learn Net.byteText sampleHash (fun _ => []) msg).virtualIP ≠ smaller.virtualIP ∧
      (smaller.learn Net.byteText sampleHash (fun _ => []) msg).virtualIP = smaller.virtualIP := by
  intro larger smaller msg
  have hl : larger.Running Net.byteText sampleHash :=
    ⟨officeConfig, "51", (∅ : Map String IP).insert "00" address186, _, [], setup_office (by decide), rfl⟩
  have hs : smaller.Running Net.byteText sampleHash :=
    ⟨officeConfig, "42", ∅, _, [], setup_office (by decide), rfl⟩
  have h0 : larger.salted Net.byteText sampleHash 0 = some address186 := by decide
  have h0' : smaller.salted Net.byteText sampleHash 0 = some address110 := by decide
  have hnone : (larger.learnSelf Net.byteText msg.self).router.resolveIP address186 = none := by decide
  refine conflict_yields hl hs rfl rfl (by decide) (by decide) rfl (fun _ => []) [] [] rfl ?_ (fun _ => [])
    ⟨?_, trivial⟩
  · intro n hn
    refine ⟨0, address186, h0, fun i hi => Nat.pos_of_ne_zero ?_, fun k _ hk => ?_⟩
    · rintro rfl
      exact absurd hi (by decide)
    · cases hnone.symm.trans hk
  · intro _ j ip hj hbefore
    exact absurd (hbefore 0 h0') (Nat.not_lt_zero j)

/-- Keys `02` and `51` hash to one address. Neither the sender's own entry nor a peer list that names `02` at
that address makes `51` leave it, although salt 1 gives it an address nobody has. -/
theorem conflict_stays :
    let larger := officeNode "51" address186
    let named : PeerMeta := ⟨"02", Net.byteText.ipString address186⟩
    setupTUN Net.byteText sampleHash officeConfig "02" ∅ = .ok (officeNode "02" address186) ∧
      setupTUN Net.byteText sampleHash officeConfig "51" ∅ = .ok larger ∧
      larger.salted Net.byteText sampleHash 1 = some address110 ∧ larger.router.resolveIP address110 = none ∧
      (larger.learn Net.byteText sampleHash (fun _ => [address186])
        { self := named, peers := [], seq := 1 }).virtualIP = address186 ∧
      (larger.learn Net.byteText sampleHash (fun _ => [address186])
        { self := ⟨"aa", ""⟩, peers := [named], seq := 1 }).virtualIP = address186 := by
  intro larger named
  refine ⟨setup_office (by decide), setup_office (by decide), ?_⟩
  decide +kernel

end Learning
end TunNode
end MeshDesk.Mesh
