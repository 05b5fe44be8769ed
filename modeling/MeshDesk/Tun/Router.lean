import MeshDesk.Lib.Inverse
import MeshDesk.Net.Address

/-! The routing table of the virtual network: which key holds which address, in both directions. Addresses
index the table through their text, which is one to one. -/
namespace MeshDesk.Tun
open Lib (Map)
open Lib.Map (Inverse Relinked)
open Net (IP IPNet)

structure Router where
  ipToPeer : Map IP String
  peerToIP : Map String IP
  localIP : Option IP
  localPubKey : String
  subnet : Option IPNet

namespace Router

def new (subnet : Option IPNet) (localPubKey : String) : Router where
  ipToPeer := ∅
  peerToIP := ∅
  localIP := none
  localPubKey := localPubKey
  subnet := subnet

variable (r : Router) (ip : IP) (pubKey : String)

def setLocalIP : Router :=
  let table :=
    match r.localIP with
    | some old => if old ≠ ip then r.ipToPeer.erase old else r.ipToPeer
    | none => r.ipToPeer
  { r with localIP := some ip
           ipToPeer := table.insert ip r.localPubKey
           peerToIP := r.peerToIP.insert r.localPubKey ip }

def addRoute (virtualIP : IP) (pubKey : String) : Router :=
  let ipToPeer :=
    match r.peerToIP.lookup pubKey with
    | some oldIP => if oldIP ≠ virtualIP then r.ipToPeer.erase oldIP else r.ipToPeer
    | none => r.ipToPeer
  let peerToIP :=
    match ipToPeer.lookup virtualIP with
    | some oldPeer => if oldPeer ≠ pubKey then r.peerToIP.erase oldPeer else r.peerToIP
    | none => r.peerToIP
  { r with ipToPeer := ipToPeer.insert virtualIP pubKey
           peerToIP := peerToIP.insert pubKey virtualIP }

def removeRoute : Option IP × Router :=
  if pubKey = r.localPubKey then (none, r)
  else match r.peerToIP.lookup pubKey with
    | none => (none, r)
    | some ip => (some ip, { r with peerToIP := r.peerToIP.erase pubKey, ipToPeer := r.ipToPeer.erase ip })

def resolveIP (virtualIP : IP) : Option String := r.ipToPeer.lookup virtualIP

def resolvePeer : Option IP := r.peerToIP.lookup pubKey

def isLocalIP : Bool := r.localIP == some ip

def isInSubnet : Bool := r.subnet.any (·.contains ip)

def isSelf : Bool := pubKey == r.localPubKey

section Lookups
variable (r : Router)

theorem addRoute_ipToPeer (ip : IP) (key : String) (x : IP) :
    (r.addRoute ip key).ipToPeer.lookup x =
      if x = ip then some key else if r.peerToIP.lookup key = some x then none else r.ipToPeer.lookup x := by
  refine Map.lookup_insert_replacing ?_
  cases r.peerToIP.lookup key <;> rfl

theorem addRoute_peerToIP (ip : IP) (key : String) (k : String) :
    (r.addRoute ip key).peerToIP.lookup k =
      if k = key then some ip else if r.ipToPeer.lookup ip = some k then none else r.peerToIP.lookup k := by
  refine Map.lookup_insert_replacing ?_
  -- an old address of the same key is a different one, so the first deletion leaves the entry of `ip`
  have htable : (match r.peerToIP.lookup key with
      | some oldIP => if oldIP ≠ ip then r.ipToPeer.erase oldIP else r.ipToPeer
      | none => r.ipToPeer).lookup ip = r.ipToPeer.lookup ip := by
    cases r.peerToIP.lookup key with
    | none => rfl
    | some old =>
      by_cases hold : old = ip
      · simp [hold]
      · simp [hold, AList.lookup_erase_ne (Ne.symm hold)]
  rw [htable]
  cases r.ipToPeer.lookup ip <;> rfl

theorem setLocalIP_ipToPeer (ip x : IP) :
    (r.setLocalIP ip).ipToPeer.lookup x =
      if x = ip then some r.localPubKey else if r.localIP = some x then none else r.ipToPeer.lookup x := by
  refine Map.lookup_insert_replacing ?_
  cases r.localIP <;> rfl

theorem setLocalIP_peerToIP (ip : IP) (k : String) :
    (r.setLocalIP ip).peerToIP.lookup k = if k = r.localPubKey then some ip else r.peerToIP.lookup k := by
  by_cases hk : k = r.localPubKey
  · subst hk
    simp [setLocalIP]
  · simp [setLocalIP, hk, AList.lookup_insert_ne hk]

theorem removeRoute_cases (key : String) :
    (r.removeRoute key).2 = r ∨
      ∃ ip, key ≠ r.localPubKey ∧ r.peerToIP.lookup key = some ip ∧
        (r.removeRoute key).2 = { r with peerToIP := r.peerToIP.erase key, ipToPeer := r.ipToPeer.erase ip } := by
  unfold removeRoute
  split_ifs with hself
  · exact .inl rfl
  · cases hk : r.peerToIP.lookup key with
    | none => exact .inl rfl
    | some ip => exact .inr ⟨ip, hself, rfl, rfl⟩

end Lookups

section Bijection
variable {r : Router}

def Consistent (r : Router) : Prop := Inverse r.ipToPeer r.peerToIP

theorem Consistent.addRoute (h : r.Consistent) (ip : IP) (key : String) : (r.addRoute ip key).Consistent := by
  apply h.relink (a := ip) (b := key)
  constructor
  · intro x
    rw [addRoute_ipToPeer]
    simp only [(h x key).symm]
  · intro k
    rw [addRoute_peerToIP]
    simp only [h ip k]

theorem Consistent.removeRoute (h : r.Consistent) (key : String) : (r.removeRoute key).2.Consistent := by
  obtain hsame | ⟨ip, _, hk, hrem⟩ := r.removeRoute_cases key
  · rw [hsame]
    exact h
  · rw [hrem]
    exact Inverse.erase h ((h ip key).mpr hk)

theorem Consistent.setLocalIP (h : r.Consistent) (hlocal : r.peerToIP.lookup r.localPubKey = r.localIP) {ip : IP}
    (hfree : ∀ k, r.ipToPeer.lookup ip = some k → k = r.localPubKey) : (r.setLocalIP ip).Consistent := by
  apply h.relink (a := ip) (b := r.localPubKey)
  constructor
  · intro x
    rw [setLocalIP_ipToPeer, ← hlocal]
    simp only [(h x r.localPubKey).symm]
  · intro k
    rw [setLocalIP_peerToIP]
    by_cases hk : k = r.localPubKey
    · rw [if_pos hk, if_pos hk]
    · have hne : r.peerToIP.lookup k ≠ some ip := fun hki => hk (hfree k ((h ip k).mpr hki))
      rw [if_neg hk, if_neg hk, if_neg hne]

end Bijection
end Router
end MeshDesk.Tun
