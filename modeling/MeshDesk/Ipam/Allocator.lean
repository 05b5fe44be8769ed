import MeshDesk.Lib.Maps
import MeshDesk.Net.Address

/-! Deterministic addresses for the nodes of a mesh: a key is hashed to a host number, and hashed again with
a growing salt while a smaller key holds the address. `int` is 64 bits wide. -/
namespace MeshDesk.Ipam
open Lib (Map)
open Net (IP IPNet NetText)

def maxSaltIterations : ℕ := 1000

/-- The first eight bytes of the SHA-256 of a key and, after salt 0, the salt. -/
abbrev SlotHash := String → ℕ → UInt64

def shiftOne (k : ℕ) : ℤ := (1#64 <<< k).toInt

structure Allocator where
  subnet : IPNet
  hostBits : ℕ
  usableHosts : ℤ
  deriving DecidableEq

inductive AllocError where
  | invalidSubnet
  | tooLarge (hostBits : ℕ)
  | tooSmall
  | hostCountTooSmall (hostCount : ℤ)
  | hostCountExceeds (hostCount usableHosts : ℤ)
  | noFreeSlot
  deriving DecidableEq, Repr

/-- The message of an error about the subnet printed as `subnet`; `quote` is the `%q` of `fmt`. -/
def AllocError.text (quote : String → String) (subnet : String) : AllocError → String
  | .invalidSubnet => s!"ipam: invalid subnet {quote subnet}: invalid CIDR address: {subnet}"
  | .tooLarge bits => s!"ipam: subnet {subnet} too large (hostBits={bits} > 63)"
  | .tooSmall => s!"ipam: subnet {subnet} too small (need at least 2 addresses)"
  | .hostCountTooSmall n => s!"ipam: hostCount must be >= 1, got {n}"
  | .hostCountExceeds n hosts => s!"ipam: hostCount {n} exceeds usable hosts {hosts} in subnet {subnet}"
  | .noFreeSlot => s!"ipam: could not find a free slot after {maxSaltIterations} iterations (subnet may be full)"

namespace Allocator

def new (T : NetText) (subnet : String) : Except AllocError Allocator :=
  match T.parseCIDR subnet with
  | none => .error .invalidSubnet
  | some (_, ipNet) =>
    let hostBits := ipNet.bits - ipNet.ones
    let totalAddrs := shiftOne hostBits
    if hostBits > 63 then .error (.tooLarge hostBits)
    else if totalAddrs < 2 then .error .tooSmall
    else .ok ⟨ipNet, hostBits, if hostBits ≥ 2 then totalAddrs - 2 else totalAddrs⟩

/-- Adding to an address, carrying from its last byte to its first and no further. -/
def addOffset (ip : IP) (offset : ℕ) : IP :=
  match ip.to4 with
  | some a => .ofV4 (a + BitVec.ofNat 32 offset)
  | none => ⟨ip.bits + BitVec.ofNat 128 offset⟩

variable (H : SlotHash) (a : Allocator) (pubKey : String)

/-- Host 1 is the first address after the network's own, or that address where there are only two. -/
def hostNumberToIP (hostNum : ℕ) : Option IP :=
  if hostNum < 1 ∨ (hostNum : ℤ) > a.usableHosts then none
  else some (addOffset a.subnet.ip (if a.hostBits ≥ 2 then hostNum else hostNum - 1))

def hashToSlot (salt hostCount : ℕ) : ℕ := (H pubKey salt).toNat % hostCount

def candidate (hostCount salt : ℕ) : Option IP :=
  a.hostNumberToIP (hashToSlot H pubKey salt hostCount + 1)

def claimed (peerIPs : Map String IP) (ip : IP) : Bool := peerIPs.entries.any (·.2 == ip)

def mustYield (peerIPs : Map String IP) (pubKey : String) (ip : IP) : Bool :=
  peerIPs.entries.any fun e => e.2 == ip && decide (e.1 < pubKey)

def trySalt (hostCount : ℕ) (peerIPs : Map String IP) (salt : ℕ) : Option IP :=
  match candidate H a pubKey hostCount salt with
  | none => none
  | some ip => if !claimed peerIPs ip then some ip else if !mustYield peerIPs pubKey ip then some ip else none

def allocateWithPeers (hostCount : ℤ) (peerIPs : Map String IP) : Except AllocError IP :=
  if hostCount < 1 then .error (.hostCountTooSmall hostCount)
  else if hostCount > a.usableHosts then .error (.hostCountExceeds hostCount a.usableHosts)
  else match (List.range (maxSaltIterations + 1)).findSome? (trySalt H a pubKey hostCount.toNat peerIPs) with
    | some ip => .ok ip
    | none => .error .noFreeSlot

section Allocate
variable {H : SlotHash} {a : Allocator} {pubKey : String} {hostCount : ℕ} {peerIPs : Map String IP} {ip : IP}

theorem claimed_iff : claimed peerIPs ip = true ↔ ∃ k, peerIPs.lookup k = some ip := by
  simp [claimed, Map.mem_entries_iff]

theorem mustYield_iff : mustYield peerIPs pubKey ip = true ↔ ∃ k < pubKey, peerIPs.lookup k = some ip := by
  simp [mustYield, Map.mem_entries_iff, and_comm]

theorem trySalt_eq (salt : ℕ) : trySalt H a pubKey hostCount peerIPs salt =
    (candidate H a pubKey hostCount salt).filter fun ip => !mustYield peerIPs pubKey ip := by
  unfold trySalt
  cases candidate H a pubKey hostCount salt with
  | none => rfl
  | some ip =>
    by_cases hyield : mustYield peerIPs pubKey ip = true
    · obtain ⟨k, -, hk⟩ := mustYield_iff.mp hyield
      simp [Option.filter, hyield, claimed_iff.mpr ⟨k, hk⟩]
    · simp [Option.filter, hyield]

theorem trySalt_iff {salt : ℕ} : trySalt H a pubKey hostCount peerIPs salt = some ip ↔
    candidate H a pubKey hostCount salt = some ip ∧ ∀ k < pubKey, peerIPs.lookup k ≠ some ip := by
  rw [trySalt_eq, Option.filter_eq_some_iff, Bool.not_eq_true', ← Bool.not_eq_true, mustYield_iff]
  push Not
  rfl

theorem findSome_range {α : Type*} {f : ℕ → Option α} {n : ℕ} {x : α} (h : (List.range n).findSome? f = some x) :
    ∃ j < n, f j = some x ∧ ∀ i < j, f i = none := by
  induction n with
  | zero => cases h
  | succ n ih =>
    rw [List.range_succ, List.findSome?_append, Option.or_eq_some_iff] at h
    obtain h | ⟨hnone, h⟩ := h
    · obtain ⟨j, hj, hfirst⟩ := ih h
      exact ⟨j, hj.trans n.lt_succ_self, hfirst⟩
    · have hfirst := List.findSome?_eq_none_iff.mp hnone
      exact ⟨n, n.lt_succ_self, by simpa using h, fun i hi => hfirst i (List.mem_range.mpr hi)⟩

theorem allocateWithPeers_ok {count : ℤ} (h : allocateWithPeers H a pubKey count peerIPs = .ok ip) :
    1 ≤ count ∧ count ≤ a.usableHosts ∧ ∃ j ≤ maxSaltIterations, trySalt H a pubKey count.toNat peerIPs j = some ip ∧
      ∀ i < j, trySalt H a pubKey count.toNat peerIPs i = none := by
  unfold allocateWithPeers at h
  split_ifs at h with hlo hhi
  split at h
  · next hf =>
    cases h
    obtain ⟨j, hj, htry, hfirst⟩ := findSome_range hf
    exact ⟨not_lt.mp hlo, not_lt.mp hhi, j, Nat.lt_succ_iff.mp hj, htry, hfirst⟩
  · cases h

theorem allocateWithPeers_succeeds {count : ℤ} {j : ℕ} (hlo : 1 ≤ count) (hhi : count ≤ a.usableHosts)
    (hj : j ≤ maxSaltIterations) (htry : trySalt H a pubKey count.toNat peerIPs j = some ip) :
    ∃ ip', allocateWithPeers H a pubKey count peerIPs = .ok ip' := by
  unfold allocateWithPeers
  rw [if_neg (not_lt.mpr hlo), if_neg (not_lt.mpr hhi)]
  cases hf : (List.range (maxSaltIterations + 1)).findSome? (trySalt H a pubKey count.toNat peerIPs) with
  | none =>
    have hnone := List.findSome?_eq_none_iff.mp hf j (List.mem_range.mpr (Nat.lt_succ_of_le hj))
    rw [htry] at hnone
    cases hnone
  | some x => exact ⟨x, rfl⟩

end Allocate
end Allocator
end MeshDesk.Ipam
