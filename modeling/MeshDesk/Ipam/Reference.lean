import Mathlib.Data.List.Sort
import Mathlib.Order.Filter.AtTopBot.Basic
import Mathlib.Order.Filter.Finite
import Mathlib.Order.WellFoundedSet
import Mathlib.Data.String.Basic
import MeshDesk.Ipam.Allocator

/-! The reference assignment of addresses, in the order of the keys. Nodes that recompute their own addresses, each
when its turn comes, end up with it: what a node computes depends on the smaller keys only. -/
namespace MeshDesk.Ipam
open Lib (Map)
open Net (IP)
open List

inductive ReferenceError where
  | nodesExceed (nodes : ℕ) (usableHosts : ℤ)
  | failed (key : String)
  deriving DecidableEq, Repr

namespace Allocator
variable (H : SlotHash) (a : Allocator)

@[irreducible] def allocateWithClaimed (pubKey : String) (hostCount : ℕ) (claimed : List IP) : Option IP :=
  (List.range (maxSaltIterations + 1)).findSome? fun salt =>
    (candidate H a pubKey hostCount salt).filter (· ∉ claimed)

def allocateSorted (hostCount : ℕ) : List String → List IP → Map String IP → Except ReferenceError (Map String IP)
  | [], _, result => .ok result
  | key :: keys, claimed, result =>
    match allocateWithClaimed H a key hostCount claimed with
    | none => .error (.failed key)
    | some ip => allocateSorted hostCount keys (ip :: claimed) (result.insert key ip)

def allocateAll (pubKeys : List String) : Except ReferenceError (Map String IP) :=
  if pubKeys.length = 0 then .ok ∅
  else if pubKeys.length > a.usableHosts then .error (.nodesExceed pubKeys.length a.usableHosts)
  else allocateSorted H a pubKeys.length (pubKeys.insertionSort (· ≤ ·)) [] ∅

/-- One node computes its address again from what the others claim. -/
def recompute (hostCount : ℕ) (claims : Map String IP) (pubKey : String) : Map String IP :=
  match allocateWithPeers H a pubKey hostCount (claims.erase pubKey) with
  | .ok ip => claims.insert pubKey ip
  | .error _ => claims

def recomputes (hostCount : ℕ) (claims : Map String IP) (order : ℕ → String) : ℕ → Map String IP
  | 0 => claims
  | n + 1 => recompute H a hostCount (recomputes hostCount claims order n) (order n)

/-- The address of a key is the first one that no smaller key holds. -/
def Follows (hostCount : ℕ) (r : Map String IP) (key : String) : Prop :=
  ∃ claimed ip, (∀ ip, ip ∈ claimed ↔ ∃ k < key, r.lookup k = some ip) ∧
    allocateWithClaimed H a key hostCount claimed = some ip ∧ r.lookup key = some ip

/-- What the reference assigns, for keys in any order. -/
structure Reference (keys : List String) (r : Map String IP) : Prop where
  hosts : keys ≠ [] → (keys.length : ℤ) ≤ a.usableHosts
  other : ∀ k, k ∉ keys → r.lookup k = none
  follows : ∀ k ∈ keys, Follows H a keys.length r k

section Reference
variable {H : SlotHash} {a : Allocator} {hostCount : ℕ} {key : String} {keys : List String} {claims r : Map String IP}
  {claimed : List IP}

theorem findSome_trySalt (h : ∀ ip, ip ∈ claimed ↔ ∃ k < key, claims.lookup k = some ip) :
    (range (maxSaltIterations + 1)).findSome? (trySalt H a key hostCount claims) =
      allocateWithClaimed H a key hostCount claimed := by
  unfold allocateWithClaimed
  congr 1
  funext salt
  ext ip
  rw [trySalt_iff, Option.filter_eq_some_iff, decide_eq_true_iff, h ip]
  push Not
  rfl

/-- The loop over sorted keys: `claimed` lists the addresses of the keys before, which are all smaller. -/
theorem allocateSorted_ok {result : Map String IP} (hsorted : keys.Pairwise (· < ·))
    (hless : ∀ k ∈ keys, ∀ k' ip, result.lookup k' = some ip → k' < k)
    (hclaimed : ∀ ip, ip ∈ claimed ↔ ∃ k, result.lookup k = some ip)
    (h : allocateSorted H a hostCount keys claimed result = .ok r) :
    (∀ k, k ∉ keys → r.lookup k = result.lookup k) ∧ ∀ k ∈ keys, Follows H a hostCount r k := by
  induction keys generalizing claimed result with
  | nil =>
    obtain rfl := Except.ok.inj h
    exact ⟨fun _ _ => rfl, forall_mem_nil _⟩
  | cons key keys ih =>
    obtain ⟨hfirst, hsorted⟩ := pairwise_cons.mp hsorted
    obtain ⟨hkey, -⟩ := forall_mem_cons.mp hless
    rw [allocateSorted] at h
    split at h
    · cases h
    rename_i ip hip
    have hless' : ∀ k ∈ keys, ∀ k' ip', (result.insert key ip).lookup k' = some ip' → k' < k := by
      intro k hk k' ip' hk'
      obtain ⟨rfl, -⟩ | ⟨-, hold⟩ := Map.lookup_of_insert hk'
      · exact hfirst k hk
      · exact (hkey k' ip' hold).trans (hfirst k hk)
    have hclaimed' : ∀ ip', ip' ∈ ip :: claimed ↔ ∃ k, (result.insert key ip).lookup k = some ip' := by
      intro ip'
      rw [mem_cons, hclaimed]
      constructor
      · rintro (rfl | ⟨k, hk⟩)
        · exact ⟨key, AList.lookup_insert _⟩
        · exact ⟨k, (AList.lookup_insert_ne (hkey k ip' hk).ne).trans hk⟩
      · rintro ⟨k, hk⟩
        obtain ⟨-, rfl⟩ | ⟨-, hold⟩ := Map.lookup_of_insert hk
        · exact .inl rfl
        · exact .inr ⟨k, hold⟩
    obtain ⟨hsame, hfollows⟩ := ih hsorted hless' hclaimed' h
    have hother : ∀ k, k ∉ key :: keys → r.lookup k = result.lookup k := fun k hk =>
      (hsame k (not_mem_of_not_mem_cons hk)).trans (AList.lookup_insert_ne (ne_of_not_mem_cons hk))
    refine ⟨hother, forall_mem_cons.mpr ⟨?_, hfollows⟩⟩
    have hbefore : ∀ k < key, r.lookup k = result.lookup k := by
      refine fun k hlt => hother k fun hmem => ?_
      obtain rfl | hmem := mem_cons.mp hmem
      · exact lt_irrefl _ hlt
      · exact hlt.asymm (hfirst k hmem)
    have hnot : key ∉ keys := fun hmem => lt_irrefl _ (hfirst key hmem)
    refine ⟨claimed, ip, fun ip' => (hclaimed ip').trans (exists_congr fun k => ?_), hip,
      (hsame key hnot).trans (AList.lookup_insert _)⟩
    constructor
    · exact fun hk => ⟨hkey k ip' hk, (hbefore k (hkey k ip' hk)).trans hk⟩
    · exact fun ⟨hlt, hk⟩ => (hbefore k hlt).symm.trans hk

theorem allocateAll_ok (hkeys : keys.Nodup) (h : allocateAll H a keys = .ok r) : Reference H a keys r := by
  unfold allocateAll at h
  split_ifs at h with hempty hmany
  · cases h
    obtain rfl := length_eq_zero_iff.mp hempty
    exact ⟨fun hne => absurd rfl hne, fun _ _ => rfl, forall_mem_nil _⟩
  · have hperm := perm_insertionSort (· ≤ ·) keys
    have hsorted : (keys.insertionSort (· ≤ ·)).Pairwise (· < ·) :=
      (sortedLE_insertionSort.sortedLT_of_nodup (hperm.nodup_iff.mpr hkeys)).pairwise
    obtain ⟨hother, hfollows⟩ := allocateSorted_ok hsorted (by simp) (by simp) h
    simp only [hperm.mem_iff] at hother hfollows
    exact ⟨fun _ => not_lt.mp hmany, hother, hfollows⟩

theorem Reference.allocateWithPeers (href : Reference H a keys r) (hkey : key ∈ keys)
    (h : ∀ k < key, claims.lookup k = r.lookup k) :
    ∃ ip, r.lookup key = some ip ∧ allocateWithPeers H a key keys.length (claims.erase key) = .ok ip := by
  obtain ⟨claimed, ip, hclaimed, hip, hr⟩ := href.follows key hkey
  have hpos := length_pos_of_mem hkey
  have hhosts := href.hosts (ne_nil_of_mem hkey)
  have hheld : ∀ ip, ip ∈ claimed ↔ ∃ k < key, (claims.erase key).lookup k = some ip := by
    intro ip
    rw [hclaimed]
    refine exists_congr fun k => and_congr_right fun hlt => ?_
    rw [AList.lookup_erase_ne hlt.ne, h k hlt]
  refine ⟨ip, hr, ?_⟩
  unfold Allocator.allocateWithPeers
  rw [if_neg (by omega), if_neg (by omega), Int.toNat_natCast, findSome_trySalt hheld, hip]

theorem recompute_other {k : String} (hne : k ≠ key) :
    (recompute H a hostCount claims key).lookup k = claims.lookup k := by
  unfold recompute
  split
  · exact AList.lookup_insert_ne hne
  · rfl

end Reference

/-- Keys are set right one after the other when each is right once it had its turn after all smaller ones. -/
theorem eventually_right {κ : Type*} [LinearOrder κ] {keys : List κ} {order : ℕ → κ} (right : ℕ → κ → Prop)
    (hfair : ∀ k ∈ keys, ∀ n, ∃ m ≥ n, order m = k)
    (hturn : ∀ n, ∀ k ∈ keys, (∀ k' ∈ keys, k' < k → right n k') → order n = k → right (n + 1) k)
    (hkeep : ∀ n k, order n ≠ k → right n k → right (n + 1) k) : ∃ n, ∀ m ≥ n, ∀ k ∈ keys, right m k := by
  refine Filter.eventually_atTop.mp (keys.finite_toSet.eventually_all.mpr fun k hk => ?_)
  refine keys.finite_toSet.wellFoundedOn.induction (r := (· < ·)) (P := fun k => ∀ᶠ n in .atTop, right n k) hk
    fun k hk ih => ?_
  have hsmaller : ∀ᶠ n in .atTop, ∀ k' ∈ {k' | k' ∈ keys}, k' < k → right n k' :=
    keys.finite_toSet.eventually_all.mpr fun k' hk' => Filter.eventually_imp_distrib_left.mpr (ih k' hk')
  obtain ⟨n, hn⟩ := Filter.eventually_atTop.mp hsmaller
  have hset : ∀ l ≥ n, order l = k → right (l + 1) k := fun l hl => hturn l k hk (hn l hl)
  obtain ⟨m, hm, hturnm⟩ := hfair k hk n
  refine Filter.eventually_atTop.mpr ⟨m + 1, fun l hl => ?_⟩
  induction l, hl using Nat.le_induction with
  | base => exact hset m hm hturnm
  | succ l hl hright =>
    by_cases hl' : order l = k
    · exact hset l (by omega) hl'
    · exact hkeep l k hl' hright

/-- From whatever claims the nodes start and in whatever fair order they recompute, they reach the reference
assignment and stay there; it is a fixed point of every node's computation. -/
theorem recomputes_converge {H : SlotHash} {a : Allocator} {keys : List String} {r claims : Map String IP}
    {order : ℕ → String} (hkeys : keys.Nodup) (hall : allocateAll H a keys = .ok r)
    (hclaims : ∀ k, (claims.lookup k).isSome ↔ k ∈ keys) (horder : ∀ n, order n ∈ keys)
    (hfair : ∀ k ∈ keys, ∀ n, ∃ m ≥ n, order m = k) :
    (∃ n, ∀ m ≥ n, ∀ k, (recomputes H a keys.length claims order m).lookup k = r.lookup k) ∧
      ∀ k ∈ keys, ∃ ip, r.lookup k = some ip ∧ allocateWithPeers H a k keys.length (r.erase k) = .ok ip := by
  have href := allocateAll_ok hkeys hall
  have hother : ∀ n k, k ∉ keys → (recomputes H a keys.length claims order n).lookup k = r.lookup k := by
    intro n k hk
    rw [href.other k hk]
    induction n with
    | zero => exact Option.not_isSome_iff_eq_none.mp (mt (hclaims k).mp hk)
    | succ n ih => exact (recompute_other (by rintro rfl; exact hk (horder n))).trans ih
  refine ⟨?_, fun k hk => href.allocateWithPeers hk fun _ _ => rfl⟩
  have hreach : ∃ n, ∀ m ≥ n, ∀ k ∈ keys, (recomputes H a keys.length claims order m).lookup k = r.lookup k := by
    refine eventually_right (fun n k => (recomputes H a keys.length claims order n).lookup k = r.lookup k) hfair ?_ ?_
    · rintro n k hk hsmaller rfl
      have hbefore := fun k' hlt => (em (k' ∈ keys)).elim (hsmaller k' · hlt) (hother n k')
      obtain ⟨ip, hr, hip⟩ := href.allocateWithPeers hk hbefore
      rw [recomputes, recompute, hip, hr]
      exact AList.lookup_insert _
    · exact fun n k hne hright => (recompute_other (Ne.symm hne)).trans hright
  obtain ⟨n, hn⟩ := hreach
  refine ⟨n, fun m hm k => ?_⟩
  by_cases hk : k ∈ keys
  · exact hn m hm k hk
  · exact hother m k hk

/-- Only `b` yields. -/
def slots : SlotHash := fun _ salt => if salt = 0 then 0 else 1

def lan : Allocator := ⟨⟨.ofV4 0x0a000000, 24, 32, by decide, .inl ⟨rfl, by decide⟩⟩, 8, 254⟩

set_option maxRecDepth 4000 in
/-- Two nodes start with each other's address. -/
theorem recomputes_converge_swapped : ∃ r, allocateAll slots lan ["a", "b"] = .ok r ∧ ∃ n, ∀ m ≥ n, ∀ k,
    (recomputes slots lan 2 (((∅ : Map String IP).insert "a" (.ofV4 0x0a000002)).insert "b" (.ofV4 0x0a000001))
      (fun n => if n % 2 = 0 then "b" else "a") m).lookup k = r.lookup k := by
  have hsome : (allocateAll slots lan ["a", "b"]).toOption.isSome = true := by with_unfolding_all decide
  cases hall : allocateAll slots lan ["a", "b"] with
  | error e => cases hall ▸ hsome
  | ok r =>
    refine ⟨r, rfl, (recomputes_converge (by decide) hall (fun k => ?_) (fun n => ?_) fun k hk n => ?_).1⟩
    · rw [AList.lookup_isSome, AList.mem_insert, AList.mem_insert]
      simp [or_comm]
    · split_ifs <;> simp
    · obtain rfl | rfl : k = "a" ∨ k = "b" := by simpa using hk
      · exact ⟨2 * n + 1, by omega, if_neg (by omega)⟩
      · exact ⟨2 * n, by omega, if_pos (by omega)⟩

end Allocator
end MeshDesk.Ipam
