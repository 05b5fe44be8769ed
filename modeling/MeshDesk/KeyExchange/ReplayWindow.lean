import Mathlib.Data.List.DropRight
import MeshDesk.KeyExchange.NonceCache

/-! The window of the nonce cache. The calls of `checkAndRecord` hold the lock throughout, so they are a
sequence; after any of them the cache holds the last nonces that were recorded, as many as it has room
for. -/
namespace MeshDesk.KeyExchange
open Lib List
open Proxy (Bytes)

namespace NonceCache

def afterCalls (c : NonceCache) (calls : List (Bytes × ℤ)) : NonceCache :=
  calls.foldl (fun c call => (c.checkAndRecord call.1 call.2).2) c

def recordedBy (c : NonceCache) (call : Bytes × ℤ) : List Bytes :=
  if (c.checkAndRecord call.1 call.2).1 then [call.1] else []

/-- The nonces for which a sequence of calls returns true, in order. -/
def recorded (c : NonceCache) : List (Bytes × ℤ) → List Bytes
  | [] => []
  | call :: calls => c.recordedBy call ++ recorded (c.checkAndRecord call.1 call.2).2 calls

/-- The cache holds the last `n` of the recorded nonces, and its map has the same keys as its queue. -/
structure Window (n : ℕ) (recorded : List Bytes) (c : NonceCache) : Prop where
  capacity : c.max = n
  order : c.order = recorded.rtake n
  nodup : c.order.Nodup
  keys : ∀ k, k ∈ c.order ↔ (c.seen.lookup k).isSome

theorem tail_rtake {α : Type*} {l : List α} {n : ℕ} (h : n + 1 ≤ (l.rtake (n + 1)).length) :
    (l.rtake (n + 1)).tail = l.rtake n := by
  have hlen : n + 1 ≤ l.length := by
    rw [rtake, length_drop] at h
    omega
  rw [rtake, tail_drop, rtake]
  congr 1
  omega

theorem rtake_of_length_lt {α : Type*} {l : List α} {n : ℕ} (h : (l.rtake (n + 1)).length < n + 1) :
    l.rtake (n + 1) = l.rtake n := by
  have hlen : l.length < n + 1 := by
    rw [rtake, length_drop] at h
    omega
  rw [rtake, rtake, Nat.sub_eq_zero_of_le hlen.le, Nat.sub_eq_zero_of_le (Nat.le_of_lt_succ hlen)]

variable {n : ℕ} {recorded : List Bytes} {c : NonceCache}

theorem newNonceCache_window (size : ℤ) : Window (newNonceCache size).max.toNat [] (newNonceCache size) where
  capacity := by
    have hpos : 0 ≤ (newNonceCache size).max := by
      unfold newNonceCache maxNonceCache
      dsimp only
      split_ifs <;> omega
    rw [Int.toNat_of_nonneg hpos]
  order := (rtake_nil _).symm
  nodup := nodup_nil
  keys := fun k => by simp [newNonceCache]

theorem newNonceCache_max_pos (size : ℤ) : 0 < (newNonceCache size).max.toNat := by
  unfold newNonceCache maxNonceCache
  dsimp only
  split_ifs <;> omega

theorem Window.evictOldest (h : Window (n + 1) recorded c) :
    c.evictOldest.max = (n + 1 : ℕ) ∧ c.evictOldest.order = recorded.rtake n ∧ c.evictOldest.order.Nodup ∧
      ∀ k, k ∈ c.evictOldest.order ↔ (c.evictOldest.seen.lookup k).isSome := by
  unfold NonceCache.evictOldest
  have horder := h.order
  have hnodup := h.nodup
  have hkeys := h.keys
  split_ifs with hfull
  · cases hc : c.order with
    | nil =>
      rw [h.capacity, hc] at hfull
      simp only [length_nil] at hfull
      omega
    | cons oldest order =>
      have hlen : n + 1 ≤ (recorded.rtake (n + 1)).length := by
        rw [← horder]
        have hcap := h.capacity
        omega
      have htail := tail_rtake hlen
      rw [← horder, hc] at htail
      rw [hc] at hnodup
      obtain ⟨hout, hrest⟩ := nodup_cons.mp hnodup
      refine ⟨h.capacity, htail, hrest, fun k => ?_⟩
      by_cases hk : k = oldest
      · subst hk
        rw [AList.lookup_erase]
        exact ⟨fun hmem => absurd hmem hout, fun hsome => by cases hsome⟩
      · have hmem := hkeys k
        rw [hc, mem_cons, or_iff_right hk] at hmem
        rw [AList.lookup_erase_ne hk]
        exact hmem
  · have hlen : (recorded.rtake (n + 1)).length < n + 1 := by
      rw [← horder]
      have hcap := h.capacity
      omega
    exact ⟨h.capacity, horder.trans (rtake_of_length_lt hlen), hnodup, hkeys⟩

theorem Window.checkAndRecord_eq_false_iff (h : Window n recorded c) (nonce : Bytes) (now : ℤ) :
    (c.checkAndRecord nonce now).1 = false ↔ nonce ∈ recorded.rtake n := by
  rw [← h.order, h.keys, checkAndRecord]
  split_ifs with hseen
  · exact ⟨fun _ => hseen, fun _ => rfl⟩
  · exact ⟨fun hfalse => (by cases hfalse), fun hsome => absurd hsome hseen⟩

theorem Window.checkAndRecord (h : Window (n + 1) recorded c) (call : Bytes × ℤ) :
    Window (n + 1) (recorded ++ c.recordedBy call) (c.checkAndRecord call.1 call.2).2 := by
  unfold recordedBy NonceCache.checkAndRecord
  by_cases hseen : (c.seen.lookup call.1).isSome
  · simp only [if_pos hseen, Bool.false_eq_true, if_false, append_nil]
    exact h
  · simp only [if_neg hseen, if_true]
    obtain ⟨hcap, horder, hnodup, hkeys⟩ := h.evictOldest
    -- the nonce is not in the queue, and evicting does not put it there
    have hnew : call.1 ∉ c.evictOldest.order := by
      intro hmem
      rw [horder, rtake] at hmem
      have hin : call.1 ∈ c.order := by
        rw [h.order, rtake]
        exact drop_subset_drop_left _ (by omega) hmem
      exact hseen ((h.keys call.1).mp hin)
    refine ⟨hcap, ?_, ?_, fun k => ?_⟩
    · rw [rtake_concat_succ, horder]
    · rw [nodup_append]
      refine ⟨hnodup, nodup_singleton _, fun a ha b hb => ?_⟩
      rw [mem_singleton.mp hb]
      exact fun heq => hnew (heq ▸ ha)
    · rw [mem_append, mem_singleton, hkeys]
      by_cases hk : k = call.1
      · subst hk
        simp
      · rw [AList.lookup_insert_ne hk, or_iff_left hk]

theorem Window.afterCalls (h : Window (n + 1) recorded c) (calls : List (Bytes × ℤ)) :
    Window (n + 1) (recorded ++ c.recorded calls) (c.afterCalls calls) := by
  induction calls generalizing recorded c with
  | nil =>
    rw [NonceCache.recorded, append_nil]
    exact h
  | cons call calls ih =>
    rw [NonceCache.recorded, ← append_assoc]
    exact ih (h.checkAndRecord call)

/-- A call is refused exactly when its nonce is among the last recorded ones, as many as the capacity; the
queue has no duplicates, keeps to the capacity and lists the keys of the map. -/
theorem checkAndRecord_replay (size : ℤ) (calls : List (Bytes × ℤ)) (nonce : Bytes) (now : ℤ) :
    let c := (newNonceCache size).afterCalls calls
    ((c.checkAndRecord nonce now).1 = false ↔
        nonce ∈ ((newNonceCache size).recorded calls).rtake (newNonceCache size).max.toNat) ∧
      c.order.Nodup ∧ (c.order.length : ℤ) ≤ (newNonceCache size).max ∧
      ∀ k, k ∈ c.order ↔ (c.seen.lookup k).isSome := by
  obtain ⟨n, hn⟩ := Nat.exists_eq_succ_of_ne_zero (newNonceCache_max_pos size).ne'
  have hstart := newNonceCache_window size
  rw [hn] at hstart
  have h := hstart.afterCalls calls
  refine ⟨?_, h.nodup, ?_, h.keys⟩
  · rw [hn]
    exact h.checkAndRecord_eq_false_iff nonce now
  · have hlen : ((newNonceCache size).afterCalls calls).order.length ≤ n + 1 := by
      rw [h.order, rtake, length_drop]
      omega
    omega

/-- With room for two, the first nonce is accepted again once two others have been recorded. -/
example : ((newNonceCache 2).afterCalls [([1], 0), ([1], 1), ([2], 2), ([3], 3)]).order = [[2], [3]] ∧
    (newNonceCache 2).recorded [([1], 0), ([1], 1), ([2], 2), ([3], 3), ([1], 4)] = [[1], [2], [3], [1]] := by
  decide

end NonceCache
end MeshDesk.KeyExchange
