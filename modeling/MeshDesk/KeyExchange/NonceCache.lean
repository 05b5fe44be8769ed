import MeshDesk.Proxy.Chunk

/-! The responder's cache of recently seen nonces. -/
namespace MeshDesk.KeyExchange
open Lib
open Proxy (Bytes)

def maxNonceCache : ℤ := 1024

/-- `seen` holds the time of recording in unix seconds; `order` is the eviction queue, oldest first. -/
structure NonceCache where
  seen : Map Bytes ℤ
  order : List Bytes
  max : ℤ

def newNonceCache (size : ℤ) : NonceCache := ⟨∅, [], if size ≤ 0 then maxNonceCache else size⟩

namespace NonceCache

def evictOldest (c : NonceCache) : NonceCache :=
  if c.max ≤ c.order.length then
    match c.order with
    | [] => c
    | oldest :: order => { c with seen := c.seen.erase oldest, order := order }
  else c

def checkAndRecord (c : NonceCache) (nonce : Bytes) (now : ℤ) : Bool × NonceCache :=
  if (c.seen.lookup nonce).isSome then (false, c)
  else
    let c := c.evictOldest
    (true, { c with seen := c.seen.insert nonce now, order := c.order ++ [nonce] })

theorem checkAndRecord_fresh {c : NonceCache} {nonce : Bytes} (h : c.seen.lookup nonce = none) (now : ℤ) :
    (c.checkAndRecord nonce now).1 = true := by
  simp [checkAndRecord, h]

end NonceCache
end MeshDesk.KeyExchange
