import MeshDesk.Crypto.SecureConn

/-! The nonces of the writing end. `Write` and `SetKeys` hold `writeMu` while they use the counter and the keys, so
the calls are a sequence. Every `Seal` takes the next value of the counter, and none takes one back. -/
namespace MeshDesk.Crypto
open Lib List
open Proxy (Bytes)

/-- A call on the writing end. `failed` is what the transport makes of the record of a `Write`. -/
inductive SendOp where
  | write (p : Bytes) (failed : Option TransportError)
  | setKeys (sendKey recvKey : Bytes)
  | close
  deriving DecidableEq, Repr

def SendOp.isWrite : SendOp → Bool
  | .write _ _ => true
  | _ => false

namespace SecureConn

variable (sc : SecureConn)

def sendStep : SendOp → SecureConn
  | .write p failed => (sc.write p failed).2
  | .setKeys sendKey recvKey => (sc.setKeys sendKey recvKey).2
  | .close => sc.close

def sealed : SendOp → List SealCall
  | .write p _ => (sc.sealCall p).toOption.toList
  | _ => []

def sendSealCalls (sc : SecureConn) : List SendOp → List SealCall
  | [] => []
  | op :: ops => sc.sealed op ++ (sc.sendStep op).sendSealCalls ops

theorem sendStep_cases (op : SendOp) : (sc.sealed op = [] ∧ (sc.sendStep op).sendNonce = sc.sendNonce) ∨
    ∃ c : SealCall, op.isWrite = true ∧ sc.sealed op = [c] ∧ c.nonce = nonceFromUint64 sc.sendNonce ∧
      (sc.sendStep op).sendNonce = sc.sendNonce + 1 := by
  cases op with
  | close => exact .inl ⟨rfl, rfl⟩
  | setKeys sendKey recvKey =>
    refine .inl ⟨rfl, ?_⟩
    rw [sendStep, setKeys]
    split_ifs <;> rfl
  | write p failed =>
    rw [sealed, sendStep]
    unfold SecureConn.write
    cases hs : sc.sealCall p with
    | error e => exact .inl ⟨rfl, rfl⟩
    | ok c =>
      have hnonce : c.nonce = nonceFromUint64 sc.sendNonce := by
        unfold sealCall at hs
        split_ifs at hs
        rw [← Except.ok.inj hs]
      exact .inr ⟨c, rfl, rfl, hnonce, rfl⟩

theorem sendSealCalls_getElem? {sc : SecureConn} {ops : List SendOp} {i : ℕ} {c : SealCall}
    (h : (sc.sendSealCalls ops)[i]? = some c) : c.nonce = nonceFromUint64 (sc.sendNonce + UInt64.ofNat i) := by
  induction ops generalizing sc i with
  | nil => cases h
  | cons op ops ih =>
    rw [sendSealCalls] at h
    rcases sc.sendStep_cases op with ⟨hsealed, hnext⟩ | ⟨d, -, hsealed, hnonce, hnext⟩
    · rw [hsealed, nil_append] at h
      rw [ih h, hnext]
    · rw [hsealed, singleton_append] at h
      cases i with
      | zero =>
        obtain rfl : d = c := Option.some.inj h
        rw [hnonce]
        simp
      | succ i =>
        have hadd : sc.sendNonce + 1 + UInt64.ofNat i = sc.sendNonce + UInt64.ofNat (i + 1) := by
          rw [UInt64.ofNat_add, UInt64.add_assoc, UInt64.add_comm 1]
          rfl
        rw [ih h, hnext, hadd]

theorem sendSealCalls_length_le (ops : List SendOp) : (sc.sendSealCalls ops).length ≤ ops.countP SendOp.isWrite := by
  induction ops generalizing sc with
  | nil => exact le_refl 0
  | cons op ops ih =>
    have hrest := ih (sc.sendStep op)
    rw [sendSealCalls, length_append, countP_cons]
    rcases sc.sendStep_cases op with ⟨hsealed, -⟩ | ⟨c, hwrite, hsealed, -, -⟩
    · rw [hsealed, length_nil]
      omega
    · rw [hsealed, if_pos hwrite, length_singleton]
      omega

end SecureConn

/-- As long as there are fewer than 2^64 calls of `Write`, no two calls of `Seal` have the same key and
the same nonce. The nonces alone are different, so it does not matter which keys `SetKeys` installs. -/
theorem sendSealCalls_nodup (sc : SecureConn) (ops : List SendOp) (h : ops.countP SendOp.isWrite < 2 ^ 64) :
    ((sc.sendSealCalls ops).map (fun c => (c.key, c.nonce))).Nodup := by
  have hlen : (sc.sendSealCalls ops).length < 2 ^ 64 := lt_of_le_of_lt (sc.sendSealCalls_length_le ops) h
  have hnonces : ((sc.sendSealCalls ops).map SealCall.nonce).Nodup := by
    refine nodup_iff_injective_get.mpr fun i j hij => ?_
    have hlenMap : ((sc.sendSealCalls ops).map SealCall.nonce).length = (sc.sendSealCalls ops).length :=
      length_map _
    have hi : i.val < (sc.sendSealCalls ops).length := hlenMap ▸ i.isLt
    have hj : j.val < (sc.sendSealCalls ops).length := hlenMap ▸ j.isLt
    rw [get_eq_getElem, get_eq_getElem, getElem_map, getElem_map,
      SecureConn.sendSealCalls_getElem? (List.getElem?_eq_getElem hi),
      SecureConn.sendSealCalls_getElem? (List.getElem?_eq_getElem hj)] at hij
    have hsum := Function.LeftInverse.injective nonceToUint64_nonceFromUint64 hij
    have hcounter : UInt64.ofNat i = UInt64.ofNat j := (UInt64.add_right_inj _).mp hsum
    have hnat := congrArg UInt64.toNat hcounter
    rw [UInt64.toNat_ofNat_of_lt' (hi.trans hlen), UInt64.toNat_ofNat_of_lt' (hj.trans hlen)] at hnat
    exact Fin.ext hnat
  have hsnd : ((sc.sendSealCalls ops).map (fun c => (c.key, c.nonce))).map Prod.snd =
      (sc.sendSealCalls ops).map SealCall.nonce := by
    rw [map_map]
    rfl
  exact Nodup.of_map Prod.snd (hsnd ▸ hnonces)

def repeatedKey (b : UInt8) : Bytes := List.replicate keySize b

/-- The first key is installed again, and the transport does not take the second record. -/
def rotatedBack : List SendOp :=
  [.write [1] none, .setKeys (repeatedKey 1) (repeatedKey 2), .write [2] (some .timeout),
    .setKeys (repeatedKey 0) (repeatedKey 3), .write [3] none]

theorem sendSealCalls_nodup_rotatedBack :
    let sc : SecureConn := ⟨repeatedKey 0, repeatedKey 0, 0, 0, false⟩
    (sc.sendSealCalls rotatedBack).map SealCall.key = [repeatedKey 0, repeatedKey 1, repeatedKey 0] ∧
      ((sc.sendSealCalls rotatedBack).map (fun c => (c.key, c.nonce))).Nodup :=
  ⟨by decide, sendSealCalls_nodup _ _ (by decide)⟩

end MeshDesk.Crypto
