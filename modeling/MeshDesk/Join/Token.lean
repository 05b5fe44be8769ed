import MeshDesk.KeyExchange.Exchange

/-! Join tokens and the cache of used nonces. The tag covers version, expiry, nonce and server fingerprint, written
one after the other; the last two have no fixed length and nothing between them. -/
namespace MeshDesk.Join
open Lib
open Proxy (Bytes GoString Time Duration second)
open KeyExchange (hexEncode hexDecode)

def tokenVersion : ℤ := 1

def tokenLifetime : Duration := 30 * 60 * second

def nonceLen : ℕ := 16

structure Token where
  version : ℤ
  /-- Unix seconds. -/
  expiresAt : Int64
  nonce : GoString
  serverFP : GoString
  signature : GoString
  deriving DecidableEq

/-! ### Base64 -/

def base64Digit (n : ℕ) : UInt8 :=
  if n < 26 then UInt8.ofNat (65 + n)
  else if n < 52 then UInt8.ofNat (71 + n)
  else if n < 62 then UInt8.ofNat (n - 4)
  else if n = 62 then 43
  else 47

/-- `base64.StdEncoding.EncodeToString`, padded with `=`. -/
def base64Encode : Bytes → GoString
  | [] => []
  | [a] => [base64Digit (a.toNat / 4), base64Digit (a.toNat % 4 * 16), 61, 61]
  | [a, b] =>
    [base64Digit (a.toNat / 4), base64Digit (a.toNat % 4 * 16 + b.toNat / 16), base64Digit (b.toNat % 16 * 4), 61]
  | a :: b :: c :: rest =>
    base64Digit (a.toNat / 4) :: base64Digit (a.toNat % 4 * 16 + b.toNat / 16) ::
      base64Digit (b.toNat % 16 * 4 + c.toNat / 64) :: base64Digit (c.toNat % 64) :: base64Encode rest

theorem base64Encode_length (bs : Bytes) : (base64Encode bs).length = 4 * ((bs.length + 2) / 3) := by
  induction bs using base64Encode.induct with
  | case1 => rfl
  | case2 a | case3 a b => simp [base64Encode]
  | case4 a b c rest ih =>
    simp only [base64Encode, List.length_cons, ih]
    omega

/-! ### Issuing and parsing -/

def signingMaterial (t : Token) : Bytes :=
  toBE 4 (t.version % 2 ^ 32).toNat ++ (toBE 8 t.expiresAt.toUInt64.toNat ++ (t.nonce ++ t.serverFP))

variable {t : Token}

theorem signingMaterial_inj {u : Token} (h : signingMaterial t = signingMaterial u) :
    t.expiresAt = u.expiresAt ∧ t.nonce ++ t.serverFP = u.nonce ++ u.serverFP := by
  obtain ⟨-, hrest⟩ := List.append_inj h (by simp)
  obtain ⟨hexp, htext⟩ := List.append_inj hrest (by simp)
  refine ⟨?_, htext⟩
  have hnat := congrArg ofBE hexp
  rw [ofBE_toBE_of_lt (UInt64.toNat_lt _), ofBE_toBE_of_lt (UInt64.toNat_lt _)] at hnat
  exact congrArg Int64.ofUInt64 (UInt64.toNat_inj.mp hnat)

structure TokenCodec where
  encodeBase64 : Bytes → GoString
  decodeBase64 : GoString → Option Bytes
  marshal : Token → Bytes
  unmarshal : Bytes → Option Token

variable (codec : TokenCodec) (mac : Bytes → Bytes)

/-- The token of `GenerateToken` for the random bytes `nonce`; `mac` is HMAC-SHA256 under the server's secret. -/
def newToken (nonce : Bytes) (serverFP : GoString) (lifetime : Duration) (now : Time) : Token :=
  let t : Token := {
    version := tokenVersion
    expiresAt := Int64.ofInt ((now + lifetime) / second)
    nonce := base64Encode nonce
    serverFP := serverFP
    signature := [] }
  { t with signature := hexEncode (mac (signingMaterial t)) }

def generateToken (nonce : Bytes) (serverFP : GoString) (lifetime : Duration) (now : Time) : GoString :=
  codec.encodeBase64 (codec.marshal (newToken mac nonce serverFP lifetime now))

def IsIssued (t : Token) : Prop :=
  ∃ nonce serverFP lifetime now, nonce.length = nonceLen ∧ t = newToken mac nonce serverFP lifetime now

theorem IsIssued.nonce_length {mac : Bytes → Bytes} (h : IsIssued mac t) : t.nonce.length = 24 := by
  obtain ⟨nonce, serverFP, lifetime, now, hlen, rfl⟩ := h
  change (base64Encode nonce).length = 24
  rw [base64Encode_length, hlen]
  rfl

inductive TokenError
  | base64
  | json
  | version (v : ℤ)
  | signatureHex
  | invalidSignature
  | expired
  deriving DecidableEq

/-- `now` is the clock in Unix seconds. -/
def parseToken (now : Int64) (raw : GoString) : Except TokenError Token :=
  match codec.decodeBase64 raw with
  | none => .error .base64
  | some data =>
    match codec.unmarshal data with
    | none => .error .json
    | some t =>
      if t.version ≠ tokenVersion then .error (.version t.version)
      else
        match hexDecode t.signature with
        | none => .error .signatureHex
        | some sig =>
          if sig ≠ mac (signingMaterial t) then .error .invalidSignature
          else if t.expiresAt ≤ now then .error .expired
          else .ok t

/-- A token text whose tag is right, whatever the clock says. -/
def Tagged (raw : GoString) (t : Token) : Prop :=
  (codec.decodeBase64 raw).bind codec.unmarshal = some t ∧ hexDecode t.signature = some (mac (signingMaterial t))

theorem parseToken_eq_ok {codec : TokenCodec} {mac : Bytes → Bytes} {now : Int64} {raw : GoString}
    (h : parseToken codec mac now raw = .ok t) : Tagged codec mac raw t ∧ now < t.expiresAt := by
  unfold parseToken at h
  split at h
  · cases h
  rename_i data hdata
  split at h
  · cases h
  rename_i u hu
  split at h
  · cases h
  split at h
  · cases h
  rename_i sig hsig
  split_ifs at h with hmac hexp
  cases h
  refine ⟨⟨?_, ?_⟩, Int64.not_le.mp hexp⟩
  · rw [hdata]
    exact hu
  · rw [hsig, not_not.mp hmac]

/-- `used` holds the expiry of each used nonce in Unix nanoseconds. -/
structure ReplayCache where
  used : Map GoString Int64
  maxLifetime : Duration

def newReplayCache (maxLifetime : Duration) : ReplayCache :=
  ⟨∅, if maxLifetime = 0 then 2 * tokenLifetime else maxLifetime⟩

namespace ReplayCache

variable (rc : ReplayCache) (now : Int64)

def cleanup : ReplayCache :=
  { rc with used := rc.used.filterMapVals (fun exp => if exp < now then none else some exp) }

/-- The later of the token's expiry, in nanoseconds, and `maxLifetime` from now; both wrap around. -/
def storeExp (expiresAt : Int64) : Int64 :=
  let exp := expiresAt * 1000000000
  let maxExp := now + Int64.ofInt rc.maxLifetime
  if exp < maxExp then maxExp else exp

def checkAndMark (nonce : GoString) (expiresAt : Int64) : Bool × ReplayCache :=
  let rc := rc.cleanup now
  if (rc.used.lookup nonce).isSome then (false, rc)
  else (true, { rc with used := rc.used.insert nonce (rc.storeExp now expiresAt) })

variable {rc : ReplayCache} {now exp : Int64} {nonce : GoString}

theorem lookup_cleanup (h : rc.used.lookup nonce = some exp) (hexp : now ≤ exp) :
    (rc.cleanup now).used.lookup nonce = some exp := by
  rw [cleanup, Map.lookup_filterMapVals, h, Option.bind_some, if_neg (Int64.not_lt.mpr hexp)]

variable {expiresAt : Int64}

theorem le_storeExp (hfits : -2 ^ 63 ≤ expiresAt.toInt * 10 ^ 9 ∧ expiresAt.toInt * 10 ^ 9 < 2 ^ 63) :
    expiresAt.toInt * 10 ^ 9 ≤ (rc.storeExp now expiresAt).toInt := by
  have hmul : (expiresAt * 1000000000).toInt = expiresAt.toInt * 10 ^ 9 := by
    have hsecond : (1000000000 : Int64).toInt = 10 ^ 9 := rfl
    rw [Int64.toInt_mul, hsecond]
    exact Int.bmod_eq_of_le (by omega) (by omega)
  unfold storeExp
  dsimp only
  split_ifs with hlt
  · rw [Int64.lt_iff_toInt_lt] at hlt
    omega
  · omega

theorem checkAndMark_true {rc' : ReplayCache}
    (h : rc.checkAndMark now nonce expiresAt = (true, rc')) :
    (rc.cleanup now).used.lookup nonce = none ∧
      rc'.used = (rc.cleanup now).used.insert nonce (rc.storeExp now expiresAt) := by
  unfold checkAndMark at h
  dsimp only at h
  split_ifs at h with hseen
  · cases h
  · cases h
    exact ⟨Option.not_isSome_iff_eq_none.mp hseen, rfl⟩

theorem checkAndMark_false {rc' : ReplayCache}
    (h : rc.checkAndMark now nonce expiresAt = (false, rc')) : rc' = rc.cleanup now := by
  unfold checkAndMark at h
  dsimp only at h
  split_ifs at h
  · cases h
    rfl
  · cases h

end ReplayCache
end MeshDesk.Join
