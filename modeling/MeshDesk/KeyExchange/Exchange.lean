import MeshDesk.Crypto.SecureConn
import MeshDesk.KeyExchange.NonceCache
import MeshDesk.KeyExchange.Suite

/-! `ClientKeyExchange` and `ServerKeyExchange` on bytes: random sources, hex keys, the fixed-size
messages and every error path, around the checks of the suite. -/
namespace MeshDesk.KeyExchange
open Lib
open Proxy (Bytes GoString RandSource)
open Crypto (ConnItem ConnReadError TransportError connReadFull)

/-! ### Hex -/

def hexDigit (n : ℕ) : UInt8 := if n < 10 then UInt8.ofNat (48 + n) else UInt8.ofNat (87 + n)

variable (bs : Bytes) (P : Primitives) (id : Identity) (src : RandSource)

def hexEncode : GoString := bs.flatMap (fun b => [hexDigit (b.toNat / 16), hexDigit (b.toNat % 16)])

def hexValue (c : UInt8) : Option ℕ :=
  let n := c.toNat
  if 48 ≤ n ∧ n ≤ 57 then some (n - 48)
  else if 97 ≤ n ∧ n ≤ 102 then some (n - 87)
  else if 65 ≤ n ∧ n ≤ 70 then some (n - 55)
  else none

/-- `hex.DecodeString`; fails on an odd length or a byte that is no digit. -/
def hexDecode : GoString → Option Bytes
  | [] => some []
  | [_] => none
  | a :: b :: rest => do
    let hi ← hexValue a
    let lo ← hexValue b
    let bs ← hexDecode rest
    return UInt8.ofNat (16 * hi + lo) :: bs

theorem hexValue_hexDigit {n : ℕ} (h : n < 16) : hexValue (hexDigit n) = some n := by
  have hall : ∀ i : Fin 16, hexValue (hexDigit i) = some i.val := by decide
  exact hall ⟨n, h⟩

theorem hexDecode_hexEncode : hexDecode (hexEncode bs) = some bs := by
  induction bs with
  | nil => rfl
  | cons b bs ih =>
    have hb := b.toNat_lt
    have hbyte : UInt8.ofNat (16 * (b.toNat / 16) + b.toNat % 16) = b := by
      rw [Nat.div_add_mod, UInt8.ofNat_toNat]
    have hcons : hexEncode (b :: bs) = hexDigit (b.toNat / 16) :: hexDigit (b.toNat % 16) :: hexEncode bs := rfl
    rw [hcons, hexDecode, hexValue_hexDigit (by omega), hexValue_hexDigit (by omega), ih]
    simp only [Option.bind_eq_bind, Option.bind_some, Option.pure_def, hbyte]

theorem forall_mem_hexEncode {p : UInt8 → Prop} (h : ∀ i : Fin 16, p (hexDigit i)) (bs : Bytes) :
    ∀ c ∈ hexEncode bs, p c := by
  intro c hc
  obtain ⟨b, -, hb⟩ := List.mem_flatMap.mp hc
  have hlt := b.toNat_lt
  exact List.forall_mem_cons.mpr ⟨h ⟨b.toNat / 16, by omega⟩, List.forall_mem_singleton.mpr (h ⟨b.toNat % 16, by omega⟩)⟩ c hb

theorem hexEncode_ne {bs : Bytes} {c : UInt8} (hc : ∀ i : Fin 16, hexDigit i ≠ c) : c ∉ hexEncode bs :=
  fun hmem => forall_mem_hexEncode (p := (· ≠ c)) hc bs c hmem rfl

/-! ### Primitives and identities -/

def keyFieldSize : ℕ := 32

def signatureSize : ℕ := 64

def privKeyLen : ℕ := 64

def msg1Size : ℕ := 160

def msg2Size : ℕ := 128

/-- Ed25519, X25519, SHA-256 and HKDF as functions of bytes. `x25519` fails where the result would be
zero; `hkdf` is the output stream for a secret and an info string. -/
structure Primitives where
  ed25519Sign : (priv data : Bytes) → Bytes
  ed25519Verify : (pub data sig : Bytes) → Bool
  scalarBaseMult : (scalar : Bytes) → Bytes
  x25519 : (scalar point : Bytes) → Option Bytes
  sha256 : Bytes → Bytes
  hkdf : (secret info : Bytes) → ℕ → UInt8
  sign_length : ∀ priv data, (ed25519Sign priv data).length = signatureSize
  base_length : ∀ scalar, (scalarBaseMult scalar).length = keyFieldSize

structure Identity where
  privateKey : GoString
  publicKey : GoString
  deriving DecidableEq, Repr

def Identity.sign (data : Bytes) : Option GoString :=
  (hexDecode id.privateKey).map (fun priv => hexEncode (P.ed25519Sign priv data))

def verifyHex (pubKeyHex : GoString) (data : Bytes) (sigHex : GoString) : Bool :=
  match hexDecode pubKeyHex, hexDecode sigHex with
  | some pub, some sig => P.ed25519Verify pub data sig
  | _, _ => false

def ascii (s : String) : Bytes := s.toList.map (fun c => UInt8.ofNat c.toNat)

def domainInitiator : Bytes := ascii "meshdesk-v2-kx-initiator"

def domainResponder : Bytes := ascii "meshdesk-v2-kx-responder"

def buildInitiatorSignPayload (ephPub nonce : Bytes) : Bytes := domainInitiator ++ (ephPub ++ nonce)

def buildResponderSignPayload (peerEphPub ourEphPub nonce : Bytes) : Bytes :=
  domainResponder ++ (peerEphPub ++ (ourEphPub ++ nonce))

def SignPayload.bytes : SignPayload Bytes → Bytes
  | .initiator ephPub nonce => buildInitiatorSignPayload ephPub nonce
  | .responder peerEphPub ourEphPub nonce => buildResponderSignPayload peerEphPub ourEphPub nonce

def computeIdentityBinding (sigInitiator sigResponder : Bytes) : Bytes :=
  (P.sha256 (sigInitiator ++ sigResponder)).take 32

def sessionInfoFor (identityBinding : Bytes) : Bytes :=
  if 8 ≤ identityBinding.length then ascii "meshdesk-v2-session" ++ identityBinding.take 8
  else ascii "meshdesk-v2-session"

def hkdfKeys (secret info : Bytes) : Bytes × Bytes :=
  ((List.range' 0 32).map (P.hkdf secret info), (List.range' 32 32).map (P.hkdf secret info))

/-- The suite on bytes. Verification goes through hex and back; the tag is the info string that the
binding leads to. -/
def Primitives.suite : Suite Bytes where
  scalarBaseMult := P.scalarBaseMult
  x25519 := P.x25519
  sign priv payload := P.ed25519Sign priv payload.bytes
  verify pub payload sig := verifyHex P (hexEncode pub) payload.bytes (hexEncode sig)
  bindingTag sigInitiator sigResponder := sessionInfoFor (computeIdentityBinding P sigInitiator sigResponder)
  hkdf := hkdfKeys P

/-! ### The wire -/

def Msg1.encode (m : Msg1 Bytes) : Bytes := m.identityPub ++ (m.ephPub ++ (m.nonce ++ m.signature))

def parseMsg1 : Msg1 Bytes :=
  ⟨bs.take keyFieldSize, (bs.drop keyFieldSize).take keyFieldSize,
    (bs.drop (2 * keyFieldSize)).take keyFieldSize, bs.drop (3 * keyFieldSize)⟩

def Msg2.encode (m : Msg2 Bytes) : Bytes := m.identityPub ++ (m.ephPub ++ m.signature)

def parseMsg2 : Msg2 Bytes :=
  ⟨bs.take keyFieldSize, (bs.drop keyFieldSize).take keyFieldSize, bs.drop (2 * keyFieldSize)⟩

inductive KxContext where
  | writeMsg1
  | readMsg2
  | readMsg1
  | writeMsg2
  deriving DecidableEq, Repr

def KxContext.text : KxContext → String
  | .writeMsg1 => "write msg1"
  | .readMsg2 => "read msg2"
  | .readMsg1 => "read msg1"
  | .writeMsg2 => "write msg2"

inductive KxError where
  | ephemeralKeypair
  | nonce
  | identityKey
  | sign
  | signatureEncoding
  | timeout (context : KxContext)
  | violation (context : KxContext)
  | transport (context : KxContext) (e : TransportError)
  | check (e : CheckError)
  deriving DecidableEq, Repr

def KxError.text : KxError → String
  | .ephemeralKeypair => "generate ephemeral keypair"
  | .nonce => "generate nonce"
  | .identityKey => "invalid identity public key"
  | .sign => "sign key exchange"
  | .signatureEncoding => "invalid signature"
  | .timeout context => context.text ++ ": session: key exchange timed out"
  | .violation context => context.text ++ ": session: protocol violation in key exchange"
  | .transport context _ => context.text
  | .check .signatureInvalid => "session: Ed25519 signature verification failed"
  | .check .protocolViolation => "session: protocol violation in key exchange"
  | .check .ecdh => "ecdh"

/-- A timeout and an early end of the stream have errors of their own. -/
def wrapTimeout (context : KxContext) : ConnReadError → KxError
  | .eof | .unexpectedEOF => .violation context
  | .transport .timeout => .timeout context
  | .transport e => .transport context e

/-- What a call leaves: its result, the identity it reports, what it wrote, what it has not read. -/
structure KxRun where
  result : Except KxError (SessionKeys Bytes)
  peer : GoString
  written : Bytes
  rest : List ConnItem

def Identity.publicBytes : Except KxError Bytes :=
  match hexDecode id.publicKey with
  | none => .error .identityKey
  | some pub => if pub.length ≠ keyFieldSize then .error .identityKey else .ok pub

def Identity.signBytes (data : Bytes) : Except KxError Bytes :=
  match id.sign P data with
  | none => .error .sign
  | some sigHex =>
    match hexDecode sigHex with
    | none => .error .signatureEncoding
    | some sig => if sig.length ≠ signatureSize then .error .signatureEncoding else .ok sig

/-- `ClientKeyExchange` up to the first write: the ephemeral key and the message. -/
def clientStart : Except KxError (Bytes × Msg1 Bytes) :=
  match src.read keyFieldSize with
  | (none, _) => .error .ephemeralKeypair
  | (some ephPriv, src) =>
    match src.read keyFieldSize with
    | (none, _) => .error .nonce
    | (some nonce, _) => do
      let ephPub := P.scalarBaseMult ephPriv
      let pub ← id.publicBytes
      let sig ← id.signBytes P (buildInitiatorSignPayload ephPub nonce)
      return (ephPriv, ⟨pub, ephPub, nonce, sig⟩)

def clientKeyExchange (failed : Option TransportError) (items : List ConnItem) : KxRun :=
  match clientStart P id src with
  | .error e => ⟨.error e, [], [], items⟩
  | .ok (ephPriv, sent) =>
    match failed with
    | some e => ⟨.error (wrapTimeout .writeMsg1 (.transport e)), [], [], items⟩
    | none =>
      match connReadFull msg2Size items with
      | (.error e, items) => ⟨.error (wrapTimeout .readMsg2 e), [], sent.encode, items⟩
      | (.ok msg2, items) =>
        ⟨(P.suite.clientFinish ephPriv sent (parseMsg2 msg2)).mapError .check,
          hexEncode (parseMsg2 msg2).identityPub, sent.encode, items⟩

/-- `ServerKeyExchange` from the ephemeral key to the answer. -/
def serverAnswer (received : Msg1 Bytes) : Except KxError (Bytes × Msg2 Bytes) :=
  match src.read keyFieldSize with
  | (none, _) => .error .ephemeralKeypair
  | (some ephPriv, _) => do
    let ephPub := P.scalarBaseMult ephPriv
    let pub ← id.publicBytes
    let sig ← id.signBytes P (buildResponderSignPayload received.ephPub ephPub received.nonce)
    return (ephPriv, ⟨pub, ephPub, sig⟩)

def serverKeyExchange (cache : NonceCache) (now : ℤ) (failed : Option TransportError) (items : List ConnItem) :
    KxRun × NonceCache :=
  match connReadFull msg1Size items with
  | (.error e, items) => (⟨.error (wrapTimeout .readMsg1 e), [], [], items⟩, cache)
  | (.ok msg1, items) =>
    let received := parseMsg1 msg1
    let peer := hexEncode received.identityPub
    if P.suite.checkMsg1 received then
      match cache.checkAndRecord received.nonce now with
      | (false, cache) => (⟨.error (.check .protocolViolation), peer, [], items⟩, cache)
      | (true, cache) =>
        match serverAnswer P id src received with
        | .error e => (⟨.error e, peer, [], items⟩, cache)
        | .ok (ephPriv, answer) =>
          match failed with
          | some e => (⟨.error (wrapTimeout .writeMsg2 (.transport e)), peer, [], items⟩, cache)
          | none =>
            (⟨(P.suite.serverFinish ephPriv received answer).mapError .check, peer, answer.encode, items⟩, cache)
    else (⟨.error (.check .signatureInvalid), peer, [], items⟩, cache)

end MeshDesk.KeyExchange
