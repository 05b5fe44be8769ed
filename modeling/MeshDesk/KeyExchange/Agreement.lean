import MeshDesk.KeyExchange.Exchange

/-! The two sides of a key exchange over a connection that delivers what is written. -/
namespace MeshDesk.KeyExchange
open Lib List
open Proxy (Bytes GoString RandSource)
open Crypto (ConnItem TransportError connReadFull connReadFull_bytes)

structure Signer (P : Primitives) where
  priv : Bytes
  pub : Bytes
  priv_length : priv.length = privKeyLen
  pub_length : pub.length = keyFieldSize
  verifies : ∀ data, P.ed25519Verify pub data (P.ed25519Sign priv data) = true

/-- The identity as `GenerateIdentity` builds it from the key pair. -/
def Signer.identity {P : Primitives} (s : Signer P) : Identity := ⟨hexEncode s.priv, hexEncode s.pub⟩

def Primitives.Commutes (P : Primitives) : Prop :=
  ∀ a b : Bytes, a.length = keyFieldSize → b.length = keyFieldSize →
    ∃ secret, P.x25519 a (P.scalarBaseMult b) = some secret ∧ P.x25519 b (P.scalarBaseMult a) = some secret

theorem Suite.finish_agree {T : Type*} {S : Suite T} (privC pubC nonce : T) {privS pubS ephC ephS secret : T}
    (hS : S.Signs privS pubS) (hC : S.x25519 ephC (S.scalarBaseMult ephS) = some secret)
    (hC' : S.x25519 ephS (S.scalarBaseMult ephC) = some secret) :
    let sent := S.msg1 privC pubC ephC nonce
    let answer := S.msg2 privS pubS ephS sent
    let tag := S.bindingTag sent.signature answer.signature
    S.clientFinish ephC sent answer = .ok (S.deriveSessionKeys secret true tag) ∧
      S.serverFinish ephS sent answer = .ok (S.deriveSessionKeys secret false tag) := by
  intro sent answer tag
  have hverify : S.verify answer.identityPub (.responder sent.ephPub answer.ephPub sent.nonce)
      answer.signature = true := hS _
  have hx : S.x25519 ephC answer.ephPub = some secret := hC
  have hx' : S.x25519 ephS sent.ephPub = some secret := hC'
  refine ⟨?_, ?_⟩
  · rw [Suite.clientFinish, if_pos hverify, hx]
  · rw [Suite.serverFinish, hx']

/-! ### Messages and identities in bytes -/

theorem parseMsg1_encode {m : Msg1 Bytes} (hid : m.identityPub.length = keyFieldSize)
    (heph : m.ephPub.length = keyFieldSize) (hnonce : m.nonce.length = keyFieldSize) : parseMsg1 m.encode = m := by
  obtain ⟨identityPub, ephPub, nonce, signature⟩ := m
  have h2 : 2 * keyFieldSize = keyFieldSize + keyFieldSize := rfl
  have h3 : 3 * keyFieldSize = keyFieldSize + (keyFieldSize + keyFieldSize) := rfl
  simp only [parseMsg1, Msg1.encode, h2, h3, ← drop_drop] at *
  rw [take_left' hid, drop_left' hid, take_left' heph, drop_left' heph, take_left' hnonce,
    drop_left' hnonce]

theorem parseMsg2_encode {m : Msg2 Bytes} (hid : m.identityPub.length = keyFieldSize)
    (heph : m.ephPub.length = keyFieldSize) : parseMsg2 m.encode = m := by
  obtain ⟨identityPub, ephPub, signature⟩ := m
  have h2 : 2 * keyFieldSize = keyFieldSize + keyFieldSize := rfl
  simp only [parseMsg2, Msg2.encode, h2, ← drop_drop] at *
  rw [take_left' hid, drop_left' hid, take_left' heph, drop_left' heph]

namespace Signer
variable {P : Primitives} (s : Signer P)

theorem signs : P.suite.Signs s.priv s.pub := by
  intro payload
  change verifyHex P (hexEncode s.pub) payload.bytes (hexEncode (P.ed25519Sign s.priv payload.bytes)) = true
  rw [verifyHex, hexDecode_hexEncode, hexDecode_hexEncode]
  exact s.verifies payload.bytes

theorem publicBytes_identity : s.identity.publicBytes = .ok s.pub := by
  have hdec : hexDecode s.identity.publicKey = some s.pub := hexDecode_hexEncode s.pub
  rw [Identity.publicBytes, hdec]
  simp [s.pub_length]

theorem signBytes_identity (data : Bytes) : s.identity.signBytes P data = .ok (P.ed25519Sign s.priv data) := by
  have hsign : s.identity.sign P data = some (hexEncode (P.ed25519Sign s.priv data)) := by
    have hdec : hexDecode s.identity.privateKey = some s.priv := hexDecode_hexEncode s.priv
    rw [Identity.sign, hdec, Option.map_some]
  rw [Identity.signBytes, hsign]
  dsimp only
  rw [hexDecode_hexEncode]
  simp [P.sign_length]

variable {src : RandSource} {ephPriv nonce : Bytes}

theorem clientStart_identity (heph : (src.read keyFieldSize).1 = some ephPriv)
    (hnonce : ((src.read keyFieldSize).2.read keyFieldSize).1 = some nonce) :
    clientStart P s.identity src = .ok (ephPriv, P.suite.msg1 s.priv s.pub ephPriv nonce) := by
  have hread : src.read keyFieldSize = (some ephPriv, _) := Prod.ext heph rfl
  have hread' : (src.read keyFieldSize).2.read keyFieldSize = (some nonce, _) := Prod.ext hnonce rfl
  rw [clientStart, hread]
  dsimp only
  rw [hread']
  dsimp only
  rw [s.publicBytes_identity, s.signBytes_identity]
  rfl

theorem serverAnswer_identity (heph : (src.read keyFieldSize).1 = some ephPriv) (received : Msg1 Bytes) :
    serverAnswer P s.identity src received = .ok (ephPriv, P.suite.msg2 s.priv s.pub ephPriv received) := by
  have hread : src.read keyFieldSize = (some ephPriv, _) := Prod.ext heph rfl
  rw [serverAnswer, hread]
  dsimp only
  rw [s.publicBytes_identity, s.signBytes_identity]
  rfl

theorem clientStart_ok {r : Bytes × Msg1 Bytes} (h : clientStart P s.identity src = .ok r) :
    ∃ ephPriv nonce, r = (ephPriv, P.suite.msg1 s.priv s.pub ephPriv nonce) := by
  unfold clientStart at h
  split at h
  · cases h
  split at h
  · cases h
  simp only [s.publicBytes_identity, s.signBytes_identity] at h
  exact ⟨_, _, (Except.ok.inj h).symm⟩

theorem serverAnswer_ok {received : Msg1 Bytes} {r : Bytes × Msg2 Bytes}
    (h : serverAnswer P s.identity src received = .ok r) :
    ∃ ephPriv, r = (ephPriv, P.suite.msg2 s.priv s.pub ephPriv received) := by
  unfold serverAnswer at h
  split at h
  · cases h
  simp only [s.publicBytes_identity, s.signBytes_identity] at h
  exact ⟨_, (Except.ok.inj h).symm⟩

theorem msg1_lengths (ephPriv : Bytes) (hnonce : nonce.length = keyFieldSize) :
    (P.suite.msg1 s.priv s.pub ephPriv nonce).encode.length = msg1Size ∧
      parseMsg1 (P.suite.msg1 s.priv s.pub ephPriv nonce).encode = P.suite.msg1 s.priv s.pub ephPriv nonce := by
  have heph : (P.suite.scalarBaseMult ephPriv).length = keyFieldSize := P.base_length ephPriv
  have hsig : (P.suite.sign s.priv (.initiator (P.suite.scalarBaseMult ephPriv) nonce)).length = signatureSize :=
    P.sign_length _ _
  refine ⟨?_, parseMsg1_encode s.pub_length heph hnonce⟩
  simp [Msg1.encode, Suite.msg1, s.pub_length, heph, hnonce, hsig, msg1Size, keyFieldSize, signatureSize]

theorem msg2_lengths (ephPriv : Bytes) (received : Msg1 Bytes) :
    (P.suite.msg2 s.priv s.pub ephPriv received).encode.length = msg2Size ∧
      parseMsg2 (P.suite.msg2 s.priv s.pub ephPriv received).encode = P.suite.msg2 s.priv s.pub ephPriv received := by
  have heph : (P.suite.scalarBaseMult ephPriv).length = keyFieldSize := P.base_length ephPriv
  have hsig : (P.suite.sign s.priv (.responder received.ephPub (P.suite.scalarBaseMult ephPriv)
      received.nonce)).length = signatureSize := P.sign_length _ _
  refine ⟨?_, parseMsg2_encode s.pub_length heph⟩
  simp [Msg2.encode, Suite.msg2, s.pub_length, heph, hsig, msg2Size, keyFieldSize, signatureSize]

section
variable (heph : (src.read keyFieldSize).1 = some ephPriv)
include heph

theorem clientKeyExchange_written
    (hnonce : ((src.read keyFieldSize).2.read keyFieldSize).1 = some nonce) (items : List ConnItem) :
    (clientKeyExchange P s.identity src none items).written =
      (P.suite.msg1 s.priv s.pub ephPriv nonce).encode := by
  unfold clientKeyExchange
  rw [s.clientStart_identity heph hnonce]
  cases connReadFull msg2Size items with | mk result rest =>
  cases result <;> rfl

theorem clientKeyExchange_of_msg2
    (hnonce : ((src.read keyFieldSize).2.read keyFieldSize).1 = some nonce) {msg2 : Bytes}
    (hlen : msg2.length = msg2Size) (rest : List ConnItem) :
    clientKeyExchange P s.identity src none (msg2.map .byte ++ rest) =
      ⟨(P.suite.clientFinish ephPriv (P.suite.msg1 s.priv s.pub ephPriv nonce) (parseMsg2 msg2)).mapError .check,
        hexEncode (parseMsg2 msg2).identityPub, (P.suite.msg1 s.priv s.pub ephPriv nonce).encode, rest⟩ := by
  unfold clientKeyExchange
  rw [s.clientStart_identity heph hnonce]
  rw [connReadFull_bytes hlen]

theorem serverKeyExchange_of_msg1 {cache : NonceCache} {msg1 : Bytes} (hlen : msg1.length = msg1Size)
    (hcheck : P.suite.checkMsg1 (parseMsg1 msg1) = true)
    (hfresh : cache.seen.lookup (parseMsg1 msg1).nonce = none) (now : ℤ) (rest : List ConnItem) :
    (serverKeyExchange P s.identity src cache now none (msg1.map .byte ++ rest)).1 =
      ⟨(P.suite.serverFinish ephPriv (parseMsg1 msg1)
          (P.suite.msg2 s.priv s.pub ephPriv (parseMsg1 msg1))).mapError .check,
        hexEncode (parseMsg1 msg1).identityPub,
        (P.suite.msg2 s.priv s.pub ephPriv (parseMsg1 msg1)).encode, rest⟩ := by
  unfold serverKeyExchange
  rw [connReadFull_bytes hlen]
  dsimp only
  rw [if_pos hcheck]
  have hrecord : cache.checkAndRecord (parseMsg1 msg1).nonce now = (true, _) :=
    Prod.ext (NonceCache.checkAndRecord_fresh hfresh now) rfl
  rw [hrecord]
  rw [s.serverAnswer_identity heph]

end

end Signer

/-- Over a connection that delivers what each side writes, both sides succeed, report each other's
identity key and hold complementary keys. -/
theorem keyExchange_agrees {P : Primitives} (hdh : P.Commutes) (c s : Signer P) {srcC srcS : RandSource}
    {ephC nonce ephS : Bytes} (hephC : (srcC.read keyFieldSize).1 = some ephC)
    (hnonce : ((srcC.read keyFieldSize).2.read keyFieldSize).1 = some nonce)
    (hephS : (srcS.read keyFieldSize).1 = some ephS) {cache : NonceCache} (hfresh : cache.seen.lookup nonce = none)
    (now : ℤ) {itemsC itemsS restC restS : List ConnItem}
    (hdeliverS : itemsS = (clientKeyExchange P c.identity srcC none itemsC).written.map .byte ++ restS)
    (hdeliverC : itemsC =
      (serverKeyExchange P s.identity srcS cache now none itemsS).1.written.map .byte ++ restC) :
    let client := clientKeyExchange P c.identity srcC none itemsC
    let server := (serverKeyExchange P s.identity srcS cache now none itemsS).1
    ∃ keysC keysS, client.result = .ok keysC ∧ server.result = .ok keysS ∧
      client.peer = s.identity.publicKey ∧ server.peer = c.identity.publicKey ∧
      keysC.sendKey = keysS.recvKey ∧ keysC.recvKey = keysS.sendKey := by
  intro client server
  have hnonceLen := RandSource.read_length hnonce
  obtain ⟨hlen1, hparse1⟩ := c.msg1_lengths ephC hnonceLen
  obtain ⟨secret, hsecretC, hsecretS⟩ :=
    hdh ephC ephS (RandSource.read_length hephC) (RandSource.read_length hephS)
  obtain ⟨hfinC, hfinS⟩ := Suite.finish_agree c.priv c.pub nonce s.signs hsecretC hsecretS
  -- the server reads the client's message
  have hserver := s.serverKeyExchange_of_msg1 hephS hlen1 (by rw [hparse1]; exact c.signs _)
    (by rw [hparse1]; exact hfresh) now restS
  rw [c.clientKeyExchange_written hephC hnonce] at hdeliverS
  rw [← hdeliverS, hparse1] at hserver
  -- the client reads the answer
  obtain ⟨hlen2, hparse2⟩ := s.msg2_lengths ephS (P.suite.msg1 c.priv c.pub ephC nonce)
  have hclient := c.clientKeyExchange_of_msg2 hephC hnonce hlen2 restC
  rw [hserver] at hdeliverC
  rw [← hdeliverC, hparse2] at hclient
  rw [hfinS] at hserver
  rw [hfinC] at hclient
  exact ⟨_, _, congrArg KxRun.result hclient, congrArg KxRun.result hserver, congrArg KxRun.peer hclient,
    congrArg KxRun.peer hserver, rfl, rfl⟩

/-- Stand-ins for the primitives: a signature repeats its key and the start of its text, exponents are
added by XOR. -/
def toySignature (pub data : Bytes) : Bytes := (pub ++ data ++ List.replicate signatureSize 0).take signatureSize

def toyPoint (scalar : Bytes) : Bytes := (scalar ++ List.replicate keyFieldSize 0).take keyFieldSize

def toyPrimitives : Primitives where
  ed25519Sign priv data := toySignature (priv.drop 32) data
  ed25519Verify pub data sig := decide (sig = toySignature pub data)
  scalarBaseMult := toyPoint
  x25519 scalar point := some (Proxy.xorBytes scalar point)
  sha256 data := data.take 32
  hkdf secret info n := (secret ++ info).getD n 0
  sign_length priv data := List.length_take_of_le (by simp [signatureSize]; omega)
  base_length scalar := List.length_take_of_le (by simp)

theorem toyPrimitives_commutes : toyPrimitives.Commutes := by
  intro a b ha hb
  have hpoint : ∀ x : Bytes, x.length = keyFieldSize → toyPoint x = x := fun x hx => take_left' hx
  refine ⟨Proxy.xorBytes a b, ?_, ?_⟩
  · change some (Proxy.xorBytes a (toyPoint b)) = _
    rw [hpoint b hb]
  · change some (Proxy.xorBytes b (toyPoint a)) = _
    rw [hpoint a ha, Proxy.xorBytes, Proxy.xorBytes, zipWith_comm]
    simp only [UInt8.xor_comm]

def toySigner (n : UInt8) : Signer toyPrimitives where
  priv := List.replicate 64 n
  pub := List.replicate 32 n
  priv_length := List.length_replicate
  pub_length := List.length_replicate
  verifies data := by simp [toyPrimitives]

/-- The messages of an exchange between the identities 1 and 2 with zero ephemeral keys and nonce. -/
def toyMsg1 : Msg1 Bytes :=
  toyPrimitives.suite.msg1 (toySigner 1).priv (toySigner 1).pub (List.replicate 32 0) (List.replicate 32 0)

def toyMsg2 : Msg2 Bytes :=
  toyPrimitives.suite.msg2 (toySigner 2).priv (toySigner 2).pub (List.replicate 32 0) toyMsg1

set_option maxRecDepth 4000

theorem keyExchange_agrees_toy :
    let client := clientKeyExchange toyPrimitives (toySigner 1).identity .zeros none (toyMsg2.encode.map .byte)
    let server := (serverKeyExchange toyPrimitives (toySigner 2).identity .zeros (newNonceCache 0) 0 none
      (toyMsg1.encode.map .byte)).1
    ∃ keysC keysS, client.result = .ok keysC ∧ server.result = .ok keysS ∧
      client.peer = (toySigner 2).identity.publicKey ∧ server.peer = (toySigner 1).identity.publicKey ∧
      keysC.sendKey = keysS.recvKey ∧ keysC.recvKey = keysS.sendKey := by
  have heph : (RandSource.zeros.read keyFieldSize).1 = some (replicate 32 0) := by decide
  have hnonce : ((RandSource.zeros.read keyFieldSize).2.read keyFieldSize).1 = some (replicate 32 0) := by decide
  have hfresh : (newNonceCache 0).seen.lookup (replicate 32 0) = none := AList.lookup_empty _
  have hdeliverS : toyMsg1.encode.map ConnItem.byte =
      (clientKeyExchange toyPrimitives (toySigner 1).identity .zeros none
        (toyMsg2.encode.map .byte)).written.map .byte ++ [] := by decide
  have hdeliverC : toyMsg2.encode.map ConnItem.byte =
      (serverKeyExchange toyPrimitives (toySigner 2).identity .zeros (newNonceCache 0) 0 none
        (toyMsg1.encode.map .byte)).1.written.map .byte ++ [] := by decide
  exact keyExchange_agrees toyPrimitives_commutes (toySigner 1) (toySigner 2) heph hnonce heph hfresh 0
    hdeliverS hdeliverC

def toyKey : Bytes := ascii "meshdesk-v2-session" ++ replicate 8 1 ++ replicate 5 0

end MeshDesk.KeyExchange
