import MeshDesk.Lib.Bytes

/-! The key exchange over an arbitrary type of keys, nonces and signatures: what the two sides sign,
check and derive, without the wire. The byte strings of the program are one such type, symbolic terms
are another. -/
namespace MeshDesk.KeyExchange

/-- What a signature is over. The signing domain tells the two roles apart. -/
inductive SignPayload (T : Type*) where
  | initiator (ephPub nonce : T)
  | responder (peerEphPub ourEphPub nonce : T)
  deriving DecidableEq, Repr

/-- The primitives. `bindingTag` is the part of the hash of both signatures that enters the key
derivation; `hkdf` gives the two keys. -/
structure Suite (T : Type*) where
  scalarBaseMult : (priv : T) → T
  x25519 : (priv pub : T) → Option T
  sign : (priv : T) → SignPayload T → T
  verify : (pub : T) → SignPayload T → (sig : T) → Bool
  bindingTag : (sigInitiator sigResponder : T) → T
  hkdf : (secret tag : T) → T × T

structure SessionKeys (T : Type*) where
  sendKey : T
  recvKey : T
  deriving DecidableEq, Repr

structure Msg1 (T : Type*) where
  identityPub : T
  ephPub : T
  nonce : T
  signature : T
  deriving DecidableEq, Repr

structure Msg2 (T : Type*) where
  identityPub : T
  ephPub : T
  signature : T
  deriving DecidableEq, Repr

inductive CheckError where
  | signatureInvalid
  | protocolViolation
  | ecdh
  deriving DecidableEq, Repr

namespace Suite
variable {T : Type*} (S : Suite T)

/-- Both roles derive the same two keys and take them in opposite order. -/
def deriveSessionKeys (secret : T) (role : Bool) (tag : T) : SessionKeys T :=
  let keys := S.hkdf secret tag
  if role then ⟨keys.1, keys.2⟩ else ⟨keys.2, keys.1⟩

variable (priv pub ephPriv : T) (received : Msg1 T)

def msg1 (nonce : T) : Msg1 T :=
  let ephPub := S.scalarBaseMult ephPriv
  ⟨pub, ephPub, nonce, S.sign priv (.initiator ephPub nonce)⟩

def clientFinish (sent : Msg1 T) (answer : Msg2 T) : Except CheckError (SessionKeys T) :=
  if S.verify answer.identityPub (.responder sent.ephPub answer.ephPub sent.nonce) answer.signature then
    match S.x25519 ephPriv answer.ephPub with
    | none => .error .ecdh
    | some secret => .ok (S.deriveSessionKeys secret true (S.bindingTag sent.signature answer.signature))
  else .error .signatureInvalid

def checkMsg1 : Bool :=
  S.verify received.identityPub (.initiator received.ephPub received.nonce) received.signature

def msg2 : Msg2 T :=
  let ephPub := S.scalarBaseMult ephPriv
  ⟨pub, ephPub, S.sign priv (.responder received.ephPub ephPub received.nonce)⟩

def serverFinish (answer : Msg2 T) : Except CheckError (SessionKeys T) :=
  match S.x25519 ephPriv received.ephPub with
  | none => .error .ecdh
  | some secret => .ok (S.deriveSessionKeys secret false (S.bindingTag received.signature answer.signature))

/-- An initiator that is given `answer`: its keys and the identity it reports. -/
def clientRun (nonce : T) (answer : Msg2 T) : Except CheckError (SessionKeys T × T) :=
  (S.clientFinish ephPriv (S.msg1 priv pub ephPriv nonce) answer).map (fun keys => (keys, answer.identityPub))

/-- A responder that is given `received`, with a nonce that is `fresh` or seen before. -/
def serverRun (fresh : Bool) (received : Msg1 T) : Except CheckError (SessionKeys T × T) :=
  if S.checkMsg1 received then
    if fresh then
      (S.serverFinish ephPriv received (S.msg2 priv pub ephPriv received)).map
        (fun keys => (keys, received.identityPub))
    else .error .protocolViolation
  else .error .signatureInvalid

variable {S}

variable {ephPriv : T} {answer : Msg2 T} {keys : SessionKeys T} {received : Msg1 T}

theorem clientFinish_ok {sent : Msg1 T} (h : S.clientFinish ephPriv sent answer = .ok keys) :
    S.verify answer.identityPub (.responder sent.ephPub answer.ephPub sent.nonce) answer.signature = true ∧
      ∃ secret, S.x25519 ephPriv answer.ephPub = some secret ∧
        keys = S.deriveSessionKeys secret true (S.bindingTag sent.signature answer.signature) := by
  unfold clientFinish at h
  split_ifs at h with hv
  split at h
  · cases h
  · next secret hx => exact ⟨hv, secret, hx, (Except.ok.inj h).symm⟩

theorem serverFinish_ok (h : S.serverFinish ephPriv received answer = .ok keys) :
    ∃ secret, S.x25519 ephPriv received.ephPub = some secret ∧
      keys = S.deriveSessionKeys secret false (S.bindingTag received.signature answer.signature) := by
  unfold serverFinish at h
  split at h
  · cases h
  · next secret hx => exact ⟨secret, hx, (Except.ok.inj h).symm⟩

theorem clientRun_ok {priv pub nonce peer : T} (h : S.clientRun priv pub ephPriv nonce answer = .ok (keys, peer)) :
    S.clientFinish ephPriv (S.msg1 priv pub ephPriv nonce) answer = .ok keys ∧ peer = answer.identityPub := by
  unfold clientRun at h
  obtain ⟨keys', hf, heq⟩ := Lib.map_eq_ok.mp h
  obtain ⟨rfl, rfl⟩ := Prod.mk.inj heq
  exact ⟨hf, rfl⟩

theorem serverRun_ok {priv pub peer : T} {fresh : Bool}
    (h : S.serverRun priv pub ephPriv fresh received = .ok (keys, peer)) :
    S.checkMsg1 received = true ∧
      S.serverFinish ephPriv received (S.msg2 priv pub ephPriv received) = .ok keys ∧
      peer = received.identityPub := by
  unfold serverRun at h
  split_ifs at h with hcheck hfresh
  obtain ⟨keys', hf, heq⟩ := Lib.map_eq_ok.mp h
  obtain ⟨rfl, rfl⟩ := Prod.mk.inj heq
  exact ⟨hcheck, hf, rfl⟩

/-! ### Identities are bound by the keys -/

/-- The assumptions of a symbolic model: a signature verifies under at most one key, and the tag and the
derivation are injective. -/
structure Symbolic (S : Suite T) : Prop where
  one_key : ∀ pub pub' payload payload' sig, S.verify pub payload sig = true →
    S.verify pub' payload' sig = true → pub = pub'
  tag_inj : ∀ a b c d, S.bindingTag a b = S.bindingTag c d → a = c ∧ b = d
  hkdf_inj : ∀ secret secret' tag tag', (S.hkdf secret tag).1 = (S.hkdf secret' tag').1 →
    secret = secret' ∧ tag = tag'

def Signs (S : Suite T) (priv pub : T) : Prop := ∀ payload, S.verify pub payload (S.sign priv payload) = true

theorem Symbolic.signatures_eq (h : Symbolic S) {ephC ephS : T} {sent : Msg1 T}
    {answered : Msg2 T} {keysC keysS : SessionKeys T}
    (hc : S.clientFinish ephC sent answered = .ok keysC) (hs : S.serverFinish ephS received answer = .ok keysS)
    (hkeys : keysC.sendKey = keysS.recvKey) :
    sent.signature = received.signature ∧ answered.signature = answer.signature := by
  obtain ⟨-, secretC, -, rfl⟩ := clientFinish_ok hc
  obtain ⟨secretS, -, rfl⟩ := serverFinish_ok hs
  obtain ⟨-, htag⟩ := h.hkdf_inj _ _ _ _ hkeys
  exact h.tag_inj _ _ _ _ htag

end Suite

/-- Symbolic terms: names, public keys, points, signatures and derived values, all free but for the
commutation of exponents. -/
inductive Term where
  | name (n : ℕ)
  | pub (priv : Term)
  | point (scalar : ℕ)
  | shared (a b : ℕ)
  | sigI (priv ephPub nonce : Term)
  | sigR (priv peerEphPub ourEphPub nonce : Term)
  | tag (sigInitiator sigResponder : Term)
  | key (first : Bool) (secret tag : Term)
  deriving DecidableEq, Repr

def termSuite : Suite Term where
  scalarBaseMult
    | .name n => .point n
    | t => t
  x25519
    | .name a, .point b => some (.shared (min a b) (max a b))
    | _, _ => none
  sign priv
    | .initiator ephPub nonce => .sigI priv ephPub nonce
    | .responder peerEphPub ourEphPub nonce => .sigR priv peerEphPub ourEphPub nonce
  verify pub
    | .initiator ephPub nonce, .sigI priv e n => decide (pub = .pub priv ∧ ephPub = e ∧ nonce = n)
    | .responder peer our nonce, .sigR priv p o n => decide (pub = .pub priv ∧ peer = p ∧ our = o ∧ nonce = n)
    | _, _ => false
  bindingTag := .tag
  hkdf secret tag := (.key true secret tag, .key false secret tag)

def Term.signer : Term → Option Term
  | .sigI priv _ _ => some priv
  | .sigR priv _ _ _ => some priv
  | _ => none

theorem termSuite_signer {pub sig : Term} {payload : SignPayload Term}
    (h : termSuite.verify pub payload sig = true) : ∃ priv, sig.signer = some priv ∧ pub = .pub priv := by
  cases payload with
  | initiator ephPub nonce =>
    cases sig with
    | sigI priv e n => exact ⟨priv, rfl, (of_decide_eq_true h).1⟩
    | _ => cases h
  | responder peerEphPub ourEphPub nonce =>
    cases sig with
    | sigR priv p o n => exact ⟨priv, rfl, (of_decide_eq_true h).1⟩
    | _ => cases h

theorem termSuite_symbolic : termSuite.Symbolic where
  one_key pub pub' payload payload' sig h h' := by
    obtain ⟨priv, hsigner, rfl⟩ := termSuite_signer h
    obtain ⟨priv', hsigner', rfl⟩ := termSuite_signer h'
    rw [Option.mem_unique hsigner hsigner']
  tag_inj a b c d h := Term.tag.inj h
  hkdf_inj secret secret' tag tag' h := (Term.key.inj h).2

theorem termSuite_signs (priv : Term) : termSuite.Signs priv (.pub priv)
  | .initiator _ _ => by simp [termSuite]
  | .responder _ _ _ => by simp [termSuite]

def termHello : Msg1 Term := termSuite.msg1 (.name 0) (.pub (.name 0)) (.name 2) (.name 4)

def termAnswer : Msg2 Term := termSuite.msg2 (.name 1) (.pub (.name 1)) (.name 3) termHello

def termKeys (role : Bool) : SessionKeys Term :=
  termSuite.deriveSessionKeys (.shared 2 3) role (.tag termHello.signature termAnswer.signature)

end MeshDesk.KeyExchange
