import MeshDesk.Lib.Bytes
import MeshDesk.Proxy.Chunk

/-! The circuit protocol: forwarding headers, encrypted chunks and keepalives. The ciphers are
parameters that carry the laws assumed of them; random bytes come from a source whose reads may
fail. -/
namespace MeshDesk.Proxy
open Lib List

def forwardingHeaderSize : ℕ := 64
def nonceSize : ℕ := 12
def keySize : ℕ := 32
def circuitIDSize : ℕ := 16
def maxChunkPayloadSize : ℕ := 64 * 1024

/-- The two paths of a circuit, indexed 0 and 1 in the source. -/
inductive PathIndex where
  | path1
  | path2
  deriving DecidableEq, Repr

inductive CircuitState where
  | creating
  | active
  | teardown
  | closed
  deriving DecidableEq, Repr

def CircuitState.code : CircuitState → ℕ
  | .creating => 1
  | .active => 2
  | .teardown => 3
  | .closed => 4

inductive ProtocolError where
  | relayKeySize (got : ℕ)
  | nextHopTooLong (got : ℕ)
  | headerPadding
  | headerSize (got : ℕ)
  | addressLength (got : ℕ)
  | e2eKeySize (got : ℕ)
  | circuitIDSize (got : ℕ)
  | chunkPadding
  | nonce
  | forwardingHeader (e : ProtocolError)
  | nonceSize (got : ℕ)
  | decrypt
  | plaintextShort (got : ℕ)
  | circuitIDMismatch
  | paddingOverflow (declared available : ℕ)
  | payloadLength (declared actual : ℕ)
  | keepaliveCircuitID
  deriving DecidableEq, Repr

def ProtocolError.text : ProtocolError → String
  | .relayKeySize got => s!"relay key must be 32 bytes, got {got}"
  | .nextHopTooLong got => s!"next-hop address too long: {got} bytes (max 61)"
  | .headerPadding => "generate header padding"
  | .headerSize got => s!"header must be 64 bytes, got {got}"
  | .addressLength got => s!"invalid next-hop address length: {got}"
  | .e2eKeySize got => s!"e2e key must be 32 bytes, got {got}"
  | .circuitIDSize got => s!"circuit ID must be 16 bytes, got {got}"
  | .chunkPadding => "generate padding"
  | .nonce => "generate nonce"
  | .forwardingHeader e => "encode forwarding header: " ++ e.text
  | .nonceSize got => s!"nonce must be 12 bytes, got {got}"
  | .decrypt => "AEAD decrypt failed"
  | .plaintextShort got => s!"plaintext too short: {got} bytes (min 35)"
  | .circuitIDMismatch => "circuit ID mismatch in chunk"
  | .paddingOverflow declared available =>
    s!"padding overflows plaintext: declared {declared}, available {available}"
  | .payloadLength declared actual => s!"payload length mismatch: declared {declared}, actual {actual}"
  | .keepaliveCircuitID => "circuit ID must be 16 bytes"

/-- The outcomes of the reads from `crypto/rand`: each one fails or fills the buffer. -/
structure RandSource where
  reads : ℕ → Option (ℕ → UInt8)
  pos : ℕ

def RandSource.zeros : RandSource := ⟨fun _ => some (fun _ => 0), 0⟩

def RandSource.read (src : RandSource) (n : ℕ) : Option Bytes × RandSource :=
  ((src.reads src.pos).map (fun byte => (List.range n).map byte), { src with pos := src.pos + 1 })

variable {src : RandSource} {n : ℕ} {a relayKey : Bytes}

theorem RandSource.read_length {bs : Bytes} (h : (src.read n).1 = some bs) : bs.length = n := by
  obtain ⟨byte, -, rfl⟩ := Option.map_eq_some_iff.mp h
  simp

def RandSource.readPadding (src : RandSource) (n : ℕ) : Option Bytes × RandSource :=
  if 0 < n then src.read n else (some [], src)

theorem RandSource.readPadding_length {bs : Bytes} (h : (src.readPadding n).1 = some bs) : bs.length = n := by
  unfold readPadding at h
  split_ifs at h with hn
  · exact read_length h
  · obtain rfl := Option.some.inj h
    simp only [length_nil]
    omega

/-- AES-CTR with a zero IV: a key determines the bytes the header is XORed with. -/
structure HeaderCipher where
  keystream : Bytes → Bytes
  keystream_length : ∀ key, (keystream key).length = forwardingHeaderSize

instance : Inhabited HeaderCipher := ⟨⟨fun _ => List.replicate forwardingHeaderSize 0, fun _ => List.length_replicate⟩⟩

/-- ChaCha20-Poly1305 as an ideal round trip; the tag adds 16 bytes. -/
structure Aead where
  sealBytes : (key nonce plaintext ad : Bytes) → Bytes
  openBytes : (key nonce ciphertext ad : Bytes) → Option Bytes
  open_seal : ∀ key nonce plaintext ad,
    openBytes key nonce (sealBytes key nonce plaintext ad) ad = some plaintext
  seal_length : ∀ key nonce plaintext ad, (sealBytes key nonce plaintext ad).length = plaintext.length + 16

instance : Inhabited Aead where
  default :=
    { sealBytes := fun _ _ plaintext _ => plaintext ++ List.replicate 16 0
      openBytes := fun _ _ ciphertext _ => some (ciphertext.take (ciphertext.length - 16))
      open_seal := by simp
      seal_length := by simp }

def xorBytes (a b : Bytes) : Bytes := List.zipWith (· ^^^ ·) a b

theorem xorBytes_length {b : Bytes} (h : a.length = b.length) : (xorBytes a b).length = a.length := by
  simp [xorBytes, h]

theorem xorBytes_cancel {b : Bytes} (h : a.length = b.length) : xorBytes (xorBytes a b) b = a := by
  induction a generalizing b with
  | nil => simp [xorBytes]
  | cons x a ih =>
    cases b with
    | nil => cases h
    | cons y b =>
      have hxy : (x ^^^ y) ^^^ y = x := by rw [UInt8.xor_assoc, UInt8.xor_self, UInt8.xor_zero]
      have htail := ih (by simpa using h)
      simp only [xorBytes, zipWith_cons_cons, hxy] at htail ⊢
      rw [htail]

structure ForwardingHeader where
  nextHop : GoString
  deriving DecidableEq, Repr

namespace ForwardingHeader

def plain (h : ForwardingHeader) (padding : Bytes) : Bytes := toBE 2 h.nextHop.length ++ h.nextHop ++ padding

def encode (C : HeaderCipher) (h : ForwardingHeader) (relayKey : Bytes) (src : RandSource) :
    Except ProtocolError Bytes × RandSource :=
  if relayKey.length ≠ keySize then (.error (.relayKeySize relayKey.length), src)
  else if forwardingHeaderSize - 3 < h.nextHop.length then (.error (.nextHopTooLong h.nextHop.length), src)
  else
    let (padding, src) := src.read (forwardingHeaderSize - 2 - h.nextHop.length)
    match padding with
    | none => (.error .headerPadding, src)
    | some padding => (.ok (xorBytes (h.plain padding) (C.keystream relayKey)), src)

end ForwardingHeader

def decodeForwardingHeader (C : HeaderCipher) (encrypted relayKey : Bytes) :
    Except ProtocolError ForwardingHeader :=
  if encrypted.length ≠ forwardingHeaderSize then .error (.headerSize encrypted.length)
  else if relayKey.length ≠ keySize then .error (.relayKeySize relayKey.length)
  else
    let plaintext := xorBytes encrypted (C.keystream relayKey)
    let addrLen := ofBE (plaintext.take 2)
    if forwardingHeaderSize - 2 < addrLen then .error (.addressLength addrLen)
    else .ok ⟨(plaintext.drop 2).take addrLen⟩

variable {C : HeaderCipher}

theorem ForwardingHeader.encode_ok {h : ForwardingHeader} {hdr : Bytes} (he : (h.encode C relayKey src).1 = .ok hdr) :
    relayKey.length = keySize ∧ h.nextHop.length ≤ 61 ∧ hdr.length = forwardingHeaderSize ∧
      decodeForwardingHeader C hdr relayKey = .ok h := by
  unfold encode at he
  split_ifs at he with hk hl
  have hlen : h.nextHop.length ≤ 61 := Nat.not_lt.mp hl
  cases hp : (src.read (forwardingHeaderSize - 2 - h.nextHop.length)).1 with
  | none => simp [hp] at he
  | some padding =>
    have hpad := RandSource.read_length hp
    have hplain : (h.plain padding).length = forwardingHeaderSize := by
      simp only [plain, length_append, toBE_length, hpad, forwardingHeaderSize]
      omega
    have hks : (h.plain padding).length = (C.keystream relayKey).length := by
      rw [hplain, C.keystream_length]
    obtain rfl : xorBytes (h.plain padding) (C.keystream relayKey) = hdr := by simpa [hp] using he
    have hsize : (xorBytes (h.plain padding) (C.keystream relayKey)).length = forwardingHeaderSize := by
      rw [xorBytes_length hks, hplain]
    have htake : (h.plain padding).take 2 = toBE 2 h.nextHop.length := by
      exact take_left' (toBE_length _ _)
    have hdrop : (h.plain padding).drop 2 = h.nextHop ++ padding := by
      exact drop_left' (toBE_length _ _)
    have haddr : ofBE (toBE 2 h.nextHop.length) = h.nextHop.length :=
      ofBE_toBE_of_lt (by norm_num; omega)
    refine ⟨not_not.mp hk, hlen, hsize, ?_⟩
    unfold decodeForwardingHeader
    rw [if_neg (not_not.mpr hsize), if_neg hk, xorBytes_cancel hks]
    dsimp only
    rw [htake, hdrop, haddr, if_neg (by simp only [forwardingHeaderSize]; omega), take_left]

structure WireChunk where
  header : Bytes
  nonce : Bytes
  ciphertext : Bytes
  deriving DecidableEq, Repr

def metaSize : ℕ := 35

def Chunk.plain (chunk : Chunk) (circuitID padding : Bytes) : Bytes :=
  circuitID ++ (toBE 4 chunk.streamID.toNat ++ (toBE 4 chunk.sequence.toNat ++ (toBE 4 chunk.total.toNat ++
    ([chunk.type.byte] ++ (toBE 2 chunk.paddingLen.toNat ++ (toBE 4 chunk.payload.length ++
      (padding ++ chunk.payload)))))))

def encodeChunk (C : HeaderCipher) (A : Aead) (chunk : Chunk) (e2eKey relayKey : Bytes) (nextHop : GoString)
    (circuitID : Bytes) (src : RandSource) : Except ProtocolError WireChunk × RandSource :=
  if e2eKey.length ≠ keySize then (.error (.e2eKeySize e2eKey.length), src)
  else if circuitID.length ≠ Proxy.circuitIDSize then (.error (.circuitIDSize circuitID.length), src)
  else
    let (padding, src) := src.readPadding chunk.paddingLen.toNat
    match padding with
    | none => (.error .chunkPadding, src)
    | some padding =>
      let (nonce, src) := src.read Proxy.nonceSize
      match nonce with
      | none => (.error .nonce, src)
      | some nonce =>
        let (header, src) := (ForwardingHeader.mk nextHop).encode C relayKey src
        match header with
        | .error e => (.error (.forwardingHeader e), src)
        | .ok header => (.ok ⟨header, nonce, A.sealBytes e2eKey nonce (chunk.plain circuitID padding) header⟩, src)

def cut (n : ℕ) (p : Bytes) : Bytes × Bytes := (p.take n, p.drop n)

theorem cut_append (h : a.length = n) (rest : Bytes) : cut n (a ++ rest) = (a, rest) := by
  rw [cut, take_left' h, drop_left' h]

def decodeChunk (A : Aead) (wc : WireChunk) (e2eKey circuitID : Bytes) : Except ProtocolError Chunk :=
  if e2eKey.length ≠ keySize then .error (.e2eKeySize e2eKey.length)
  else if wc.nonce.length ≠ Proxy.nonceSize then .error (.nonceSize wc.nonce.length)
  else if wc.header.length ≠ forwardingHeaderSize then .error (.headerSize wc.header.length)
  else if circuitID.length ≠ Proxy.circuitIDSize then .error (.circuitIDSize circuitID.length)
  else
    match A.openBytes e2eKey wc.nonce wc.ciphertext wc.header with
    | none => .error .decrypt
    | some plaintext =>
      if plaintext.length < metaSize then .error (.plaintextShort plaintext.length)
      else
        let (decodedID, p) := cut Proxy.circuitIDSize plaintext
        if decodedID ≠ circuitID then .error .circuitIDMismatch
        else
          let (streamID, p) := cut 4 p
          let (sequence, p) := cut 4 p
          let (total, p) := cut 4 p
          let (type, p) := cut 1 p
          let (paddingLen, p) := cut 2 p
          let (payloadLen, p) := cut 4 p
          if p.length < ofBE paddingLen then .error (.paddingOverflow (ofBE paddingLen) p.length)
          else
            let payload := p.drop (ofBE paddingLen)
            if ofBE payloadLen ≠ payload.length then
              .error (.payloadLength (ofBE payloadLen) payload.length)
            else
              .ok ⟨UInt32.ofNat (ofBE streamID), UInt32.ofNat (ofBE sequence), UInt32.ofNat (ofBE total),
                ⟨type.headD 0⟩, payload, UInt16.ofNat (ofBE paddingLen)⟩

variable {A : Aead} {chunk : Chunk} {e2eKey circuitID : Bytes} {nextHop : GoString} {wc : WireChunk}
  (h : (encodeChunk C A chunk e2eKey relayKey nextHop circuitID src).1 = .ok wc)
include h

theorem encodeChunk_ok :
    e2eKey.length = keySize ∧ circuitID.length = circuitIDSize ∧ wc.nonce.length = nonceSize ∧
      wc.header.length = forwardingHeaderSize ∧ (∃ src', ((ForwardingHeader.mk nextHop).encode C relayKey src').1 = .ok wc.header) ∧
      ∃ padding, padding.length = chunk.paddingLen.toNat ∧
        wc.ciphertext = A.sealBytes e2eKey wc.nonce (chunk.plain circuitID padding) wc.header := by
  unfold encodeChunk at h
  split_ifs at h with hk hc
  cases hp : (src.readPadding chunk.paddingLen.toNat).1 with
  | none => simp [hp] at h
  | some padding =>
    cases hn : ((src.readPadding chunk.paddingLen.toNat).2.read nonceSize).1 with
    | none => simp [hp, hn] at h
    | some nonce =>
      set src' := ((src.readPadding chunk.paddingLen.toNat).2.read nonceSize).2
      cases hh : ((ForwardingHeader.mk nextHop).encode C relayKey src').1 with
      | error e => simp [hp, hn, src', hh] at h
      | ok header =>
        obtain rfl : ⟨header, nonce, A.sealBytes e2eKey nonce (chunk.plain circuitID padding) header⟩ = wc := by
          simpa [hp, hn, src', hh] using h
        exact ⟨not_not.mp hk, not_not.mp hc, RandSource.read_length hn, (ForwardingHeader.encode_ok hh).2.2.1,
          ⟨src', hh⟩, padding, RandSource.readPadding_length hp, rfl⟩

/-- Of all circuits, the one a chunk was encoded for accepts it. -/
theorem decodeChunk_encodeChunk (hlen : chunk.payload.length < 2 ^ 32) {other : Bytes}
    (hsize : other.length = circuitIDSize) :
    decodeChunk A wc e2eKey other = if circuitID ≠ other then .error .circuitIDMismatch else .ok chunk := by
  obtain ⟨hk, hc, hn, hhdr, -, padding, hpad, hct⟩ := encodeChunk_ok h
  have hplen : ¬ (chunk.plain circuitID padding).length < metaSize := by
    simp only [Chunk.plain, length_append, toBE_length, length_singleton, hc, circuitIDSize, metaSize]
    omega
  have h4 : ∀ x : UInt32, ofBE (toBE 4 x.toNat) = x.toNat := fun x => ofBE_toBE_of_lt x.toNat_lt
  have h2 : ofBE (toBE 2 chunk.paddingLen.toNat) = chunk.paddingLen.toNat :=
    ofBE_toBE_of_lt chunk.paddingLen.toNat_lt
  have hpl : ofBE (toBE 4 chunk.payload.length) = chunk.payload.length := ofBE_toBE_of_lt hlen
  have hover : ¬ (padding ++ chunk.payload).length < chunk.paddingLen.toNat := by
    rw [length_append, hpad]
    omega
  unfold decodeChunk
  rw [if_neg (not_not.mpr hk), if_neg (not_not.mpr hn), if_neg (not_not.mpr hhdr), if_neg (not_not.mpr hsize), hct,
    A.open_seal]
  dsimp only
  rw [if_neg hplen, Chunk.plain, cut_append hc]
  simp only [cut_append (toBE_length _ _), cut_append (length_singleton : [chunk.type.byte].length = 1),
    h4, h2, hpl, if_neg hover, drop_left' hpad, ne_eq, not_true_eq_false, if_false, UInt32.ofNat_toNat,
    UInt16.ofNat_toNat, headD_cons]

theorem decodeChunk_own (hlen : chunk.payload.length < 2 ^ 32) : decodeChunk A wc e2eKey circuitID = .ok chunk :=
  (decodeChunk_encodeChunk h hlen (encodeChunk_ok h).2.1).trans (if_neg (not_not.mpr rfl))

omit h

structure KeepaliveMsg where
  circuitID : Bytes
  timestamp : Int64
  deriving DecidableEq, Repr

def KeepaliveMsg.encode (k : KeepaliveMsg) : Except ProtocolError Bytes :=
  if k.circuitID.length ≠ circuitIDSize then .error .keepaliveCircuitID
  else .ok (k.circuitID ++ toBE 8 k.timestamp.toUInt64.toNat)

end MeshDesk.Proxy
