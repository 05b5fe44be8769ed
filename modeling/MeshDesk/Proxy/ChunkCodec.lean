import MeshDesk.Proxy.Chunker
import MeshDesk.Proxy.Wire

/-! The chunk codec at its limits: which of the chunks the chunkers make fit on the wire, and what the
decoder does with a plaintext that no encoder has made. -/
namespace MeshDesk.Proxy
open Lib List

/-- `p[i:j]`, which panics when the bounds do not lie in `p`. -/
def slice? (p : Bytes) (i j : ℕ) : Option Bytes :=
  if i ≤ j ∧ j ≤ p.length then some ((p.drop i).take (j - i)) else none

/-- The part of `DecodeChunk` behind the decryption, with every index into the plaintext; `none` is a
panic. -/
def parsePlaintext (plaintext circuitID : Bytes) : Option (Except ProtocolError Chunk) :=
  if plaintext.length < metaSize then some (.error (.plaintextShort plaintext.length))
  else do
    let offset := 0
    let decodedID ← slice? plaintext offset (offset + circuitIDSize)
    let offset := offset + circuitIDSize
    if decodedID ≠ circuitID then return .error .circuitIDMismatch
    let streamID ← slice? plaintext offset (offset + 4)
    let offset := offset + 4
    let sequence ← slice? plaintext offset (offset + 4)
    let offset := offset + 4
    let total ← slice? plaintext offset (offset + 4)
    let offset := offset + 4
    let type ← plaintext[offset]?
    let offset := offset + 1
    let paddingLen ← slice? plaintext offset (offset + 2)
    let offset := offset + 2
    let payloadLen ← slice? plaintext offset (offset + 4)
    let offset := offset + 4
    if plaintext.length < offset + ofBE paddingLen then
      return .error (.paddingOverflow (ofBE paddingLen) (plaintext.length - offset))
    let offset := offset + ofBE paddingLen
    if ofBE payloadLen ≠ plaintext.length - offset then
      return .error (.payloadLength (ofBE payloadLen) (plaintext.length - offset))
    let payload ← slice? plaintext offset plaintext.length
    return .ok ⟨UInt32.ofNat (ofBE streamID), UInt32.ofNat (ofBE sequence), UInt32.ofNat (ofBE total), ⟨type⟩, payload,
      UInt16.ofNat (ofBE paddingLen)⟩

def decodeChunkChecked (A : Aead) (wc : WireChunk) (e2eKey circuitID : Bytes) : Option (Except ProtocolError Chunk) :=
  if e2eKey.length ≠ keySize then some (.error (.e2eKeySize e2eKey.length))
  else if wc.nonce.length ≠ nonceSize then some (.error (.nonceSize wc.nonce.length))
  else if wc.header.length ≠ forwardingHeaderSize then some (.error (.headerSize wc.header.length))
  else if circuitID.length ≠ circuitIDSize then some (.error (.circuitIDSize circuitID.length))
  else
    match A.openBytes e2eKey wc.nonce wc.ciphertext wc.header with
    | none => some (.error .decrypt)
    | some plaintext => parsePlaintext plaintext circuitID

variable {p e2eKey circuitID relayKey : Bytes} {A : Aead} {wc : WireChunk} {chunk : Chunk} {C : HeaderCipher}
  {nextHop : GoString} {src : RandSource}

theorem slice?_of_le {i j : ℕ} (hij : i ≤ j) (hj : j ≤ p.length) : slice? p i j = some ((p.drop i).take (j - i)) :=
  if_pos ⟨hij, hj⟩

theorem decodeChunkChecked_eq (A : Aead) (wc : WireChunk) (e2eKey circuitID : Bytes) :
    decodeChunkChecked A wc e2eKey circuitID = some (decodeChunk A wc e2eKey circuitID) := by
  unfold decodeChunkChecked decodeChunk
  split_ifs with hk hn hh hc
  · rfl
  · rfl
  · rfl
  · rfl
  cases A.openBytes e2eKey wc.nonce wc.ciphertext wc.header with
  | none => rfl
  | some p =>
    dsimp only
    unfold parsePlaintext
    by_cases hshort : p.length < metaSize
    · rw [if_pos hshort, if_pos hshort]
    rw [if_neg hshort, if_neg hshort]
    have hlen : 35 ≤ p.length := Nat.not_lt.mp hshort
    have hslice : ∀ i n, i + n ≤ 35 → slice? p i (i + n) = some ((p.drop i).take n) := by
      intro i n hin
      rw [slice?_of_le (Nat.le_add_right i n) (hin.trans hlen), Nat.add_sub_cancel_left]
    obtain ⟨type, htype⟩ : ∃ b, p[28]? = some b := ⟨_, List.getElem?_eq_getElem (by omega)⟩
    have hhead : ((p.drop 28).take 1).headD 0 = type := by
      rw [take_one, head?_drop, htype]
      rfl
    simp only [cut, circuitIDSize, Nat.zero_add, hslice 0 16 (by decide), drop_zero, drop_drop, Nat.reduceAdd,
      hslice 16 4 (by decide), hslice 20 4 (by decide), hslice 24 4 (by decide), htype, hslice 29 2 (by decide),
      hslice 31 4 (by decide), hhead, bind, Option.bind, length_drop]
    by_cases hid : p.take 16 ≠ circuitID
    · rw [if_pos hid, if_pos hid]
      rfl
    rw [if_neg hid, if_neg hid]
    generalize ofBE ((p.drop 29).take 2) = padding
    by_cases hover : p.length < 35 + padding
    · have hover' : p.length - 35 < padding := by omega
      rw [if_pos hover, if_pos hover']
      rfl
    have hover' : ¬ p.length - 35 < padding := by omega
    rw [if_neg hover, if_neg hover']
    by_cases hpay : ofBE ((p.drop 31).take 4) ≠ p.length - (35 + padding)
    · rw [if_pos hpay, if_pos hpay]
      rfl
    rw [if_neg hpay, if_neg hpay, slice?_of_le (Nat.not_lt.mp hover) le_rfl,
      take_of_length_le (by rw [length_drop])]
    rfl

theorem exists_append_of_le {n : ℕ} (h : n ≤ p.length) :
    ∃ a b, p = a ++ b ∧ a.length = n ∧ p.length = n + b.length :=
  ⟨p.take n, p.drop n, (take_append_drop n p).symm, length_take_of_le h, by rw [length_drop]; omega⟩

theorem toBE_uint32 {bs : Bytes} (h : bs.length = 4) : toBE 4 (UInt32.ofNat (ofBE bs)).toNat = bs := by
  have hlt : ofBE bs < 2 ^ 32 := by
    have := ofBE_lt bs
    rw [h] at this
    omega
  rw [UInt32.toNat_ofNat_of_lt' hlt, ← h, toBE_ofBE]

theorem uint16_ofBE {bs : Bytes} (h : bs.length = 2) : (UInt16.ofNat (ofBE bs)).toNat = ofBE bs := by
  have := ofBE_lt bs
  rw [h] at this
  exact UInt16.toNat_ofNat_of_lt' (by omega)

theorem plain_of_decodeChunk (hopen : A.openBytes e2eKey wc.nonce wc.ciphertext wc.header = some p)
    (h : decodeChunk A wc e2eKey circuitID = .ok chunk) :
    ∃ padding, padding.length = chunk.paddingLen.toNat ∧ p = chunk.plain circuitID padding := by
  have hreturn : ∀ {c : Prop} [Decidable c] {e : ProtocolError} {x : Except ProtocolError Chunk},
      (if c then .error e else x) = .ok chunk → ¬ c ∧ x = .ok chunk := by
    intro c _ e x hx
    split_ifs at hx with hc
    exact ⟨hc, hx⟩
  obtain ⟨-, h⟩ := hreturn h
  obtain ⟨-, h⟩ := hreturn h
  obtain ⟨-, h⟩ := hreturn h
  obtain ⟨-, h⟩ := hreturn h
  rw [hopen] at h
  obtain ⟨hshort, h⟩ := hreturn h
  have hlen : 35 ≤ p.length := Nat.not_lt.mp hshort
  obtain ⟨decodedID, p₁, rfl, hl₁, hn₁⟩ := exists_append_of_le (by omega : 16 ≤ p.length)
  obtain ⟨streamID, p₂, rfl, hl₂, hn₂⟩ := exists_append_of_le (by omega : 4 ≤ p₁.length)
  obtain ⟨sequence, p₃, rfl, hl₃, hn₃⟩ := exists_append_of_le (by omega : 4 ≤ p₂.length)
  obtain ⟨total, p₄, rfl, hl₄, hn₄⟩ := exists_append_of_le (by omega : 4 ≤ p₃.length)
  obtain ⟨type, p₅, rfl, hl₅, hn₅⟩ := exists_append_of_le (by omega : 1 ≤ p₄.length)
  obtain ⟨paddingLen, p₆, rfl, hl₆, hn₆⟩ := exists_append_of_le (by omega : 2 ≤ p₅.length)
  obtain ⟨payloadLen, p₇, rfl, hl₇, -⟩ := exists_append_of_le (by omega : 4 ≤ p₆.length)
  simp only [circuitIDSize, cut_append hl₁, cut_append hl₂, cut_append hl₃, cut_append hl₄, cut_append hl₅,
    cut_append hl₆, cut_append hl₇] at h
  obtain ⟨hid, h⟩ := hreturn h
  obtain ⟨hover, h⟩ := hreturn h
  obtain ⟨hpay, h⟩ := hreturn h
  obtain rfl := Except.ok.inj h
  obtain rfl := not_not.mp hid
  obtain ⟨ty, rfl⟩ := length_eq_one_iff.mp hl₅
  refine ⟨p₇.take (ofBE paddingLen), ?_, ?_⟩
  · rw [uint16_ofBE hl₆]
    exact length_take_of_le (Nat.not_lt.mp hover)
  · have hpl : toBE 4 (p₇.drop (ofBE paddingLen)).length = payloadLen := by
      rw [← not_not.mp hpay, ← hl₇, toBE_ofBE]
    have hpd : toBE 2 (ofBE paddingLen) = paddingLen := by rw [← hl₆, toBE_ofBE]
    simp only [Chunk.plain, toBE_uint32 hl₂, toBE_uint32 hl₃, toBE_uint32 hl₄, uint16_ofBE hl₆, hpd, hpl,
      take_append_drop, headD_cons]

/-- The chunk codec: the circuit a chunk is encoded for decodes it, every other circuit refuses it, and on no
plaintext does the decoder read past the end; what it accepts fills the plaintext. -/
theorem chunk_codec (C : HeaderCipher) (A : Aead) (chunk : Chunk) (e2eKey relayKey circuitID : Bytes) (nextHop : GoString)
    (src : RandSource) (wc : WireChunk) (henc : (encodeChunk C A chunk e2eKey relayKey nextHop circuitID src).1 = .ok wc)
    (hpayload : chunk.payload.length ≤ maxChunkPayloadSize) :
    decodeChunk A wc e2eKey circuitID = .ok chunk ∧
      (∀ other, other.length = circuitIDSize → other ≠ circuitID →
        decodeChunk A wc e2eKey other = .error .circuitIDMismatch) ∧
      ∀ plaintext key nonce header expected : Bytes,
        let sealed : WireChunk := ⟨header, nonce, A.sealBytes key nonce plaintext header⟩
        decodeChunkChecked A sealed key expected = some (decodeChunk A sealed key expected) ∧
          ∀ accepted, decodeChunk A sealed key expected = .ok accepted →
            ∃ padding, padding.length = accepted.paddingLen.toNat ∧ plaintext = accepted.plain expected padding := by
  have hlen : chunk.payload.length < 2 ^ 32 := lt_of_le_of_lt hpayload (by decide)
  refine ⟨decodeChunk_own henc hlen, ?_, ?_⟩
  · exact fun other hsize hne => (decodeChunk_encodeChunk henc hlen hsize).trans (if_pos hne.symm)
  · intro plaintext key nonce header expected sealed
    refine ⟨decodeChunkChecked_eq A sealed key expected, ?_⟩
    exact fun accepted h => plain_of_decodeChunk (A.open_seal key nonce plaintext header) h

def encodeZero (chunk : Chunk) : Except ProtocolError WireChunk :=
  (encodeChunk default default chunk (List.replicate 32 0) (List.replicate 32 0) [] (List.replicate 16 0) .zeros).1

def threeByteChunk : Chunk := ⟨7, 0, 0, .data, [1, 2, 3], 2⟩

theorem chunk_codec_three_bytes :
    ∃ wc, encodeZero threeByteChunk = .ok wc ∧
      decodeChunk default wc (List.replicate 32 0) (List.replicate 16 0) = .ok threeByteChunk := by
  obtain ⟨wc, hwc⟩ := exists_ok_of_isOk (show (encodeZero threeByteChunk).isOk = true by decide)
  exact ⟨wc, hwc, (chunk_codec _ _ threeByteChunk _ _ _ _ _ wc hwc (by decide)).1⟩

/-- What is left of the largest ciphertext for padding and payload. -/
def maxWireContent : ℕ := maxWireCiphertextSize - (metaSize + 16)

section
variable (h : (encodeChunk C A chunk e2eKey relayKey nextHop circuitID src).1 = .ok wc)
include h

theorem ciphertext_length :
    wc.ciphertext.length = metaSize + chunk.paddingLen.toNat + chunk.payload.length + 16 := by
  obtain ⟨-, hc, -, -, -, padding, hpad, hct⟩ := encodeChunk_ok h
  rw [hct, A.seal_length]
  simp only [Chunk.plain, length_append, toBE_length, length_singleton, hc, hpad, circuitIDSize, metaSize]
  omega

theorem sendable_iff : wc.Sendable ↔ chunk.payload.length + chunk.paddingLen.toNat ≤ maxWireContent := by
  have hlen := ciphertext_length h
  obtain ⟨-, -, hn, hhdr, -⟩ := encodeChunk_ok h
  have hmax : maxWireCiphertextSize = maxWireContent + 51 := by decide
  simp only [metaSize] at hlen
  constructor
  · intro hs
    have := hs.bounded
    omega
  · intro hle
    refine ⟨hhdr, hn, ?_, by omega⟩
    intro hnil
    rw [hnil] at hlen
    simp only [length_nil] at hlen
    omega

theorem serialize_too_large (hbig : maxWireContent < chunk.payload.length + chunk.paddingLen.toNat) :
    serializeWireChunk wc =
      .error (.ciphertextTooLarge (metaSize + chunk.paddingLen.toNat + chunk.payload.length + 16)) := by
  have hlen := ciphertext_length h
  obtain ⟨-, -, hn, hhdr, -⟩ := encodeChunk_ok h
  have hmax : maxWireCiphertextSize = maxWireContent + 51 := by decide
  have hmeta : metaSize = 35 := rfl
  unfold serializeWireChunk
  rw [if_neg (not_not.mpr hhdr), if_neg (not_not.mpr hn), if_neg (by omega), if_pos (by omega), hlen]

end

/-- A chunk of either chunker that is encoded can be sent, and is read back, exactly if its padding and payload
fit; a configuration whose largest chunk fits makes only such chunks. -/
theorem split_sendable_iff (C : HeaderCipher) (A : Aead) (c : Chunker) (data : Bytes) (chunk : Chunk)
    (hchunk : chunk ∈ (c.split data).1) (e2eKey relayKey circuitID : Bytes) (nextHop : GoString) (src : RandSource)
    (wc : WireChunk) (henc : (encodeChunk C A chunk e2eKey relayKey nextHop circuitID src).1 = .ok wc) :
    ((∃ bs, serializeWireChunk wc = .ok bs ∧ ∀ rest, readWireChunk (bs ++ rest) = .ok (wc, rest)) ↔
        chunk.payload.length + chunk.paddingLen.toNat ≤ 65757) ∧
      (c.maxPayload + c.state.cfg.maxPadding ≤ 65757 →
        chunk.payload.length + chunk.paddingLen.toNat ≤ 65757) := by
  have hiff := sendable_iff henc
  refine ⟨⟨?_, ?_⟩, ?_⟩
  · rintro ⟨bs, hser, -⟩
    exact hiff.mp (serializeWireChunk_ok hser).1
  · intro hfit
    have hs := hiff.mpr hfit
    exact ⟨wc.layout, hs.serialize, fun rest => readWireChunk_layout hs rest⟩
  · intro hfit
    obtain ⟨hpayload, hpadding⟩ := Chunker.split_le hchunk
    omega

def zeroDraws : PadSource := ⟨fun _ => some 0, 0⟩

theorem split_sendable_iff_default :
    ∃ chunk ∈ ((ChunkerStrategy.fixed16k.new defaultChunkerConfig (fun _ _ => 0) zeroDraws).split [1, 2, 3]).1,
      ∃ wc, encodeZero chunk = .ok wc ∧ ∃ bs, serializeWireChunk wc = .ok bs ∧
        ∀ rest, readWireChunk (bs ++ rest) = .ok (wc, rest) := by
  have hmem : (⟨0, 0, 1, .data, [1, 2, 3], 1024⟩ : Chunk) ∈
      ((ChunkerStrategy.fixed16k.new defaultChunkerConfig (fun _ _ => 0) zeroDraws).split [1, 2, 3]).1 := by
    decide
  refine ⟨_, hmem, ?_⟩
  obtain ⟨wc, hwc⟩ := exists_ok_of_isOk
    (show (encodeZero ⟨0, 0, 1, .data, [1, 2, 3], 1024⟩).isOk = true by decide)
  have hspec := split_sendable_iff _ _ _ _ _ hmem _ _ _ _ _ wc hwc
  exact ⟨wc, hwc, hspec.1.mpr (hspec.2 (by decide))⟩

theorem encodeZero_isOk (chunk : Chunk) : (encodeZero chunk).isOk = true := by
  have hpad : ∀ n, ∃ bs src, RandSource.zeros.readPadding n = (some bs, src) ∧ src.reads = RandSource.zeros.reads := by
    intro n
    unfold RandSource.readPadding
    split_ifs <;> exact ⟨_, _, rfl, rfl⟩
  obtain ⟨padding, src, hread, hsrc⟩ := hpad chunk.paddingLen.toNat
  obtain ⟨reads, pos⟩ := src
  obtain rfl : reads = RandSource.zeros.reads := hsrc
  unfold encodeZero encodeChunk
  rw [if_neg (by decide), if_neg (by decide), hread]
  rfl

def boundedDefaults : BoundedChunker :=
  newBoundedChunker { defaultChunkerConfig with maxChunkSize := 0, minChunkSize := 0 } (fun _ _ => 65536) zeroDraws

theorem split_boundedDefaults {data : Bytes} (hdata : data.length = 65536) :
    (boundedDefaults.split data).1 = [⟨0, 0, 1, .data, data, 1024⟩] := by
  have hne : data ≠ [] := length_pos_iff.mp (by omega)
  have hsize : boundedDefaults.nextSize zeroDraws data.length = (65536, ⟨zeroDraws.draws, 1⟩) := by
    rw [hdata]
    rfl
  -- The fuel stays a variable, as the loop must not be unfolded to its end.
  obtain ⟨n, hn⟩ : ∃ n, data.length = n + 1 := ⟨data.length - 1, by omega⟩
  have hloop : (splitLoop boundedDefaults.cfg 0 0 boundedDefaults.nextSize (n + 1) 0 zeroDraws data).1 =
      [⟨0, 0, 0, .data, data, 1024⟩] := by
    rw [splitLoop_cons hne]
    simp only [hsize]
    rw [take_of_length_le hdata.le, drop_of_length_le hdata.le, splitLoop_nil]
    rfl
  generalize hl : splitLoop boundedDefaults.cfg 0 0 boundedDefaults.nextSize (n + 1) 0 zeroDraws data = loop at hloop
  have hsplit : (boundedDefaults.split data).1 =
      loop.1.map (fun chunk => { chunk with total := UInt32.ofNat loop.1.length }) := by
    rw [← hl, ← hn]
    rfl
  rw [hsplit, hloop]
  rfl

def kib64 : Bytes := List.replicate 65536 0

def kib64Chunk : Chunk := ⟨0, 0, 1, .data, kib64, 1024⟩

theorem kib64_length : kib64.length = 65536 := by
  rw [kib64, length_replicate]

/-- A chunk of 64 KiB with the smallest padding of the default configuration is encoded and cannot be sent. -/
theorem split_too_large :
    ∃ chunk ∈ ((Chunker.bounded boundedDefaults).split kib64).1, ∃ wc, encodeZero chunk = .ok wc ∧
      serializeWireChunk wc = .error (.ciphertextTooLarge 66611) := by
  have hbounded : ∀ data, ((Chunker.bounded boundedDefaults).split data).1 = (boundedDefaults.split data).1 :=
    fun _ => rfl
  have hsplit : (boundedDefaults.split kib64).1 = [kib64Chunk] := split_boundedDefaults kib64_length
  have hpayload : kib64Chunk.payload.length = 65536 := kib64_length
  have hpadding : kib64Chunk.paddingLen.toNat = 1024 := rfl
  have hmax : maxWireContent = 65757 := by decide
  obtain ⟨wc, hwc⟩ := exists_ok_of_isOk (encodeZero_isOk kib64Chunk)
  rw [hbounded, hsplit]
  refine ⟨kib64Chunk, mem_singleton_self _, wc, hwc, ?_⟩
  rw [serialize_too_large hwc (by omega), hpayload, hpadding]
  rfl

end MeshDesk.Proxy
