import MeshDesk.Lib.Framing
import MeshDesk.Proxy.Protocol

/-! Serialization of wire chunks. The stream reader takes the length-prefixed fields one after
the other with full reads. -/
namespace MeshDesk.Proxy
open Lib

def maxWireCiphertextSize : ℕ := maxChunkPayloadSize + 256 + 16

inductive WireError where
  | headerSize (got : ℕ)
  | nonceSize (got : ℕ)
  | ciphertextEmpty
  | ciphertextTooLarge (got : ℕ)
  | readHeaderLength (e : ReadError)
  | headerLength (got : ℕ)
  | readHeader (e : ReadError)
  | readNonceLength (e : ReadError)
  | nonceLength (got : ℕ)
  | readNonce (e : ReadError)
  | readCiphertextLength (e : ReadError)
  | ciphertextLengthZero
  | readCiphertext (e : ReadError)
  deriving DecidableEq, Repr

def readErrorText : ReadError → String
  | .eof => "EOF"
  | .unexpectedEOF => "unexpected EOF"

def WireError.text : WireError → String
  | .headerSize got => s!"header must be 64 bytes, got {got}"
  | .nonceSize got => s!"nonce must be 12 bytes, got {got}"
  | .ciphertextEmpty => "ciphertext is empty"
  | .ciphertextTooLarge got => s!"ciphertext too large: {got} bytes (max 65808)"
  | .readHeaderLength e => "read header length: " ++ readErrorText e
  | .headerLength got => s!"header length = {got}, expected 64"
  | .readHeader e => "read header: " ++ readErrorText e
  | .readNonceLength e => "read nonce length: " ++ readErrorText e
  | .nonceLength got => s!"nonce length = {got}, expected 12"
  | .readNonce e => "read nonce: " ++ readErrorText e
  | .readCiphertextLength e => "read ciphertext length: " ++ readErrorText e
  | .ciphertextLengthZero => "ciphertext length is 0"
  | .readCiphertext e => "read ciphertext: " ++ readErrorText e

namespace WireChunk

def layout (wc : WireChunk) : Bytes :=
  toBE 2 forwardingHeaderSize ++ (wc.header ++ (toBE 2 nonceSize ++ (wc.nonce ++
    (toBE 4 wc.ciphertext.length ++ wc.ciphertext))))

structure Sendable (wc : WireChunk) : Prop where
  header : wc.header.length = forwardingHeaderSize
  nonce : wc.nonce.length = nonceSize
  nonempty : wc.ciphertext ≠ []
  bounded : wc.ciphertext.length ≤ maxWireCiphertextSize

end WireChunk

def serializeWireChunk (wc : WireChunk) : Except WireError Bytes :=
  if wc.header.length ≠ forwardingHeaderSize then .error (.headerSize wc.header.length)
  else if wc.nonce.length ≠ nonceSize then .error (.nonceSize wc.nonce.length)
  else if wc.ciphertext.length = 0 then .error .ciphertextEmpty
  else if maxWireCiphertextSize < wc.ciphertext.length then .error (.ciphertextTooLarge wc.ciphertext.length)
  else .ok wc.layout

variable {wc : WireChunk} {wrap : ReadError → WireError} {n : ℕ} {s : Bytes}

theorem serializeWireChunk_ok {bs : Bytes} (h : serializeWireChunk wc = .ok bs) : wc.Sendable ∧ bs = wc.layout := by
  unfold serializeWireChunk at h
  split_ifs at h with hh hn hz hb
  refine ⟨⟨not_not.mp hh, not_not.mp hn, fun hnil => hz (by rw [hnil]; rfl), Nat.not_lt.mp hb⟩, ?_⟩
  exact (Except.ok.inj h).symm

theorem WireChunk.Sendable.serialize (h : wc.Sendable) : serializeWireChunk wc = .ok wc.layout := by
  have hz : wc.ciphertext.length ≠ 0 := fun hz => h.nonempty (List.length_eq_zero_iff.mp hz)
  unfold serializeWireChunk
  rw [if_neg (not_not.mpr h.header), if_neg (not_not.mpr h.nonce), if_neg hz, if_neg (Nat.not_lt.mpr h.bounded)]

def readField (wrap : ReadError → WireError) (n : ℕ) (s : Bytes) : Except WireError (Bytes × Bytes) :=
  (readFull n s).mapError wrap

def readWireChunk (s : Bytes) : Except WireError (WireChunk × Bytes) := do
  let (hdrLen, s) ← readField .readHeaderLength 2 s
  ensure (ofBE hdrLen = forwardingHeaderSize) (.headerLength (ofBE hdrLen))
  let (header, s) ← readField .readHeader (ofBE hdrLen) s
  let (nonceLen, s) ← readField .readNonceLength 2 s
  ensure (ofBE nonceLen = nonceSize) (.nonceLength (ofBE nonceLen))
  let (nonce, s) ← readField .readNonce (ofBE nonceLen) s
  let (cipherLen, s) ← readField .readCiphertextLength 4 s
  ensure (ofBE cipherLen ≠ 0) .ciphertextLengthZero
  ensure (ofBE cipherLen ≤ maxWireCiphertextSize) (.ciphertextTooLarge (ofBE cipherLen))
  let (ciphertext, s) ← readField .readCiphertext (ofBE cipherLen) s
  return (⟨header, nonce, ciphertext⟩, s)

theorem readField_append {a : Bytes} (h : a.length = n) (rest : Bytes) :
    readField wrap n (a ++ rest) = .ok (a, rest) := by
  rw [readField, readFull_append h]
  rfl

theorem readField_ok {a rest : Bytes} (h : readField wrap n s = .ok (a, rest)) : a.length = n ∧ s = a ++ rest := by
  unfold readField at h
  cases hr : readFull n s with
  | error e => rw [hr] at h; cases h
  | ok p =>
    rw [hr] at h
    obtain rfl : p = (a, rest) := Except.ok.inj h
    exact readFull_ok hr

theorem readField_error {e : WireError} :
    readField wrap n s = .error e ↔ ∃ r, readFull n s = .error r ∧ wrap r = e := by
  unfold readField
  cases readFull n s with
  | error | ok => simp [Except.mapError]

theorem readWireChunk_layout (h : wc.Sendable) (rest : Bytes) :
    readWireChunk (wc.layout ++ rest) = .ok (wc, rest) := by
  have hz : wc.ciphertext.length ≠ 0 := fun hz => h.nonempty (List.length_eq_zero_iff.mp hz)
  have hmax : maxWireCiphertextSize < 256 ^ 4 := by decide
  have hbound : wc.ciphertext.length < 256 ^ 4 := lt_of_le_of_lt h.bounded hmax
  have hH : ofBE (toBE 2 forwardingHeaderSize) = forwardingHeaderSize := by decide
  have hN : ofBE (toBE 2 nonceSize) = nonceSize := by decide
  unfold readWireChunk
  simp only [WireChunk.layout, List.append_assoc, readField_append (toBE_length _ _), hH, hN,
    readField_append h.header, readField_append h.nonce, ofBE_toBE_of_lt hbound, readField_append rfl,
    ensure_of hz, ensure_of h.bounded, ensure_of trivial, bind, Except.bind, pure, Except.pure]

theorem readWireChunk_sound {rest : Bytes} (h : readWireChunk s = .ok (wc, rest)) :
    wc.Sendable ∧ s = wc.layout ++ rest := by
  unfold readWireChunk at h
  simp only [bind, bind_eq_ok, ensure_eq_ok, Prod.exists, exists_const] at h
  obtain ⟨hdrLen, s₁, h₁, hH, header, s₂, h₂, nonceLen, s₃, h₃, hN, nonce, s₄, h₄, cipherLen, s₅, h₅, hz, hb,
    ciphertext, s₆, h₆, hret⟩ := h
  obtain ⟨rfl, rfl⟩ : ⟨header, nonce, ciphertext⟩ = wc ∧ s₆ = rest := Prod.mk.inj (Except.ok.inj hret)
  obtain ⟨hl₁, rfl⟩ := readField_ok h₁
  obtain ⟨hl₂, rfl⟩ := readField_ok h₂
  obtain ⟨hl₃, rfl⟩ := readField_ok h₃
  obtain ⟨hl₄, rfl⟩ := readField_ok h₄
  obtain ⟨hl₅, rfl⟩ := readField_ok h₅
  obtain ⟨hl₆, rfl⟩ := readField_ok h₆
  have hne : ciphertext ≠ [] := by
    intro hnil
    rw [hnil] at hl₆
    exact hz hl₆.symm
  refine ⟨⟨hl₂.trans hH, hl₄.trans hN, hne, hl₆ ▸ hb⟩, ?_⟩
  simp only [WireChunk.layout, List.append_assoc, ← toBE_of_ofBE hl₁ hH, ← toBE_of_ofBE hl₃ hN,
    ← toBE_of_ofBE hl₅ hl₆.symm]

theorem WireChunk.layout_ne_nil (wc : WireChunk) : wc.layout ≠ [] := by
  intro h
  have := congrArg List.length h
  simp [WireChunk.layout] at this

def wireCodec : FrameCodec UInt8 WireChunk WireError where
  parse := readWireChunk
  print := WireChunk.layout
  valid := WireChunk.Sendable
  parse_print _ rest h := readWireChunk_layout h rest
  parse_sound _ _ _ h := readWireChunk_sound h
  print_ne_nil wc _ := wc.layout_ne_nil

theorem readWireChunk_nil : readWireChunk [] = .error (.readHeaderLength .eof) := rfl

theorem readWireChunk_eof (h : readWireChunk s = .error (.readHeaderLength .eof)) : s = [] := by
  unfold readWireChunk at h
  simp only [bind, bind_eq_error, ensure_eq_error, readField_error, WireError.readHeaderLength.injEq, exists_eq_right,
    reduceCtorEq, and_false, exists_false, pure, Except.pure, or_false] at h
  exact readFull_eof h

end MeshDesk.Proxy
