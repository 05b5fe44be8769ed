import MeshDesk.Lib.Connections
import MeshDesk.Proxy.Wire
import Mathlib.Tactic.IntervalCases

/-! The two parsers of wire chunks. `ReadWireChunk` takes the fields off a connection, whose bytes may
come in any pieces; `DeserializeWireChunk` takes them out of a byte slice by offset. -/
namespace MeshDesk.Proxy
open Lib WireChunk
open List

inductive WireField where
  | headerLength
  | header
  | nonceLength
  | nonce
  | ciphertextLength
  | ciphertext
  deriving DecidableEq, Repr

namespace WireField

def label : WireField → String
  | .headerLength => "read header length: "
  | .header => "read header: "
  | .nonceLength => "read nonce length: "
  | .nonce => "read nonce: "
  | .ciphertextLength => "read ciphertext length: "
  | .ciphertext => "read ciphertext: "

def wrap : WireField → ReadError → WireError
  | .headerLength => .readHeaderLength
  | .header => .readHeader
  | .nonceLength => .readNonceLength
  | .nonce => .readNonce
  | .ciphertextLength => .readCiphertextLength
  | .ciphertext => .readCiphertext

end WireField

abbrev StreamReadError := IncomingError WireError WireField

def StreamReadError.text : StreamReadError → String
  | .failed e => e.text
  | .timeout f => f.label ++ "i/o timeout"

namespace WireError

def short : WireError → Bool
  | .readHeaderLength _ | .readHeader _ | .readNonceLength _ | .readNonce _ | .readCiphertextLength _
  | .readCiphertext _ => true
  | _ => false

def wrapsEOF : WireError → Bool
  | .readHeaderLength .eof | .readHeader .eof | .readNonceLength .eof | .readNonce .eof
  | .readCiphertextLength .eof | .readCiphertext .eof => true
  | _ => false

theorem short_wrap (f : WireField) (r : ReadError) : (f.wrap r).short = true := by
  cases f <;> rfl

end WireError

def readWireField (f : WireField) (n : ℕ) : ConnParser WireError WireField UInt8 Bytes :=
  .readN f.wrap f n

def readWireChunkFrom : ConnParser WireError WireField UInt8 WireChunk := do
  let hdrLen ← readWireField .headerLength 2
  ConnParser.ensure (ofBE hdrLen = forwardingHeaderSize) (.headerLength (ofBE hdrLen))
  let header ← readWireField .header (ofBE hdrLen)
  let nonceLen ← readWireField .nonceLength 2
  ConnParser.ensure (ofBE nonceLen = nonceSize) (.nonceLength (ofBE nonceLen))
  let nonce ← readWireField .nonce (ofBE nonceLen)
  let cipherLen ← readWireField .ciphertextLength 4
  ConnParser.ensure (ofBE cipherLen ≠ 0) .ciphertextLengthZero
  ConnParser.ensure (ofBE cipherLen ≤ maxWireCiphertextSize) (.ciphertextTooLarge (ofBE cipherLen))
  let ciphertext ← readWireField .ciphertext (ofBE cipherLen)
  return ⟨header, nonce, ciphertext⟩

theorem readWireField_agrees (f : WireField) (n : ℕ) :
    ConnParser.Agrees WireError.short (readField f.wrap n) (readWireField f n) :=
  .readN f n (WireError.short_wrap f)

theorem readWireChunkFrom_agrees : ConnParser.Agrees WireError.short readWireChunk readWireChunkFrom := by
  refine (readWireField_agrees .headerLength 2).bind fun hdrLen => ?_
  refine ConnParser.Agrees.guard rfl ?_
  refine (readWireField_agrees .header _).bind fun header => ?_
  refine (readWireField_agrees .nonceLength 2).bind fun nonceLen => ?_
  refine ConnParser.Agrees.guard rfl ?_
  refine (readWireField_agrees .nonce _).bind fun nonce => ?_
  refine (readWireField_agrees .ciphertextLength 4).bind fun cipherLen => ?_
  refine ConnParser.Agrees.guard rfl ?_
  refine ConnParser.Agrees.guard rfl ?_
  refine (readWireField_agrees .ciphertext _).bind fun ciphertext => ?_
  exact .pure _

def readChunks : ℕ → Conn UInt8 → List WireChunk × Option StreamReadError
  | 0, _ => ([], none)
  | fuel + 1, c =>
    match readWireChunkFrom c with
    | (.error e, _) => ([], some e)
    | (.ok wc, c') => (wc :: (readChunks fuel c').1, (readChunks fuel c').2)

theorem readChunks_eq_parseAll (fuel : ℕ) {c : Conn UInt8} (hc : Conn.later c = none) :
    readChunks fuel c =
      ((wireCodec.parseAll fuel (Conn.bytes c)).1, (wireCodec.parseAll fuel (Conn.bytes c)).2.map .failed) := by
  have hloop : ∀ c, readChunks fuel c = readWireChunkFrom.untilError fuel c := by
    induction fuel with
    | zero => exact fun c => rfl
    | succ fuel ih =>
      intro c
      rw [readChunks, ConnParser.untilError]
      cases readWireChunkFrom c with
      | mk res c' =>
        cases res with
        | error e => rfl
        | ok wc =>
          dsimp only
          rw [ih]
  rw [hloop]
  exact ConnParser.Agrees.untilError readWireChunkFrom_agrees fuel hc

def WireChunk.fields (wc : WireChunk) : List Bytes :=
  [toBE 2 forwardingHeaderSize, wc.header, toBE 2 nonceSize, wc.nonce, toBE 4 wc.ciphertext.length, wc.ciphertext]

/-- The input ends behind some of the fields of a chunk, with none of them cut through. -/
def CutBetweenFields (s : Bytes) : Prop :=
  ∃ wc : WireChunk, wc.Sendable ∧ ∃ n, 0 < n ∧ n < 6 ∧ s = (wc.fields.take n).flatten

/-- A full read reports `io.EOF` whenever nothing at all is left, also in the middle of a chunk. -/
theorem CutBetweenFields.wrapsEOF {s : Bytes} (h : CutBetweenFields s) :
    ∃ e, readWireChunk s = .error e ∧ e.wrapsEOF = true := by
  obtain ⟨wc, hs, n, hpos, hlt, rfl⟩ := h
  have hz : wc.ciphertext.length ≠ 0 := fun hz => hs.nonempty (length_eq_zero_iff.mp hz)
  have hbound : wc.ciphertext.length < 256 ^ 4 := lt_of_le_of_lt hs.bounded (by decide)
  have hH : ofBE (toBE 2 forwardingHeaderSize) = forwardingHeaderSize := by decide
  have hN : ofBE (toBE 2 nonceSize) = nonceSize := by decide
  have hnil : ∀ (wrap : ReadError → WireError) {n : ℕ}, n ≠ 0 → readField wrap n [] = .error (wrap .eof) := by
    intro wrap n hn
    obtain ⟨m, rfl⟩ := Nat.exists_eq_succ_of_ne_zero hn
    rfl
  have hh : forwardingHeaderSize ≠ 0 := by decide
  have hn : nonceSize ≠ 0 := by decide
  unfold readWireChunk
  interval_cases n
  on_goal 1 => refine ⟨.readHeader .eof, ?_, rfl⟩
  on_goal 2 => refine ⟨.readNonceLength .eof, ?_, rfl⟩
  on_goal 3 => refine ⟨.readNonce .eof, ?_, rfl⟩
  on_goal 4 => refine ⟨.readCiphertextLength .eof, ?_, rfl⟩
  on_goal 5 => refine ⟨.readCiphertext .eof, ?_, rfl⟩
  all_goals simp only [fields, take_succ_cons, take_zero, flatten_cons, flatten_nil,
    readField_append (toBE_length _ _), hH, hN, readField_append hs.header, readField_append hs.nonce,
    ofBE_toBE_of_lt hbound, ensure_of hz, ensure_of hs.bounded, ensure_of trivial, bind, Except.bind, hnil _ hh,
    hnil _ two_ne_zero, hnil _ hn, hnil _ four_ne_zero, hnil _ hz]

theorem nil_or_cut_of_wrapsEOF {s : Bytes} {e : WireError} (h : readWireChunk s = .error e) (he : e.wrapsEOF = true) :
    s = [] ∨ CutBetweenFields s := by
  have heof : ∀ {f : WireField} {n : ℕ} {s : Bytes}, readField f.wrap n s = .error e → s = [] := by
    intro f n s h
    obtain ⟨r, hr, rfl⟩ := readField_error.mp h
    cases r with
    | eof => exact readFull_eof hr
    | unexpectedEOF => cases f <;> cases he
  unfold readWireChunk at h
  simp only [bind, bind_eq_error, ensure_eq_error, ensure_eq_ok, Prod.exists, exists_const] at h
  -- In every case the fields that are there are completed to a chunk by zeros.
  have hz : ∀ n, (replicate n 0 : Bytes).length = n := fun n => length_replicate
  have hone : ([0] : Bytes).length ≤ maxWireCiphertextSize := by decide
  rcases h with h | ⟨hdrLen, s₁, h₁, ⟨-, rfl⟩ | ⟨hH, h⟩⟩
  · exact .inl (heof (f := .headerLength) h)
  · cases he
  obtain ⟨hl₁, rfl⟩ := readField_ok h₁
  right
  rcases h with h | ⟨header, s₂, h₂, h⟩
  · obtain rfl := heof (f := .header) h
    refine ⟨⟨.replicate 64 0, .replicate 12 0, [0]⟩, ⟨hz 64, hz 12, by simp, hone⟩, 1, by decide, by decide, ?_⟩
    simp [fields, ← toBE_of_ofBE hl₁ hH]
  obtain ⟨hl₂, rfl⟩ := readField_ok h₂
  rcases h with h | ⟨nonceLen, s₃, h₃, ⟨-, rfl⟩ | ⟨hN, h⟩⟩
  · obtain rfl := heof (f := .nonceLength) h
    refine ⟨⟨header, .replicate 12 0, [0]⟩, ⟨hl₂.trans hH, hz 12, by simp, hone⟩, 2, by decide, by decide, ?_⟩
    simp [fields, ← toBE_of_ofBE hl₁ hH]
  · cases he
  obtain ⟨hl₃, rfl⟩ := readField_ok h₃
  rcases h with h | ⟨nonce, s₄, h₄, h⟩
  · obtain rfl := heof (f := .nonce) h
    refine ⟨⟨header, .replicate 12 0, [0]⟩, ⟨hl₂.trans hH, hz 12, by simp, hone⟩, 3, by decide, by decide, ?_⟩
    simp [fields, ← toBE_of_ofBE hl₁ hH, ← toBE_of_ofBE hl₃ hN]
  obtain ⟨hl₄, rfl⟩ := readField_ok h₄
  rcases h with h | ⟨cipherLen, s₅, h₅, ⟨-, rfl⟩ | ⟨hne, ⟨-, rfl⟩ | ⟨hb, h⟩⟩⟩
  · obtain rfl := heof (f := .ciphertextLength) h
    refine ⟨⟨header, nonce, [0]⟩, ⟨hl₂.trans hH, hl₄.trans hN, by simp, hone⟩, 4, by decide, by decide, ?_⟩
    simp [fields, ← toBE_of_ofBE hl₁ hH, ← toBE_of_ofBE hl₃ hN]
  · cases he
  · cases he
  obtain ⟨hl₅, rfl⟩ := readField_ok h₅
  rcases h with h | ⟨_, _, _, h⟩
  · obtain rfl := heof (f := .ciphertext) h
    refine ⟨⟨header, nonce, .replicate (ofBE cipherLen) 0⟩, ⟨hl₂.trans hH, hl₄.trans hN, by simpa using hne, ?_⟩, 5,
      by decide, by decide, ?_⟩
    · rw [hz]
      exact hb
    · simp [fields, ← toBE_of_ofBE hl₁ hH, ← toBE_of_ofBE hl₃ hN, ← toBE_of_ofBE hl₅ rfl]
  · cases h

def WholeChunks (bs : Bytes) : Prop :=
  ∃ cs : List WireChunk, (∀ wc ∈ cs, wc.Sendable) ∧ bs = cs.flatMap WireChunk.layout

theorem WholeChunks.read {bs : Bytes} (h : WholeChunks bs) :
    bs = [] ∨ ∃ wc rest, readWireChunk bs = .ok (wc, rest) ∧ WholeChunks rest := by
  obtain ⟨cs, hs, rfl⟩ := h
  cases cs with
  | nil => exact .inl rfl
  | cons wc cs =>
    obtain ⟨hwc, hcs⟩ := forall_mem_cons.mp hs
    exact .inr ⟨wc, _, readWireChunk_layout hwc _, cs, hcs, rfl⟩

inductive SliceError where
  | tooShort (got : ℕ)
  | headerLength (got : ℕ)
  | headerOverflows
  | nonceLength (got : ℕ)
  | nonceOverflows
  | ciphertextLengthZero
  | ciphertextTooLarge (got : ℕ)
  | ciphertextOverflows (need available : ℕ)
  deriving DecidableEq, Repr

def SliceError.text : SliceError → String
  | .tooShort got => s!"data too short: {got} bytes (min 84)"
  | .headerLength got => s!"header length = {got}, expected 64"
  | .headerOverflows => "header overflows data"
  | .nonceLength got => s!"nonce length = {got}, expected 12"
  | .nonceOverflows => "nonce overflows data"
  | .ciphertextLengthZero => "ciphertext length is 0"
  | .ciphertextTooLarge got => s!"ciphertext too large: {got} bytes (max 65808)"
  | .ciphertextOverflows need available =>
    s!"ciphertext overflows data: need {need} more bytes, have {available}"

def minWireSize : ℕ := 2 + forwardingHeaderSize + 2 + nonceSize + 4

/-- Returns the chunk and the number of bytes it takes up. -/
def deserializeWireChunk (data : Bytes) : Except SliceError (WireChunk × ℕ) := do
  ensure (minWireSize ≤ data.length) (.tooShort data.length)
  let offset := 0
  let hdrLen := ofBE (sliceAt data offset 2)
  let offset := offset + 2
  ensure (hdrLen = forwardingHeaderSize) (.headerLength hdrLen)
  ensure (offset + hdrLen ≤ data.length) .headerOverflows
  let header := sliceAt data offset hdrLen
  let offset := offset + hdrLen
  let nonceLen := ofBE (sliceAt data offset 2)
  let offset := offset + 2
  ensure (nonceLen = nonceSize) (.nonceLength nonceLen)
  ensure (offset + nonceLen ≤ data.length) .nonceOverflows
  let nonce := sliceAt data offset nonceLen
  let offset := offset + nonceLen
  let cipherLen := ofBE (sliceAt data offset 4)
  let offset := offset + 4
  ensure (cipherLen ≠ 0) .ciphertextLengthZero
  ensure (cipherLen ≤ maxWireCiphertextSize) (.ciphertextTooLarge cipherLen)
  ensure (offset + cipherLen ≤ data.length) (.ciphertextOverflows cipherLen (data.length - offset))
  let ciphertext := sliceAt data offset cipherLen
  return (⟨header, nonce, ciphertext⟩, offset + cipherLen)

theorem readField_of_le {wrap : ReadError → WireError} {n : ℕ} {s : Bytes} (h : n ≤ s.length) :
    readField wrap n s = .ok (s.take n, s.drop n) := by
  unfold readField readFull
  rw [if_pos h]
  rfl

theorem readWireChunk_of_deserialize {data : Bytes} {wc : WireChunk} {k : ℕ}
    (h : deserializeWireChunk data = .ok (wc, k)) : k ≤ data.length ∧ readWireChunk data = .ok (wc, data.drop k) := by
  unfold deserializeWireChunk at h
  simp only [bind, bind_eq_ok, ensure_eq_ok, exists_const] at h
  obtain ⟨hmin, hH, -, hN, -, hz, hb, hfit, hret⟩ := h
  rw [hH] at hN hz hb hfit hret
  rw [hN] at hz hb hfit hret
  obtain ⟨rfl, rfl⟩ := Prod.mk.inj (Except.ok.inj hret)
  simp only [sliceAt, minWireSize, forwardingHeaderSize, nonceSize, drop_zero, Nat.zero_add,
    Nat.reduceAdd] at hmin hH hN hz hb hfit ⊢
  refine ⟨hfit, ?_⟩
  have h₁ : 2 ≤ data.length := by omega
  have h₂ : 64 ≤ (data.drop 2).length := by rw [length_drop]; omega
  have h₃ : 2 ≤ (data.drop 66).length := by rw [length_drop]; omega
  have h₄ : 12 ≤ (data.drop 68).length := by rw [length_drop]; omega
  have h₅ : 4 ≤ (data.drop 80).length := by rw [length_drop]; omega
  have h₆ : ofBE ((data.drop 80).take 4) ≤ (data.drop 84).length := by rw [length_drop]; omega
  unfold readWireChunk
  simp only [readField_of_le h₁, hH, forwardingHeaderSize, readField_of_le h₂, drop_drop, Nat.reduceAdd,
    readField_of_le h₃, hN, nonceSize, readField_of_le h₄, readField_of_le h₅, readField_of_le h₆, ensure_of hz,
    ensure_of hb, ensure_of trivial, bind, Except.bind, pure, Except.pure]

theorem readField_eq_ok {wrap : ReadError → WireError} {n : ℕ} {s a rest : Bytes} :
    readField wrap n s = .ok (a, rest) ↔ n ≤ s.length ∧ a = s.take n ∧ rest = s.drop n := by
  constructor
  · intro h
    obtain ⟨hlen, rfl⟩ := readField_ok h
    exact ⟨by simp [← hlen], (take_left' hlen).symm, (drop_left' hlen).symm⟩
  · rintro ⟨hle, rfl, rfl⟩
    exact readField_of_le hle

theorem deserialize_of_readWireChunk {data rest : Bytes} {wc : WireChunk} (h : readWireChunk data = .ok (wc, rest)) :
    ∃ k, rest = data.drop k ∧ deserializeWireChunk data = .ok (wc, k) := by
  unfold readWireChunk at h
  simp only [bind, bind_eq_ok, ensure_eq_ok, readField_eq_ok, Prod.exists, exists_const] at h
  obtain ⟨_, _, ⟨h₁, rfl, rfl⟩, hH, _, _, ⟨h₂, rfl, rfl⟩, _, _, ⟨h₃, rfl, rfl⟩, hN, _, _, ⟨h₄, rfl, rfl⟩,
    _, _, ⟨h₅, rfl, rfl⟩, hz, hb, _, _, ⟨h₆, rfl, rfl⟩, hret⟩ := h
  rw [hH] at h₂ h₃ hN h₄ h₅ hz hb h₆ hret
  rw [hN] at h₄ h₅ hz hb h₆ hret
  obtain ⟨rfl, rfl⟩ := Prod.mk.inj (Except.ok.inj hret)
  simp only [forwardingHeaderSize, nonceSize, drop_drop, length_drop, Nat.reduceAdd]
    at hH h₂ h₃ hN h₄ h₅ hz hb h₆ ⊢
  have hmin : minWireSize ≤ data.length := by
    simp only [minWireSize, forwardingHeaderSize, nonceSize]
    omega
  have hfit : 84 + ofBE ((data.drop 80).take 4) ≤ data.length := by omega
  have h66 : 66 ≤ data.length := by omega
  have h80 : 80 ≤ data.length := by omega
  refine ⟨_, rfl, ?_⟩
  unfold deserializeWireChunk
  simp only [ensure_of hmin, sliceAt, drop_zero, Nat.zero_add, hH, forwardingHeaderSize, nonceSize, Nat.reduceAdd,
    hN, ensure_of hz, ensure_of hb, ensure_of hfit, ensure_of h66, ensure_of h80, ensure_of trivial, bind, Except.bind,
    pure, Except.pure]

/-- The slice parser as a frame format: what follows the bytes it takes is left for the next call. -/
def sliceCodec : FrameCodec UInt8 WireChunk SliceError where
  parse data := (deserializeWireChunk data).map (fun r => (r.1, data.drop r.2))
  print := WireChunk.layout
  valid := WireChunk.Sendable
  parse_print wc rest h := by
    obtain ⟨k, hk, hd⟩ := deserialize_of_readWireChunk (readWireChunk_layout h rest)
    rw [hd]
    exact congrArg (fun rest => Except.ok (wc, rest)) hk.symm
  parse_sound data wc rest h := by
    cases hd : deserializeWireChunk data with
    | error e => rw [hd] at h; cases h
    | ok r =>
      rw [hd] at h
      obtain ⟨rfl, rfl⟩ := Prod.mk.inj (Except.ok.inj h)
      exact readWireChunk_sound (readWireChunk_of_deserialize hd).2
  print_ne_nil wc _ := wc.layout_ne_nil

theorem flatten_eq_layouts {cs : List WireChunk} {frames : List Bytes}
    (h : Forall₂ (fun wc bs => serializeWireChunk wc = .ok bs) cs frames) :
    (∀ wc ∈ cs, wc.Sendable) ∧ frames = cs.map layout := by
  induction h with
  | nil => exact ⟨by simp, rfl⟩
  | cons hs _ ih =>
    obtain ⟨hsend, rfl⟩ := serializeWireChunk_ok hs
    exact ⟨forall_mem_cons.mpr ⟨hsend, ih.1⟩, congrArg _ ih.2⟩

/-- On every input the two parsers take the same chunk off the front, however the connection delivers
it; applied repeatedly to serialized chunks both return these. -/
theorem deserialize_iff_read :
    (∀ (b : Bytes) (conn : Conn UInt8), conn.bytes = b → conn.later = none → ∀ (wc : WireChunk) (k : ℕ),
      deserializeWireChunk b = .ok (wc, k) ↔
        k ≤ b.length ∧ ∃ conn', readWireChunkFrom conn = (.ok wc, conn') ∧ Conn.bytes conn' = b.drop k) ∧
    ∀ (cs : List WireChunk) (frames : List Bytes),
      List.Forall₂ (fun wc bs => serializeWireChunk wc = .ok bs) cs frames →
      ∀ (conn : Conn UInt8), conn.bytes = frames.flatten → conn.later = none →
      ∀ fuel, frames.flatten.length < fuel →
        sliceCodec.parseAll fuel frames.flatten = (cs, some (.tooShort 0)) ∧
          readChunks fuel conn = (cs, some (.failed (.readHeaderLength .eof))) := by
  refine ⟨?_, ?_⟩
  · rintro b conn rfl hq wc k
    rw [Conn.bytes_of_later_none hq]
    constructor
    · intro h
      obtain ⟨hk, hr⟩ := readWireChunk_of_deserialize h
      obtain ⟨conn', hf, hlead, hlater⟩ := readWireChunkFrom_agrees.ok hr
      exact ⟨hk, conn', hf, by rw [Conn.bytes_of_later_none (hlater.trans hq), hlead]⟩
    · rintro ⟨hk, conn', hf, hrest⟩
      cases hr : readWireChunk (Conn.lead conn) with
      | error e =>
        have hfail := readWireChunkFrom_agrees.failed hr (fun _ => hq)
        rw [hf] at hfail
        cases hfail
      | ok r =>
        obtain ⟨wc', rest⟩ := r
        obtain ⟨conn'', hf', hlead, hlater⟩ := readWireChunkFrom_agrees.ok hr
        obtain ⟨hwc, rfl⟩ := Prod.mk.inj (hf.symm.trans hf')
        obtain rfl := Except.ok.inj hwc
        rw [Conn.bytes_of_later_none (hlater.trans hq), hlead] at hrest
        obtain ⟨j, hj, hd⟩ := deserialize_of_readWireChunk hr
        obtain ⟨hjle, -⟩ := readWireChunk_of_deserialize hd
        -- Both counts leave the same rest, so they are equal.
        have hlen := congrArg length (hj.symm.trans hrest)
        rw [length_drop, length_drop] at hlen
        obtain rfl : j = k := by omega
        exact hd
  · intro cs frames hs conn hconn hq fuel hfuel
    obtain ⟨hsend, rfl⟩ := flatten_eq_layouts hs
    have hflat : (cs.map layout).flatten = cs.flatMap layout ++ [] := by
      rw [append_nil, flatMap_def]
    rw [hflat] at hconn hfuel ⊢
    refine ⟨sliceCodec.parseAll_print cs [] _ fuel hsend rfl hfuel, ?_⟩
    rw [readChunks_eq_parseAll fuel hq, hconn]
    have hread := wireCodec.parseAll_print cs [] _ fuel hsend readWireChunk_nil hfuel
    change wireCodec.parseAll fuel (cs.flatMap layout ++ []) = _ at hread
    rw [hread]
    rfl

def oneByteChunk : WireChunk := ⟨List.replicate 64 0, List.replicate 12 0, [7]⟩

theorem deserialize_iff_read_pieces :
    deserializeWireChunk oneByteChunk.layout = .ok (oneByteChunk, 85) ∧
      readChunks 86 [.data (oneByteChunk.layout.take 3), .data (oneByteChunk.layout.drop 3)] =
        ([oneByteChunk], some (.failed (.readHeaderLength .eof))) := by
  have hser : serializeWireChunk oneByteChunk = .ok oneByteChunk.layout := by decide
  refine ⟨?_, ?_⟩
  · refine (deserialize_iff_read.1 _ [.data oneByteChunk.layout] (by decide) rfl _ _).mpr ⟨by decide, [], ?_, ?_⟩
    · rfl
    · decide
  · refine (deserialize_iff_read.2 [oneByteChunk] [oneByteChunk.layout] (.cons hser .nil) _ ?_ rfl 86 ?_).2
    · decide
    · decide

end MeshDesk.Proxy
