import MeshDesk.Proxy.Protocol

/-! `SecureConn`: AES-256-GCM records over a connection. A record is a length, a nonce that counts the
records of its direction, and a sealed message. -/
namespace MeshDesk.Crypto
open Lib
open Proxy (Bytes Aead)

def tagSize : ℕ := 16

def maxMessageSize : ℕ := 65535 - tagSize

def nonceSize : ℕ := 12

def keySize : ℕ := 32

inductive TransportError where
  | timeout
  | closed
  | reset
  deriving DecidableEq, Repr

/-- What arrives on a connection: bytes, with errors that interrupt a read at that point. -/
inductive ConnItem where
  | byte (b : UInt8)
  | error (e : TransportError)
  deriving DecidableEq, Repr

inductive ConnReadError where
  | eof
  | unexpectedEOF
  | transport (e : TransportError)
  deriving DecidableEq, Repr

/-- `io.ReadFull`. Bytes read before an error are gone. -/
def connReadFull : ℕ → List ConnItem → Except ConnReadError Bytes × List ConnItem
  | 0, items => (.ok [], items)
  | _ + 1, [] => (.error .eof, [])
  | _ + 1, .error e :: items => (.error (.transport e), items)
  | n + 1, .byte b :: items =>
    match connReadFull n items with
    | (.ok bs, items) => (.ok (b :: bs), items)
    | (.error .eof, items) => (.error .unexpectedEOF, items)
    | (.error e, items) => (.error e, items)

theorem connReadFull_bytes {n : ℕ} {bs : Bytes} (h : bs.length = n) (rest : List ConnItem) :
    connReadFull n (bs.map .byte ++ rest) = (.ok bs, rest) := by
  induction bs generalizing n with
  | nil =>
    obtain rfl : 0 = n := h
    rfl
  | cons b bs ih =>
    obtain rfl : bs.length + 1 = n := h
    rw [List.map_cons, List.cons_append, connReadFull, ih rfl]

inductive SecureError where
  | messageTooLarge
  | authenticationFailed
  | invalidSendKey (length : ℕ)
  | invalidRecvKey (length : ℕ)
  | connClosed
  | replay (nonce expected : UInt64)
  | shortBuffer (copied : Bytes)
  | read (e : ConnReadError)
  | write (e : TransportError)
  deriving DecidableEq, Repr

def SecureError.text : SecureError → Option String
  | .messageTooLarge => some "crypto: message exceeds MaxMessageSize"
  | .authenticationFailed => some "crypto: AES-GCM authentication failed"
  | .invalidSendKey n => some s!"crypto: key must be 32 bytes (AES-256): send key is {n} bytes"
  | .invalidRecvKey n => some s!"crypto: key must be 32 bytes (AES-256): recv key is {n} bytes"
  | .connClosed => some "crypto: connection closed"
  | .replay nonce expected =>
    some s!"secure conn: replay/desync detected (nonce {nonce}, expected {expected})"
  | .shortBuffer _ => some "short buffer"
  | .read .eof => some "EOF"
  | .read .unexpectedEOF => some "unexpected EOF"
  | .read (.transport _) | .write _ => none

/-- `SetKeys` does not say which key it refuses. -/
inductive SetKeysError where
  | invalidKey
  deriving DecidableEq, Repr

def SetKeysError.text : SetKeysError → String
  | .invalidKey => "crypto: key must be 32 bytes (AES-256)"

/-- The counters are 64 bits wide and wrap. -/
structure SecureConn where
  sendKey : Bytes
  recvKey : Bytes
  sendNonce : UInt64
  recvNonce : UInt64
  closed : Bool

def newSecureConn (sendKey recvKey : Bytes) : Except SecureError SecureConn :=
  if sendKey.length ≠ keySize then .error (.invalidSendKey sendKey.length)
  else if recvKey.length ≠ keySize then .error (.invalidRecvKey recvKey.length)
  else .ok ⟨sendKey, recvKey, 0, 0, false⟩

/-- The counter in the lower 8 bytes, the upper 4 zero. -/
def nonceFromUint64 (v : UInt64) : Bytes := List.replicate 4 0 ++ toBE 8 v.toNat

/-- Only the lower 8 bytes are looked at. -/
def nonceToUint64 (nonce : Bytes) : UInt64 := UInt64.ofNat (ofBE (nonce.drop 4))

theorem nonceToUint64_nonceFromUint64 (v : UInt64) : nonceToUint64 (nonceFromUint64 v) = v := by
  have hlt : v.toNat < 256 ^ 8 := v.toNat_lt
  rw [nonceToUint64, nonceFromUint64, List.drop_left' (by rfl), ofBE_toBE_of_lt hlt, UInt64.ofNat_toNat]

structure Record where
  nonce : Bytes
  ciphertext : Bytes
  deriving DecidableEq, Repr

/-- `[length:2][nonce:12][ciphertext]`; the length is cut to 16 bits. -/
def Record.encode (r : Record) : Bytes := toBE 2 r.ciphertext.length ++ (r.nonce ++ r.ciphertext)

structure SealCall where
  key : Bytes
  nonce : Bytes
  plaintext : Bytes
  deriving DecidableEq, Repr

def SealCall.record (A : Aead) (c : SealCall) : Record := ⟨c.nonce, A.sealBytes c.key c.nonce c.plaintext []⟩

namespace SecureConn

variable (sc : SecureConn)

def close : SecureConn := { sc with closed := true }

/-- The counters go on from where they are. -/
def setKeys (sendKey recvKey : Bytes) : Except SetKeysError Unit × SecureConn :=
  if sendKey.length ≠ keySize ∨ recvKey.length ≠ keySize then (.error .invalidKey, sc)
  else (.ok (), { sc with sendKey := sendKey, recvKey := recvKey })

def sealCall (p : Bytes) : Except SecureError SealCall :=
  if maxMessageSize < p.length then .error .messageTooLarge
  else if sc.closed then .error .connClosed
  else .ok ⟨sc.sendKey, nonceFromUint64 sc.sendNonce, p⟩

/-- `Write`. The counter moves on whether or not the transport takes the record. -/
def write (sc : SecureConn) (p : Bytes) (failed : Option TransportError) : Except SecureError ℕ × SecureConn :=
  match sc.sealCall p with
  | .error e => (.error e, sc)
  | .ok _ =>
    (match failed with | some e => .error (.write e) | none => .ok p.length,
      { sc with sendNonce := sc.sendNonce + 1 })

/-- `Read` up to the check of the nonce: the length of the ciphertext and the nonce. -/
def readNonce (items : List ConnItem) : Except SecureError (ℕ × Bytes) × SecureConn × List ConnItem :=
  if sc.closed then (.error .connClosed, sc, items)
  else
    match connReadFull 2 items with
    | (.error e, items) => (.error (.read e), sc, items)
    | (.ok lenBuf, items) =>
      match connReadFull nonceSize items with
      | (.error e, items) => (.error (.read e), sc, items)
      | (.ok nonceBuf, items) =>
        if nonceToUint64 nonceBuf ≠ sc.recvNonce then
          (.error (.replay (nonceToUint64 nonceBuf) sc.recvNonce), sc, items)
        else (.ok (ofBE lenBuf, nonceBuf), { sc with recvNonce := sc.recvNonce + 1 }, items)

/-- `Read` up to the decryption. The counter has moved on by then. -/
def readRecord (items : List ConnItem) : Except SecureError Record × SecureConn × List ConnItem :=
  match sc.readNonce items with
  | (.error e, sc, items) => (.error e, sc, items)
  | (.ok (length, nonce), sc, items) =>
    match connReadFull length items with
    | (.error e, items) => (.error (.read e), sc, items)
    | (.ok ciphertext, items) => (.ok ⟨nonce, ciphertext⟩, sc, items)

def openInto (A : Aead) (key : Bytes) (size : ℕ) (r : Record) : Except SecureError Bytes :=
  match A.openBytes key r.nonce r.ciphertext [] with
  | none => .error .authenticationFailed
  | some plaintext =>
    if size < plaintext.length then .error (.shortBuffer (plaintext.take size)) else .ok plaintext

def read (A : Aead) (sc : SecureConn) (size : ℕ) (items : List ConnItem) :
    Except SecureError Bytes × SecureConn × List ConnItem :=
  match sc.readRecord items with
  | (.error e, sc, items) => (.error e, sc, items)
  | (.ok r, sc, items) => (openInto A sc.recvKey size r, sc, items)

end SecureConn

def Record.items (r : Record) : List ConnItem := r.encode.map .byte

theorem SecureConn.readRecord_items {sc : SecureConn} {r : Record} (hopen : sc.closed = false)
    (hnonce : r.nonce.length = nonceSize) (hexp : nonceToUint64 r.nonce = sc.recvNonce)
    (hlen : r.ciphertext.length < 65536) (rest : List ConnItem) :
    sc.readNonce (r.items ++ rest) = (.ok (r.ciphertext.length, r.nonce),
        { sc with recvNonce := sc.recvNonce + 1 }, r.ciphertext.map .byte ++ rest) ∧
      sc.readRecord (r.items ++ rest) = (.ok r, { sc with recvNonce := sc.recvNonce + 1 }, rest) := by
  have hitems : r.items ++ rest = (toBE 2 r.ciphertext.length).map .byte ++
      (r.nonce.map .byte ++ (r.ciphertext.map .byte ++ rest)) := by
    simp [Record.items, Record.encode]
  have hread : sc.readNonce (r.items ++ rest) = (.ok (r.ciphertext.length, r.nonce),
      { sc with recvNonce := sc.recvNonce + 1 }, r.ciphertext.map .byte ++ rest) := by
    rw [hitems, readNonce, hopen, connReadFull_bytes (toBE_length 2 _)]
    simp only [Bool.false_eq_true, if_false]
    rw [connReadFull_bytes hnonce]
    simp only [hexp, ne_eq, not_true_eq_false, if_false]
    rw [ofBE_toBE_of_lt hlen]
  refine ⟨hread, ?_⟩
  rw [readRecord, hread]
  dsimp only
  rw [connReadFull_bytes rfl]

end MeshDesk.Crypto
