import MeshDesk.KeyExchange.Exchange
import MeshDesk.Lib.Runs

/-! The audit log: JSON lines chained by their hashes, written through a rotating file, and the verifier
that reads a file back. `encoding/json` and SHA-256 are parameters, and every file operation succeeds. -/
namespace MeshDesk.Auth
open Proxy (Bytes GoString)
open KeyExchange (hexEncode)

structure AuditEntry where
  sequence : UInt64
  prevHash : GoString
  timestamp : GoString
  sourcePeer : GoString
  sourceIP : GoString
  requestedCapability : GoString
  targetResource : GoString
  result : GoString
  reason : GoString
  deriving DecidableEq, Repr

/-- `json.Marshal` and `json.Unmarshal` at `AuditEntry`. A struct of strings and a number always marshals; a
failed decode returns its error text. -/
structure EntryJson where
  marshal : AuditEntry → Bytes
  unmarshal : Bytes → Except GoString AuditEntry

/-- What the log relies on: an entry is one object on one line, and its number and hash are read back. Strings
that are not UTF-8 are not, so only the hash, which is ASCII, is asked for. -/
structure EntryJson.Faithful (J : EntryJson) : Prop where
  object : ∀ e, ∃ body, J.marshal e = 0x7b :: (body ++ [0x7d])
  oneLine : ∀ e, 0x0a ∉ J.marshal e
  readBack : ∀ e, (∀ c ∈ e.prevHash, c < 0x80) →
    ∃ e', J.unmarshal (J.marshal e) = .ok e' ∧ e'.sequence = e.sequence ∧ e'.prevHash = e.prevHash

structure Sha256 where
  sum256 : Bytes → Bytes
  size : ∀ data, (sum256 data).length = 32

def hashEntry (H : Sha256) (data : Bytes) : GoString := hexEncode (H.sum256 data)

def splitLines (data : Bytes) : List Bytes :=
  if data = [] then [] else (if data.getLast? = some 0x0a then data.dropLast else data).splitOn 0x0a

/-- The encodings of the characters that `unicode.IsSpace` accepts. -/
def spaces : List Bytes :=
  [[0x09], [0x0a], [0x0b], [0x0c], [0x0d], [0x20], [0xc2, 0x85], [0xc2, 0xa0], [0xe1, 0x9a, 0x80],
    [0xe2, 0x80, 0x80], [0xe2, 0x80, 0x81], [0xe2, 0x80, 0x82], [0xe2, 0x80, 0x83], [0xe2, 0x80, 0x84],
    [0xe2, 0x80, 0x85], [0xe2, 0x80, 0x86], [0xe2, 0x80, 0x87], [0xe2, 0x80, 0x88], [0xe2, 0x80, 0x89],
    [0xe2, 0x80, 0x8a], [0xe2, 0x80, 0xa8], [0xe2, 0x80, 0xa9], [0xe2, 0x80, 0xaf], [0xe2, 0x81, 0x9f],
    [0xe3, 0x80, 0x80]]

def trimFront (set : List Bytes) : ℕ → Bytes → Bytes
  | 0, data => data
  | n + 1, data =>
    match set.find? (·.isPrefixOf data) with
    | none => data
    | some c => trimFront set n (data.drop c.length)

def trimSpace (data : Bytes) : Bytes :=
  let data := trimFront spaces data.length data
  (trimFront (spaces.map List.reverse) data.length data.reverse).reverse

inductive VerifyError where
  | read
  | parse (line : ℕ) (err : GoString)
  | prevHash (line : ℕ) (expected got : GoString)
  | sequence (line : ℕ) (expected got : UInt64)
  deriving DecidableEq, Repr

section
variable (J : EntryJson) (H : Sha256)

def verifyLines : ℕ → GoString → UInt64 → List Bytes → Except VerifyError Unit
  | _, _, _, [] => .ok ()
  | i, expectedPrev, expectedSeq, line :: rest =>
    if trimSpace line = [] then verifyLines (i + 1) expectedPrev expectedSeq rest
    else match J.unmarshal (trimSpace line) with
      | .error err => .error (.parse (i + 1) err)
      | .ok entry =>
        if entry.prevHash ≠ expectedPrev then .error (.prevHash (i + 1) expectedPrev entry.prevHash)
        else if entry.sequence ≠ expectedSeq then .error (.sequence (i + 1) expectedSeq entry.sequence)
        else verifyLines (i + 1) (hashEntry H (trimSpace line)) (expectedSeq + 1) rest

/-- `VerifyHashChain` on the content of the file at the path, if there is one. -/
def verifyHashChain : Option Bytes → Except VerifyError Unit
  | none => .error .read
  | some data => verifyLines J H 0 [] 1 (splitLines data)

def scanChain : Option Bytes → Option (UInt64 × GoString)
  | none => none
  | some data =>
    (splitLines data).foldl
      (fun found line =>
        if trimSpace line = [] then found
        else match J.unmarshal (trimSpace line) with
          | .error _ => found
          | .ok entry => some (entry.sequence, hashEntry H (trimSpace line)))
      none

end

/-- The log's directory: name 0 is the log file itself, name `i` its backup `.i`. -/
abbrev AuditDir := ℕ → Option Bytes

variable (J : EntryJson) (H : Sha256) (a : AuditLogger) (dir : AuditDir)

def AuditDir.remove (i : ℕ) : AuditDir := Function.update dir i none

def AuditDir.rename (i j : ℕ) : AuditDir :=
  match dir i with
  | none => dir
  | some data => Function.update (Function.update dir j (some data)) i none

def defaultAuditMaxBytes : ℤ := 100 * 1024 * 1024

def defaultAuditMaxRotates : ℕ := 5

structure AuditLogger where
  maxBytes : ℤ
  maxBackups : ℕ
  sequence : UInt64
  prevHash : GoString
  deriving DecidableEq, Repr

def shiftBackups (maxBackups : ℕ) : ℕ → AuditDir → AuditDir
  | 0, dir => dir
  | i + 1, dir =>
    shiftBackups maxBackups i
      (if dir (i + 1) = none then dir
        else if i + 1 = maxBackups then dir.remove (i + 1)
        else dir.rename (i + 1) (i + 2))

def maybeRotate : AuditDir :=
  if a.maxBytes ≤ 0 then dir
  else if (((dir 0).getD []).length : ℤ) < a.maxBytes then dir
  else Function.update ((shiftBackups a.maxBackups a.maxBackups dir).rename 0 1) 0 (some [])

def recoverChain : UInt64 × GoString :=
  match scanChain J H (dir 0) with
  | some found => found
  | none => ((List.range defaultAuditMaxRotates).findSome? (fun i => scanChain J H (dir (i + 1)))).getD (0, [])

def AuditDir.openFile : AuditDir := Function.update dir 0 (some ((dir 0).getD []))

def newAuditFileLoggerWithRotation (maxBytes maxBackups : ℤ) : AuditLogger :=
  let (sequence, prevHash) := recoverChain J H dir
  ⟨if maxBytes ≤ 0 then defaultAuditMaxBytes else maxBytes,
    if maxBackups ≤ 0 then defaultAuditMaxRotates else maxBackups.toNat, sequence, prevHash⟩

def AuditLogger.stamp (entry : AuditEntry) (now : GoString) : AuditEntry :=
  { entry with
    timestamp := if entry.timestamp = [] then now else entry.timestamp
    sequence := a.sequence + 1
    prevHash := a.prevHash }

/-- `Log` with the clock reading `now`. -/
def AuditLogger.log (entry : AuditEntry) (now : GoString) : AuditLogger × AuditDir :=
  let data := J.marshal (a.stamp entry now)
  let a' := { a with sequence := a.sequence + 1, prevHash := hashEntry H data }
  (a', maybeRotate a' (Function.update dir 0 (some ((dir 0).getD [] ++ data ++ [0x0a]))))

structure AuditState where
  dir : AuditDir
  logger : Option AuditLogger

/-- A restart closes the file and opens it again, possibly with other limits. -/
inductive AuditOp where
  | restart (maxBytes maxBackups : ℤ)
  | log (entry : AuditEntry) (now : GoString)
  deriving DecidableEq, Repr

def AuditState.init : AuditState := ⟨fun _ => none, none⟩

def AuditState.step (s : AuditState) : AuditOp → AuditState
  | .restart maxBytes maxBackups =>
    ⟨s.dir.openFile, some (newAuditFileLoggerWithRotation J H s.dir.openFile maxBytes maxBackups)⟩
  | .log entry now =>
    match s.logger with
    | none => s
    | some a => ⟨(a.log J H s.dir entry now).2, some (a.log J H s.dir entry now).1⟩

def AuditState.run (ops : List AuditOp) : AuditState :=
  ops.foldl (AuditState.step J H) .init

end MeshDesk.Auth
