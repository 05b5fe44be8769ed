import MeshDesk.Auth.Audit
import MeshDesk.Auth.Engine
import MeshDesk.Lib.FileTree

/-! The receiving side of the file transfer protocol: a framed JSON header, the file's bytes, and one reply. -/
namespace MeshDesk.Transfer
open Proxy (Bytes GoString Time)
open Lib (FileTree Place Errno)
open Lib.Paths (components)

structure FileHeader where
  version : ℤ
  filename : GoString
  size : ℤ
  mode : ℕ
  fileType : GoString
  modTime : GoString
  checksum : GoString
  srcPeerID : GoString
  deriving DecidableEq, Repr

def protocolVersion : ℤ := 1

def defaultMaxFileSize : ℤ := 2 ^ 30

def fileTypeDirectory : GoString := [0x64, 0x69, 0x72, 0x65, 0x63, 0x74, 0x6f, 0x72, 0x79]

def fileTypeRegular : GoString := [0x72, 0x65, 0x67, 0x75, 0x6c, 0x61, 0x72]

inductive HeaderError where
  | readLength (e : Lib.ReadError)
  | tooLarge (length : ℕ)
  | readJson (e : Lib.ReadError)
  | unmarshal (err : GoString)
  deriving DecidableEq, Repr

inductive Refusal where
  | header (e : HeaderError)
  | unauthorized
  | version (v : ℤ)
  | size (size max : ℤ)
  | filename
  | mkdir (e : Errno)
  | create (e : Errno)
  | read (copied : ℕ)
  | short (got : ℕ) (expected : ℤ)
  | checksum (computed expected : GoString)
  deriving DecidableEq, Repr

inductive Reply where
  | directoryCreated
  | stored (bytes : ℕ)
  | refused (why : Refusal)
  deriving DecidableEq, Repr

def Reply.ok : Reply → Bool
  | .refused _ => false
  | _ => true

/-- What a connection delivers, and whether it then fails or ends. -/
structure Input where
  data : Bytes
  broken : Bool
  deriving DecidableEq, Repr

/-- `json.Unmarshal` at `FileHeader`, SHA-256, `time.Parse`, the working directory and the clock. -/
structure Host where
  unmarshal : Bytes → Except GoString FileHeader
  sha256 : Auth.Sha256
  parseTime : GoString → Option Time
  cwd : Place
  now : Time

def readFrame (data : Bytes) : Except HeaderError (Bytes × Bytes) :=
  match Lib.readFull 4 data with
  | .error e => .error (.readLength e)
  | .ok (pre, rest) =>
    if 2 ^ 20 < Lib.ofBE pre then .error (.tooLarge (Lib.ofBE pre))
    else match Lib.readFull (Lib.ofBE pre) rest with
      | .error e => .error (.readJson e)
      | .ok (json, rest) => .ok (json, rest)

variable (h : Host) (t : FileTree) (destPath : GoString)

def readHeader (input : Input) : Except HeaderError (FileHeader × Input) :=
  match readFrame input.data with
  | .error e => .error e
  | .ok (json, rest) =>
    match h.unmarshal json with
    | .error err => .error (.unmarshal err)
    | .ok header => .ok (header, ⟨rest, input.broken⟩)

/-- The header with the bytes it was read from, to be read once more. -/
def peekFileHeader (input : Input) : Except HeaderError (FileHeader × Bytes × Input) :=
  match readFrame input.data with
  | .error e => .error e
  | .ok (json, rest) =>
    match h.unmarshal json with
    | .error err => .error (.unmarshal err)
    | .ok header => .ok (header, Lib.toBE 4 json.length ++ json, ⟨rest, input.broken⟩)

def sanitizeFilename (name : GoString) : GoString :=
  if name = [] then []
  else if Lib.Paths.base name = Lib.Paths.here ∨ Lib.Paths.base name = Lib.Paths.parent then []
  else Lib.Paths.base name

structure Outcome where
  tree : FileTree
  reply : Reply

/-- `os.Remove`, whose failure nobody looks at. -/
def discard : FileTree :=
  match t.remove (FileTree.origin h.cwd destPath) (components destPath) with
  | .ok (t', _) => t'
  | .error _ => t

/-- Copy the announced number of bytes into the file, then check what was announced about them. -/
def receiveFile (header : FileHeader) (rest : Input) : Outcome :=
  let data := rest.data.take header.size.toNat
  match t.create (FileTree.origin h.cwd destPath) (components destPath) header.mode h.now data with
  | .error e => ⟨t, .refused (.create e)⟩
  | .ok (t', _) =>
    if (data.length : ℤ) < header.size ∧ rest.broken then ⟨discard h t' destPath, .refused (.read data.length)⟩
    else if (data.length : ℤ) ≠ header.size then
      ⟨discard h t' destPath, .refused (.short data.length header.size)⟩
    else
      let t'' := match if header.modTime = [] then none else h.parseTime header.modTime with
        | some modTime => t'.setMtime (FileTree.origin h.cwd destPath) (components destPath) modTime
        | none => t'
      if header.checksum ≠ [] ∧ Auth.hashEntry h.sha256 data ≠ header.checksum then
        ⟨discard h t'' destPath, .refused (.checksum (Auth.hashEntry h.sha256 data) header.checksum)⟩
      else ⟨t'', .stored data.length⟩

def receiveDirectory (header : FileHeader) : Outcome :=
  let made := t.mkdirAllPath h.cwd destPath header.mode h.now
  match made.err with
  | some e => ⟨made.tree, .refused (.mkdir e)⟩
  | none => ⟨made.tree, .directoryCreated⟩

def receiveWithMaxSize (destDir : GoString) (maxFileSize : ℤ) (input : Input) : Outcome :=
  match readHeader h input with
  | .error e => ⟨t, .refused (.header e)⟩
  | .ok (header, rest) =>
    if header.version ≠ protocolVersion then ⟨t, .refused (.version header.version)⟩
    else if 0 < maxFileSize ∧ maxFileSize < header.size then ⟨t, .refused (.size header.size maxFileSize)⟩
    else if sanitizeFilename header.filename = [] then ⟨t, .refused .filename⟩
    else
      let made := t.mkdirAllPath h.cwd destDir 0o755 h.now
      match made.err with
      | some e => ⟨made.tree, .refused (.mkdir e)⟩
      | none =>
        let destPath := Lib.Paths.join destDir (sanitizeFilename header.filename)
        if header.fileType = fileTypeDirectory then receiveDirectory h made.tree destPath header
        else receiveFile h made.tree destPath header rest

/-- Without a checker every transfer is accepted. -/
structure Receiver where
  destDir : GoString
  maxFileSize : ℤ
  authChecker : Option Auth.TransferAuthChecker

def newReceiverWithAuth (destDir : GoString) (maxFileSize : ℤ) (authChecker : Option Auth.TransferAuthChecker) :
    Receiver :=
  ⟨destDir, if maxFileSize = 0 then defaultMaxFileSize else maxFileSize, authChecker⟩

/-- A connection with the identity of the peer that opened it, as the virtual port hands it out. -/
structure ConnWithPeer where
  conn : Input
  peerID : GoString
  deriving DecidableEq, Repr

/-- The peer is taken from the header; the connection's own identity is not looked at. -/
def handleConn (r : Receiver) (t : FileTree) (c : ConnWithPeer) : Outcome :=
  match r.authChecker with
  | none => receiveWithMaxSize h t r.destDir r.maxFileSize c.conn
  | some checker =>
    match peekFileHeader h c.conn with
    | .error e => ⟨t, .refused (.header e)⟩
    | .ok (header, headerBytes, rest) =>
      if checker.authorizeFileTransfer header.srcPeerID h.now then
        receiveWithMaxSize h t r.destDir r.maxFileSize ⟨headerBytes ++ rest.data, rest.broken⟩
      else ⟨t, .refused .unauthorized⟩

end MeshDesk.Transfer
