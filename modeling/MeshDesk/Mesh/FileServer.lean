import MeshDesk.Lib.FileTree
import MeshDesk.Proxy.Chunk
import Mathlib.Data.List.Sort

/-! The cluster file server: one request over a mesh stream, checked against the allowed directories and then
carried out on the path it was checked for. The tree does not change between the two. -/
namespace MeshDesk.Mesh
open Proxy (Bytes GoString)
open Lib (FileTree Place Node Errno)
open Lib.Paths (components clean render)

inductive FileOp where
  | list
  | stat
  | read
  | write
  | delete
  | other (name : GoString)
  deriving DecidableEq, Repr

structure FileRequest where
  op : FileOp
  path : GoString
  size : ℤ
  deriving DecidableEq, Repr

structure FileEntry where
  name : GoString
  size : ℕ
  dir : Bool
  mtime : ℤ
  deriving DecidableEq, Repr

inductive FileError where
  | badRequest (err : GoString)
  | emptyPath
  | traversal
  | outsideRoots (path : GoString)
  | resolvesOutside (path : GoString)
  | os (e : Errno)
  | isDirectory
  | sizeLimit (size max : ℤ)
  | truncated (got : ℕ) (size : ℤ)
  | readFailed
  | unknownOp (name : GoString)
  deriving DecidableEq, Repr

inductive FileResponse where
  | entries (es : List FileEntry)
  | info (e : FileEntry)
  | content (data : Bytes)
  | written (n : ℕ)
  | deleted
  | error (e : FileError)
  deriving DecidableEq, Repr

structure FileServerConfig where
  allowedPaths : List GoString
  maxWriteSize : ℤ
  deriving DecidableEq, Repr

/-- What follows the request on the stream, and whether the stream then fails or ends. -/
structure Payload where
  data : Bytes
  broken : Bool
  deriving DecidableEq, Repr

/-- What is done to an object: directories and files are made or truncated by a write. -/
inductive Access where
  | list
  | stat
  | read
  | write
  | remove
  deriving DecidableEq, Repr

structure Handled where
  tree : FileTree
  response : FileResponse
  touched : List (Access × Place)

/-- The size of a directory is left to the file system. -/
def fileEntry (name : GoString) : Node → FileEntry
  | .file data _ mtime => ⟨name, data.length, false, mtime⟩
  | .dir _ mtime => ⟨name, 0, true, mtime⟩
  | .link target mtime => ⟨name, target.length, false, mtime⟩

variable (cfg : FileServerConfig) (cwd : Place) (t : FileTree) (p path : GoString)

def absPath : GoString := Lib.Paths.abs (render true cwd) p

/-- How many links `filepath.EvalSymlinks` follows. -/
def evalLinks : ℕ := 255

def evalSymlinks : Option GoString :=
  match t.walk true evalLinks [] (components p) with
  | .error _ => none
  | .ok q => if t.node q = none then none else some (render true q)

def pathWithinAllowed (allowedPaths : List GoString) : Bool :=
  allowedPaths.any (fun ap => Lib.Paths.within p (absPath cwd ap))

/-- The path whose place in the allowed directories is checked after links are resolved. -/
def checkedPath (abs : GoString) : GoString :=
  match evalSymlinks t abs with
  | some resolved => resolved
  | none =>
    match evalSymlinks t (Lib.Paths.dir abs) with
    | some parent => Lib.Paths.join parent (Lib.Paths.base abs)
    | none => abs

def resolvePath : Except FileError GoString :=
  if p = [] then .error .emptyPath
  else if clean p = Lib.Paths.parent ∨ (Lib.Paths.parent ++ [Lib.Paths.slash]).isPrefixOf (clean p) then .error .traversal
  else
    let abs := absPath cwd (clean p)
    if cfg.allowedPaths = [] then .ok abs
    else if ¬ pathWithinAllowed cwd abs cfg.allowedPaths then .error (.outsideRoots abs)
    else if ¬ pathWithinAllowed cwd (checkedPath t abs) cfg.allowedPaths then .error (.resolvesOutside abs)
    else .ok abs

/-- `os.ReadDir` sorts by name; the entries are described without following links. -/
def listDir : Handled :=
  match t.stat [] (components path) with
  | .error e => ⟨t, .error (.os e), []⟩
  | .ok (p, .dir _ _) =>
    let places := t.children p
    let entries := places.filterMap (fun q => (t.node q).map (fileEntry (q.getLast?.getD [])))
    ⟨t, .entries (entries.insertionSort (fun a b => a.name ≤ b.name)), (.list, p) :: places.map (Prod.mk .stat)⟩
  | .ok _ => ⟨t, .error (.os .notdir), []⟩

def serveStat : Handled :=
  match t.stat [] (components path) with
  | .error e => ⟨t, .error (.os e), []⟩
  | .ok (p, v) => ⟨t, .info (fileEntry (Lib.Paths.base path) v), [(.stat, p)]⟩

def serveRead : Handled :=
  match t.stat [] (components path) with
  | .error e => ⟨t, .error (.os e), []⟩
  | .ok (p, .file data _ _) => ⟨t, .content data, [(.read, p)]⟩
  | .ok (p, _) => ⟨t, .error .isDirectory, [(.stat, p)]⟩

def defaultMaxWriteSize : ℤ := 64 * 2 ^ 20

/-- The parent directories are made first; what arrives is written even when it is too short. -/
def serveWrite (size : ℤ) (payload : Payload) (now : ℤ) : Handled :=
  let max := if cfg.maxWriteSize = 0 then defaultMaxWriteSize else cfg.maxWriteSize
  if size < 0 ∨ max < size then ⟨t, .error (.sizeLimit size max), []⟩
  else
    let made := t.mkdirAllPath [] (Lib.Paths.dir path) 0o755 now
    let dirs := made.places.map (Prod.mk Access.write)
    match made.err with
    | some e => ⟨made.tree, .error (.os e), dirs⟩
    | none =>
      let data := payload.data.take size.toNat
      match made.tree.create [] (components path) 0o666 now data with
      | .error e => ⟨made.tree, .error (.os e), dirs⟩
      | .ok (t', p) =>
        ⟨t', if (data.length : ℤ) = size then .written data.length
            else if payload.broken then .error .readFailed
            else .error (.truncated data.length size), dirs ++ [(.write, p)]⟩

/-- `os.RemoveAll` takes away the object and everything below it. -/
def serveDelete : Handled :=
  match t.removeAll [] (components path) with
  | .error e => ⟨t, .error (.os e), []⟩
  | .ok (t', none) => ⟨t', .deleted, []⟩
  | .ok (t', some p) => ⟨t', .deleted, (p :: t.nodes.keys.filter (p <+: ·)).map (Prod.mk .remove)⟩

/-- `handle` on what the decoder makes of the stream. -/
def handle (req : Except GoString FileRequest) (payload : Payload) (now : ℤ) : Handled :=
  match req with
  | .error err => ⟨t, .error (.badRequest err), []⟩
  | .ok req =>
    match resolvePath cfg cwd t req.path with
    | .error e => ⟨t, .error e, []⟩
    | .ok resolved =>
      match req.op with
      | .list => listDir t resolved
      | .stat => serveStat t resolved
      | .read => serveRead t resolved
      | .write => serveWrite cfg t resolved req.size payload now
      | .delete => serveDelete t resolved
      | .other name => ⟨t, .error (.unknownOp name), []⟩

end MeshDesk.Mesh
