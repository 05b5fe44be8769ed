import MeshDesk.Lib.Maps
import MeshDesk.Lib.Paths

/-! Directory trees with symbolic links. A tree maps canonical places to nodes; a path is walked from a place,
following the links in it, and may end at a place that does not exist yet. -/
namespace MeshDesk.Lib
open Paths (Text here isAbs components)

abbrev Place := List Text

inductive Node where
  | file (data : Text) (mode : ℕ) (mtime : ℤ)
  | dir (mode : ℕ) (mtime : ℤ)
  | link (target : Text) (mtime : ℤ)
  deriving DecidableEq, Repr

def Node.isDir : Node → Bool
  | .dir _ _ => true
  | _ => false

def Node.isLink : Node → Bool
  | .link _ _ => true
  | _ => false

inductive Errno where
  | noent
  | notdir
  | isdir
  | exist
  | notempty
  | loop
  deriving DecidableEq, Repr

/-- Every node below the root is in a directory. -/
structure FileTree where
  nodes : Map Place Node
  closed : ∀ p n v, nodes.lookup (p ++ [n]) = some v → p = [] ∨ ∃ w, nodes.lookup p = some w ∧ w.isDir = true

namespace FileTree

variable (t : FileTree) (p cur : Place) (cs : List Text)

def node : Option Node := if p = [] then some (.dir 0o755 0) else t.nodes.lookup p

def isDir (t : FileTree) (p : Place) : Bool := (t.node p).any Node.isDir

def empty : FileTree := ⟨∅, fun _ _ _ => nofun⟩

/-- A walk until its end, its failure or the next link on it. -/
inductive Leg where
  | done (p : Place)
  | link (at_ : Place) (name target : Text) (rest : List Text)
  | fail (e : Errno)
  deriving DecidableEq, Repr

def scan (t : FileTree) : Place → List Text → Leg
  | cur, [] => .done cur
  | cur, c :: cs =>
    if c = [] ∨ c = here then scan t cur cs
    else if c = Paths.parent then scan t cur.dropLast cs
    else match t.node (cur ++ [c]) with
      | none => if cs = [] then .done (cur ++ [c]) else .fail .noent
      | some (.file _ _ _) => if cs = [] then .done (cur ++ [c]) else .fail .notdir
      | some (.dir _ _) => scan t (cur ++ [c]) cs
      | some (.link target _) => .link cur c target cs

/-- The place a path leads to, with at most `links` links followed. A link at the very end is followed on request;
a last element that does not exist is a place too. -/
def walk (t : FileTree) (follow : Bool) : ℕ → Place → List Text → Except Errno Place
  | links, cur, cs =>
    match scan t cur cs with
    | .done p => .ok p
    | .fail e => .error e
    | .link d name target rest =>
      if rest = [] ∧ follow = false then .ok (d ++ [name])
      else match links with
        | 0 => .error .loop
        | links + 1 => walk t follow links (if isAbs target then [] else d) (components target ++ rest)

/-- How many links the kernel follows in one path. -/
def kernelLinks : ℕ := 40

def stat : Except Errno (Place × Node) := do
  let p ← walk t true kernelLinks cur cs
  match t.node p with
  | none => .error .noent
  | some v => .ok (p, v)

def lstat : Except Errno (Place × Node) := do
  let p ← walk t false kernelLinks cur cs
  match t.node p with
  | none => .error .noent
  | some v => .ok (p, v)

/-- Store a node in a directory, in the place of anything but a directory. -/
def set (v : Node) (hparent : t.isDir p.dropLast = true) (hp : t.isDir p = false) : FileTree where
  nodes := t.nodes.insert p v
  closed := by
    intro q n w hw
    have hlift : ∀ r, r ≠ [] → t.isDir r = true → ∃ w, (t.nodes.insert p v).lookup r = some w ∧ w.isDir = true := by
      intro r hr hdir
      have hne : r ≠ p := by
        rintro rfl
        rw [hp] at hdir
        cases hdir
      rw [AList.lookup_insert_ne hne]
      rwa [isDir, node, if_neg hr, Option.any_eq_true] at hdir
    by_cases hq : q = []
    · exact .inl hq
    refine .inr ?_
    by_cases heq : q ++ [n] = p
    · subst heq
      rw [List.dropLast_concat] at hparent
      exact hlift q hq hparent
    · rw [AList.lookup_insert_ne heq] at hw
      obtain hnil | ⟨u, hu, hdir⟩ := t.closed q n w hw
      · exact absurd hnil hq
      · exact hlift q hq (by simp [isDir, node, hq, hu, hdir])

def cut : FileTree where
  nodes := t.nodes.filterKeys (fun q => ¬ p <+: q)
  closed := by
    intro q n w hw
    rw [Map.lookup_filterKeys] at hw
    split_ifs at hw with hkeep
    obtain hnil | ⟨u, hu, hdir⟩ := t.closed q n w hw
    · exact .inl hnil
    · refine .inr ⟨u, ?_, hdir⟩
      rw [Map.lookup_filterKeys, if_pos, hu]
      simp only [decide_eq_true_eq] at hkeep ⊢
      exact fun hpre => hkeep (hpre.trans (List.prefix_append _ _))

/-- `open` with create and truncate, and the data then written. -/
def create (mode : ℕ) (now : ℤ) (data : Text) : Except Errno (FileTree × Place) := do
  let p ← walk t true kernelLinks cur cs
  if hp : t.isDir p = false then
    if hparent : t.isDir p.dropLast = true then
      let mode := match t.node p with
        | some (.file _ m _) => m
        | _ => mode
      .ok (t.set p (.file data mode now) hparent hp, p)
    else .error .noent
  else .error .isdir

def mkdir (mode : ℕ) (now : ℤ) : Except Errno (FileTree × Place) := do
  let p ← walk t false kernelLinks cur cs
  if t.node p ≠ none then .error .exist
  else if hp : t.isDir p = false then
    if hparent : t.isDir p.dropLast = true then .ok (t.set p (.dir mode now) hparent hp, p)
    else .error .noent
  else .error .exist

/-- What is left after making directories: the tree, the places made, and the error that ended it. -/
structure Made where
  tree : FileTree
  places : List Place
  err : Option Errno

/-- `os.MkdirAll` on the elements of a path, the last one first. -/
def mkdirAll (t : FileTree) (cur : Place) (mode : ℕ) (now : ℤ) : List Text → Made
  | [] => ⟨t, [], none⟩
  | c :: rest =>
    match stat t cur (c :: rest).reverse with
    | .ok (_, .dir _ _) => ⟨t, [], none⟩
    | .ok _ => ⟨t, [], some .notdir⟩
    | .error _ =>
      let above := mkdirAll t cur mode now rest
      match above.err with
      | some e => ⟨above.tree, above.places, some e⟩
      | none =>
        match mkdir above.tree cur (c :: rest).reverse mode now with
        | .ok (t', p) => ⟨t', above.places ++ [p], none⟩
        | .error e =>
          -- the path may end in an element that is not a name
          match lstat above.tree cur (c :: rest).reverse with
          | .ok (_, .dir _ _) => ⟨above.tree, above.places, none⟩
          | _ => ⟨above.tree, above.places, some e⟩

def origin (cwd : Place) (p : Text) : Place := if isAbs p then [] else cwd

def mkdirAllPath (cwd : Place) (p : Text) (mode : ℕ) (now : ℤ) : Made :=
  if p = [] then ⟨t, [], some .noent⟩
  else mkdirAll t (origin cwd p) mode now ((components p).filter (· ≠ [])).reverse

/-- `os.Chtimes`, whose failure nobody looks at. -/
def setMtime (mtime : ℤ) : FileTree :=
  match stat t cur cs with
  | .ok (p, .file data mode _) =>
    if h : t.isDir p.dropLast = true ∧ t.isDir p = false then t.set p (.file data mode mtime) h.1 h.2 else t
  | _ => t

def children : List Place := t.nodes.keys.filter (fun q => q ≠ [] ∧ q.dropLast = p)

/-- `os.Remove`: one node, a directory only when it is empty. -/
def remove : Except Errno (FileTree × Place) := do
  let (p, _) ← lstat t cur cs
  if t.children p = [] then .ok (t.cut p, p) else .error .notempty

/-- `os.RemoveAll`: nothing to remove is no error. -/
def removeAll : Except Errno (FileTree × Option Place) :=
  match lstat t cur cs with
  | .ok (p, _) => .ok (t.cut p, some p)
  | .error .noent => .ok (t, none)
  | .error e => .error e

end FileTree
end MeshDesk.Lib
