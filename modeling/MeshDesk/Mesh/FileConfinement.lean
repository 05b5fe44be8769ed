import Mathlib.Data.List.Infix
import MeshDesk.Lib.FileWalk
import MeshDesk.Mesh.FileServer

/-! Which requests stay inside the allowed directories. The server checks where a path leads when it exists, and
where its parent leads when only that exists; the operations then follow links the check has not seen. -/
namespace MeshDesk.Mesh
open Proxy (Bytes GoString)
open Lib (FileTree Place Node Errno)
open Lib.Paths (components clean render IsName)
open Lib.FileTree (Leads Split leads_of_walk kernelLinks)
open Lib.FileTree

def allowedRoot (cwd : Place) (ap : GoString) : Place := (components (absPath cwd ap)).filter (· ≠ [])

def Inside (cfg : FileServerConfig) (cwd p : Place) : Prop := ∃ ap ∈ cfg.allowedPaths, allowedRoot cwd ap <+: p

instance (cfg : FileServerConfig) (cwd p : Place) : Decidable (Inside cfg cwd p) :=
  inferInstanceAs (Decidable (∃ ap ∈ cfg.allowedPaths, allowedRoot cwd ap <+: p))

variable {cfg : FileServerConfig} {cwd p q : Place} {t : FileTree} {names : List GoString}

theorem Inside.mono (h : Inside cfg cwd p) (hpq : p <+: q) : Inside cfg cwd q := by
  obtain ⟨ap, hap, hpre⟩ := h
  exact ⟨ap, hap, hpre.trans hpq⟩

theorem absPath_eq_render (cwd : Place) (p : GoString) : ∃ names, absPath cwd p = render true names ∧ ∀ n ∈ names, IsName n := by
  unfold absPath Lib.Paths.abs
  split_ifs with habs
  · exact Lib.Paths.clean_eq_render habs
  · rw [Lib.Paths.join, if_pos (by simp [render])]
    exact Lib.Paths.clean_eq_render rfl

theorem inside_of_pathWithinAllowed (hnames : ∀ n ∈ names, IsName n)
    (h : pathWithinAllowed cwd (render true names) cfg.allowedPaths = true) : Inside cfg cwd names := by
  obtain ⟨ap, hap, hwithin⟩ := List.any_eq_true.mp h
  obtain ⟨root, hroot, hisName⟩ := absPath_eq_render cwd ap
  rw [hroot] at hwithin
  refine ⟨ap, hap, ?_⟩
  rw [allowedRoot, hroot, Lib.Paths.names_render hisName]
  exact Lib.Paths.prefix_of_within hnames hisName hwithin

theorem walk_render (follow : Bool) (links : ℕ) (hnames : ∀ n ∈ names, IsName n) :
    t.walk follow links [] (components (render true names)) = t.walk follow links [] names := by
  by_cases hne : names = []
  · subst hne
    unfold walk
    rfl
  · rw [Lib.Paths.components_render fun n hn => (hnames n hn).no_slash, if_neg hne]
    unfold walk
    rw [scan_skip]

theorem evalSymlinks_of_leads (hnames : ∀ n ∈ names, IsName n) (h : Leads t true kernelLinks [] names q)
    (hq : t.node q ≠ none) : evalSymlinks t (render true names) = some (render true q) := by
  rw [evalSymlinks, walk_render true evalLinks hnames, (h.mono (by decide : kernelLinks ≤ evalLinks)).walk_eq]
  exact if_neg hq

def requestNames (cwd : Place) (path : GoString) : List GoString := (components (absPath cwd (clean path))).filter (· ≠ [])

theorem absPath_requestNames (cwd : Place) (path : GoString) :
    absPath cwd (clean path) = render true (requestNames cwd path) ∧ ∀ n ∈ requestNames cwd path, IsName n := by
  obtain ⟨names, hnames, hisName⟩ := absPath_eq_render cwd (clean path)
  rw [requestNames, hnames, Lib.Paths.names_render hisName]
  exact ⟨rfl, hisName⟩

theorem resolvePath_ok {path abs : GoString} (hallowed : cfg.allowedPaths ≠ [])
    (h : resolvePath cfg cwd t path = .ok abs) :
    abs = render true (requestNames cwd path) ∧ Inside cfg cwd (requestNames cwd path) ∧
      pathWithinAllowed cwd (checkedPath t (render true (requestNames cwd path))) cfg.allowedPaths = true := by
  obtain ⟨heq, hisName⟩ := absPath_requestNames cwd path
  unfold resolvePath at h
  simp only [hallowed, if_false, heq] at h
  split_ifs at h with hempty htraversal hlexical hchecked
  cases h
  exact ⟨rfl, inside_of_pathWithinAllowed hisName hlexical, hchecked⟩

theorem inside_of_parent {c : GoString} (hnames : ∀ n ∈ names, IsName n) (hc : IsName c)
    (hchecked : pathWithinAllowed cwd (checkedPath t (render true (names ++ [c]))) cfg.allowedPaths = true)
    (hnone : evalSymlinks t (render true (names ++ [c])) = none) (h : Leads t true kernelLinks [] names p)
    (hp : t.node p ≠ none) : Inside cfg cwd (p ++ [c]) := by
  have hisName : ∀ n ∈ p, IsName n := h.isName fun _ => nofun
  rw [checkedPath, hnone, Lib.Paths.dir_render hnames hc, evalSymlinks_of_leads hnames h hp,
    Lib.Paths.base_render hc] at hchecked
  dsimp only at hchecked
  rw [Lib.Paths.join_render hisName hc] at hchecked
  exact inside_of_pathWithinAllowed (isName_concat hisName hc) hchecked

/-! ### Operations -/

/-- What the checks leave open. A write must not end in a link that leads nowhere, and the directories on its way that
exist, from an allowed one on, must lead inside; a link that is deleted must itself be in an allowed directory. -/
structure LinksStay (cfg : FileServerConfig) (cwd : Place) (t : FileTree) (op : FileOp) (names : List GoString) : Prop where
  dangling : op = .write → ∀ q v, t.lstat [] names = .ok (q, v) → v.isLink = true →
    evalSymlinks t (render true names) ≠ none
  ancestors : op = .write → ∀ ds, ds <+: names → ds ≠ names → (∃ ap ∈ cfg.allowedPaths, allowedRoot cwd ap <+: ds) →
    ∀ q v, t.stat [] ds = .ok (q, v) → v.isDir = true → Inside cfg cwd q
  removed : op = .delete → ∀ q v, t.lstat [] names = .ok (q, v) → v.isLink = true → Inside cfg cwd q.dropLast

structure Confined (cfg : FileServerConfig) (cwd : Place) (t : FileTree) (r : Handled) : Prop where
  touched : ∀ a p, (a, p) ∈ r.touched → Inside cfg cwd p
  changed : ∀ p, r.tree.node p ≠ t.node p → Inside cfg cwd p

theorem confined_of_nothing (e : FileResponse) : Confined cfg cwd t ⟨t, e, []⟩ :=
  ⟨fun _ _ => nofun, fun _ h => absurd rfl h⟩

theorem confined_of_look {e : FileResponse} {l : List (Access × Place)} (h : ∀ a p, (a, p) ∈ l → Inside cfg cwd p) :
    Confined cfg cwd t ⟨t, e, l⟩ := ⟨h, fun _ h => absurd rfl h⟩

section
variable (hnames : ∀ n ∈ names, IsName n)
  (hchecked : pathWithinAllowed cwd (checkedPath t (render true names)) cfg.allowedPaths = true)
include hnames hchecked

theorem inside_of_leads (h : Leads t true kernelLinks [] names q) (hq : t.node q ≠ none) : Inside cfg cwd q := by
  rw [checkedPath, evalSymlinks_of_leads hnames h hq] at hchecked
  exact inside_of_pathWithinAllowed (h.isName fun _ => nofun) hchecked

theorem inside_of_stat {v : Node} (h : t.stat [] (components (render true names)) = .ok (p, v)) : Inside cfg cwd p := by
  obtain ⟨hwalk, hnode⟩ := stat_eq_ok.mp h
  rw [walk_render true kernelLinks hnames] at hwalk
  exact inside_of_leads hnames hchecked (leads_of_walk (split_of_isName hnames) hwalk) (by simp [hnode])

theorem confined_listDir : Confined cfg cwd t (listDir t (render true names)) := by
  unfold listDir
  cases hstat : t.stat [] (components (render true names)) with
  | error e => exact confined_of_nothing _
  | ok r =>
    obtain ⟨p, v⟩ := r
    have hp : Inside cfg cwd p := inside_of_stat hnames hchecked hstat
    cases v with
    | file | link => exact confined_of_nothing _
    | dir mode mtime =>
      refine confined_of_look ?_
      intro a q hq
      rcases List.mem_cons.mp hq with heq | hq
      · cases heq
        exact hp
      · obtain ⟨q', hq', heq⟩ := List.mem_map.mp hq
        cases heq
        obtain ⟨-, hpre⟩ := List.mem_filter.mp hq'
        simp only [ne_eq, decide_eq_true_eq] at hpre
        exact hp.mono (hpre.2 ▸ List.dropLast_prefix q)

theorem confined_serveStat : Confined cfg cwd t (serveStat t (render true names)) := by
  unfold serveStat
  cases hstat : t.stat [] (components (render true names)) with
  | error e => exact confined_of_nothing _
  | ok r =>
    refine confined_of_look ?_
    intro a p hp
    cases List.mem_singleton.mp hp
    exact inside_of_stat hnames hchecked hstat

theorem confined_serveRead : Confined cfg cwd t (serveRead t (render true names)) := by
  unfold serveRead
  cases hstat : t.stat [] (components (render true names)) with
  | error e => exact confined_of_nothing _
  | ok r =>
    obtain ⟨p, v⟩ := r
    have hp : Inside cfg cwd p := inside_of_stat hnames hchecked hstat
    cases v <;>
    · refine confined_of_look ?_
      intro a q hq
      cases List.mem_singleton.mp hq
      exact hp

theorem confined_serveDelete (hlinks : LinksStay cfg cwd t .delete names) :
    Confined cfg cwd t (serveDelete t (render true names)) := by
  unfold serveDelete removeAll
  cases hlstat : t.lstat [] (components (render true names)) with
  | error e => cases e <;> exact confined_of_nothing _
  | ok r =>
    obtain ⟨p, v⟩ := r
    obtain ⟨hwalk, hnode⟩ := lstat_eq_ok.mp hlstat
    rw [walk_render false kernelLinks hnames] at hwalk
    have hp : Inside cfg cwd p := by
      by_cases hv : v.isLink = true
      · exact (hlinks.removed rfl p v (lstat_eq_ok.mpr ⟨hwalk, hnode⟩) hv).mono (List.dropLast_prefix p)
      · have hleads := leads_of_walk (split_of_isName hnames) hwalk
        refine inside_of_leads hnames hchecked (hleads.follow_of_not_link ?_) (by simp [hnode])
        intro w hw
        rw [hnode] at hw
        cases hw
        simpa using hv
    constructor
    · intro a q hq
      obtain ⟨q', hq', heq⟩ := List.mem_map.mp hq
      cases heq
      rcases List.mem_cons.mp hq' with rfl | hq'
      · exact hp
      · exact hp.mono (by simpa using (List.mem_filter.mp hq').2)
    · intro q hq
      by_contra hout
      exact hq (node_cut q fun hpre => hout (hp.mono hpre))

end

theorem mkdirAllPath_render (mode : ℕ) (now : ℤ) (hnames : ∀ n ∈ names, IsName n) :
    t.mkdirAllPath [] (render true names) mode now = t.mkdirAll [] mode now names.reverse := by
  rw [mkdirAllPath, if_neg (by simp [render]), Lib.Paths.names_render hnames]
  rfl

theorem inside_of_create {c : GoString} {d : Place} (hnames : ∀ n ∈ names, IsName n) (hc : IsName c)
    (hchecked : pathWithinAllowed cwd (checkedPath t (render true (names ++ [c]))) cfg.allowedPaths = true)
    (hlinks : LinksStay cfg cwd t .write (names ++ [c])) (hd : Leads t true kernelLinks [] names d) (hdir : t.isDir d = true)
    (hp : Leads t true kernelLinks [] (names ++ [c]) p) : Inside cfg cwd p := by
  have hisName : ∀ n ∈ names ++ [c], IsName n := isName_concat hnames hc
  by_cases hnode : t.node p = none
  · have heval : evalSymlinks t (render true (names ++ [c])) = none := by
      rw [evalSymlinks, walk_render true evalLinks hisName, (hp.mono (by decide : kernelLinks ≤ evalLinks)).walk_eq]
      exact if_pos hnode
    -- the name is not a link, so the file is in the parent directory
    have hlink : ∀ v, t.node (d ++ [c]) = some v → v.isLink = false := by
      intro v hv
      by_contra hlink
      have hself : Leads t false kernelLinks [] (names ++ [c]) (d ++ [c]) := hd.concat hdir hc nofun
      exact hlinks.dangling rfl _ v (lstat_eq_ok.mpr ⟨hself.walk_eq, hv⟩) (by simpa using hlink) heval
    have hplace : Leads t true kernelLinks [] (names ++ [c]) (d ++ [c]) := hd.concat hdir hc (fun _ => hlink)
    cases hp.walk_eq.symm.trans hplace.walk_eq
    refine inside_of_parent hnames hc hchecked heval hd ?_
    intro hnone
    rw [isDir, hnone] at hdir
    cases hdir
  · exact inside_of_leads hisName hchecked hp hnode

theorem confined_of_made {path : GoString} {size : ℤ} {payload : Payload} {now : ℤ} {m : Made}
    (hmade : t.mkdirAllPath [] (Lib.Paths.dir path) 0o755 now = m) (hplaces : ∀ p ∈ m.places, Inside cfg cwd p)
    (hframe : ∀ q, q ∉ m.places → m.tree.node q = t.node q)
    (hcreate : m.err = none → ∀ p, m.tree.walk true kernelLinks [] (components path) = .ok p → m.tree.isDir p = false →
      Inside cfg cwd p) : Confined cfg cwd t (serveWrite cfg t path size payload now) := by
  have hdirs : ∀ a p, (a, p) ∈ m.places.map (Prod.mk Access.write) → Inside cfg cwd p := by
    intro a p hp
    obtain ⟨q, hq, heq⟩ := List.mem_map.mp hp
    cases heq
    exact hplaces p hq
  have hchanged : ∀ q, m.tree.node q ≠ t.node q → Inside cfg cwd q := by
    intro q hq
    by_contra hout
    exact hq (hframe q fun hmem => hout (hplaces q hmem))
  unfold serveWrite
  rw [hmade]
  dsimp only
  generalize (if cfg.maxWriteSize = 0 then defaultMaxWriteSize else cfg.maxWriteSize) = max
  by_cases hsize : size < 0 ∨ max < size
  · rw [if_pos hsize]
    exact confined_of_nothing _
  rw [if_neg hsize]
  cases herr : m.err with
  | some e => exact ⟨hdirs, hchanged⟩
  | none =>
    cases hfile : m.tree.create [] (components path) 0o666 now (payload.data.take size.toNat) with
    | error e => exact ⟨hdirs, hchanged⟩
    | ok r =>
      obtain ⟨t', p⟩ := r
      obtain ⟨hwalk, hpar, hdir, mode, rfl⟩ := create_eq_ok hfile
      have hp : Inside cfg cwd p := hcreate herr p hwalk hdir
      constructor
      · intro a q hq
        rcases List.mem_append.mp hq with hq | hq
        · exact hdirs a q hq
        · cases List.mem_singleton.mp hq
          exact hp
      · intro q hq
        by_cases heq : q = p
        · exact heq ▸ hp
        · exact hchanged q fun hsame => hq ((node_set hpar hdir q).trans ((if_neg heq).trans hsame))

theorem stat_allowedRoot {ap : GoString} (h : t.isDir (allowedRoot cwd ap) = true) :
    ∃ v, t.stat [] (allowedRoot cwd ap) = .ok (allowedRoot cwd ap, v) ∧ v.isDir = true := by
  obtain ⟨root, hroot, hisName⟩ := absPath_eq_render cwd ap
  have hnames : ∀ n ∈ allowedRoot cwd ap, IsName n := by
    rw [allowedRoot, hroot, Lib.Paths.names_render hisName]
    exact hisName
  exact (leads_self h hnames).stat_dir h

theorem confined_serveWrite {size : ℤ} {payload : Payload} {now : ℤ} (hnames : ∀ n ∈ names, IsName n)
    (hroots : ∀ ap ∈ cfg.allowedPaths, t.isDir (allowedRoot cwd ap) = true) (hinside : Inside cfg cwd names)
    (hchecked : pathWithinAllowed cwd (checkedPath t (render true names)) cfg.allowedPaths = true)
    (hlinks : LinksStay cfg cwd t .write names) :
    Confined cfg cwd t (serveWrite cfg t (render true names) size payload now) := by
  obtain rfl | ⟨ns, c, rfl⟩ := names.eq_nil_or_concat'
  · -- the root itself cannot be created
    refine confined_of_made rfl (fun _ => nofun) (fun _ _ => rfl) ?_
    intro _ p hp hdir
    cases Except.ok.inj hp
    cases hdir
  have hns : ∀ n ∈ ns, IsName n := fun n hn => hnames n (by simp [hn])
  have hc : IsName c := hnames c (by simp)
  have hmade : t.mkdirAllPath [] (Lib.Paths.dir (render true (ns ++ [c]))) 0o755 now =
      t.mkdirAll [] 0o755 now ns.reverse := by
    rw [Lib.Paths.dir_render hns hc, mkdirAllPath_render _ _ hns]
  have hleads : ∀ {t' : FileTree} {p : Place}, t'.walk true kernelLinks [] (components (render true (ns ++ [c]))) = .ok p →
      Leads t' true kernelLinks [] (ns ++ [c]) p := by
    intro t' p hp
    rw [walk_render true kernelLinks hnames] at hp
    exact leads_of_walk (split_of_isName hnames) hp
  by_cases hparent : ∃ d v, t.stat [] ns = .ok (d, v) ∧ v.isDir = true
  · obtain ⟨d, v, hstat, hv⟩ := hparent
    obtain ⟨hwalk, hnode⟩ := stat_eq_ok.mp hstat
    have hdir : t.isDir d = true := by rw [isDir, hnode]; exact hv
    refine confined_of_made (hmade.trans (mkdirAll_of_dir 0o755 now hstat hv)) (fun _ => nofun)
      (fun _ _ => rfl) ?_
    intro _ p hp _
    exact inside_of_create hns hc hchecked hlinks (leads_of_walk (split_of_isName hns) hwalk) hdir (hleads hp)
  obtain ⟨ap, hap, hpre⟩ := hinside
  have hroot := hroots ap hap
  -- the allowed directory is above the parent: it exists, and the parent does not
  have hbelow : allowedRoot cwd ap <+: ns := by
    rcases List.prefix_concat_iff.mp hpre with heq | hbelow
    · rw [heq] at hroot
      obtain ⟨v, hv, -⟩ := (Option.any_eq_true _ _).mp hroot
      have hdir : t.isDir ns = true := isDir_of_node_child hv
      exact absurd ⟨ns, (leads_self hdir hns).stat_dir hdir⟩ hparent
    · exact hbelow
  obtain ⟨rel, rfl⟩ := hbelow
  obtain ⟨v, hstat, hv⟩ := stat_allowedRoot hroot
  have hgrown : Grown (Inside cfg cwd) t [] (allowedRoot cwd ap ++ rel)
      (t.mkdirAll [] 0o755 now (allowedRoot cwd ap ++ rel).reverse) := by
    refine grown_mkdirAll (fun p n hp => hp.mono (List.prefix_append p [n])) 0o755 now ⟨_, v, hstat, hv⟩
      (split_of_isName fun n hn => hns n (by simp [hn])) (fun n hn => hns n (by simp [hn])) ?_
    intro pre hpre q w hq hw
    have hway : allowedRoot cwd ap ++ pre <+: allowedRoot cwd ap ++ rel := (List.prefix_append_right_inj _).mpr hpre
    refine hlinks.ancestors rfl _ (hway.trans (List.prefix_append _ _)) ?_ ⟨ap, hap, List.prefix_append _ _⟩ q w hq hw
    intro heq
    have hlen := hway.length_le
    rw [heq] at hlen
    simp at hlen
  refine confined_of_made hmade hgrown.places (fun q hq => (node_mkdirAll ..).resolve_right fun hnew => hq hnew.1) ?_
  intro herr p hp _
  obtain ⟨d, hd, hdir, hdin, hfresh⟩ := hgrown.leads herr
  rcases hfresh with hsame | hnew
  · -- nothing was made, so the parent was there
    rw [hsame] at hd hdir
    exact absurd ⟨d, hd.stat_dir hdir⟩ hparent
  · have hplace : Leads _ true kernelLinks [] (allowedRoot cwd ap ++ rel ++ [c]) (d ++ [c]) :=
      hd.concat hdir hc (fun _ v hv => by rw [hnew c] at hv; cases hv)
    cases (hleads hp).walk_eq.symm.trans hplace.walk_eq
    exact hdin.mono (List.prefix_append d [c])

/-- `/s` with the file `k` and the links `o` to `/e` and `d` to `/e/n`, and `/e` with the link `b` to `/s/k`. -/
def linkedTree : FileTree :=
  ((((((FileTree.empty.set [[0x73]] (.dir 0o755 0) rfl rfl).set [[0x65]] (.dir 0o755 0) rfl rfl).set
    [[0x73], [0x6b]] (.file [] 0o644 0) rfl rfl).set [[0x73], [0x6f]] (.link [0x2f, 0x65] 0) rfl rfl).set
    [[0x73], [0x64]] (.link [0x2f, 0x65, 0x2f, 0x6e] 0) rfl rfl).set
    [[0x65], [0x62]] (.link [0x2f, 0x73, 0x2f, 0x6b] 0) rfl rfl)

def onlyS : FileServerConfig := ⟨[[0x2f, 0x73]], 0⟩

theorem not_confined {r : Handled} (a : Access) (p : Place) (hp : (a, p) ∈ r.touched) (hout : ¬ Inside cfg cwd p) :
    ¬ Confined cfg cwd t r := fun h => hout (h.touched a p hp)

theorem newFile_linksStay : LinksStay onlyS [] linkedTree .write [[0x73], [0x78]] := by
  refine ⟨fun _ q v h => ?_, fun _ ds hpre hne hroot q v h _ => ?_, nofun⟩
  · cases h
  · have hds : ds ∈ [[], [[0x73]], [[0x73], [0x78]]] := (List.mem_inits _ _).mpr hpre
    simp only [List.mem_cons, List.not_mem_nil, or_false] at hds
    rcases hds with rfl | rfl | rfl
    · exact absurd hroot (by decide)
    · cases h
      decide
    · exact absurd rfl hne

end MeshDesk.Mesh
