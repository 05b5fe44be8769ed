import MeshDesk.Lib.Bytes
import MeshDesk.Lib.FileTree

/-! Facts about walks: the number of links allowed, the link at the end, paths put together, and what a new
node changes. -/
namespace MeshDesk.Lib.FileTree
open Paths (Text here isAbs components IsName)
open List

variable {t : FileTree} {cur p q : Place} {cs ds : List Text} {c : Text} {follow : Bool} {links : ℕ}

variable {n target : Text} {v : Node} {r : Leg} {d : Place} {rest : List Text} {mode : ℕ} {now : ℤ}

theorem isDir_of_node_child (h : t.node (p ++ [n]) = some v) : t.isDir p = true := by
  rw [node, if_neg (by simp)] at h
  obtain rfl | ⟨w, hw, hdir⟩ := t.closed p n v h
  · rfl
  · by_cases hp : p = []
    · subst hp
      rfl
    · simp [isDir, node, hp, hw, hdir]

theorem node_set (hparent : t.isDir p.dropLast = true) (hp : t.isDir p = false) (q : Place) :
    (t.set p v hparent hp).node q = if q = p then some v else t.node q := by
  have hne : p ≠ [] := by
    rintro rfl
    cases hp
  by_cases hq : q = []
  · subst hq
    rw [if_neg hne.symm]
    rfl
  · simp only [node, if_neg hq, set]
    split_ifs with heq
    · rw [heq, AList.lookup_insert]
    · rw [AList.lookup_insert_ne heq]

theorem node_cut (q : Place) (hq : ¬ p <+: q) : (t.cut p).node q = t.node q := by
  simp only [node, cut, Map.lookup_filterKeys, hq, not_false_eq_true, decide_true, if_true]

@[simp] theorem scan_skip : scan t cur ([] :: cs) = scan t cur cs := by
  rw [scan, if_pos (.inl rfl)]

def Split (cs : List Text) : Prop := ∀ c ∈ cs, Paths.slash ∉ c

theorem split_components (p : Text) : Split (components p) := fun _ => Paths.slash_notMem_of_mem_components

theorem split_of_isName (h : ∀ c ∈ cs, IsName c) : Split cs := fun c hc => (h c hc).no_slash

theorem Split.append (hcs : Split cs) (hds : Split ds) : Split (cs ++ ds) :=
  forall_mem_append.mpr ⟨hcs, hds⟩

theorem Split.tail (h : Split (c :: cs)) : Split cs := (forall_mem_cons.mp h).2

/-- The legs that do not fail, element by element. -/
inductive Reaches (t : FileTree) : Place → List Text → Leg → Prop where
  | stop (cur : Place) : Reaches t cur [] (.done cur)
  | skip {cur : Place} {c : Text} {cs : List Text} {r : Leg} (hc : c = [] ∨ c = here) (h : Reaches t cur cs r) :
      Reaches t cur (c :: cs) r
  | up {cur : Place} {cs : List Text} {r : Leg} (h : Reaches t cur.dropLast cs r) : Reaches t cur (Paths.parent :: cs) r
  | down {cur : Place} {c : Text} {cs : List Text} {r : Leg} (hc : IsName c) (hdir : t.isDir (cur ++ [c]) = true)
      (h : Reaches t (cur ++ [c]) cs r) : Reaches t cur (c :: cs) r
  | link {cur : Place} {c target : Text} {cs : List Text} {mtime : ℤ} (hc : IsName c)
      (hnode : t.node (cur ++ [c]) = some (.link target mtime)) : Reaches t cur (c :: cs) (.link cur c target cs)
  | last {cur : Place} {c : Text} (hc : IsName c) (hdir : t.isDir (cur ++ [c]) = false)
      (hlink : ∀ v, t.node (cur ++ [c]) = some v → v.isLink = false) : Reaches t cur [c] (.done (cur ++ [c]))

theorem reaches_of_scan (hcs : Split cs) (h : scan t cur cs = r) (hr : ∀ e, r ≠ .fail e) : Reaches t cur cs r := by
  induction cs generalizing cur with
  | nil =>
    subst h
    exact .stop cur
  | cons c cs ih =>
    rw [scan] at h
    by_cases hskip : c = [] ∨ c = here
    · rw [if_pos hskip] at h
      exact .skip hskip (ih hcs.tail h)
    rw [if_neg hskip] at h
    by_cases hup : c = Paths.parent
    · subst hup
      exact .up (ih hcs.tail h)
    rw [if_neg hup] at h
    have hc : IsName c := ⟨fun hnil => hskip (.inl hnil), fun hh => hskip (.inr hh), hup, hcs c mem_cons_self⟩
    cases hn : t.node (cur ++ [c]) with
    | none =>
      simp only [hn] at h
      split_ifs at h with hnil
      · subst hnil h
        exact .last hc (by simp [isDir, hn]) (by simp [hn])
      · exact absurd h.symm (hr _)
    | some v =>
      cases v with
      | file data mode mtime =>
        simp only [hn] at h
        split_ifs at h with hnil
        · subst hnil h
          exact .last hc (by simp [isDir, hn, Node.isDir]) (by simp [hn, Node.isLink])
        · exact absurd h.symm (hr _)
      | dir mode mtime =>
        simp only [hn] at h
        exact .down hc (by simp [isDir, hn, Node.isDir]) (ih hcs.tail h)
      | link target mtime =>
        simp only [hn] at h
        subst h
        exact .link hc hn

theorem Reaches.scan_eq (h : Reaches t cur cs r) : scan t cur cs = r := by
  induction h with
  | stop cur => rfl
  | skip hc _ ih => rw [scan, if_pos hc, ih]
  | up _ ih => rw [scan, if_neg (by decide), if_pos rfl, ih]
  | @down cur c cs r hc hdir _ ih =>
    rw [scan, if_neg (not_or.mpr ⟨hc.ne_nil, hc.ne_here⟩), if_neg hc.ne_parent]
    cases hn : t.node (cur ++ [c]) with
    | none => simp [isDir, hn] at hdir
    | some v =>
      cases v with
      | dir mode mtime => exact ih
      | file | link => simp [isDir, hn, Node.isDir] at hdir
  | link hc hnode => rw [scan, if_neg (not_or.mpr ⟨hc.ne_nil, hc.ne_here⟩), if_neg hc.ne_parent, hnode]
  | @last cur c hc hdir hlink =>
    rw [scan, if_neg (not_or.mpr ⟨hc.ne_nil, hc.ne_here⟩), if_neg hc.ne_parent]
    cases hn : t.node (cur ++ [c]) with
    | none => rfl
    | some v =>
      cases v with
      | dir mode mtime => simp [isDir, hn, Node.isDir] at hdir
      | file => rfl
      | link => cases hlink _ hn

theorem Reaches.trans (h : Reaches t cur cs (.done p)) (hp : t.isDir p = true) (hds : Reaches t p ds r) :
    Reaches t cur (cs ++ ds) r := by
  generalize hr : Leg.done p = leg at h
  induction h with
  | stop cur =>
    cases hr
    exact hds
  | skip hc _ ih => exact .skip hc (ih hr)
  | up _ ih => exact .up (ih hr)
  | down hc hdir _ ih => exact .down hc hdir (ih hr)
  | link => cases hr
  | last _ hdir _ =>
    cases hr
    rw [hp] at hdir
    cases hdir

theorem Reaches.append_link (h : Reaches t cur cs (.link d n target rest)) (ds : List Text) :
    Reaches t cur (cs ++ ds) (.link d n target (rest ++ ds)) := by
  generalize hr : Leg.link d n target rest = leg at h
  induction h with
  | stop cur => cases hr
  | skip hc _ ih => exact .skip hc (ih hr)
  | up _ ih => exact .up (ih hr)
  | down hc hdir _ ih => exact .down hc hdir (ih hr)
  | link hc hnode =>
    cases hr
    exact .link hc hnode
  | last => cases hr

theorem Reaches.link_cases (h : Reaches t cur cs (.link d n target rest)) :
    (∃ mtime, t.node (d ++ [n]) = some (.link target mtime)) ∧ rest <:+ cs := by
  generalize hr : Leg.link d n target rest = r at h
  induction h with
  | stop cur => cases hr
  | skip _ _ ih | up _ ih | down _ _ _ ih => exact ⟨(ih hr).1, (ih hr).2.trans (suffix_cons _ _)⟩
  | link _ hnode =>
    cases hr
    exact ⟨⟨_, hnode⟩, suffix_cons _ _⟩
  | last => cases hr

theorem Reaches.split_rest (hcs : Split cs) (h : Reaches t cur cs (.link d n target rest)) : Split rest :=
  fun c hc => hcs c (h.link_cases.2.subset hc)

theorem isName_concat (hp : ∀ n ∈ p, IsName n) (hc : IsName c) : ∀ n ∈ p ++ [c], IsName n :=
  forall_mem_append.mpr ⟨hp, forall_mem_singleton.mpr hc⟩

theorem Reaches.isName (h : Reaches t cur cs r) (hcur : ∀ n ∈ cur, IsName n) :
    (∀ p, r = .done p → ∀ n ∈ p, IsName n) ∧
      ∀ d n target rest, r = .link d n target rest → (∀ n ∈ d, IsName n) ∧ IsName n := by
  induction h with
  | stop cur =>
    constructor
    · rintro _ ⟨rfl⟩
      exact hcur
    · rintro _ _ _ _ ⟨⟩
  | skip _ _ ih => exact ih hcur
  | up _ ih => exact ih (fun n hn => hcur n ((List.dropLast_prefix _).subset hn))
  | down hc _ _ ih => exact ih (isName_concat hcur hc)
  | link hc _ =>
    constructor
    · rintro _ ⟨⟩
    · rintro _ _ _ _ ⟨rfl⟩
      exact ⟨hcur, hc⟩
  | last hc _ _ =>
    constructor
    · rintro _ ⟨rfl⟩
      exact isName_concat hcur hc
    · rintro _ _ _ _ ⟨⟩

theorem Reaches.set (hparent : t.isDir q.dropLast = true) (hq : t.isDir q = false) (hv : v.isLink = false)
    (hold : ∀ w, t.node q = some w → w.isLink = false) (h : Reaches t cur cs r) :
    Reaches (t.set q v hparent hq) cur cs r := by
  induction h with
  | stop cur => exact .stop cur
  | skip hc _ ih => exact .skip hc ih
  | up _ ih => exact .up ih
  | @down cur c cs r hc hdir _ ih =>
    have hne : cur ++ [c] ≠ q := by
      rintro rfl
      rw [hq] at hdir
      cases hdir
    refine .down hc ?_ ih
    rwa [isDir, node_set, if_neg hne]
  | @link cur c target cs mtime hc hnode =>
    have hne : cur ++ [c] ≠ q := by
      rintro rfl
      cases hold _ hnode
    exact .link hc ((node_set hparent hq _).trans ((if_neg hne).trans hnode))
  | @last cur c hc hdir hlink =>
    by_cases heq : cur ++ [c] = q
    · have hnode : (t.set q v hparent hq).node (cur ++ [c]) = some v := (node_set hparent hq _).trans (if_pos heq)
      cases hd : v.isDir with
      | true => exact .down hc (by simp [isDir, hnode, hd]) (.stop _)
      | false => exact .last hc (by simp [isDir, hnode, hd]) (by simp [hnode, hv])
    · refine .last hc ?_ ?_
      · rwa [isDir, node_set, if_neg heq]
      · rwa [node_set, if_neg heq]

/-- Successful walks, leg by leg. -/
inductive Leads (t : FileTree) (follow : Bool) : ℕ → Place → List Text → Place → Prop where
  | done {links : ℕ} {cur p : Place} {cs : List Text} (h : Reaches t cur cs (.done p)) : Leads t follow links cur cs p
  | atLink {links : ℕ} {cur d : Place} {cs : List Text} {n target : Text} (h : Reaches t cur cs (.link d n target []))
      (hfollow : follow = false) : Leads t follow links cur cs (d ++ [n])
  | via {links : ℕ} {cur d p : Place} {cs rest : List Text} {n target : Text}
      (h : Reaches t cur cs (.link d n target rest)) (hfollow : ¬ (rest = [] ∧ follow = false))
      (hrest : Leads t follow links (if isAbs target then [] else d) (components target ++ rest) p) :
      Leads t follow (links + 1) cur cs p

theorem leads_of_walk (hcs : Split cs) (h : walk t follow links cur cs = .ok p) : Leads t follow links cur cs p := by
  induction links using Nat.strongRecOn generalizing cur cs with
  | ind links ih =>
    unfold walk at h
    cases hscan : scan t cur cs with
    | done q =>
      simp only [hscan] at h
      cases h
      exact .done (reaches_of_scan hcs hscan nofun)
    | fail e => simp [hscan] at h
    | link d n target rest =>
      have hreach := reaches_of_scan hcs hscan nofun
      simp only [hscan] at h
      by_cases hat : rest = [] ∧ follow = false
      · rw [if_pos hat] at h
        obtain ⟨rfl, hfollow⟩ := hat
        cases h
        exact .atLink hreach hfollow
      · rw [if_neg hat] at h
        cases links with
        | zero => cases h
        | succ links =>
          have hrest := (split_components target).append (hreach.split_rest hcs)
          exact .via hreach hat (ih links (Nat.lt_succ_self links) hrest h)

theorem Leads.walk_eq (h : Leads t follow links cur cs p) : walk t follow links cur cs = .ok p := by
  induction h with
  | done h =>
    unfold walk
    rw [h.scan_eq]
  | atLink h hfollow =>
    unfold walk
    rw [h.scan_eq]
    exact if_pos ⟨rfl, hfollow⟩
  | via h hfollow _ ih =>
    unfold walk
    rw [h.scan_eq]
    simp only [if_neg hfollow]
    exact ih

theorem Leads.mono {links' : ℕ} (h : Leads t follow links cur cs p) (hle : links ≤ links') :
    Leads t follow links' cur cs p := by
  induction h generalizing links' with
  | done h => exact .done h
  | atLink h hfollow => exact .atLink h hfollow
  | via h hfollow _ ih =>
    obtain ⟨k, rfl⟩ : ∃ k, links' = k + 1 := ⟨links' - 1, by omega⟩
    exact .via h hfollow (ih (by omega))

theorem Leads.follow_of_not_link (h : Leads t false links cur cs p) (hp : ∀ v, t.node p = some v → v.isLink = false) :
    Leads t true links cur cs p := by
  induction h with
  | done h => exact .done h
  | atLink h _ =>
    obtain ⟨mtime, hnode⟩ := h.link_cases.1
    cases hp _ hnode
  | via h _ _ ih => exact .via h (by simp) (ih hp)

theorem Leads.append {links' : ℕ} (h : Leads t true links cur cs p) (hp : t.isDir p = true) (hds : ds ≠ [])
    (hrest : Leads t follow links' p ds q) : Leads t follow (links + links') cur (cs ++ ds) q := by
  generalize hf : true = f at h
  induction h with
  | done h =>
    cases hrest with
    | done h' => exact .done (h.trans hp h')
    | atLink h' hfollow => exact .atLink (h.trans hp h') hfollow
    | @via k _ _ _ _ _ _ _ h' hfollow hrest =>
      exact .via (h.trans hp h') hfollow (hrest.mono (Nat.le_add_left k _))
  | atLink _ hfollow => rw [← hf] at hfollow; cases hfollow
  | @via links cur d p cs rest n target h _ _ ih =>
    have hleads := ih hp hrest
    rw [append_assoc] at hleads
    rw [Nat.add_right_comm]
    exact .via (h.append_link ds) (by simp [hds]) hleads

theorem Leads.isName (h : Leads t follow links cur cs p) (hcur : ∀ n ∈ cur, IsName n) : ∀ n ∈ p, IsName n := by
  induction h with
  | done h => exact (h.isName hcur).1 _ rfl
  | atLink h _ =>
    obtain ⟨hd, hn⟩ := (h.isName hcur).2 _ _ _ _ rfl
    exact isName_concat hd hn
  | via h _ _ ih =>
    refine ih ?_
    split_ifs
    · exact fun _ => nofun
    · exact ((h.isName hcur).2 _ _ _ _ rfl).1

theorem Leads.set (hparent : t.isDir q.dropLast = true) (hq : t.isDir q = false) (hv : v.isLink = false)
    (hold : ∀ w, t.node q = some w → w.isLink = false) (h : Leads t follow links cur cs p) :
    Leads (t.set q v hparent hq) follow links cur cs p := by
  induction h with
  | done h => exact .done (h.set hparent hq hv hold)
  | atLink h hfollow => exact .atLink (h.set hparent hq hv hold) hfollow
  | via h hfollow _ ih => exact .via (h.set hparent hq hv hold) hfollow ih

theorem Leads.concat (h : Leads t true links cur cs p) (hp : t.isDir p = true) (hc : IsName c)
    (hlink : follow = true → ∀ v, t.node (p ++ [c]) = some v → v.isLink = false) :
    Leads t follow links cur (cs ++ [c]) (p ++ [c]) := by
  have hend : Leads t follow 0 p [c] (p ++ [c]) := by
    by_cases hdir : t.isDir (p ++ [c]) = true
    · exact .done (.down hc hdir (.stop _))
    rw [Bool.not_eq_true] at hdir
    cases hn : t.node (p ++ [c]) with
    | none => exact .done (.last hc hdir (by simp [hn]))
    | some v =>
      cases v with
      | dir mode mtime => simp [isDir, hn, Node.isDir] at hdir
      | file data mode mtime => exact .done (.last hc hdir (by simp [hn, Node.isLink]))
      | link target mtime =>
        cases follow with
        | false => exact .atLink (.link hc hn) rfl
        | true => cases hlink rfl _ hn
  exact h.append hp (by simp) hend

theorem leads_self (hp : t.isDir p = true) (hnames : ∀ n ∈ p, IsName n) : Leads t true links [] p p := by
  induction p using reverseRecOn with
  | nil => exact .done (.stop [])
  | append_singleton p n ih =>
    obtain ⟨v, hv, hdir⟩ := (Option.any_eq_true _ _).mp hp
    have hparent : t.isDir p = true := isDir_of_node_child hv
    refine (ih hparent (fun m hm => hnames m (by simp [hm]))).concat hparent (hnames n (by simp)) ?_
    intro _ w hw
    rw [hv] at hw
    cases hw
    cases v with
    | dir | file => rfl
    | link => cases hdir

/-! ### Making directories -/

theorem node_eq_ok {w : Except Errno Place} :
    (w.bind fun p => match t.node p with
      | none => .error .noent
      | some v => .ok (p, v)) = .ok (p, v) ↔ w = .ok p ∧ t.node p = some v := by
  rw [bind_eq_ok]
  constructor
  · rintro ⟨q, hw, hq⟩
    cases hn : t.node q with
    | none => simp [hn] at hq
    | some u =>
      simp only [hn] at hq
      cases hq
      exact ⟨hw, hn⟩
  · rintro ⟨hw, hn⟩
    exact ⟨p, hw, by simp [hn]⟩

theorem stat_eq_ok :
    stat t cur cs = .ok (p, v) ↔ walk t true kernelLinks cur cs = .ok p ∧ t.node p = some v := node_eq_ok

theorem lstat_eq_ok :
    lstat t cur cs = .ok (p, v) ↔ walk t false kernelLinks cur cs = .ok p ∧ t.node p = some v := node_eq_ok

theorem Leads.stat_dir (h : Leads t true kernelLinks cur cs p) (hdir : t.isDir p = true) :
    ∃ v, t.stat cur cs = .ok (p, v) ∧ v.isDir = true := by
  obtain ⟨v, hv, hvdir⟩ := (Option.any_eq_true _ _).mp hdir
  exact ⟨v, stat_eq_ok.mpr ⟨h.walk_eq, hv⟩, hvdir⟩

theorem mkdirAll_of_dir (mode : ℕ) (now : ℤ) (h : stat t cur cs = .ok (p, v)) (hv : v.isDir = true) :
    mkdirAll t cur mode now cs.reverse = ⟨t, [], none⟩ := by
  obtain rfl | ⟨cs, c, rfl⟩ := cs.eq_nil_or_concat'
  · rfl
  · cases v with
    | dir m mt =>
      rw [reverse_concat, mkdirAll, ← reverse_concat, reverse_reverse, h]
    | file | link => cases hv

theorem mkdir_of_leads (mode : ℕ) (now : ℤ) (hc : IsName c) (h : Leads t true kernelLinks cur cs p) (hp : t.isDir p = true)
    (hnone : t.node (p ++ [c]) = none) :
    ∃ t', mkdir t cur (cs ++ [c]) mode now = .ok (t', p ++ [c]) ∧
      Leads t' true kernelLinks cur (cs ++ [c]) (p ++ [c]) ∧ t'.isDir (p ++ [c]) = true ∧
      ∀ n, t'.node (p ++ [c] ++ [n]) = none := by
  have hdir : t.isDir (p ++ [c]) = false := by rw [isDir, hnone]; rfl
  have hleads : ∀ follow, Leads t follow kernelLinks cur (cs ++ [c]) (p ++ [c]) :=
    fun _ => h.concat hp hc (by simp [hnone])
  have hparent : t.isDir (p ++ [c]).dropLast = true := by rwa [dropLast_concat]
  refine ⟨t.set (p ++ [c]) (.dir mode now) hparent hdir, ?_, ?_, ?_, ?_⟩
  · rw [mkdir, (hleads false).walk_eq]
    simp [Bind.bind, Except.bind, hnone, hdir, hp]
  · exact (hleads true).set hparent hdir rfl (by simp [hnone])
  · rw [isDir, node_set, if_pos rfl]
    rfl
  · intro n
    rw [node_set, if_neg (by simp)]
    cases hn : t.node (p ++ [c] ++ [n]) with
    | none => rfl
    | some v =>
      have := isDir_of_node_child hn
      rw [hdir] at this
      cases this

theorem mkdir_error_of_node (mode : ℕ) (now : ℤ) (hc : IsName c) (h : Leads t true kernelLinks cur cs p)
    (hp : t.isDir p = true) (hnode : t.node (p ++ [c]) = some v) (hstat : ∀ r, stat t cur (cs ++ [c]) ≠ .ok r) :
    mkdir t cur (cs ++ [c]) mode now = .error .exist ∧ lstat t cur (cs ++ [c]) = .ok (p ++ [c], v) ∧ v.isDir = false := by
  have hself : Leads t false kernelLinks cur (cs ++ [c]) (p ++ [c]) := h.concat hp hc nofun
  refine ⟨?_, lstat_eq_ok.mpr ⟨hself.walk_eq, hnode⟩, ?_⟩
  · rw [mkdir, hself.walk_eq]
    simp [Bind.bind, Except.bind, hnode]
  · have hlink : v.isLink = true := by
      by_contra hlink
      have hleads : Leads t true kernelLinks cur (cs ++ [c]) (p ++ [c]) :=
        h.concat hp hc (by simpa [hnode] using hlink)
      exact hstat _ (stat_eq_ok.mpr ⟨hleads.walk_eq, hnode⟩)
    cases v with
    | link => rfl
    | dir | file => cases hlink

/-- What making directories leaves: the places made are among `I`, and without an error the path leads to a directory
among them, a fresh one if any was made. -/
structure Grown (I : Place → Prop) (t : FileTree) (cur : Place) (cs : List Text) (m : Made) : Prop where
  places : ∀ p ∈ m.places, I p
  leads : m.err = none → ∃ p, Leads m.tree true kernelLinks cur cs p ∧ m.tree.isDir p = true ∧ I p ∧
    (m.tree = t ∨ ∀ n, m.tree.node (p ++ [n]) = none)

variable {I : Place → Prop}

theorem grown_of_dir (hcs : Split cs) (hstat : stat t cur cs = .ok (p, v)) (hv : v.isDir = true) (hp : I p) :
    Grown I t cur cs ⟨t, [], none⟩ := by
  obtain ⟨hwalk, hnode⟩ := stat_eq_ok.mp hstat
  refine ⟨fun _ => nofun, fun _ => ⟨p, leads_of_walk hcs hwalk, ?_, hp, .inl rfl⟩⟩
  rw [isDir, hnode]
  exact hv

theorem Grown.failed {m : Made} (h : ∀ p ∈ m.places, I p) (herr : m.err ≠ none) : Grown I t cur cs m :=
  ⟨h, fun hnone => absurd hnone herr⟩

theorem mkdirAll_concat (t : FileTree) (cur : Place) (mode : ℕ) (now : ℤ) (cs : List Text) (c : Text) :
    mkdirAll t cur mode now (cs ++ [c]).reverse =
      match stat t cur (cs ++ [c]) with
      | .ok (_, .dir _ _) => ⟨t, [], none⟩
      | .ok _ => ⟨t, [], some .notdir⟩
      | .error _ =>
        let above := mkdirAll t cur mode now cs.reverse
        match above.err with
        | some e => ⟨above.tree, above.places, some e⟩
        | none =>
          match mkdir above.tree cur (cs ++ [c]) mode now with
          | .ok (t', p) => ⟨t', above.places ++ [p], none⟩
          | .error e =>
            match lstat above.tree cur (cs ++ [c]) with
            | .ok (_, .dir _ _) => ⟨above.tree, above.places, none⟩
            | _ => ⟨above.tree, above.places, some e⟩ := by
  rewrite [reverse_concat, mkdirAll, ← reverse_concat, reverse_reverse]
  rfl

theorem Grown.concat (hI : ∀ p n, I p → I (p ++ [n])) (hc : IsName c)
    (hstat : ∀ r, stat t cur (cs ++ [c]) ≠ .ok r) (h : Grown I t cur cs (mkdirAll t cur mode now cs.reverse)) :
    Grown I t cur (cs ++ [c]) (mkdirAll t cur mode now (cs ++ [c]).reverse) := by
  rw [mkdirAll_concat]
  generalize mkdirAll t cur mode now cs.reverse = above at h
  cases hs : stat t cur (cs ++ [c]) with
  | ok r => exact absurd hs (hstat r)
  | error e =>
    dsimp only
    cases herr : above.err with
    | some e => exact .failed h.places nofun
    | none =>
      obtain ⟨p, hleads, hdir, hp, hfresh⟩ := h.leads herr
      cases hnode : above.tree.node (p ++ [c]) with
      | none =>
        obtain ⟨t', hmkdir, hleads', hdir', hnew⟩ := mkdir_of_leads mode now hc hleads hdir hnode
        rw [hmkdir]
        refine ⟨?_, fun _ => ⟨p ++ [c], hleads', hdir', hI p c hp, .inr hnew⟩⟩
        exact forall_mem_append.mpr ⟨h.places, forall_mem_singleton.mpr (hI p c hp)⟩
      | some v =>
        have htree : above.tree = t := by
          rcases hfresh with heq | hnew
          · exact heq
          · rw [hnew] at hnode
            cases hnode
        obtain ⟨hmkdir, hlstat, hv⟩ := mkdir_error_of_node mode now hc hleads hdir hnode
          (by rwa [htree])
        rw [hmkdir, hlstat]
        cases v with
        | dir => cases hv
        | file | link => exact .failed h.places nofun

/-- Directories made below an existing one, where every directory already on the way is among `I`, which is closed
under going down. -/
theorem grown_mkdirAll (hI : ∀ p n, I p → I (p ++ [n])) (mode : ℕ) (now : ℤ) {root rel : List Text}
    (hroot : ∃ p v, stat t cur root = .ok (p, v) ∧ v.isDir = true) (hsplit : Split root) (hrel : ∀ c ∈ rel, IsName c)
    (hway : ∀ pre, pre <+: rel → ∀ p v, stat t cur (root ++ pre) = .ok (p, v) → v.isDir = true → I p) :
    Grown I t cur (root ++ rel) (mkdirAll t cur mode now (root ++ rel).reverse) := by
  induction rel using reverseRecOn with
  | nil =>
    obtain ⟨p, v, hstat, hv⟩ := hroot
    rw [append_nil, mkdirAll_of_dir mode now hstat hv]
    exact grown_of_dir hsplit hstat hv (hway [] prefix_rfl p v (by rwa [append_nil]) hv)
  | append_singleton rel c ih =>
    have habove := ih (fun d hd => hrel d (by simp [hd])) (fun pre h => hway pre (h.trans (prefix_append _ _)))
    rw [← append_assoc]
    cases hstat : stat t cur (root ++ rel ++ [c]) with
    | error e => exact habove.concat hI (hrel c (by simp)) (by rw [hstat]; nofun)
    | ok r =>
      obtain ⟨p, v⟩ := r
      by_cases hv : v.isDir = true
      · rw [mkdirAll_of_dir mode now hstat hv]
        refine grown_of_dir ?_ hstat hv ?_
        · rw [append_assoc]
          exact hsplit.append (split_of_isName hrel)
        · exact hway (rel ++ [c]) prefix_rfl p v (by rwa [← append_assoc]) hv
      · rw [mkdirAll_concat, hstat]
        cases v with
        | dir => exact absurd rfl hv
        | file | link => exact .failed (fun _ => nofun) nofun

theorem mkdir_eq_ok {t' : FileTree} (h : mkdir t cur cs mode now = .ok (t', p)) :
    t.node p = none ∧ ∃ hparent hp, t' = t.set p (.dir mode now) hparent hp := by
  obtain ⟨q, -, hq⟩ := bind_eq_ok.mp h
  split_ifs at hq with hexists hdir hparent
  cases hq
  exact ⟨not_not.mp hexists, hparent, hdir, rfl⟩

theorem node_mkdirAll (t : FileTree) (cur : Place) (mode : ℕ) (now : ℤ) (cs : List Text) (q : Place) :
    let made := mkdirAll t cur mode now cs.reverse
    made.tree.node q = t.node q ∨ q ∈ made.places ∧ t.node q = none ∧ made.tree.isDir q = true := by
  induction cs using reverseRecOn with
  | nil => exact .inl rfl
  | append_singleton cs c ih =>
    rw [mkdirAll_concat]
    generalize mkdirAll t cur mode now cs.reverse = above at ih ⊢
    cases hstat : stat t cur (cs ++ [c]) with
    | ok r =>
      obtain ⟨p, v⟩ := r
      cases v <;> exact .inl rfl
    | error e =>
      dsimp only
      cases herr : above.err with
      | some e => exact ih
      | none =>
        cases hmkdir : mkdir above.tree cur (cs ++ [c]) mode now with
        | ok r =>
          obtain ⟨t', p⟩ := r
          obtain ⟨hnone, hparent, hp, rfl⟩ := mkdir_eq_ok hmkdir
          have hnode := node_set (v := .dir mode now) hparent hp q
          by_cases heq : q = p
          · subst heq
            rw [if_pos rfl] at hnode
            rcases ih with hsame | ⟨-, -, hdir⟩
            · exact .inr ⟨by simp, hsame.symm.trans hnone, by simp [isDir, hnode, Node.isDir]⟩
            · rw [hp] at hdir
              cases hdir
          · rw [if_neg heq] at hnode
            refine ih.imp hnode.trans fun ⟨hmem, hold, hdir⟩ => ⟨mem_append_left _ hmem, hold, ?_⟩
            rwa [isDir, hnode]
        | error e =>
          generalize lstat above.tree cur (cs ++ [c]) = there
          rcases there with e | ⟨p, _ | _ | _⟩ <;> exact ih

theorem create_eq_ok {t' : FileTree} {data : Text} (h : create t cur cs mode now data = .ok (t', p)) :
    walk t true kernelLinks cur cs = .ok p ∧ ∃ hparent hp mode', t' = t.set p (.file data mode' now) hparent hp := by
  obtain ⟨p', hwalk, hp⟩ := bind_eq_ok.mp h
  split_ifs at hp with hdir hparent
  cases hp
  exact ⟨hwalk, hparent, hdir, _, rfl⟩

end MeshDesk.Lib.FileTree
