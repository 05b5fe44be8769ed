import Mathlib.Data.List.Basic
import Mathlib.Data.List.Induction

/-! Unix path names as byte strings: lexical cleaning, the last element, the directory and joining. -/
namespace MeshDesk.Lib.Paths
open List

abbrev Text := List UInt8

def slash : UInt8 := 0x2f

def here : Text := [0x2e]

def parent : Text := [0x2e, 0x2e]

variable (p : Text)

def isAbs : Bool := p.head? == some slash

def components : List Text := p.splitOn slash

/-- Resolve `.` and `..` lexically. The first list holds the elements kept so far, the last one first. -/
def reduce (rooted : Bool) : List Text → List Text → List Text
  | kept, [] => kept.reverse
  | kept, c :: cs =>
    if c = [] ∨ c = here then reduce rooted kept cs
    else if c = parent then
      match kept with
      | [] => if rooted then reduce rooted [] cs else reduce rooted [parent] cs
      | top :: rest => if top = parent then reduce rooted (parent :: kept) cs else reduce rooted rest cs
    else reduce rooted (c :: kept) cs

def render (rooted : Bool) (cs : List Text) : Text :=
  if rooted then slash :: [slash].intercalate cs else if cs = [] then here else [slash].intercalate cs

def clean : Text := render (isAbs p) (reduce (isAbs p) [] (components p))

def trimSlashes : Text := (p.reverse.dropWhile (· == slash)).reverse

def base : Text :=
  if p = [] then here else if trimSlashes p = [] then [slash] else ((components (trimSlashes p)).getLast?).getD []

def dir : Text := clean (p.reverse.dropWhile (· != slash)).reverse

def join (q : Text) : Text := if p ≠ [] then clean (p ++ slash :: q) else if q ≠ [] then clean q else []

def abs (cwd p : Text) : Text := if isAbs p then clean p else join cwd p

def within (root : Text) : Bool := p == root || (root ++ [slash]).isPrefixOf p

structure IsName (c : Text) : Prop where
  ne_nil : c ≠ []
  ne_here : c ≠ here
  ne_parent : c ≠ parent
  no_slash : slash ∉ c

variable {p c : Text} {cs : List Text}

theorem slash_notMem_of_mem_components (h : c ∈ components p) : slash ∉ c := by
  induction p generalizing c with
  | nil =>
    rw [components, splitOn_nil, mem_singleton] at h
    subst h
    exact not_mem_nil
  | cons x p ih =>
    rw [components, splitOn_cons_eq_if_modifyHead] at h
    split_ifs at h with hx
    · rcases mem_cons.mp h with rfl | h
      · exact not_mem_nil
      · exact ih h
    · change c ∈ modifyHead _ (components p) at h
      cases hc : components p with
      | nil =>
        rw [hc] at h
        exact absurd h not_mem_nil
      | cons d ds =>
        rw [hc, modifyHead_cons] at h
        rcases mem_cons.mp h with rfl | h
        · have hd : slash ∉ d := ih (by rw [hc]; exact mem_cons_self)
          have hne : slash ≠ x := fun heq => hx (by rw [heq]; exact beq_self_eq_true x)
          simp [hne, hd]
        · exact ih (by rw [hc]; exact mem_cons_of_mem _ h)

theorem components_append (p q : Text) : components (p ++ slash :: q) = components p ++ components q :=
  splitOn_append_cons_self _ _

theorem components_intercalate (h : ∀ d ∈ cs, slash ∉ d) :
    components ([slash].intercalate cs) = if cs = [] then [[]] else cs := by
  split_ifs with hnil
  · rw [hnil]
    rfl
  · exact splitOn_intercalate slash h hnil

theorem components_injective {q : Text} (h : components p = components q) : p = q := by
  have hinter (r : Text) : [slash].intercalate (components r) = r := intercalate_splitOn slash
  rw [← hinter p, h, hinter]

theorem within_iff {root : Text} : within p root = true ↔ components root <+: components p := by
  rw [within, Bool.or_eq_true, beq_iff_eq, isPrefixOf_iff_prefix]
  constructor
  · rintro (rfl | ⟨rest, rfl⟩)
    · exact prefix_rfl
    · rw [append_assoc]
      exact ⟨components rest, (components_append _ _).symm⟩
  · rintro ⟨rest, hrest⟩
    cases rest with
    | nil => exact .inl (components_injective (by rw [← hrest, append_nil]))
    | cons c rest =>
      have hslash : ∀ d ∈ c :: rest, slash ∉ d := fun d hd =>
        slash_notMem_of_mem_components (hrest ▸ mem_append_right _ hd)
      refine .inr ⟨[slash].intercalate (c :: rest), components_injective ?_⟩
      rw [append_assoc, singleton_append, components_append, components_intercalate hslash,
        if_neg (cons_ne_nil _ _), hrest]

theorem mem_reduce {rooted : Bool} {kept : List Text} (h : c ∈ reduce rooted kept cs) :
    c ∈ kept ∨ c ∈ cs ∧ c ≠ [] ∧ c ≠ here := by
  fun_induction reduce <;> grind [here, parent]

theorem parent_notMem_reduce {kept : List Text} (h : parent ∉ kept) : parent ∉ reduce true kept cs := by
  fun_induction reduce true kept cs <;> grind

theorem isName_of_mem_reduce (hcs : ∀ c ∈ cs, slash ∉ c) (h : c ∈ reduce true [] cs) : IsName c := by
  obtain hnil | ⟨hmem, hne, hhere⟩ := mem_reduce h
  · exact absurd hnil not_mem_nil
  · exact ⟨hne, hhere, fun heq => parent_notMem_reduce not_mem_nil (heq ▸ h), hcs c hmem⟩

theorem clean_eq_render (h : isAbs p = true) : ∃ cs, clean p = render true cs ∧ ∀ c ∈ cs, IsName c := by
  refine ⟨reduce true [] (components p), by rw [clean, h], ?_⟩
  exact fun c => isName_of_mem_reduce fun d => slash_notMem_of_mem_components

theorem components_render (h : ∀ c ∈ cs, slash ∉ c) :
    components (render true cs) = [] :: if cs = [] then [[]] else cs := by
  rw [← components_intercalate h]
  exact components_append [] _

theorem filter_components_render (h : ∀ c ∈ cs, slash ∉ c) (hne : [] ∉ cs) :
    (components (render true cs)).filter (· ≠ []) = cs := by
  rw [components_render h]
  split_ifs with hnil
  · subst hnil
    decide
  · rw [filter_cons_of_neg (by simp), filter_eq_self]
    intro c hc
    simpa using ne_of_mem_of_not_mem hc hne

theorem names_render (h : ∀ c ∈ cs, IsName c) : (components (render true cs)).filter (· ≠ []) = cs :=
  filter_components_render (fun c hc => (h c hc).no_slash) fun hc => (h [] hc).ne_nil rfl

theorem prefix_of_within {ds : List Text} (hcs : ∀ c ∈ cs, IsName c) (hds : ∀ d ∈ ds, IsName d)
    (h : within (render true cs) (render true ds) = true) : ds <+: cs := by
  have hnames := (within_iff.mp h).filter (· ≠ [])
  rwa [names_render hcs, names_render hds] at hnames

/-! ### The elements of a cleaned path -/

def elements (p : Text) : List Text := (components (clean p)).filter (· ≠ [])

theorem nil_notMem_elements : [] ∉ elements p := by simp [elements]

theorem components_clean (p : Text) :
    components (clean p) = if isAbs p then [] :: (if elements p = [] then [[]] else elements p) else elements p := by
  have hslash : ∀ d ∈ reduce (isAbs p) [] (components p), slash ∉ d := fun d hd =>
    slash_notMem_of_mem_components ((mem_reduce hd).resolve_left not_mem_nil).1
  have hne : [] ∉ reduce (isAbs p) [] (components p) := fun hd =>
    ((mem_reduce hd).resolve_left not_mem_nil).2.1 rfl
  unfold elements clean
  generalize reduce (isAbs p) [] (components p) = ds at *
  cases isAbs p with
  | true => rw [if_pos rfl, filter_components_render hslash hne, components_render hslash]
  | false =>
    rw [if_neg Bool.false_ne_true, eq_comm, filter_eq_self]
    by_cases hnil : ds = []
    · subst hnil
      decide
    · rw [render, if_neg Bool.false_ne_true, if_neg hnil, components_intercalate hslash, if_neg hnil]
      intro c hc
      simpa using ne_of_mem_of_not_mem hc hne

theorem infix_of_mem_components (h : c ∈ components p) : c <:+: p := by
  have hinter (cs : List Text) (hc : c ∈ cs) : c <:+: [slash].intercalate cs := by
    induction cs with
    | nil => exact absurd hc not_mem_nil
    | cons d ds ih =>
      cases ds with
      | nil => simp_all
      | cons e ds =>
        rw [intercalate_cons_cons, append_assoc]
        rcases mem_cons.mp hc with rfl | hc
        · exact (prefix_append _ _).isInfix
        · exact (ih hc).trans ((suffix_append _ _).trans (suffix_append _ _)).isInfix
  exact (intercalate_splitOn slash : _ = p) ▸ hinter _ h

/-! ### Paths made of names -/

theorem reduce_of_isName (rooted : Bool) {kept : List Text} (h : ∀ c ∈ cs, IsName c) :
    reduce rooted kept cs = kept.reverse ++ cs := by
  induction cs generalizing kept with
  | nil => simp [reduce]
  | cons c cs ih =>
    have hc := h c mem_cons_self
    unfold reduce
    rw [if_neg (not_or.mpr ⟨hc.ne_nil, hc.ne_here⟩), if_neg hc.ne_parent, ih (forall_mem_cons.mp h).2]
    simp

theorem reduce_filter (rooted : Bool) (kept cs : List Text) :
    reduce rooted kept cs = reduce rooted kept (cs.filter (· ≠ [])) := by
  induction cs generalizing kept with
  | nil => rfl
  | cons c cs ih =>
    by_cases hc : c = []
    · rw [filter_cons_of_neg (by simpa using hc), ← ih]
      unfold reduce
      rw [if_pos (.inl hc)]
      cases cs <;> rfl
    · rw [filter_cons_of_pos (by simpa using hc)]
      unfold reduce
      simp only [ih]

theorem clean_of_names (hp : isAbs p = true) (hcs : (components p).filter (· ≠ []) = cs)
    (h : ∀ c ∈ cs, IsName c) : clean p = render true cs := by
  rw [clean, hp, reduce_filter, hcs, reduce_of_isName true h]
  rfl

theorem components_of_isName (h : IsName c) : components c = [c] :=
  splitOn_eq_singleton h.no_slash

theorem join_render (hcs : ∀ d ∈ cs, IsName d) (hc : IsName c) :
    join (render true cs) c = render true (cs ++ [c]) := by
  rw [join, if_pos (by simp [render])]
  refine clean_of_names rfl ?_ ?_
  · rw [components_append, components_of_isName hc, filter_append, names_render hcs,
      filter_cons_of_pos (by simpa using hc.ne_nil)]
    rfl
  · exact forall_mem_append.mpr ⟨hcs, forall_mem_singleton.mpr hc⟩

theorem render_concat (cs : List Text) (c : Text) :
    render true (cs ++ [c]) = (if cs = [] then [] else render true cs) ++ slash :: c := by
  have hinter : ∀ ds : List Text, ds ≠ [] → [slash].intercalate (ds ++ [c]) = [slash].intercalate ds ++ slash :: c := by
    intro ds hds
    induction ds with
    | nil => exact absurd rfl hds
    | cons d ds ih =>
      cases ds with
      | nil => simp
      | cons e ds => simpa using ih (cons_ne_nil _ _)
  split_ifs with h
  · subst h
    simp [render]
  · simp [render, hinter cs h]

theorem dir_render (hcs : ∀ d ∈ cs, IsName d) (hc : IsName c) : dir (render true (cs ++ [c])) = render true cs := by
  have hdrop : (c.reverse ++ slash :: ((if cs = [] then [] else render true cs) : Text).reverse).dropWhile (· != slash) =
      slash :: ((if cs = [] then [] else render true cs) : Text).reverse := by
    rw [dropWhile_append_of_pos, dropWhile_cons_of_neg (by simp)]
    intro x hx
    simp only [bne_iff_ne]
    rintro rfl
    exact hc.no_slash (mem_reverse.mp hx)
  rw [dir, render_concat, reverse_append, reverse_cons, append_assoc, singleton_append, hdrop,
    reverse_cons, reverse_reverse]
  split_ifs with h
  · subst h
    rfl
  · refine clean_of_names rfl ?_ hcs
    rw [components_append, filter_append, names_render hcs]
    exact append_nil cs

theorem base_render (hc : IsName c) : base (render true (cs ++ [c])) = c := by
  have hlast : ∃ x l, c.reverse = x :: l ∧ x ≠ slash := by
    cases hrev : c.reverse with
    | nil => exact absurd (reverse_eq_nil_iff.mp hrev) hc.ne_nil
    | cons x l =>
      refine ⟨x, l, rfl, ?_⟩
      rintro rfl
      exact hc.no_slash (mem_reverse.mp (by rw [hrev]; exact mem_cons_self))
  obtain ⟨x, l, hrev, hx⟩ := hlast
  have htrim : trimSlashes (render true (cs ++ [c])) = render true (cs ++ [c]) := by
    rw [trimSlashes, render_concat, reverse_append, reverse_cons, hrev, append_assoc, cons_append,
      dropWhile_cons_of_neg (by simpa using hx), ← cons_append, ← hrev]
    simp
  have hne : render true (cs ++ [c]) ≠ [] := by simp [render]
  rw [base, if_neg hne, htrim, if_neg hne, render_concat, components_append, components_of_isName hc,
    getLast?_concat]
  rfl

end MeshDesk.Lib.Paths
