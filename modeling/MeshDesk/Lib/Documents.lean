import Mathlib.Data.List.Nodup

/-! Documents: trees of arrays and objects over scalars, as a JSON or a YAML text denotes them. A walk over a document
names each place by what it makes of the names above it. Merging one document into another, hiding fields and listing
leaves are such walks. -/
namespace MeshDesk.Lib
open List

inductive Doc (κ σ : Type) where
  | leaf (s : σ)
  | arr (items : List (Doc κ σ))
  | obj (fields : List (κ × Doc κ σ))

/-- The fields of an object; the first one of a key counts. -/
abbrev Fields (κ σ : Type) := List (κ × Doc κ σ)

structure Naming (π κ : Type) where
  key : π → κ → π
  item : π → ℕ → π

namespace Doc

inductive Step (κ : Type) where
  | key (k : κ)
  | item (i : ℕ)
  deriving DecidableEq

variable {κ σ π : Type}

theorem induct {P : Doc κ σ → Prop} (leaf : ∀ s, P (.leaf s)) (arr : ∀ items, (∀ d ∈ items, P d) → P (.arr items))
    (obj : ∀ fields, (∀ f ∈ fields, P f.2) → P (.obj fields)) (d : Doc κ σ) : P d :=
  @Doc.rec κ σ P (fun items => ∀ d ∈ items, P d) (fun fields => ∀ f ∈ fields, P f.2) (fun f => P f.2) leaf arr obj
    (by simp) (fun _ _ hd htl => forall_mem_cons.mpr ⟨hd, htl⟩) (by simp)
    (fun _ _ hf htl => forall_mem_cons.mpr ⟨hf, htl⟩) (fun _ _ h => h) d

theorem fields_induct {P : Fields κ σ → Prop}
    (obj : ∀ fields, (∀ f ∈ fields, ∀ gs, f.2 = Doc.obj gs → P gs) → P fields) (fields : Fields κ σ) : P fields := by
  have hobj : ∀ (d : Doc κ σ) gs, d = .obj gs → P gs := by
    intro d
    induction d using Doc.induct with
    | leaf | arr => nofun
    | obj fields ih =>
      rintro gs ⟨⟩
      exact obj fields ih
  exact hobj _ fields rfl

section Equality
variable [DecidableEq κ] [DecidableEq σ]

mutual

def same : Doc κ σ → Doc κ σ → Bool
  | .leaf s, .leaf t => decide (s = t)
  | .arr xs, .arr ys => sameItems xs ys
  | .obj fs, .obj gs => sameFields fs gs
  | _, _ => false

def sameItems : List (Doc κ σ) → List (Doc κ σ) → Bool
  | [], [] => true
  | x :: xs, y :: ys => same x y && sameItems xs ys
  | _, _ => false

def sameFields : Fields κ σ → Fields κ σ → Bool
  | [], [] => true
  | (k, x) :: fs, (l, y) :: gs => decide (k = l) && same x y && sameFields fs gs
  | _, _ => false

end

theorem sameItems_iff {xs : List (Doc κ σ)} (h : ∀ x ∈ xs, ∀ y, same x y = true ↔ x = y) (ys : List (Doc κ σ)) :
    sameItems xs ys = true ↔ xs = ys := by
  induction xs generalizing ys with
  | nil => cases ys <;> simp [sameItems]
  | cons x xs ih =>
    obtain ⟨hx, hxs⟩ := forall_mem_cons.mp h
    cases ys with
    | nil => simp [sameItems]
    | cons y ys => simp [sameItems, hx y, ih hxs ys]

theorem sameFields_iff {fs : Fields κ σ} (h : ∀ f ∈ fs, ∀ y, same f.2 y = true ↔ f.2 = y) (gs : Fields κ σ) :
    sameFields fs gs = true ↔ fs = gs := by
  induction fs generalizing gs with
  | nil => cases gs <;> simp [sameFields]
  | cons f fs ih =>
    obtain ⟨hf, hfs⟩ := forall_mem_cons.mp h
    cases gs with
    | nil => simp [sameFields]
    | cons g gs => simp [sameFields, Prod.ext_iff, hf g.2, ih hfs gs]

theorem same_iff (a b : Doc κ σ) : same a b = true ↔ a = b := by
  induction a using Doc.induct generalizing b with
  | leaf s => cases b <;> simp [same]
  | arr xs ih =>
    cases b with
    | arr ys => simp [same, sameItems_iff ih ys]
    | leaf | obj => simp [same]
  | obj fs ih =>
    cases b with
    | obj gs => simp [same, sameFields_iff ih gs]
    | leaf | arr => simp [same]

instance : DecidableEq (Doc κ σ) := fun a b => decidable_of_iff _ (same_iff a b)

end Equality

section Fields
variable [DecidableEq κ]

def find (k : κ) : Fields κ σ → Option (Doc κ σ)
  | [] => none
  | (l, d) :: fs => if k = l then some d else find k fs

/-- The fields with the value of `k` replaced where it stands, or added at the end. -/
def put (k : κ) (d : Doc κ σ) : Fields κ σ → Fields κ σ
  | [] => [(k, d)]
  | (l, e) :: rest => if l = k then (k, d) :: rest else (l, e) :: put k d rest

variable (k l : κ) (fs : Fields κ σ)

def del : Fields κ σ := fs.filter (fun f => f.1 ≠ k)

def assign : Option (Doc κ σ) → Fields κ σ
  | none => del k fs
  | some d => put k d fs

theorem find_cons (d : Doc κ σ) (fs : Fields κ σ) : find l ((k, d) :: fs) = if l = k then some d else find l fs := rfl

theorem put_cons (d e : Doc κ σ) (fs : Fields κ σ) :
    put k d ((l, e) :: fs) = if l = k then (k, d) :: fs else (l, e) :: put k d fs := rfl

theorem find_put (d : Doc κ σ) (fs : Fields κ σ) : find l (put k d fs) = if l = k then some d else find l fs := by
  induction fs with
  | nil => exact find_cons k l d []
  | cons f fs ih =>
    obtain ⟨m, e⟩ := f
    by_cases hm : m = k
    · subst hm
      rw [put_cons, if_pos rfl, find_cons, find_cons]
      split_ifs <;> rfl
    · rw [put_cons, if_neg hm, find_cons, find_cons, ih]
      exact ite_ite_comm _ _ _ _ fun hl hk => hm (hl.symm.trans hk)

theorem find_del : find l (del k fs) = if l = k then none else find l fs := by
  induction fs with
  | nil => exact (ite_self none).symm
  | cons f fs ih =>
    obtain ⟨m, e⟩ := f
    unfold del at ih ⊢
    by_cases hm : m = k
    · subst hm
      rw [filter_cons_of_neg (by simp), ih, find_cons]
      split_ifs <;> rfl
    · rw [filter_cons_of_pos (by simp [hm]), find_cons, find_cons, ih]
      exact ite_ite_comm _ _ _ _ fun hl hk => hm (hl.symm.trans hk)

theorem find_assign (d : Option (Doc κ σ)) : find l (assign k fs d) = if l = k then d else find l fs := by
  cases d with
  | none => exact find_del k l fs
  | some d => exact find_put k l d fs

variable {k : κ} {d : Doc κ σ} {fs : Fields κ σ}

theorem put_of_find (h : find k fs = some d) : put k d fs = fs := by
  induction fs with
  | nil => cases h
  | cons f fs ih =>
    obtain ⟨m, e⟩ := f
    rw [find_cons] at h
    split_ifs at h with hm
    · cases h
      rw [put_cons, if_pos hm.symm, hm]
    · rw [put_cons, if_neg (Ne.symm hm), ih h]

theorem mem_of_find (h : find k fs = some d) : (k, d) ∈ fs := by
  induction fs with
  | nil => cases h
  | cons f fs ih =>
    obtain ⟨m, e⟩ := f
    rw [find_cons] at h
    split_ifs at h with hm
    · cases h
      rw [hm]
      exact mem_cons_self
    · exact mem_cons_of_mem _ (ih h)

theorem find_of_mem (hn : (fs.map Prod.fst).Nodup) (h : (k, d) ∈ fs) : find k fs = some d := by
  induction fs with
  | nil => cases h
  | cons f fs ih =>
    obtain ⟨m, e⟩ := f
    rw [map_cons, nodup_cons] at hn
    rw [find_cons]
    rcases mem_cons.mp h with heq | hmem
    · cases heq
      rw [if_pos rfl]
    · have hne : k ≠ m := fun he => hn.1 (mem_map.mpr ⟨(k, d), hmem, he⟩)
      rw [if_neg hne, ih hn.2 hmem]

theorem find_eq_none (h : k ∉ fs.map Prod.fst) : find k fs = none := by
  cases hk : find k fs with
  | none => rfl
  | some d => exact absurd (mem_map.mpr ⟨_, mem_of_find hk, rfl⟩) h

theorem mem_put {f : κ × Doc κ σ} (h : f ∈ put k d fs) : f = (k, d) ∨ f ∈ fs := by
  induction fs with
  | nil => exact .inl (mem_singleton.mp h)
  | cons g fs ih =>
    obtain ⟨l, e⟩ := g
    rw [put_cons] at h
    split_ifs at h with hg
    · rcases mem_cons.mp h with rfl | hm
      · exact .inl rfl
      · exact .inr (mem_cons_of_mem _ hm)
    · rcases mem_cons.mp h with rfl | hm
      · exact .inr mem_cons_self
      · exact (ih hm).imp_right (mem_cons_of_mem _)

theorem nodup_put (h : (fs.map Prod.fst).Nodup) : ((put k d fs).map Prod.fst).Nodup := by
  induction fs with
  | nil => exact nodup_singleton k
  | cons g fs ih =>
    obtain ⟨l, e⟩ := g
    rw [map_cons, nodup_cons] at h
    rw [put_cons]
    split_ifs with hg <;> rw [map_cons, nodup_cons]
    · exact ⟨hg ▸ h.1, h.2⟩
    · refine ⟨fun hm => ?_, ih h.2⟩
      obtain ⟨f, hf, he⟩ := mem_map.mp hm
      rcases mem_put hf with rfl | hf
      · exact hg he.symm
      · exact h.1 (mem_map.mpr ⟨f, hf, he⟩)

end Fields

section Places
variable [DecidableEq κ]

def value : Doc κ σ → List (Step κ) → Option (Doc κ σ)
  | d, [] => some d
  | .obj fs, .key k :: rest => (find k fs).bind (value · rest)
  | .arr xs, .item i :: rest => xs[i]?.bind (value · rest)
  | _, _ => none

theorem value_nil (d : Doc κ σ) : d.value [] = some d := by
  cases d <;> rfl

theorem value_key (fs : Fields κ σ) (k : κ) (rest : List (Step κ)) :
    (Doc.obj fs).value (.key k :: rest) = (find k fs).bind (value · rest) := rfl

def place (n : Naming π κ) (p : π) (steps : List (Step κ)) : π :=
  steps.foldl (fun p s => match s with
    | .key k => n.key p k
    | .item i => n.item p i) p

end Places

section Every

variable (onLeaf : σ → Bool) (onKeys : List κ → Bool)

mutual

def every : Doc κ σ → Bool
  | .leaf s => onLeaf s
  | .arr items => everyItem items
  | .obj fields => onKeys (fields.map Prod.fst) && everyField fields

def everyItem : List (Doc κ σ) → Bool
  | [] => true
  | d :: items => every d && everyItem items

def everyField : Fields κ σ → Bool
  | [] => true
  | (_, d) :: fields => every d && everyField fields

end

theorem everyField_iff (fields : Fields κ σ) :
    everyField onLeaf onKeys fields = true ↔ ∀ f ∈ fields, every onLeaf onKeys f.2 = true := by
  induction fields with
  | nil => exact iff_of_true rfl (forall_mem_nil _)
  | cons f fields ih => exact Bool.and_eq_true_iff.trans (by rw [ih, forall_mem_cons])

theorem every_obj_iff (fields : Fields κ σ) :
    every onLeaf onKeys (.obj fields) = true ↔
      onKeys (fields.map Prod.fst) = true ∧ ∀ f ∈ fields, every onLeaf onKeys f.2 = true := by
  rw [← everyField_iff]
  exact Bool.and_eq_true_iff

end Every

section Keyed
variable [DecidableEq κ]

def keyed : Doc κ σ → Bool := every (fun _ => true) (fun ks => decide ks.Nodup)

theorem keyed_obj_iff (fields : Fields κ σ) :
    (Doc.obj fields).keyed = true ↔ (fields.map Prod.fst).Nodup ∧ ∀ f ∈ fields, f.2.keyed = true := by
  rw [keyed, every_obj_iff, decide_eq_true_iff]

variable {k : κ} {fields : Fields κ σ}

theorem keyed_of_find {d : Doc κ σ} (h : (Doc.obj fields).keyed = true)
    (hk : find k fields = some d) : d.keyed = true :=
  ((keyed_obj_iff fields).mp h).2 (k, d) (mem_of_find hk)

theorem keyed_assign {d : Option (Doc κ σ)} (h : (Doc.obj fields).keyed = true)
    (hd : ∀ e, d = some e → e.keyed = true) : (Doc.obj (assign k fields d)).keyed = true := by
  rw [keyed_obj_iff] at h ⊢
  cases d with
  | none =>
    refine ⟨h.1.sublist (filter_sublist.map _), fun f hf => h.2 f ?_⟩
    exact mem_of_mem_filter hf
  | some e =>
    refine ⟨nodup_put h.1, fun f hf => ?_⟩
    rcases mem_put hf with rfl | hf
    · exact hd e rfl
    · exact h.2 f hf

end Keyed

section Merge
variable [DecidableEq κ] (n : Naming π κ) (erases : σ → Bool) (keeps : π → σ → Bool)

mutual

/-- The fields of `src` written to those of `dst` one after the other. -/
def merge (p : π) (dst : Fields κ σ) : Fields κ σ → Fields κ σ
  | [] => dst
  | (k, d) :: src => merge p (assign k dst (mergeValue (n.key p k) (find k dst) d)) src

/-- What becomes of a value at `p`: an erasing scalar removes it, an object is merged into an object, and anything else
replaces it unless the scalar keeps what is there. -/
def mergeValue (p : π) (old : Option (Doc κ σ)) : Doc κ σ → Option (Doc κ σ)
  | .leaf s => if erases s then none else if keeps p s && old.isSome then old else some (.leaf s)
  | .arr items => some (.arr items)
  | .obj src => match old with
    | some (.obj dst) => some (.obj (merge p dst src))
    | _ => some (.obj src)

end

theorem merge_cons (p : π) (dst : Fields κ σ) (k : κ) (d : Doc κ σ) (src : Fields κ σ) :
    merge n erases keeps p dst ((k, d) :: src) = merge n erases keeps p
      (assign k dst (mergeValue n erases keeps (n.key p k) (find k dst) d)) src := rfl

theorem mergeValue_leaf (p : π) (old : Option (Doc κ σ)) (s : σ) : mergeValue n erases keeps p old (.leaf s) =
    if erases s then none else if keeps p s && old.isSome then old else some (.leaf s) := rfl

theorem mergeValue_obj (p : π) (dst src : Fields κ σ) : mergeValue n erases keeps p (some (.obj dst)) (.obj src) =
    some (.obj (merge n erases keeps p dst src)) := rfl

theorem mergeValue_obj_cases (p : π) (old : Option (Doc κ σ)) (src : Fields κ σ) :
    (∃ dst, old = some (.obj dst) ∧
        mergeValue n erases keeps p old (.obj src) = some (.obj (merge n erases keeps p dst src))) ∨
      mergeValue n erases keeps p old (.obj src) = some (.obj src) := by
  match old with
  | some (.obj dst) => exact .inl ⟨dst, rfl, rfl⟩
  | none | some (.leaf _) | some (.arr _) => exact .inr rfl

/-- The fields an object is merged into: those of an object, or none where nothing is. -/
def inner : Option (Doc κ σ) → Option (Fields κ σ)
  | none => some []
  | some (.obj fs) => some fs
  | some _ => none

def IsObj (d : Doc κ σ) : Prop := ∃ fs, d = .obj fs

/-- Merging `src` into `dst` puts `d` at the keys whatever was there, or removes what was. -/
inductive Writes : Fields κ σ → Fields κ σ → List κ → Doc κ σ → Prop
  | here {dst src k d} (hs : find k src = some d) (h : IsObj d → inner (find k dst) = none) : Writes dst src [k] d
  | inside {dst src k fs gs ks d} (hs : find k src = some (.obj gs)) (hd : inner (find k dst) = some fs)
      (h : Writes fs gs ks d) : Writes dst src (k :: ks) d

/-- Merging `src` into `dst` makes an object at the keys, where nothing was. -/
inductive Makes : Fields κ σ → Fields κ σ → List κ → Prop
  | here {dst src k gs} (hs : find k src = some (.obj gs)) (hd : find k dst = none) : Makes dst src [k]
  | inside {dst src k fs gs ks} (hs : find k src = some (.obj gs)) (hd : inner (find k dst) = some fs)
      (h : Makes fs gs ks) : Makes dst src (k :: ks)

variable {dst src : Fields κ σ} {ks : List κ} {d : Doc κ σ} {k : κ}

omit [DecidableEq κ] in
theorem inner_eq_some {o : Option (Doc κ σ)} {fs : Fields κ σ} (h : inner o = some fs) :
    o = none ∧ fs = [] ∨ o = some (.obj fs) := by
  match o, h with
  | none, rfl => exact .inl ⟨rfl, rfl⟩
  | some (.obj _), rfl => exact .inr rfl

theorem Writes.head (h : Writes dst src ks d) : ∃ k rest, ks = k :: rest ∧ (find k src).isSome := by
  cases h with
  | here hs | inside hs => exact ⟨_, _, rfl, Option.isSome_of_eq_some hs⟩

theorem Makes.head (h : Makes dst src ks) : ∃ k rest, ks = k :: rest ∧ (find k src).isSome := by
  cases h with
  | here hs | inside hs => exact ⟨_, _, rfl, Option.isSome_of_eq_some hs⟩

theorem writes_or_inner (dst : Fields κ σ) (h : find k src = some d) :
    Writes dst src [k] d ∨ ∃ fs gs, d = .obj gs ∧ inner (find k dst) = some fs := by
  by_cases hw : IsObj d → inner (find k dst) = none
  · exact .inl (.here h hw)
  · obtain ⟨⟨gs, hgs⟩, hi⟩ := Classical.not_imp.mp hw
    obtain ⟨fs, hfs⟩ := Option.ne_none_iff_exists'.mp hi
    exact .inr ⟨fs, gs, hgs, hfs⟩

theorem find_merge_of_find_eq_none (h : find k src = none) (p : π) (dst : Fields κ σ) :
    find k (merge n erases keeps p dst src) = find k dst := by
  induction src generalizing dst with
  | nil => rfl
  | cons f src ih =>
    obtain ⟨l, d⟩ := f
    rw [find_cons] at h
    split_ifs at h with hk
    rw [merge_cons, ih h, find_assign, if_neg hk]

theorem find_merge_of_find_eq_some (hn : (src.map Prod.fst).Nodup) (h : find k src = some d) (p : π)
    (dst : Fields κ σ) :
    find k (merge n erases keeps p dst src) = mergeValue n erases keeps (n.key p k) (find k dst) d := by
  induction src generalizing dst with
  | nil => cases h
  | cons f src ih =>
    obtain ⟨l, e⟩ := f
    rw [map_cons, nodup_cons] at hn
    rw [find_cons] at h
    split_ifs at h with hk
    · cases h
      subst hk
      -- no later field of the source has the key again
      rw [merge_cons, find_merge_of_find_eq_none _ _ _ (find_eq_none hn.1), find_assign, if_pos rfl]
    · rw [merge_cons, ih hn.2 h, find_assign, if_neg hk]

theorem value_merge_key (hsrc : (Doc.obj src).keyed = true) (h : find k src = some d) (p : π) (dst : Fields κ σ)
    (rest : List (Step κ)) : (Doc.obj (merge n erases keeps p dst src)).value (.key k :: rest) =
      (mergeValue n erases keeps (n.key p k) (find k dst) d).bind (value · rest) := by
  rw [value_key, find_merge_of_find_eq_some n erases keeps ((keyed_obj_iff src).mp hsrc).1 h]

variable {n erases keeps}

theorem merge_eq_of_forall {p : π} (h : ∀ f ∈ src, (find f.1 dst).isSome ∧
      mergeValue n erases keeps (n.key p f.1) (find f.1 dst) f.2 = find f.1 dst) :
    merge n erases keeps p dst src = dst := by
  induction src with
  | nil => rfl
  | cons f src ih =>
    obtain ⟨l, d⟩ := f
    obtain ⟨⟨hsome, hval⟩, hrest⟩ := forall_mem_cons.mp h
    obtain ⟨e, he⟩ := Option.isSome_iff_exists.mp hsome
    have hput : assign l dst (find l dst) = dst := by
      rw [he]
      exact put_of_find he
    rw [merge_cons, hval, hput]
    exact ih hrest

theorem merge_of_no_writes {p : π} (hkeyed : (Doc.obj src).keyed = true) (hw : ∀ ks e, ¬Writes dst src ks e)
    (hm : ∀ ks, ¬Makes dst src ks) : merge n erases keeps p dst src = dst := by
  induction src using fields_induct generalizing p dst with
  | obj fields ih =>
    refine merge_eq_of_forall fun f hf => ?_
    obtain ⟨k, e⟩ := f
    have hkeys := (keyed_obj_iff fields).mp hkeyed
    have hk := find_of_mem hkeys.1 hf
    rcases writes_or_inner dst hk with hwrite | ⟨fs, gs, rfl, hin⟩
    · exact absurd hwrite (hw _ _)
    · rcases inner_eq_some hin with ⟨hnone, -⟩ | hdst
      · exact absurd (.here hk hnone) (hm [k])
      · have hrec := ih _ hf gs rfl (p := n.key p k) (hkeys.2 _ hf) (fun ks e h => hw _ e (.inside hk hin h))
          (fun ks h => hm _ (.inside hk hin h))
        refine ⟨by simp [hdst], ?_⟩
        simp only [hdst]
        rw [mergeValue_obj, hrec]

theorem value_of_no_writes {src : Fields κ σ} {s : Step κ} {rest : List (Step κ)}
    (hw : ∀ ks d, Writes [] src ks d → ¬ks.map Step.key <+: s :: rest)
    (hm : ∀ ks, Makes [] src ks → ¬s :: rest <+: ks.map Step.key) : (Doc.obj src).value (s :: rest) = none := by
  cases s with
  | item i => rfl
  | key k =>
    cases hk : find k src with
    | none => rw [value_key, hk, Option.bind_none]
    | some d =>
      rcases writes_or_inner [] hk with hwrite | ⟨fs, gs, rfl, -⟩
      · exact absurd (by simp) (hw _ _ hwrite)
      cases rest with
      | nil => exact absurd (by simp) (hm [k] (.here hk rfl))
      | cons t rest =>
        have hinside : (Doc.obj gs).value (t :: rest) = none :=
          value_of_no_writes (fun ks d h hp => hw (k :: ks) d (.inside hk rfl h) (by simpa using hp))
            (fun ks h hp => hm (k :: ks) (.inside hk rfl h) (by simpa using hp))
        rw [value_key, hk, Option.bind_some, hinside]

/-- Merging changes nothing at a place that is not written, not above a place written or made, and not below one
written. -/
theorem value_merge (hsrc : (Doc.obj src).keyed = true) (p : π) {steps : List (Step κ)}
    (hw : ∀ ks d, Writes dst src ks d → ¬ks.map Step.key <+: steps ∧ ¬steps <+: ks.map Step.key)
    (hm : ∀ ks, Makes dst src ks → ¬steps <+: ks.map Step.key) :
    (Doc.obj (merge n erases keeps p dst src)).value steps = (Doc.obj dst).value steps := by
  induction steps generalizing p dst src with
  | nil =>
    rw [merge_of_no_writes hsrc (fun ks d h => (hw ks d h).2 nil_prefix)
      (fun ks h => hm ks h nil_prefix)]
  | cons s rest ih =>
    cases s with
    | item i => rfl
    | key k =>
      cases hk : find k src with
      | none => rw [value_key, value_key, find_merge_of_find_eq_none n erases keeps hk]
      | some d =>
        rw [value_merge_key n erases keeps hsrc hk, value_key]
        rcases writes_or_inner dst hk with hwrite | ⟨fs, gs, rfl, hin⟩
        · exact absurd (by simp) (hw _ _ hwrite).1
        · have hw' : ∀ ks d, Writes fs gs ks d → ¬ks.map Step.key <+: rest ∧ ¬rest <+: ks.map Step.key := by
            intro ks d h
            simpa using hw (k :: ks) d (.inside hk hin h)
          have hm' : ∀ ks, Makes fs gs ks → ¬rest <+: ks.map Step.key := by
            intro ks h
            simpa using hm (k :: ks) (.inside hk hin h)
          rcases inner_eq_some hin with ⟨hnone, rfl⟩ | hdst
          · -- the object is new, and the way goes on inside it
            cases rest with
            | nil => exact absurd (by simp) (hm [k] (.here hk hnone))
            | cons t rest =>
              have hfresh := value_of_no_writes (fun ks d h => (hw' ks d h).1) hm'
              rw [hnone, Option.bind_none]
              exact hfresh
          · have hrec := ih (keyed_of_find hsrc hk) (n.key p k) hw' hm'
            rw [hdst, mergeValue_obj, Option.bind_some, Option.bind_some, hrec]

theorem merge_self {p : π} (hkeyed : (Doc.obj src).keyed = true)
    (hfull : (Doc.obj src).every (fun s => !erases s) (fun _ => true) = true) :
    merge n erases keeps p src src = src := by
  induction src using fields_induct generalizing p with
  | obj fields ih =>
    refine merge_eq_of_forall fun f hf => ?_
    obtain ⟨k, e⟩ := f
    have hkeys := (keyed_obj_iff fields).mp hkeyed
    have hk := find_of_mem hkeys.1 hf
    have he := ((every_obj_iff _ _ fields).mp hfull).2 _ hf
    refine ⟨by simp [hk], ?_⟩
    simp only [hk]
    cases e with
    | leaf s =>
      have hs : erases s = false := (Bool.not_eq_true' _).mp he
      simp [mergeValue_leaf, hs]
    | arr items => rfl
    | obj gs => rw [mergeValue_obj, ih _ hf gs rfl (hkeys.2 _ hf) he]

theorem value_merge_of_value_eq (hsrc : (Doc.obj src).keyed = true) (p : π)
    (hdst : (Doc.obj dst).every (fun s => !erases s) (fun _ => true) = true) {steps : List (Step κ)}
    (h : (Doc.obj src).value steps = (Doc.obj dst).value steps) :
    (Doc.obj (merge n erases keeps p dst src)).value steps = (Doc.obj dst).value steps := by
  induction steps generalizing p dst src with
  | nil =>
    cases h
    rw [merge_self hsrc hdst]
  | cons s rest ih =>
    cases s with
    | item i => rfl
    | key k =>
      cases hk : find k src with
      | none => rw [value_key, value_key, find_merge_of_find_eq_none n erases keeps hk]
      | some d =>
        rw [value_key, value_key, hk, Option.bind_some] at h
        rw [value_merge_key n erases keeps hsrc hk, value_key]
        cases d with
        | leaf s =>
          rw [mergeValue_leaf]
          split_ifs with he hold
          · -- the value erases, so it is not the one that was there
            cases rest with
            | cons t rest => cases t <;> exact h
            | nil =>
              obtain ⟨e, hd, hv⟩ := Option.bind_eq_some_iff.mp h.symm
              cases hv
              have hs : (!erases s) = true := ((every_obj_iff _ _ dst).mp hdst).2 _ (mem_of_find hd)
              rw [he] at hs
              cases hs
          · rfl
          · exact h
        | arr items => exact h
        | obj gs =>
          rcases mergeValue_obj_cases n erases keeps (n.key p k) (find k dst) gs with ⟨fs, hd, hval⟩ | hval
          · rw [hd] at h
            rw [hval, hd, Option.bind_some, Option.bind_some]
            exact ih (keyed_of_find hsrc hk) (n.key p k) (((every_obj_iff _ _ dst).mp hdst).2 _ (mem_of_find hd)) h
          · rw [hval]
            exact h

theorem value_merge_leaf (hsrc : (Doc.obj src).keyed = true) (p : π) {s : σ} (he : erases s = false) {ks : List κ}
    (hs : (Doc.obj src).value (ks.map Step.key) = some (.leaf s))
    (hd : (Doc.obj dst).value (ks.map Step.key) = some d) :
    (Doc.obj (merge n erases keeps p dst src)).value (ks.map Step.key) =
      some (if keeps (place n p (ks.map Step.key)) s then d else .leaf s) := by
  induction ks generalizing p dst src with
  | nil => cases hs
  | cons k ks ih =>
    obtain ⟨e, hk, hs⟩ := Option.bind_eq_some_iff.mp hs
    obtain ⟨f, hl, hd⟩ := Option.bind_eq_some_iff.mp hd
    rw [map_cons, value_merge_key n erases keeps hsrc hk, hl]
    cases ks with
    | nil =>
      cases hs
      cases hd
      cases hkeeps : keeps (n.key p k) s <;> simp [mergeValue_leaf, value_nil, place, he, hkeeps]
    | cons l ks =>
      match e, f, hs, hd with
      | .obj gs, .obj fs, hs, hd => exact ih (keyed_of_find hsrc hk) (n.key p k) hs hd

theorem keyed_merge {p : π} (hsrc : (Doc.obj src).keyed = true) (hdst : (Doc.obj dst).keyed = true) :
    (Doc.obj (merge n erases keeps p dst src)).keyed = true := by
  induction src using fields_induct generalizing p dst with
  | obj fields ih =>
    have hkeys := ((keyed_obj_iff fields).mp hsrc).2
    clear hsrc
    induction fields generalizing dst with
    | nil => exact hdst
    | cons f fields ih' =>
      obtain ⟨k, e⟩ := f
      obtain ⟨ihe, ihfields⟩ := forall_mem_cons.mp ih
      obtain ⟨he, hrest⟩ := forall_mem_cons.mp hkeys
      refine ih' ihfields (keyed_assign hdst fun e' he' => ?_) hrest
      cases e with
      | leaf s =>
        rw [mergeValue_leaf] at he'
        split_ifs at he'
        · exact keyed_of_find hdst he'
        · cases he'
          exact he
      | arr items =>
        cases he'
        exact he
      | obj gs =>
        rcases mergeValue_obj_cases n erases keeps (n.key p k) (find k dst) gs with ⟨fs, hd, hval⟩ | hval <;>
          rw [hval] at he' <;> cases he'
        · exact ihe gs rfl he (keyed_of_find hdst hd)
        · exact he

end Merge

section Paths
variable (n : Naming π κ)

mutual

def paths (p : π) : Doc κ σ → List π
  | .leaf _ => [p]
  | .arr items => itemPaths p 0 items
  | .obj fields => fieldPaths p fields

def itemPaths (p : π) (i : ℕ) : List (Doc κ σ) → List π
  | [] => []
  | d :: items => paths (n.item p i) d ++ itemPaths p (i + 1) items

def fieldPaths (p : π) : Fields κ σ → List π
  | [] => []
  | (k, d) :: fields => paths (n.key p k) d ++ fieldPaths p fields

end

variable {p q : π} {d : Doc κ σ} {fields : Fields κ σ}

theorem paths_subset_fieldPaths {k : κ} (h : (k, d) ∈ fields) :
    paths n (n.key p k) d ⊆ fieldPaths n p fields := by
  induction fields with
  | nil => cases h
  | cons f fields ih =>
    obtain ⟨l, e⟩ := f
    rcases mem_cons.mp h with heq | hmem
    · cases heq
      exact subset_append_left _ _
    · exact Subset.trans (ih hmem) (subset_append_right _ _)

theorem Writes.paths_subset [DecidableEq κ] {dst src : Fields κ σ} {ks : List κ} (h : Writes dst src ks d) :
    paths n (place n p (ks.map Step.key)) d ⊆ fieldPaths n p src := by
  induction h generalizing p with
  | here hs _ => exact paths_subset_fieldPaths n (mem_of_find hs)
  | inside hs _ _ ih => exact Subset.trans ih (paths_subset_fieldPaths n (mem_of_find hs))

theorem exists_of_mem_itemPaths {i : ℕ} {items : List (Doc κ σ)} (h : q ∈ itemPaths n p i items) :
    ∃ d ∈ items, ∃ j, q ∈ paths n (n.item p j) d := by
  induction items generalizing i with
  | nil => exact absurd h not_mem_nil
  | cons d items ih =>
    rcases mem_append.mp h with hd | hrest
    · exact ⟨d, mem_cons_self, i, hd⟩
    · obtain ⟨e, he, hq⟩ := ih hrest
      exact ⟨e, mem_cons_of_mem _ he, hq⟩

theorem exists_of_mem_fieldPaths (h : q ∈ fieldPaths n p fields) :
    ∃ f ∈ fields, q ∈ paths n (n.key p f.1) f.2 := by
  induction fields with
  | nil => exact absurd h not_mem_nil
  | cons f fields ih =>
    rcases mem_append.mp h with hf | hrest
    · exact ⟨f, mem_cons_self, hf⟩
    · obtain ⟨g, hg, hq⟩ := ih hrest
      exact ⟨g, mem_cons_of_mem _ hg, hq⟩

theorem paths_inherit {P : π → Prop} (hkey : ∀ p k, P p → P (n.key p k)) (hitem : ∀ p i, P p → P (n.item p i))
    (d : Doc κ σ) : ∀ {p q : π}, P p → q ∈ paths n p d → P q := by
  induction d using Doc.induct with
  | leaf s =>
    intro p q hp hq
    rw [mem_singleton.mp hq]
    exact hp
  | arr items ih =>
    intro p q hp hq
    obtain ⟨d, hd, j, hj⟩ := exists_of_mem_itemPaths n hq
    exact ih d hd (hitem p j hp) hj
  | obj fields ih =>
    intro p q hp hq
    obtain ⟨f, hf, hq⟩ := exists_of_mem_fieldPaths n hq
    exact ih f hf (hkey p f.1 hp) hq

end Paths

section Mask
variable (n : Naming π κ) (hides : π → Bool) (cover : σ)

mutual

/-- The document with the value of every hidden field replaced by `cover`. -/
def mask (p : π) : Doc κ σ → Doc κ σ
  | .leaf s => .leaf s
  | .arr items => .arr (maskItems p 0 items)
  | .obj fields => .obj (maskFields p fields)

def maskItems (p : π) (i : ℕ) : List (Doc κ σ) → List (Doc κ σ)
  | [] => []
  | d :: items => mask (n.item p i) d :: maskItems p (i + 1) items

def maskFields (p : π) : Fields κ σ → Fields κ σ
  | [] => []
  | (k, d) :: fields =>
    (k, if hides (n.key p k) then .leaf cover else mask (n.key p k) d) :: maskFields p fields

end

mutual

def holds (p : π) : Doc κ σ → Bool
  | .leaf _ => false
  | .arr items => holdsItem p 0 items
  | .obj fields => holdsField p fields

def holdsItem (p : π) (i : ℕ) : List (Doc κ σ) → Bool
  | [] => false
  | d :: items => holds (n.item p i) d || holdsItem p (i + 1) items

def holdsField (p : π) : Fields κ σ → Bool
  | [] => false
  | (k, d) :: fields => hides (n.key p k) || holds (n.key p k) d || holdsField p fields

end

mutual

/-- The documents differ at most in the values of hidden fields, which are at the same places in both. -/
inductive Alike : π → Doc κ σ → Doc κ σ → Prop
  | leaf (p s) : Alike p (.leaf s) (.leaf s)
  | arr {p xs ys} (h : AlikeItems p 0 xs ys) : Alike p (.arr xs) (.arr ys)
  | obj {p fs gs} (h : AlikeFields p fs gs) : Alike p (.obj fs) (.obj gs)

inductive AlikeItems : π → ℕ → List (Doc κ σ) → List (Doc κ σ) → Prop
  | nil (p i) : AlikeItems p i [] []
  | cons {p i x y xs ys} (h : Alike (n.item p i) x y) (hs : AlikeItems p (i + 1) xs ys) :
    AlikeItems p i (x :: xs) (y :: ys)

inductive AlikeFields : π → Fields κ σ → Fields κ σ → Prop
  | nil (p) : AlikeFields p [] []
  | hidden {p k x y fs gs} (hk : hides (n.key p k) = true) (hs : AlikeFields p fs gs) :
    AlikeFields p ((k, x) :: fs) ((k, y) :: gs)
  | cons {p k x y fs gs} (h : Alike (n.key p k) x y) (hs : AlikeFields p fs gs) :
    AlikeFields p ((k, x) :: fs) ((k, y) :: gs)

end

variable {n hides cover}

mutual

theorem Alike.mask_eq {p : π} {a b : Doc κ σ} : Alike n hides p a b → mask n hides cover p a = mask n hides cover p b
  | .leaf _ _ => rfl
  | .arr h => congrArg Doc.arr h.maskItems_eq
  | .obj h => congrArg Doc.obj h.maskFields_eq

theorem AlikeItems.maskItems_eq {p : π} {i : ℕ} {xs ys : List (Doc κ σ)} :
    AlikeItems n hides p i xs ys → maskItems n hides cover p i xs = maskItems n hides cover p i ys
  | .nil _ _ => rfl
  | .cons h hs => congrArg₂ cons h.mask_eq hs.maskItems_eq

theorem AlikeFields.maskFields_eq {p : π} {fs gs : Fields κ σ} :
    AlikeFields n hides p fs gs → maskFields n hides cover p fs = maskFields n hides cover p gs
  | .nil _ => rfl
  | .hidden hk hs => congrArg₂ cons (congrArg (Prod.mk _) ((if_pos hk).trans (if_pos hk).symm)) hs.maskFields_eq
  | .cons h hs => congrArg₂ cons (congrArg (fun d => (_, if hides _ then .leaf cover else d)) h.mask_eq) hs.maskFields_eq

end

mutual

theorem Alike.eq_of_not_holds {p : π} {a b : Doc κ σ} : Alike n hides p a b → holds n hides p a = false → a = b
  | .leaf _ _, _ => rfl
  | .arr h, ha => congrArg Doc.arr (h.eq_of_not_holds ha)
  | .obj h, ha => congrArg Doc.obj (h.eq_of_not_holds ha)

theorem AlikeItems.eq_of_not_holds {p : π} {i : ℕ} {xs ys : List (Doc κ σ)} :
    AlikeItems n hides p i xs ys → holdsItem n hides p i xs = false → xs = ys
  | .nil _ _, _ => rfl
  | .cons h hs, ha =>
    have ha := Bool.or_eq_false_iff.mp ha
    congrArg₂ cons (h.eq_of_not_holds ha.1) (hs.eq_of_not_holds ha.2)

theorem AlikeFields.eq_of_not_holds {p : π} {fs gs : Fields κ σ} :
    AlikeFields n hides p fs gs → holdsField n hides p fs = false → fs = gs
  | .nil _, _ => rfl
  | .hidden hk _, ha =>
    have ha := Bool.or_eq_false_iff.mp (Bool.or_eq_false_iff.mp ha).1
    absurd hk (Bool.eq_false_iff.mp ha.1)
  | .cons h hs, ha =>
    have ha := Bool.or_eq_false_iff.mp ha
    congrArg₂ cons (congrArg (Prod.mk _) (h.eq_of_not_holds (Bool.or_eq_false_iff.mp ha.1).2)) (hs.eq_of_not_holds ha.2)

end

mutual

theorem Alike.symm {p : π} {a b : Doc κ σ} : Alike n hides p a b → Alike n hides p b a
  | .leaf p s => .leaf p s
  | .arr h => .arr h.symm
  | .obj h => .obj h.symm

theorem AlikeItems.symm {p : π} {i : ℕ} {xs ys : List (Doc κ σ)} :
    AlikeItems n hides p i xs ys → AlikeItems n hides p i ys xs
  | .nil p i => .nil p i
  | .cons h hs => .cons h.symm hs.symm

theorem AlikeFields.symm {p : π} {fs gs : Fields κ σ} : AlikeFields n hides p fs gs → AlikeFields n hides p gs fs
  | .nil p => .nil p
  | .hidden hk hs => .hidden hk hs.symm
  | .cons h hs => .cons h.symm hs.symm

end

theorem AlikeFields.find [DecidableEq κ] {p : π} {fs gs : Fields κ σ} (h : AlikeFields n hides p fs gs) (k : κ) :
    find k fs = none ∧ find k gs = none ∨ ∃ x y, find k fs = some x ∧ find k gs = some y ∧
      (hides (n.key p k) = true ∨ Alike n hides (n.key p k) x y) := by
  induction fs generalizing gs with
  | nil =>
    cases h
    exact .inl ⟨rfl, rfl⟩
  | cons f fs ih =>
    cases h with
    | @hidden _ l x y _ gs hv hs | @cons _ l x y _ gs hv hs =>
      by_cases hk : k = l
      · subst hk
        exact .inr ⟨x, y, if_pos rfl, if_pos rfl, by simp [hv]⟩
      · simpa only [find_cons, if_neg hk] using ih hs

end Mask

end Doc

end MeshDesk.Lib
