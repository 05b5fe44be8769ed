import Mathlib.Algebra.Order.Monoid.Defs
import Mathlib.Data.List.Perm.Subperm
import Mathlib.Data.List.Chain
import Mathlib.Data.List.Nodup

/-! Shortest paths from a vertex by settling the nearest one that is left. The labels of a search are a
tentative distance and a predecessor for each vertex reached so far, the settled vertices with the latest
first, and a queue that may hold outdated entries. -/
namespace MeshDesk.Lib
open List Option
variable {V W : Type*}

/-! ### Walks -/

structure IsWalk (adj : V → V → Prop) (s t : V) (p : List V) : Prop where
  head : p.head? = some s
  last : p.getLast? = some t
  chain : p.IsChain adj

def walkWeight [Zero W] [Add W] (w : V → V → W) : List V → W
  | u :: v :: p => w u v + walkWeight w (v :: p)
  | _ => 0

section Walks
variable {adj : V → V → Prop} {s t u v : V} {p : List V}

theorem IsWalk.start (adj : V → V → Prop) (s : V) : IsWalk adj s s [s] := ⟨rfl, rfl, .singleton s⟩

theorem IsWalk.ne_nil (h : IsWalk adj s t p) : p ≠ [] := by
  rintro rfl
  cases h.head

theorem IsWalk.concat (h : IsWalk adj s u p) (ha : adj u v) : IsWalk adj s v (p ++ [v]) := by
  refine ⟨?_, getLast?_concat, ?_⟩
  · rw [head?_append_of_ne_nil _ h.ne_nil, h.head]
  · refine isChain_append.mpr ⟨h.chain, .singleton v, fun x hx y hy => ?_⟩
    obtain rfl := mem_unique h.last hx
    obtain rfl := some.inj hy
    exact ha

theorem IsWalk.induct {motive : V → List V → Prop} (hstart : motive s [s])
    (hstep : ∀ u v p, adj u v → motive u p → motive v (p ++ [v])) (h : IsWalk adj s t p) : motive t p := by
  induction p using reverseRecOn generalizing t with
  | nil => exact absurd rfl h.ne_nil
  | append_singleton p x ih =>
    obtain rfl : x = t := mem_unique getLast?_concat h.last
    obtain rfl | ⟨q, u, rfl⟩ := p.eq_nil_or_concat'
    · obtain rfl : x = s := some.inj h.head
      exact hstart
    · obtain ⟨hchain, -, hlast⟩ := isChain_append.mp h.chain
      have hwalk : IsWalk adj s u (q ++ [u]) := by
        refine ⟨?_, getLast?_concat, hchain⟩
        rw [← h.head, head?_append_of_ne_nil (q ++ [u]) (by simp)]
      exact hstep u x (q ++ [u]) (hlast u getLast?_concat x rfl) (ih hwalk)

theorem IsWalk.restrict {P : V → Prop} (h : IsWalk adj s t p) (hP : ∀ v ∈ p, P v) :
    IsWalk (fun u v => adj u v ∧ P v) s t p :=
  ⟨h.head, h.last, h.chain.imp_of_mem_imp fun _ v _ hv hadj => ⟨hadj, hP v hv⟩⟩

theorem IsWalk.of_restrict {P : V → Prop} (h : IsWalk (fun u v => adj u v ∧ P v) s t p) (hs : P s) :
    IsWalk adj s t p ∧ ∀ v ∈ p, P v := by
  refine ⟨⟨h.head, h.last, h.chain.imp fun _ _ hadj => hadj.1⟩, ?_⟩
  refine h.induct (motive := fun _ q => ∀ v ∈ q, P v) (by simpa using hs) fun u v q hadj hq => ?_
  exact forall_mem_append.mpr ⟨hq, forall_mem_singleton.mpr hadj.2⟩

theorem walkWeight_concat [AddCommMonoid W] (w : V → V → W) (h : p.getLast? = some u) :
    walkWeight w (p ++ [v]) = walkWeight w p + w u v := by
  induction p with
  | nil => cases h
  | cons a p ih =>
    cases p with
    | nil =>
      obtain rfl : a = u := some.inj h
      simp [walkWeight]
    | cons b p =>
      have hrec := ih (by rwa [getLast?_cons_cons] at h)
      simp only [cons_append, walkWeight] at hrec ⊢
      rw [hrec, add_assoc]

end Walks

/-! ### Labels -/

structure Labels (V W : Type*) where
  dist : V → Option W
  prev : V → Option V
  settled : List V
  queue : List (W × V)

/-- The settled vertices form a tree: each one but the source was reached from one settled before it. -/
inductive SettledTree [Add W] (adj : V → V → Prop) (w : V → V → W) (s : V) (dist : V → Option W) (prev : V → Option V) :
    List V → Prop
  | nil : SettledTree adj w s dist prev []
  | root : SettledTree adj w s dist prev [s]
  | cons {u v : V} {d : W} {r : List V} (hr : SettledTree adj w s dist prev r) (hu : u ∈ r) (hv : v ∉ r)
      (hprev : prev v = some u) (hadj : adj u v) (hdu : dist u = some d) (hdv : dist v = some (d + w u v)) :
      SettledTree adj w s dist prev (v :: r)

/-- Following the predecessors from `v` back to `s` gives `p`. -/
inductive TracedBack (prev : V → Option V) (s : V) : V → List V → Prop
  | source : TracedBack prev s s [s]
  | step {u v : V} {p : List V} (hv : v ≠ s) (hprev : prev v = some u) (hp : TracedBack prev s u p) :
      TracedBack prev s v (p ++ [v])

section Tree
variable {adj : V → V → Prop} {s : V} {dist dist' : V → Option W} {prev prev' : V → Option V} {r : List V}

variable {w : V → V → W}

theorem SettledTree.source_mem [Add W] (h : SettledTree adj w s dist prev r) (hr : r ≠ []) : s ∈ r := by
  induction h with
  | nil => exact absurd rfl hr
  | root => exact mem_singleton_self s
  | cons hr' hu _ _ _ _ _ ih => exact mem_cons_of_mem _ (ih (ne_nil_of_mem hu))

theorem SettledTree.congr [Add W] (h : SettledTree adj w s dist prev r)
    (hsame : ∀ v ∈ r, dist' v = dist v ∧ prev' v = prev v) : SettledTree adj w s dist' prev' r := by
  induction h with
  | nil => exact .nil
  | root => exact .root
  | @cons u v d r hr hu hv hprev hadj hdu hdv ih =>
    have hold := ih (forall_mem_cons.mp hsame).2
    obtain ⟨hdist, hp⟩ := hsame v mem_cons_self
    refine .cons hold hu hv (hp.trans hprev) hadj ?_ (hdist.trans hdv)
    exact (hsame u (mem_cons_of_mem _ hu)).1.trans hdu

theorem SettledTree.labelled [AddCommMonoid W] (h : SettledTree adj w s dist prev r)
    (hs : dist s = some 0) {v : V} (hv : v ∈ r) : ∃ d, dist v = some d := by
  induction h with
  | nil => cases hv
  | root =>
    obtain rfl := mem_singleton.mp hv
    exact ⟨0, hs⟩
  | cons hr hu hnew hprev hadj hdu hdv ih =>
    obtain rfl | hv := mem_cons.mp hv
    · exact ⟨_, hdv⟩
    · exact ih hv

theorem SettledTree.path [AddCommMonoid W] (h : SettledTree adj w s dist prev r)
    (hs : dist s = some 0) {v : V} (hv : v ∈ r) :
    ∃ p, TracedBack prev s v p ∧ IsWalk adj s v p ∧ p.Nodup ∧ p ⊆ r ∧ dist v = some (walkWeight w p) := by
  induction h generalizing v with
  | nil => cases hv
  | root =>
    obtain rfl := mem_singleton.mp hv
    exact ⟨[v], .source, .start adj v, nodup_singleton v, Subset.refl _, hs⟩
  | @cons u x d r hr hu hx hprev hadj hdu hdx ih =>
    obtain rfl | hv := mem_cons.mp hv
    · obtain ⟨p, htrace, hwalk, hnodup, hsub, hdist⟩ := ih hu
      have hne : v ≠ s := fun he => hx (he ▸ hr.source_mem (ne_nil_of_mem hu))
      obtain rfl := mem_unique hdu hdist
      refine ⟨p ++ [v], .step hne hprev htrace, hwalk.concat hadj, ?_, ?_, ?_⟩
      · exact hnodup.append (nodup_singleton v) (disjoint_singleton.mpr fun hm => hx (hsub hm))
      · intro y hy
        obtain hy | hy := mem_append.mp hy
        · exact mem_cons_of_mem _ (hsub hy)
        · exact mem_singleton.mp hy ▸ mem_cons_self
      · rw [hdx, walkWeight_concat w hwalk.last]
    · obtain ⟨p, htrace, hwalk, hnodup, hsub, hdist⟩ := ih hv
      exact ⟨p, htrace, hwalk, hnodup, fun y hy => mem_cons_of_mem _ (hsub hy), hdist⟩

end Tree

/-! ### Relaxation -/

/-- What looking at the edges from `u`, which has distance `d`, to the vertices `vs` does to the labels.
A vertex that is not settled yet gets the way over `u` if that is its first or a shorter one. -/
structure Relaxes [Add W] [LinearOrder W] (w : V → V → W) (u : V) (d : W) (vs : List V) (L L' : Labels V W) :
    Prop where
  settled : L'.settled = L.settled
  label : ∀ v, (L'.dist v = L.dist v ∧ L'.prev v = L.prev v) ∨
    (v ∈ vs ∧ v ∉ L.settled ∧ L'.prev v = some u ∧ L'.dist v = some (d + w u v) ∧ (d + w u v, v) ∈ L'.queue ∧
      ∀ e, L.dist v = some e → d + w u v < e)
  reached : ∀ v ∈ vs, v ∉ L.settled → ∃ e, L'.dist v = some e ∧ e ≤ d + w u v
  queue : L.queue ⊆ L'.queue
  pushed : ∀ e ∈ L'.queue, e ∈ L.queue ∨ ∃ v ∈ vs, v ∉ L.settled ∧ e = (d + w u v, v)

namespace Relaxes
variable [Add W] [LinearOrder W] {w : V → V → W} {u v : V} {d : W} {vs vs' : List V} {L L' L'' : Labels V W}

theorem refl (w : V → V → W) (u : V) (d : W) (L : Labels V W) : Relaxes w u d [] L L where
  settled := rfl
  label _ := .inl ⟨rfl, rfl⟩
  reached _ hv := by cases hv
  queue := Subset.refl _
  pushed _ he := .inl he

theorem keep (h : v ∈ L.settled ∨ ∃ e, L.dist v = some e ∧ e ≤ d + w u v) : Relaxes w u d [v] L L where
  settled := rfl
  label _ := .inl ⟨rfl, rfl⟩
  reached := forall_mem_singleton.mpr h.resolve_left
  queue := Subset.refl _
  pushed _ he := .inl he

theorem improve [DecidableEq V] (hv : v ∉ L.settled) (hlt : ∀ e, L.dist v = some e → d + w u v < e) :
    Relaxes w u d [v] L ⟨Function.update L.dist v (some (d + w u v)), Function.update L.prev v (some u), L.settled,
      L.queue ++ [(d + w u v, v)]⟩ where
  settled := rfl
  label x := by
    by_cases hx : x = v
    · subst hx
      exact .inr ⟨mem_singleton_self x, hv, Function.update_self .., Function.update_self ..,
        mem_append_right _ (mem_singleton_self _), hlt⟩
    · exact .inl ⟨Function.update_of_ne hx .., Function.update_of_ne hx ..⟩
  reached := forall_mem_singleton.mpr fun _ => ⟨_, Function.update_self .., le_rfl⟩
  queue := subset_append_left _ _
  pushed e he := by
    obtain he | he := mem_append.mp he
    · exact .inl he
    · exact .inr ⟨v, mem_singleton_self v, hv, mem_singleton.mp he⟩

theorem frozen (h : Relaxes w u d vs L L') (hv : v ∈ L.settled) : L'.dist v = L.dist v ∧ L'.prev v = L.prev v := by
  obtain hsame | ⟨-, hnot, -⟩ := h.label v
  · exact hsame
  · exact absurd hv hnot

theorem le (h : Relaxes w u d vs L L') {e : W} (he : L.dist v = some e) : ∃ e', L'.dist v = some e' ∧ e' ≤ e := by
  obtain ⟨hsame, -⟩ | ⟨-, -, -, hnew, -, hlt⟩ := h.label v
  · exact ⟨e, hsame.trans he, le_rfl⟩
  · exact ⟨_, hnew, (hlt e he).le⟩

theorem append (h : Relaxes w u d vs L L') (h' : Relaxes w u d vs' L' L'') : Relaxes w u d (vs ++ vs') L L'' where
  settled := h'.settled.trans h.settled
  label v := by
    obtain ⟨hdist, hprev⟩ | ⟨hv, hnot, hprev, hdist, hqueue, hlt⟩ := h'.label v
    · rw [hdist, hprev]
      obtain hsame | ⟨hv, hnot, hprev, hdist, hqueue, hlt⟩ := h.label v
      · exact .inl hsame
      · exact .inr ⟨mem_append_left _ hv, hnot, hprev, hdist, h'.queue hqueue, hlt⟩
    · rw [h.settled] at hnot
      refine .inr ⟨mem_append_right _ hv, hnot, hprev, hdist, hqueue, fun e he => ?_⟩
      obtain ⟨e', he', hle⟩ := h.le he
      exact (hlt e' he').trans_le hle
  reached v hv hnot := by
    obtain hv | hv := mem_append.mp hv
    · obtain ⟨e, he, hle⟩ := h.reached v hv hnot
      obtain ⟨e', he', hle'⟩ := h'.le he
      exact ⟨e', he', hle'.trans hle⟩
    · exact h'.reached v hv (h.settled ▸ hnot)
  queue := Subset.trans h.queue h'.queue
  pushed e he := by
    obtain he | ⟨v, hv, hnot, rfl⟩ := h'.pushed e he
    · obtain he | ⟨v, hv, hnot, rfl⟩ := h.pushed e he
      · exact .inl he
      · exact .inr ⟨v, mem_append_left _ hv, hnot, rfl⟩
    · exact .inr ⟨v, mem_append_right _ hv, h.settled ▸ hnot, rfl⟩

end Relaxes

/-! ### The search -/

namespace Labels

def init [Zero W] [DecidableEq V] (s : V) : Labels V W :=
  ⟨fun v => if v = s then some 0 else none, fun _ => none, [], [(0, s)]⟩

/-- The queue without some of the entries of `u`. -/
structure Without (L : Labels V W) (u : V) (queue : List (W × V)) : Prop where
  sub : queue ⊆ L.queue
  keep : ∀ e ∈ L.queue, e.2 ≠ u → e ∈ queue

/-- What holds of the labels whatever the weights are. The vertices in `ex` are settled, but their edges
have not been looked at. -/
structure Tree [AddCommMonoid W] (adj : V → V → Prop) (w : V → V → W) (s : V) (ex : V → Prop) (L : Labels V W) :
    Prop where
  source : L.dist s = some 0
  tree : SettledTree adj w s L.dist L.prev L.settled
  parent : ∀ v d, v ∉ L.settled → v ≠ s → L.dist v = some d →
    ∃ u ∈ L.settled, ∃ e, L.prev v = some u ∧ adj u v ∧ L.dist u = some e ∧ d = e + w u v
  queued : ∀ v d, v ∉ L.settled → L.dist v = some d → (d, v) ∈ L.queue
  labelled : ∀ e ∈ L.queue, ∃ d, L.dist e.2 = some d
  closed : ∀ u ∈ L.settled, ¬ ex u → ∀ v, adj u v → ∃ d, L.dist v = some d

/-- What holds of the labels when the least entry is taken from the queue and no weight is negative. -/
structure Least [AddCommMonoid W] [LinearOrder W] (adj : V → V → Prop) (w : V → V → W) (ex : V → Prop)
    (L : Labels V W) : Prop where
  entries : ∀ e ∈ L.queue, ∃ d, L.dist e.2 = some d ∧ d ≤ e.1
  ordered : ∀ u ∈ L.settled, ∀ d, L.dist u = some d → ∀ e ∈ L.queue, d ≤ e.1
  relaxed : ∀ u ∈ L.settled, ¬ ex u → ∀ v, adj u v → ∀ d, L.dist u = some d → ∃ e, L.dist v = some e ∧ e ≤ d + w u v

variable {adj : V → V → Prop} {w : V → V → W} {s t u v : V} {ex : V → Prop} {L L' : Labels V W}
  {queue : List (W × V)} {vs : List V}

section Tree
variable [AddCommMonoid W]

theorem tree_init [DecidableEq V] (adj : V → V → Prop) (w : V → V → W) (s : V) (ex : V → Prop) :
    (init s).Tree adj w s ex where
  source := if_pos rfl
  tree := .nil
  parent v d _ hne hd := by
    simp only [init, if_neg hne] at hd
    cases hd
  queued v d _ hd := by
    by_cases hv : v = s
    · subst hv
      simp only [init, if_true, some.injEq] at hd ⊢
      rw [hd]
      exact mem_singleton_self _
    · simp only [init, if_neg hv] at hd
      cases hd
  labelled := forall_mem_singleton.mpr ⟨0, if_pos rfl⟩
  closed u hu := by cases hu

theorem Tree.settled_labelled (h : L.Tree adj w s ex) (hv : v ∈ L.settled) : ∃ d, L.dist v = some d :=
  h.tree.labelled h.source hv

theorem Tree.drop (h : L.Tree adj w s ex) (hu : u ∈ L.settled) (hq : L.Without u queue) :
    Tree adj w s ex { L with queue := queue } where
  source := h.source
  tree := h.tree
  parent := h.parent
  queued v d hv hd := by
    refine hq.keep _ (h.queued v d hv hd) fun he => hv ?_
    obtain rfl : v = u := he
    exact hu
  labelled e he := h.labelled e (hq.sub he)
  closed := h.closed

theorem Tree.settle (h : L.Tree adj w s ex) {d : W} (he : (d, u) ∈ L.queue) (hu : u ∉ L.settled)
    (hq : L.Without u queue) :
    Tree adj w s (fun x => ex x ∨ x = u) { L with settled := u :: L.settled, queue := queue } where
  source := h.source
  tree := by
    by_cases hs : u = s
    · -- the source is the first vertex to be settled
      have hnil : L.settled = [] := by
        by_contra hne
        exact hu (hs ▸ h.tree.source_mem hne)
      rw [hnil, hs]
      exact .root
    · obtain ⟨du, hdu⟩ := h.labelled _ he
      obtain ⟨x, hx, dx, hprev, hadj, hdx, rfl⟩ := h.parent u du hu hs hdu
      exact .cons h.tree hx hu hprev hadj hdx hdu
  parent v d hv hne hd := by
    obtain ⟨x, hx, hrest⟩ := h.parent v d (fun hm => hv (mem_cons_of_mem _ hm)) hne hd
    exact ⟨x, mem_cons_of_mem _ hx, hrest⟩
  queued v d hv hd := by
    obtain ⟨hne, hold⟩ := not_or.mp (mt mem_cons.mpr hv)
    exact hq.keep _ (h.queued v d hold hd) hne
  labelled e he := h.labelled e (hq.sub he)
  closed x hx hex := by
    obtain ⟨hex, hne⟩ := not_or.mp hex
    exact h.closed x ((mem_cons.mp hx).resolve_left hne) hex

theorem Tree.expand [LinearOrder W] (h : L.Tree adj w s (fun x => ex x ∨ x = u)) (hu : u ∈ L.settled) {d : W}
    (hd : L.dist u = some d) (hr : Relaxes w u d vs L L') (hadj : ∀ v, v ∈ vs ↔ adj u v) : L'.Tree adj w s ex where
  source := (hr.frozen (h.tree.source_mem (ne_nil_of_mem hu))).1.trans h.source
  tree := by
    rw [hr.settled]
    exact h.tree.congr fun v hv => hr.frozen hv
  parent v e hv hne he := by
    rw [hr.settled] at hv ⊢
    obtain ⟨hdist, hprev⟩ | ⟨hmem, -, hprev, hdist, -⟩ := hr.label v
    · obtain ⟨x, hx, dx, hpx, hax, hdx, hsum⟩ := h.parent v e hv hne (hdist.symm.trans he)
      exact ⟨x, hx, dx, hprev.trans hpx, hax, (hr.frozen hx).1.trans hdx, hsum⟩
    · obtain rfl := mem_unique hdist he
      exact ⟨u, hu, d, hprev, (hadj v).mp hmem, (hr.frozen hu).1.trans hd, rfl⟩
  queued v e hv he := by
    rw [hr.settled] at hv
    obtain ⟨hdist, -⟩ | ⟨-, -, -, hdist, hqueue, -⟩ := hr.label v
    · exact hr.queue (h.queued v e hv (hdist.symm.trans he))
    · obtain rfl := mem_unique hdist he
      exact hqueue
  labelled e he := by
    obtain he | ⟨v, hv, hnot, rfl⟩ := hr.pushed e he
    · obtain ⟨c, hc⟩ := h.labelled e he
      obtain ⟨c', hc', -⟩ := hr.le hc
      exact ⟨c', hc'⟩
    · obtain ⟨c, hc, -⟩ := hr.reached v hv hnot
      exact ⟨c, hc⟩
  closed x hx hex v hav := by
    rw [hr.settled] at hx
    have hlabel : (∃ c, L.dist v = some c) → ∃ c, L'.dist v = some c := by
      rintro ⟨c, hc⟩
      obtain ⟨c', hc', -⟩ := hr.le hc
      exact ⟨c', hc'⟩
    by_cases hxu : x = u
    · subst hxu
      by_cases hv : v ∈ L.settled
      · exact hlabel (h.settled_labelled hv)
      · obtain ⟨c, hc, -⟩ := hr.reached v ((hadj v).mpr hav) hv
        exact ⟨c, hc⟩
    · exact hlabel (h.closed x hx (not_or.mpr ⟨hex, hxu⟩) v hav)

theorem Tree.settled_of_walk (h : L.Tree adj w s (fun _ => False)) (hq : L.queue = []) {p : List V}
    (hp : IsWalk adj s t p) : t ∈ L.settled := by
  have hlabelled : ∀ v d, L.dist v = some d → v ∈ L.settled := by
    intro v d hd
    by_contra hv
    have hmem := h.queued v d hv hd
    rw [hq] at hmem
    cases hmem
  refine hp.induct (motive := fun v _ => v ∈ L.settled) (hlabelled s 0 h.source) ?_
  intro u v p hadj hu
  obtain ⟨d, hd⟩ := h.closed u hu not_false v hadj
  exact hlabelled v d hd

end Tree

section Least
variable [AddCommMonoid W] [LinearOrder W]

theorem least_init [DecidableEq V] (adj : V → V → Prop) (w : V → V → W) (s : V) (ex : V → Prop) :
    (init s).Least adj w ex where
  entries := forall_mem_singleton.mpr ⟨0, if_pos rfl, le_rfl⟩
  ordered u hu := by cases hu
  relaxed u hu := by cases hu

theorem Least.drop (h : L.Least adj w ex) (hq : queue ⊆ L.queue) : Least adj w ex { L with queue := queue } where
  entries e he := h.entries e (hq he)
  ordered u hu d hd e he := h.ordered u hu d hd e (hq he)
  relaxed := h.relaxed

variable {d : W}

theorem Least.dist_eq (h : L.Least adj w ex) (ht : L.Tree adj w s ex) (he : (d, u) ∈ L.queue)
    (hmin : ∀ e ∈ L.queue, d ≤ e.1) (hu : u ∉ L.settled) : L.dist u = some d := by
  obtain ⟨c, hc, hle⟩ := h.entries _ he
  have hge := hmin _ (ht.queued u c hu hc)
  rw [hc, le_antisymm hle hge]

theorem Least.settle (h : L.Least adj w ex) (hd : L.dist u = some d) (hmin : ∀ e ∈ L.queue, d ≤ e.1)
    (hq : queue ⊆ L.queue) :
    Least adj w (fun x => ex x ∨ x = u) { L with settled := u :: L.settled, queue := queue } where
  entries e he := h.entries e (hq he)
  ordered x hx c hc e he := by
    obtain rfl | hx := mem_cons.mp hx
    · obtain rfl := mem_unique hd hc
      exact hmin e (hq he)
    · exact h.ordered x hx c hc e (hq he)
  relaxed x hx hex := by
    obtain ⟨hex, hne⟩ := not_or.mp hex
    exact h.relaxed x ((mem_cons.mp hx).resolve_left hne) hex

variable [IsOrderedAddMonoid W]

theorem Least.expand (h : L.Least adj w (fun x => ex x ∨ x = u)) (hd : L.dist u = some d)
    (hlast : ∀ x ∈ L.settled, ∀ c, L.dist x = some c → c ≤ d) (hr : Relaxes w u d vs L L')
    (hadj : ∀ v, v ∈ vs ↔ adj u v) (hw : ∀ v, adj u v → 0 ≤ w u v)
    (hlabelled : ∀ v ∈ L.settled, ∃ c, L.dist v = some c) : L'.Least adj w ex where
  entries e he := by
    obtain he | ⟨v, hv, hnot, rfl⟩ := hr.pushed e he
    · obtain ⟨c, hc, hle⟩ := h.entries e he
      obtain ⟨c', hc', hle'⟩ := hr.le hc
      exact ⟨c', hc', hle'.trans hle⟩
    · exact hr.reached v hv hnot
  ordered x hx c hc e he := by
    rw [hr.settled] at hx
    rw [(hr.frozen hx).1] at hc
    obtain he | ⟨v, hv, hnot, rfl⟩ := hr.pushed e he
    · exact h.ordered x hx c hc e he
    · exact (hlast x hx c hc).trans (le_add_of_nonneg_right (hw v ((hadj v).mp hv)))
  relaxed x hx hex v hav c hc := by
    rw [hr.settled] at hx
    rw [(hr.frozen hx).1] at hc
    by_cases hxu : x = u
    · subst hxu
      obtain rfl := mem_unique hd hc
      by_cases hv : v ∈ L.settled
      · obtain ⟨b, hb⟩ := hlabelled v hv
        exact ⟨b, (hr.frozen hv).1.trans hb, (hlast v hv b hb).trans (le_add_of_nonneg_right (hw v hav))⟩
      · exact hr.reached v ((hadj v).mpr hav) hv
    · obtain ⟨b, hb, hle⟩ := h.relaxed x hx (not_or.mpr ⟨hex, hxu⟩) v hav c hc
      obtain ⟨b', hb', hle'⟩ := hr.le hb
      exact ⟨b', hb', hle'.trans hle⟩

/-- The distance of a settled vertex is at most the weight of a walk to it, if the edges of all other settled
vertices on its way have been looked at. -/
theorem Least.le_walkWeight (h : L.Least adj w ex) (ht : L.Tree adj w s ex) (hw : ∀ u v, adj u v → 0 ≤ w u v)
    (hmem : t ∈ L.settled) (hd : L.dist t = some d) {p : List V} (hp : IsWalk adj s t p)
    (hex : ∀ u v q c, u ∈ L.settled → u ≠ t → IsWalk adj s u q → q.length < p.length → adj u v → L.dist u = some c →
      c ≤ walkWeight w q → ¬ ex u) : d ≤ walkWeight w p := by
  -- as long as the walk is lighter than that, it stays among settled vertices other than `t`
  have hstays : IsWalk adj s t p ∧ (p.length ≤ p.length → d ≤ walkWeight w p ∨
      (t ≠ t ∧ t ∈ L.settled ∧ ∃ c, L.dist t = some c ∧ c ≤ walkWeight w p)) := by
    refine hp.induct (motive := fun v q => IsWalk adj s v q ∧ (q.length ≤ p.length → d ≤ walkWeight w q ∨
      (v ≠ t ∧ v ∈ L.settled ∧ ∃ c, L.dist v = some c ∧ c ≤ walkWeight w q))) ⟨.start adj s, fun _ => ?_⟩ ?_
    · by_cases hs : s = t
      · rw [hs] at ht
        obtain rfl := mem_unique hd ht.source
        exact .inl le_rfl
      · exact .inr ⟨hs, ht.tree.source_mem (ne_nil_of_mem hmem), 0, ht.source, le_rfl⟩
    · rintro u v q hadj ⟨hwalk, hq⟩
      refine ⟨hwalk.concat hadj, fun hlen => ?_⟩
      rw [length_append, length_singleton] at hlen
      rw [walkWeight_concat w hwalk.last]
      obtain hle | ⟨hne, hu, c, hc, hle⟩ := hq (by omega)
      · exact .inl (hle.trans (le_add_of_nonneg_right (hw u v hadj)))
      obtain ⟨b, hb, hbc⟩ := h.relaxed u hu (hex u v q c hu hne hwalk hlen hadj hc hle) v hadj c hc
      have hbq : b ≤ walkWeight w q + w u v := hbc.trans (add_le_add_left hle _)
      by_cases hvt : v = t
      · subst hvt
        obtain rfl := mem_unique hd hb
        exact .inl hbq
      by_cases hv : v ∈ L.settled
      · exact .inr ⟨hvt, hv, b, hb, hbq⟩
      · -- a vertex that waits in the queue is no nearer than `t`
        exact .inl ((h.ordered t hmem d hd _ (ht.queued v b hv hb)).trans hbq)
  exact (hstays.2 le_rfl).resolve_right fun hother => hother.1 rfl

end Least
end Labels
end MeshDesk.Lib
