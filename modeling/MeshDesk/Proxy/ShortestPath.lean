import MeshDesk.Lib.ShortestPaths
import MeshDesk.Lib.Unspecified
import MeshDesk.Proxy.LatencyMatrix
import Mathlib.Algebra.Order.BigOperators.Group.Finset

/-! `ShortestPath`. The search stops at the target or when its queue is empty; map iterations and ties in
the queue are resolved in any way. -/
namespace MeshDesk.Proxy
open Lib List

/-- How a search resolves what the language leaves open: which of the least queue entries is popped, and
the order in which the neighbours of a node come. -/
structure Choices where
  tie : ℕ → ℕ
  order : Arrangement (GoString × LatencyEdge)

/-- The variables of the search; `visited` holds the nodes mapped to true, the latest first. -/
structure Search where
  dist : Map GoString ℚ
  prev : Map GoString GoString
  visited : List GoString
  pq : List (ℚ × GoString)

def newSearch (source : GoString) : Search := ⟨(∅ : Map GoString ℚ).insert source 0, ∅, [], [(0, source)]⟩

namespace Search

def relax (blocked : List GoString) (u : GoString) (st : Search) (x : GoString × LatencyEdge) : Search :=
  if x.1 ∈ blocked ∨ x.1 ∈ st.visited then st
  else
    let alt := (st.dist.lookup u).getD 0 + x.2.weight
    if (st.dist.lookup x.1).all (fun d => alt < d) then
      { st with dist := st.dist.insert x.1 alt, prev := st.prev.insert x.1 u, pq := st.pq ++ [(alt, x.1)] }
    else st

/-- The path back from `cur`. A missing predecessor is the empty string, which ends the loop as well. -/
def reconstruct (source : GoString) (prev : Map GoString GoString) : ℕ → GoString → List GoString → List GoString
  | 0, _, path => path
  | fuel + 1, cur, path =>
    if cur = [] then path
    else if cur = source then cur :: path
    else reconstruct source prev fuel ((prev.lookup cur).getD []) (cur :: path)

end Search

namespace MeshLatencyMatrix
variable (m : MeshLatencyMatrix)

/-- The main loop. Every node's edges are looked at once, which bounds the entries ever pushed. -/
def search (target : GoString) (blocked : List GoString) (ch : Choices) : ℕ → Search → Search
  | 0, st => st
  | fuel + 1, st =>
    match popLeast Prod.fst (ch.tie fuel) st.pq with
    | none => st
    | some (cur, pq) =>
      if cur.2 ∈ st.visited then search target blocked ch fuel { st with pq := pq }
      else if cur.2 = target then { st with pq := pq, visited := cur.2 :: st.visited }
      else
        let neighbors := (m.neighbors cur.2).entries.map (fun e => (e.1, e.2))
        search target blocked ch fuel ((ch.order.arrange fuel neighbors).foldl (Search.relax blocked cur.2)
          { st with pq := pq, visited := cur.2 :: st.visited })

/-- A path through a node cannot leave it twice, so it has no more nodes than were visited. -/
def shortestPath (source target : GoString) (blocked : List GoString) (ch : Choices) : Option (List GoString) :=
  if source ∈ blocked ∨ target ∈ blocked then none
  else
    let st := m.search target blocked ch (m.edgeCount + 1) (newSearch source)
    if st.dist.lookup target = none then none
    else
      let path := Search.reconstruct source st.prev st.visited.length target []
      if path.head? = some source then some path else none

def Linked (blocked : List GoString) (u v : GoString) : Prop := (m.edge u v).isSome ∧ v ∉ blocked

/-- A way from `source` to `target` along edges that avoids the blocked nodes. The empty string is no
node. -/
structure IsRoute (blocked : List GoString) (source target : GoString) (p : List GoString) : Prop where
  walk : IsWalk (fun u v => (m.edge u v).isSome) source target p
  nodes : ∀ v ∈ p, v ∉ blocked ∧ v ≠ []

end MeshLatencyMatrix

/-! ### The way back -/

/-- The loop follows the predecessors to the source, unless it meets the empty string on the way. -/
theorem Search.reconstruct_eq {source v : GoString} {prev : Map GoString GoString} {p : List GoString}
    (h : TracedBack prev.lookup source v p) {fuel : ℕ} (hfuel : p.length ≤ fuel) (path : List GoString) :
    ([] ∉ p ∧ reconstruct source prev fuel v path = p ++ path) ∨
      ([] ∈ p ∧ ∃ q, source ∉ q ∧ reconstruct source prev fuel v path = q ++ path) := by
  induction h generalizing fuel path with
  | source =>
    obtain ⟨fuel, rfl⟩ := Nat.exists_eq_succ_of_ne_zero (Nat.one_le_iff_ne_zero.mp hfuel)
    by_cases hs : source = []
    · exact .inr ⟨by simp [hs], [], by simp, by simp [reconstruct, hs]⟩
    · exact .inl ⟨by simpa using Ne.symm hs, by simp [reconstruct, hs]⟩
  | @step u v p hv hprev hp ih =>
    rw [length_append, length_singleton] at hfuel
    obtain ⟨fuel, rfl⟩ : ∃ n, fuel = n + 1 := ⟨fuel - 1, by omega⟩
    have hlen : p.length ≤ fuel := by omega
    by_cases hnil : v = []
    · exact .inr ⟨by simp [hnil], [], by simp, by simp [reconstruct, hnil]⟩
    · have hunfold : reconstruct source prev (fuel + 1) v path = reconstruct source prev fuel u (v :: path) := by
        rw [reconstruct, if_neg hnil, if_neg hv, hprev]
        rfl
      rw [hunfold]
      obtain ⟨hnot, heq⟩ | ⟨hmem, q, hq, heq⟩ := ih hlen (v :: path)
      · exact .inl ⟨by simpa [hnot] using Ne.symm hnil, by simp [heq]⟩
      · exact .inr ⟨by simp [hmem], q ++ [v], by simpa [hq] using Ne.symm hv, by simp [heq]⟩

/-! ### The loop -/

namespace Search

def labels (st : Search) : Labels GoString ℚ := ⟨fun v => st.dist.lookup v, fun v => st.prev.lookup v, st.visited, st.pq⟩

theorem labels_new (source : GoString) : (newSearch source).labels = Labels.init source := by
  unfold labels newSearch Labels.init
  congr 1
  funext v
  by_cases hv : v = source
  · subst hv
    rw [AList.lookup_insert, if_pos rfl]
  · rw [AList.lookup_insert_ne hv, if_neg hv]
    rfl

variable {m : MeshLatencyMatrix} {blocked : List GoString} {u : GoString} {st : Search} {d : ℚ}

theorem labels_improve (st : Search) (u v : GoString) (alt : ℚ) :
    labels { st with dist := st.dist.insert v alt, prev := st.prev.insert v u, pq := st.pq ++ [(alt, v)] } =
      ⟨Function.update st.labels.dist v (some alt), Function.update st.labels.prev v (some u), st.visited,
        st.labels.queue ++ [(alt, v)]⟩ := by
  have hinsert : ∀ {β : Type} (f : Map GoString β) (b : β),
      (fun x => (f.insert v b).lookup x) = Function.update (fun x => f.lookup x) v (some b) := by
    intro β f b
    funext x
    by_cases hx : x = v
    · subst hx
      rw [AList.lookup_insert, Function.update_self]
    · rw [AList.lookup_insert_ne hx, Function.update_of_ne hx]
  simp only [labels, hinsert]

theorem relax_relaxes {x : GoString × LatencyEdge} (hx : m.edge u x.1 = some x.2) (hd : st.dist.lookup u = some d) :
    Relaxes m.weight u d ([x.1].filter (· ∉ blocked)) st.labels (st.relax blocked u x).labels := by
  obtain ⟨v, e⟩ := x
  have hweight : m.weight u v = e.weight := MeshLatencyMatrix.weight_of_edge hx
  unfold relax
  dsimp only
  by_cases hb : v ∈ blocked
  · rw [if_pos (.inl hb)]
    simpa [hb] using Relaxes.refl m.weight u d st.labels
  have hvs : [v].filter (· ∉ blocked) = [v] := by simp [hb]
  rw [hvs]
  by_cases hv : v ∈ st.visited
  · rw [if_pos (.inr hv)]
    exact .keep (.inl hv)
  rw [if_neg (not_or.mpr ⟨hb, hv⟩), hd, Option.getD_some, ← hweight]
  split_ifs with halt
  · rw [labels_improve]
    refine .improve hv fun b hb => ?_
    have hall : (st.dist.lookup v).all (fun b => d + m.weight u v < b) = true := halt
    rw [show st.dist.lookup v = some b from hb] at hall
    exact of_decide_eq_true hall
  · cases hlabel : st.dist.lookup v with
    | none =>
      rw [hlabel] at halt
      exact absurd rfl halt
    | some b =>
      rw [hlabel, Option.all_some, decide_eq_true_eq, not_lt] at halt
      exact .keep (.inr ⟨b, hlabel, halt⟩)

theorem relax_visited (blocked : List GoString) (u : GoString) (st : Search) (x : GoString × LatencyEdge) :
    (st.relax blocked u x).visited = st.visited := by
  unfold relax
  dsimp only
  split_ifs <;> rfl

theorem relax_pq_length (blocked : List GoString) (u : GoString) (st : Search) (x : GoString × LatencyEdge) :
    (st.relax blocked u x).pq.length ≤ st.pq.length + 1 := by
  unfold relax
  dsimp only
  split_ifs <;> simp

theorem foldl_relax (blocked : List GoString) {l : List (GoString × LatencyEdge)} (hl : ∀ x ∈ l, m.edge u x.1 = some x.2)
    (hu : u ∈ st.visited) (hd : st.dist.lookup u = some d) :
    Relaxes m.weight u d ((l.map Prod.fst).filter (· ∉ blocked)) st.labels (l.foldl (relax blocked u) st).labels ∧
      (l.foldl (relax blocked u) st).pq.length ≤ st.pq.length + l.length := by
  induction l generalizing st with
  | nil => exact ⟨.refl m.weight u d st.labels, le_rfl⟩
  | cons x l ih =>
    have hone : Relaxes m.weight u d ([x.1].filter (· ∉ blocked)) st.labels (st.relax blocked u x).labels :=
      relax_relaxes (hl x mem_cons_self) hd
    have hsame : (st.relax blocked u x).dist.lookup u = some d := (hone.frozen hu).1.trans hd
    have hvisited : u ∈ (st.relax blocked u x).visited := by rwa [relax_visited]
    obtain ⟨hrest, hlen⟩ := ih (forall_mem_cons.mp hl).2 hvisited hsame
    have hgrow := relax_pq_length blocked u st x
    refine ⟨?_, ?_⟩
    · have happ := hone.append hrest
      rwa [← filter_append, singleton_append] at happ
    · rw [foldl_cons, length_cons]
      omega

end Search

namespace MeshLatencyMatrix
variable {m : MeshLatencyMatrix} {source target : GoString} {blocked : List GoString} {ch : Choices}

def unvisitedEdges (m : MeshLatencyMatrix) (visited : List GoString) : ℕ :=
  ∑ u ∈ m.edges.keys.toFinset.filter (· ∉ visited), (m.neighbors u).size

theorem unvisitedEdges_nil (m : MeshLatencyMatrix) : m.unvisitedEdges [] = m.edgeCount := by
  unfold unvisitedEdges edgeCount
  rw [Finset.filter_true_of_mem (by simp)]
  exact List.sum_toFinset _ m.edges.keys_nodup

theorem unvisitedEdges_cons (m : MeshLatencyMatrix) {u : GoString} {visited : List GoString} (hu : u ∉ visited) :
    m.unvisitedEdges (u :: visited) + (m.neighbors u).size = m.unvisitedEdges visited := by
  have herase : m.edges.keys.toFinset.filter (· ∉ u :: visited) =
      (m.edges.keys.toFinset.filter (· ∉ visited)).erase u := by
    ext x
    simp only [Finset.mem_filter, Finset.mem_erase, mem_cons, not_or]
    tauto
  unfold unvisitedEdges
  rw [herase]
  by_cases hkey : u ∈ m.edges
  · have hmem : u ∈ m.edges.keys.toFinset.filter (· ∉ visited) :=
      Finset.mem_filter.mpr ⟨mem_toFinset.mpr hkey, hu⟩
    rw [add_comm]
    exact Finset.add_sum_erase _ (fun u => (m.neighbors u).size) hmem
  · have hnone : m.neighbors u = ∅ := by rw [neighbors, AList.lookup_eq_none.mpr hkey, Option.getD_none]
    rw [hnone, Map.size_empty, add_zero, Finset.erase_eq_of_notMem]
    exact fun hmem => hkey (mem_toFinset.mp (Finset.mem_filter.mp hmem).1)

/-- The search is under way: the labels are those of a search from `source`, and they are least ones if
no round trip time is negative. -/
structure Searching (m : MeshLatencyMatrix) (source : GoString) (blocked : List GoString) (ex : GoString → Prop)
    (st : Search) : Prop where
  tree : st.labels.Tree (m.Linked blocked) m.weight source ex
  least : m.Nonneg → st.labels.Least (m.Linked blocked) m.weight ex

theorem searching_new (m : MeshLatencyMatrix) (source : GoString) (blocked : List GoString) :
    m.Searching source blocked (fun _ => False) (newSearch source) := by
  constructor
  · rw [Search.labels_new]
    exact Labels.tree_init ..
  · intro _
    rw [Search.labels_new]
    exact Labels.least_init ..

theorem mem_neighbors_iff {u : GoString} (blocked : List GoString) {l : List (GoString × LatencyEdge)}
    (hl : l.Perm ((m.neighbors u).entries.map (fun e => (e.1, e.2)))) :
    (∀ x ∈ l, m.edge u x.1 = some x.2) ∧ ∀ v, v ∈ (l.map Prod.fst).filter (· ∉ blocked) ↔ m.Linked blocked u v := by
  have hmem : ∀ x e, (x, e) ∈ l ↔ m.edge u x = some e := by
    intro x e
    rw [hl.mem_iff, mem_map, edge, ← Map.mem_entries_iff]
    constructor
    · rintro ⟨⟨k, b⟩, hk, hpair⟩
      obtain ⟨rfl, rfl⟩ := Prod.mk.inj hpair
      exact hk
    · exact fun hk => ⟨_, hk, rfl⟩
  refine ⟨fun x hx => (hmem x.1 x.2).mp hx, fun v => ?_⟩
  rw [mem_filter, decide_eq_true_eq, Linked, Option.isSome_iff_exists]
  refine and_congr_left' ⟨fun hv => ?_, fun hv => ?_⟩
  · obtain ⟨⟨x, e⟩, hx, rfl⟩ := mem_map.mp hv
    exact ⟨e, (hmem x e).mp hx⟩
  · obtain ⟨e, he⟩ := hv
    exact mem_map.mpr ⟨(v, e), (hmem v e).mpr he, rfl⟩

section Step
variable {st : Search} {d : ℚ} {u : GoString} {ex : GoString → Prop} {pq : List (ℚ × GoString)}

theorem without_of_perm (hpq : st.pq.Perm ((d, u) :: pq)) : st.labels.Without u pq where
  sub := fun _ he => hpq.mem_iff.mpr (mem_cons_of_mem _ he)
  keep e he hne := by
    obtain rfl | he := mem_cons.mp (hpq.mem_iff.mp he)
    · exact absurd rfl hne
    · exact he

section
variable (h : m.Searching source blocked ex st)
include h

theorem Searching.drop (hpq : st.pq.Perm ((d, u) :: pq))
    (hu : u ∈ st.visited) : m.Searching source blocked ex { st with pq := pq } :=
  ⟨h.tree.drop hu (without_of_perm hpq), fun hm => (h.least hm).drop (without_of_perm hpq).sub⟩

theorem Searching.visit (hpq : st.pq.Perm ((d, u) :: pq))
    (hmin : ∀ e ∈ st.pq, d ≤ e.1) (hu : u ∉ st.visited) :
    m.Searching source blocked (fun x => ex x ∨ x = u) { st with pq := pq, visited := u :: st.visited } := by
  have he : (d, u) ∈ st.pq := hpq.mem_iff.mpr mem_cons_self
  refine ⟨h.tree.settle he hu (without_of_perm hpq), fun hm => ?_⟩
  exact (h.least hm).settle ((h.least hm).dist_eq h.tree he hmin hu) hmin (without_of_perm hpq).sub

theorem Searching.expand (hpq : st.pq.Perm ((d, u) :: pq))
    (hmin : ∀ e ∈ st.pq, d ≤ e.1) (hu : u ∉ st.visited) {l : List (GoString × LatencyEdge)}
    (hl : l.Perm ((m.neighbors u).entries.map (fun e => (e.1, e.2)))) :
    let relaxed := l.foldl (Search.relax blocked u) { st with pq := pq, visited := u :: st.visited }
    m.Searching source blocked ex relaxed ∧ relaxed.visited = u :: st.visited ∧
      relaxed.pq.length ≤ pq.length + (m.neighbors u).size := by
  have hvisit := h.visit hpq hmin hu
  obtain ⟨c, hc⟩ := hvisit.tree.settled_labelled mem_cons_self
  obtain ⟨hmem, hlinked⟩ := mem_neighbors_iff blocked hl
  obtain ⟨hrelax, hlen⟩ := Search.foldl_relax blocked hmem mem_cons_self hc
  refine ⟨⟨hvisit.tree.expand mem_cons_self hc hrelax hlinked, fun hm => ?_⟩, hrelax.settled, ?_⟩
  · refine (hvisit.least hm).expand hc (fun x hx b hb => ?_) hrelax hlinked (fun v hv => hm.weight hv.1)
      (fun v hv => hvisit.tree.settled_labelled hv)
    obtain rfl | hx := mem_cons.mp hx
    · exact (Option.mem_unique hb hc).le
    · exact (h.least hm).ordered x hx b hb _ (h.tree.queued u c hu hc)
  · rw [hl.length_eq, length_map] at hlen
    exact hlen

end

end Step

theorem search_ends {fuel : ℕ} {st : Search} (h : m.Searching source blocked (fun _ => False) st)
    (ht : target ∉ st.visited) (hfuel : st.pq.length + m.unvisitedEdges st.visited ≤ fuel) :
    let r := m.search target blocked ch fuel st
    (r.pq = [] ∧ target ∉ r.visited ∧ m.Searching source blocked (fun _ => False) r) ∨
      (target ∈ r.visited ∧ m.Searching source blocked (· = target) r) := by
  induction fuel generalizing st with
  | zero =>
    have hnil : st.pq = [] := length_eq_zero_iff.mp (by omega)
    exact .inl ⟨hnil, ht, h⟩
  | succ fuel ih =>
    unfold search
    cases hpop : popLeast Prod.fst (ch.tie fuel) st.pq with
    | none => exact .inl ⟨popLeast_eq_none hpop, ht, h⟩
    | some r =>
      obtain ⟨⟨d, u⟩, pq⟩ := r
      obtain ⟨hpq, hmin⟩ := popLeast_eq_some hpop
      have hlen : st.pq.length = pq.length + 1 := hpq.length_eq
      dsimp only
      by_cases hu : u ∈ st.visited
      · rw [if_pos hu]
        exact ih (h.drop hpq hu) ht (by dsimp only; omega)
      rw [if_neg hu]
      split_ifs with hut
      · subst hut
        have hvisit := h.visit hpq hmin hu
        simp only [false_or] at hvisit
        exact .inr ⟨mem_cons_self, hvisit⟩
      · have hperm := ch.order.perm fuel ((m.neighbors u).entries.map (fun e => (e.1, e.2)))
        obtain ⟨hexpand, hvisited, hlong⟩ := h.expand hpq hmin hu hperm
        have hleft := m.unvisitedEdges_cons hu
        refine ih hexpand ?_ ?_
        · rw [hvisited]
          exact fun hmem => (mem_cons.mp hmem).elim (fun he => hut he.symm) ht
        · rw [hvisited]
          omega

theorem search_newSearch_ends (m : MeshLatencyMatrix) (source target : GoString) (blocked : List GoString) (ch : Choices) :
    let r := m.search target blocked ch (m.edgeCount + 1) (newSearch source)
    (r.pq = [] ∧ target ∉ r.visited ∧ m.Searching source blocked (fun _ => False) r) ∨
      (target ∈ r.visited ∧ m.Searching source blocked (· = target) r) := by
  refine search_ends (m.searching_new source blocked) not_mem_nil ?_
  change 1 + m.unvisitedEdges [] ≤ _
  rw [unvisitedEdges_nil, add_comm]

/-! ### What is returned -/

/-- The outcomes of `ShortestPath`. A path through a node without a name is lost on the way back. -/
theorem shortestPath_cases (m : MeshLatencyMatrix) (source target : GoString) (blocked : List GoString) (ch : Choices) :
    (m.shortestPath source target blocked ch = none ∧
        (source ∈ blocked ∨ target ∈ blocked ∨ ∀ p, ¬ IsWalk (m.Linked blocked) source target p)) ∨
      (source ∉ blocked ∧ ∃ p, m.shortestPath source target blocked ch = (if [] ∈ p then none else some p) ∧
        IsWalk (m.Linked blocked) source target p ∧ p.Nodup ∧
        (m.Nonneg → ∀ q, IsWalk (m.Linked blocked) source target q → walkWeight m.weight p ≤ walkWeight m.weight q)) := by
  unfold shortestPath
  split_ifs with hb
  · exact .inl ⟨rfl, hb.imp_right .inl⟩
  have hends := m.search_newSearch_ends source target blocked ch
  set st := m.search target blocked ch (m.edgeCount + 1) (newSearch source)
  obtain ⟨hnil, hnot, h⟩ | ⟨hmem, h⟩ := hends
  · have hnone : st.dist.lookup target = none := by
      by_contra hsome
      obtain ⟨d, hd⟩ := Option.ne_none_iff_exists'.mp hsome
      have hqueued := h.tree.queued target d hnot hd
      rw [show st.labels.queue = [] from hnil] at hqueued
      cases hqueued
    rw [if_pos hnone]
    exact .inl ⟨rfl, .inr (.inr fun p hp => hnot (h.tree.settled_of_walk hnil hp))⟩
  · right
    obtain ⟨p, htrace, hwalk, hnodup, hsub, hdist⟩ := h.tree.tree.path h.tree.source hmem
    have hsome : st.dist.lookup target ≠ none := by
      rw [show st.dist.lookup target = _ from hdist]
      exact Option.some_ne_none _
    rw [if_neg hsome]
    have hlen : p.length ≤ st.visited.length := (subperm_of_subset hnodup hsub).length_le
    refine ⟨fun hs => hb (.inl hs), p, ?_, hwalk, hnodup, fun hm q hq => ?_⟩
    · obtain ⟨hnot, heq⟩ | ⟨hnil, q, hq, heq⟩ := Search.reconstruct_eq htrace hlen []
      · rw [heq, append_nil, if_pos hwalk.head, if_neg hnot]
      · rw [heq, append_nil, if_pos hnil, if_neg fun hhead => hq (mem_of_head? hhead)]
    · exact (h.least hm).le_walkWeight h.tree (fun u v hadj => hm.weight hadj.1) hmem hdist hq
        fun u v q' c _ hne _ _ _ _ _ => hne

/-- A path that is returned is a simple one along edges that avoids the blocked nodes, whatever the round
trip times are. -/
theorem shortestPath_sound {p : List GoString} (h : m.shortestPath source target blocked ch = some p) :
    m.IsRoute blocked source target p ∧ p.Nodup := by
  obtain ⟨hnone, -⟩ | ⟨hs, q, hq, hwalk, hnodup, -⟩ := m.shortestPath_cases source target blocked ch
  · rw [hnone] at h
    cases h
  · rw [hq] at h
    split_ifs at h with hnil
    obtain rfl := Option.some.inj h
    obtain ⟨hedges, havoid⟩ := hwalk.of_restrict hs
    exact ⟨⟨hedges, fun v hv => ⟨havoid v hv, fun he => hnil (he ▸ hv)⟩⟩, hnodup⟩

theorem IsRoute.linked {p : List GoString} (h : m.IsRoute blocked source target p) :
    IsWalk (m.Linked blocked) source target p := h.walk.restrict fun v hv => (h.nodes v hv).1

theorem NamesNodes.eq_nil_of_mem (h : m.NamesNodes) {p : List GoString}
    (hp : IsWalk (m.Linked blocked) source target p) (hnil : [] ∈ p) : target = [] ∧ p = [[]] := by
  refine hp.induct (motive := fun v q => [] ∈ q → v = [] ∧ q = [[]]) ?_ ?_ hnil
  · intro hmem
    obtain rfl := mem_singleton.mp hmem
    exact ⟨rfl, rfl⟩
  · intro u v q hadj hq hmem
    obtain ⟨e, he⟩ := Option.isSome_iff_exists.mp hadj.1
    obtain ⟨hu, hv⟩ := h u v e he
    obtain hmem | hmem := mem_append.mp hmem
    · exact absurd (hq hmem).1 hu
    · exact absurd (mem_singleton.mp hmem).symm hv

theorem shortestPath_of_isRoute (hnames : m.NamesNodes) (hrtt : m.Nonneg) {q : List GoString}
    (hq : m.IsRoute blocked source target q) (ch : Choices) :
    ∃ p, m.shortestPath source target blocked ch = some p ∧ m.IsRoute blocked source target p ∧ p.Nodup ∧
      ∀ q', m.IsRoute blocked source target q' → walkWeight m.weight p ≤ walkWeight m.weight q' := by
  have hs := hq.nodes source (mem_of_head? hq.walk.head)
  have ht := hq.nodes target (mem_of_getLast? hq.walk.last)
  obtain ⟨-, hsb | htb | hno⟩ | ⟨-, p, hp, hwalk, -, hleast⟩ := m.shortestPath_cases source target blocked ch
  · exact absurd hsb hs.1
  · exact absurd htb ht.1
  · exact absurd hq.linked (hno q)
  · -- a path over the empty string would be found and lost
    rw [if_neg fun hnil => ht.2 (hnames.eq_nil_of_mem hwalk hnil).1] at hp
    obtain ⟨hroute, hnodup⟩ := shortestPath_sound hp
    exact ⟨p, hp, hroute, hnodup, fun q' hq' => hleast hrtt q' hq'.linked⟩

/-- `ShortestPath` returns nothing exactly if an end is blocked or no way avoids the blocked nodes, and
otherwise a simple path of least weight, however iterations and ties are resolved. -/
theorem shortestPath_correct (m : MeshLatencyMatrix) (source target : GoString) (blocked : List GoString) (ch : Choices)
    (hnames : m.NamesNodes) (hrtt : m.Nonneg) :
    (m.shortestPath source target blocked ch = none ↔
        source ∈ blocked ∨ target ∈ blocked ∨ ¬ ∃ p, m.IsRoute blocked source target p) ∧
      ∀ p, m.shortestPath source target blocked ch = some p →
        m.IsRoute blocked source target p ∧ p.Nodup ∧
          ∀ q, m.IsRoute blocked source target q → walkWeight m.weight p ≤ walkWeight m.weight q := by
  refine ⟨⟨fun hnone => .inr (.inr fun ⟨q, hq⟩ => ?_), fun hends => ?_⟩, fun p hp => ?_⟩
  · obtain ⟨p, hp, -⟩ := shortestPath_of_isRoute hnames hrtt hq ch
    rw [hnone] at hp
    cases hp
  · by_contra hsome
    obtain ⟨p, hp⟩ := Option.ne_none_iff_exists'.mp hsome
    obtain ⟨hroute, -⟩ := shortestPath_sound hp
    obtain hs | ht | hno := hends
    · exact (hroute.nodes source (mem_of_head? hroute.walk.head)).1 hs
    · exact (hroute.nodes target (mem_of_getLast? hroute.walk.last)).1 ht
    · exact hno ⟨p, hroute⟩
  · obtain ⟨hroute, hnodup⟩ := shortestPath_sound hp
    obtain ⟨p', hp', -, -, hleast⟩ := shortestPath_of_isRoute hnames hrtt hroute ch
    obtain rfl := Option.mem_unique hp' hp
    exact ⟨hroute, hnodup, hleast⟩

end MeshLatencyMatrix

def Choices.first : Choices := ⟨fun _ => 0, .listed⟩

/-- Two relays between nodes 1 and 4, with fast links to one end each and between them. -/
def crossedMesh : MeshLatencyMatrix :=
  newMeshLatencyMatrix.mergeEdges [⟨[1], [2], 1⟩, ⟨[2], [3], 1⟩, ⟨[3], [4], 1⟩, ⟨[1], [3], 3⟩, ⟨[2], [4], 3⟩]

/-- The way over both relays is the shortest one. -/
theorem shortestPath_correct_crossed :
    crossedMesh.IsRoute [] [1] [4] [[1], [2], [3], [4]] ∧
      ∀ q, crossedMesh.IsRoute [] [1] [4] q →
        walkWeight crossedMesh.weight [[1], [2], [3], [4]] ≤ walkWeight crossedMesh.weight q := by
  obtain ⟨-, hpath⟩ := crossedMesh.shortestPath_correct [1] [4] [] .first (by decide) (by decide)
  obtain ⟨hroute, -, hleast⟩ := hpath [[1], [2], [3], [4]] (by with_unfolding_all decide)
  exact ⟨hroute, hleast⟩

end MeshDesk.Proxy
