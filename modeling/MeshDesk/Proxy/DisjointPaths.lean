import MeshDesk.Proxy.ShortestPath

/-! `KShortestDisjointPaths`. Each path is a shortest one over the relays that the earlier ones left; only
relays are taken away, so a direct edge can be used again. -/
namespace MeshDesk.Proxy
open Lib List

/-- How the search for disjoint paths fails. Go panics where the capacity of a slice is negative. -/
inductive PathError where
  | noPaths
  | pathOverlap
  | negativeCapacity
  deriving DecidableEq, Repr

def PathError.text : PathError → String
  | .noPaths => "insufficient disjoint paths available"
  | .pathOverlap => "candidate paths share relay nodes"
  | .negativeCapacity => "runtime error: makeslice: cap out of range"

def relaysOf (path : List GoString) : List GoString := path.tail.dropLast

/-- On how many paths each relay is. -/
def relaySet (paths : List (List GoString)) : Map GoString ℕ :=
  (paths.flatMap (fun path => (relaysOf path).dedup)).foldl
    (fun counts r => counts.insert r ((counts.lookup r).getD 0 + 1)) ∅

namespace MeshLatencyMatrix

def findPaths (m : MeshLatencyMatrix) (source target : GoString) (ch : ℕ → Choices) :
    ℕ → List GoString → List (List GoString)
  | 0, _ => []
  | k + 1, blocked =>
    match m.shortestPath source target blocked (ch k) with
    | none => []
    | some path => path :: findPaths m source target ch k (blocked ++ relaysOf path)

def kShortestDisjointPaths (m : MeshLatencyMatrix) (source target : GoString) (k : ℤ) (ch : ℕ → Choices) :
    Except PathError (List (List GoString)) :=
  if k < 0 then .error .negativeCapacity
  else
    let paths := m.findPaths source target ch k.toNat []
    if paths.length < k then .error .noPaths
    else if (relaySet paths).entries.any (fun e => 1 < e.2) then .error .pathOverlap
    else .ok paths

def IsPath (m : MeshLatencyMatrix) (source target : GoString) (p : List GoString) : Prop :=
  m.IsRoute [] source target p ∧ p.Nodup

structure DisjointPair (m : MeshLatencyMatrix) (source target : GoString) (p q : List GoString) : Prop where
  left : m.IsPath source target p
  right : m.IsPath source target q
  ne : p ≠ q
  disjoint : (relaysOf p).Disjoint (relaysOf q)

end MeshLatencyMatrix

theorem eq_relaysOf {adj : GoString → GoString → Prop} {s t : GoString} {p : List GoString}
    (h : IsWalk adj s t p) (hne : s ≠ t) : p = s :: (relaysOf p ++ [t]) := by
  cases p with
  | nil => exact absurd rfl h.ne_nil
  | cons a p =>
    obtain rfl : a = s := Option.some.inj h.head
    obtain rfl | ⟨q, b, rfl⟩ := p.eq_nil_or_concat'
    · exact absurd (Option.some.inj h.last) hne
    · have hlast := h.last
      obtain rfl := Option.some.inj hlast
      simp [relaysOf]

theorem relaysOf_subset (p : List GoString) : relaysOf p ⊆ p :=
  fun _ hx => mem_of_mem_tail (mem_of_mem_dropLast hx)

theorem relaySet_le_one {paths : List (List GoString)}
    (h : paths.Pairwise (fun p q => (relaysOf p).Disjoint (relaysOf q))) :
    (relaySet paths).entries.any (fun e => 1 < e.2) = false := by
  have hnodup : (paths.flatMap (fun path => (relaysOf path).dedup)).Nodup := by
    refine nodup_flatMap.mpr ⟨fun p _ => nodup_dedup _, h.imp fun hdisj x hx hy => ?_⟩
    exact hdisj (mem_dedup.mp hx) (mem_dedup.mp hy)
  rw [any_eq_false]
  rintro ⟨r, n⟩ hr
  rw [decide_eq_true_eq, not_lt]
  exact Map.le_one_of_foldl_count hnodup (Map.mem_entries_iff.mp hr)

namespace MeshLatencyMatrix
variable {m : MeshLatencyMatrix} {source target : GoString} {ch : ℕ → Choices}

theorem IsRoute.weaken {blocked : List GoString} {p : List GoString} (h : m.IsRoute blocked source target p) :
    m.IsRoute [] source target p :=
  ⟨h.walk, fun v hv => ⟨not_mem_nil, (h.nodes v hv).2⟩⟩

theorem findPaths_sound (m : MeshLatencyMatrix) (source target : GoString) (ch : ℕ → Choices) (k : ℕ)
    (blocked : List GoString) :
    (∀ p ∈ m.findPaths source target ch k blocked, m.IsRoute blocked source target p ∧ p.Nodup) ∧
      (m.findPaths source target ch k blocked).Pairwise (fun p q => (relaysOf p).Disjoint (relaysOf q)) ∧
      (m.findPaths source target ch k blocked).length ≤ k := by
  induction k generalizing blocked with
  | zero => exact ⟨nofun, .nil, le_rfl⟩
  | succ k ih =>
    unfold findPaths
    cases hpath : m.shortestPath source target blocked (ch k) with
    | none => exact ⟨nofun, .nil, Nat.zero_le _⟩
    | some path =>
      obtain ⟨hall, hpair, hlen⟩ := ih (blocked ++ relaysOf path)
      refine ⟨forall_mem_cons.mpr ⟨shortestPath_sound hpath, fun p hp => ?_⟩,
        pairwise_cons.mpr ⟨fun p hp x hx hxp => ?_, hpair⟩, Nat.succ_le_succ hlen⟩
      · obtain ⟨hroute, hnodup⟩ := hall p hp
        refine ⟨⟨hroute.walk, fun v hv => ⟨fun hb => ?_, (hroute.nodes v hv).2⟩⟩, hnodup⟩
        exact (hroute.nodes v hv).1 (mem_append_left _ hb)
      · exact ((hall p hp).1.nodes x (relaysOf_subset p hxp)).1 (mem_append_right _ hx)

theorem kShortestDisjointPaths_eq_ok {k : ℤ} {paths : List (List GoString)}
    (h : m.kShortestDisjointPaths source target k ch = .ok paths) :
    0 ≤ k ∧ paths = m.findPaths source target ch k.toNat [] ∧ (paths.length : ℤ) = k := by
  unfold kShortestDisjointPaths at h
  split_ifs at h with hk
  dsimp only at h
  split_ifs at h with hlen hover
  obtain rfl := Except.ok.inj h
  have hle := (m.findPaths_sound source target ch k.toNat []).2.2
  exact ⟨by omega, rfl, by omega⟩

/-- A path through more than one relay is longer than one over a single relay of it. Such a mesh has no
direct edge between the two nodes. -/
def OneRelaySuffices (m : MeshLatencyMatrix) (source target : GoString) : Prop :=
  ∀ p, m.IsPath source target p → ∃ r ∈ relaysOf p, m.IsPath source target [source, r, target] ∧
    (p = [source, r, target] ∨ walkWeight m.weight [source, r, target] < walkWeight m.weight p)

section OneRelay
variable (hrelay : m.OneRelaySuffices source target)
include hrelay

theorem DisjointPair.relays {p q : List GoString} (h : m.DisjointPair source target p q) :
    ∃ r r', r ≠ r' ∧ m.IsPath source target [source, r, target] ∧ m.IsPath source target [source, r', target] ∧
      walkWeight m.weight [source, r, target] ≤ walkWeight m.weight p ∧
      walkWeight m.weight [source, r', target] ≤ walkWeight m.weight q := by
  obtain ⟨r, hr, hpath, hle⟩ := hrelay p h.left
  obtain ⟨r', hr', hpath', hle'⟩ := hrelay q h.right
  refine ⟨r, r', fun heq => h.disjoint hr (heq ▸ hr'), hpath, hpath', ?_, ?_⟩
  · exact hle.elim (fun heq => heq ▸ le_rfl) le_of_lt
  · exact hle'.elim (fun heq => heq ▸ le_rfl) le_of_lt

theorem shortestPath_oneRelay (hnames : m.NamesNodes) (hrtt : m.Nonneg) {blocked p : List GoString}
    (hp : m.IsRoute blocked source target p) (c : Choices) :
    ∃ r, m.shortestPath source target blocked c = some [source, r, target] ∧ r ∉ blocked ∧
      m.IsPath source target [source, r, target] ∧
      ∀ q, m.IsRoute blocked source target q →
        walkWeight m.weight [source, r, target] ≤ walkWeight m.weight q := by
  obtain ⟨x, hx, hroute, hnodup, hleast⟩ := shortestPath_of_isRoute hnames hrtt hp c
  obtain ⟨r, hr, hpath, heq | hlt⟩ := hrelay x ⟨hroute.weaken, hnodup⟩
  · subst heq
    exact ⟨r, hx, (hroute.nodes r (relaysOf_subset _ hr)).1, hpath, hleast⟩
  · have hr' : m.IsRoute blocked source target [source, r, target] := by
      refine ⟨hpath.1.walk, fun v hv => ⟨?_, (hpath.1.nodes v hv).2⟩⟩
      simp only [mem_cons, not_mem_nil, or_false] at hv
      obtain rfl | rfl | rfl := hv
      · exact (hroute.nodes v (mem_of_head? hroute.walk.head)).1
      · exact (hroute.nodes v (relaysOf_subset x hr)).1
      · exact (hroute.nodes v (mem_of_getLast? hroute.walk.last)).1
    exact absurd (hleast _ hr') (not_le.mpr hlt)

end OneRelay

theorem IsPath.avoids {r r₁ : GoString} (h : m.IsPath source target [source, r, target])
    (h₁ : m.IsPath source target [source, r₁, target]) (hne : r ≠ r₁) :
    m.IsRoute [r₁] source target [source, r, target] := by
  refine ⟨h.1.walk, fun v hv => ⟨?_, (h.1.nodes v hv).2⟩⟩
  have hnodup := h₁.2
  simp only [nodup_cons, mem_cons, not_mem_nil, or_false, not_or] at hnodup
  simp only [mem_cons, not_mem_nil, or_false] at hv ⊢
  obtain rfl | rfl | rfl := hv
  · exact hnodup.1.1
  · exact hne
  · exact fun heq => hnodup.2.1 heq.symm

theorem kShortestDisjointPaths_found (hnames : m.NamesNodes) (hrtt : m.Nonneg)
    (hrelay : m.OneRelaySuffices source target) {p₀ q₀ : List GoString}
    (hpair : m.DisjointPair source target p₀ q₀) (ch : ℕ → Choices) :
    ∃ p q, m.kShortestDisjointPaths source target 2 ch = .ok [p, q] ∧ m.DisjointPair source target p q ∧
      ∀ p' q', m.DisjointPair source target p' q' →
        walkWeight m.weight p + walkWeight m.weight q ≤ walkWeight m.weight p' + walkWeight m.weight q' := by
  obtain ⟨r₁, hfirst, -, hpath₁, hleast₁⟩ := shortestPath_oneRelay hrelay hnames hrtt hpair.left.1 (ch 1)
  -- of the two relays of a pair at least one is left after the first path
  have hother : ∀ p' q', m.DisjointPair source target p' q' →
      ∃ r, m.IsRoute [r₁] source target [source, r, target] ∧
        walkWeight m.weight [source, r₁, target] + walkWeight m.weight [source, r, target] ≤
          walkWeight m.weight p' + walkWeight m.weight q' := by
    intro p' q' hpair'
    obtain ⟨r, r', hne, hr, hr', hle, hle'⟩ := hpair'.relays hrelay
    by_cases heq : r' = r₁
    · refine ⟨r, hr.avoids hpath₁ (heq ▸ hne), ?_⟩
      rw [add_comm]
      exact add_le_add hle ((hleast₁ _ hpair'.right.1))
    · exact ⟨r', hr'.avoids hpath₁ heq, add_le_add (hleast₁ _ hpair'.left.1) hle'⟩
  obtain ⟨r₀, hr₀, -⟩ := hother p₀ q₀ hpair
  obtain ⟨r₂, hsecond, hr₂, hpath₂, hleast₂⟩ := shortestPath_oneRelay hrelay hnames hrtt hr₀ (ch 0)
  have hpaths : m.findPaths source target ch 2 [] = [[source, r₁, target], [source, r₂, target]] := by
    rw [findPaths, hfirst]
    change _ :: m.findPaths source target ch 1 [r₁] = _
    rw [findPaths, hsecond]
    rfl
  have hne : r₁ ≠ r₂ := fun heq => hr₂ (heq ▸ mem_singleton_self r₁)
  refine ⟨[source, r₁, target], [source, r₂, target], ?_, ⟨hpath₁, hpath₂, ?_, ?_⟩, fun p' q' hpair' => ?_⟩
  · have hpairwise := (m.findPaths_sound source target ch 2 []).2.1
    have htwo : (2 : ℤ).toNat = 2 := rfl
    unfold kShortestDisjointPaths
    rw [if_neg (by decide), htwo]
    dsimp only
    rw [relaySet_le_one hpairwise, hpaths]
    rfl
  · exact fun heq => hne (cons.inj (cons.inj heq).2).1
  · exact fun x hx hx' => hne ((mem_singleton.mp hx).symm.trans (mem_singleton.mp hx'))
  · obtain ⟨r, hr, hle⟩ := hother p' q' hpair'
    exact (add_le_add le_rfl (hleast₂ _ hr)).trans hle

theorem oneRelaySuffices_of_star (hne : source ≠ target)
    (hstar : ∀ u v, (m.edge u v).isSome → ((u = source ∨ u = target) ↔ ¬ (v = source ∨ v = target))) :
    m.OneRelaySuffices source target := by
  intro p hp
  have heq := eq_relaysOf hp.1.walk hne
  have hchain := hp.1.walk.chain
  have hnodup := hp.2
  rw [heq] at hchain hnodup
  cases hrs : relaysOf p with
  | nil =>
    rw [hrs] at hchain
    have hedge : (m.edge source target).isSome := by simpa using hchain
    exact absurd (Or.inr rfl) ((hstar source target hedge).mp (.inl rfl))
  | cons x rs =>
    rw [hrs] at hchain hnodup heq
    have hx : ¬ (x = source ∨ x = target) := (hstar source x hchain.rel).mp (.inl rfl)
    cases rs with
    | nil =>
      exact ⟨x, mem_singleton_self x, heq ▸ hp, .inl heq⟩
    | cons y rs =>
      -- a second relay would have to be one of the two nodes
      have hxy : (m.edge x y).isSome := hchain.tail.rel
      simp only [cons_append, nodup_cons, mem_cons, mem_append, not_or] at hnodup
      obtain hy | hy := not_not.mp fun hno => hx ((hstar x y hxy).mpr hno)
      · exact absurd hy.symm hnodup.1.2.1
      · exact absurd hy hnodup.2.2.1.2.1

end MeshLatencyMatrix

/-- Two relays between nodes 1 and 4 that are not linked to each other. -/
def starMesh : MeshLatencyMatrix :=
  newMeshLatencyMatrix.mergeEdges [⟨[1], [2], 1⟩, ⟨[2], [4], 1⟩, ⟨[1], [3], 2⟩, ⟨[3], [4], 0⟩]

theorem starMesh_oneRelaySuffices : starMesh.OneRelaySuffices [1] [4] := by
  refine MeshLatencyMatrix.oneRelaySuffices_of_star (by decide) fun u v hedge => ?_
  obtain ⟨e, he⟩ := Option.isSome_iff_exists.mp hedge
  have hall : ∀ u v e, starMesh.edge u v = some e →
      ((u = [1] ∨ u = [4]) ↔ ¬ (v = [1] ∨ v = [4])) :=
    MeshLatencyMatrix.forall_edge_iff.mpr (by decide)
  exact hall u v e he

end MeshDesk.Proxy
