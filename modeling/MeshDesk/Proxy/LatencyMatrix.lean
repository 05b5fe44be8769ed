import MeshDesk.Proxy.Chunk

/-! The latency matrix: the mesh as a graph with measured round trip times. Times are exact rational
numbers of milliseconds. -/
namespace MeshDesk.Proxy
open Lib

inductive NodeCapability where
  | relay
  | exit
  | other (name : GoString)
  deriving DecidableEq, Repr

structure NodeInfo where
  id : GoString
  capabilities : List NodeCapability
  deriving DecidableEq, Repr

structure LatencyEdge where
  source : GoString
  target : GoString
  rttMs : ℚ
  deriving DecidableEq, Repr

/-- An edge without a measurement counts as 500 milliseconds. -/
def LatencyEdge.weight (e : LatencyEdge) : ℚ := if e.rttMs = 0 then 500 else e.rttMs

/-- `edges` maps a source to its targets, each with the edge that leads there. -/
structure MeshLatencyMatrix where
  nodes : Map GoString NodeInfo
  edges : Map GoString (Map GoString LatencyEdge)

def newMeshLatencyMatrix : MeshLatencyMatrix := ⟨∅, ∅⟩

namespace MeshLatencyMatrix
variable (m : MeshLatencyMatrix)

def addNode (n : NodeInfo) : MeshLatencyMatrix := { m with nodes := m.nodes.insert n.id n }

def neighbors (nodeID : GoString) : Map GoString LatencyEdge := (m.edges.lookup nodeID).getD ∅

def setEdge (source target : GoString) (e : LatencyEdge) : MeshLatencyMatrix :=
  { m with edges := m.edges.insert source ((m.neighbors source).insert target e) }

/-- Edges are stored in both directions. -/
def addEdge (e : LatencyEdge) : MeshLatencyMatrix :=
  (m.setEdge e.source e.target e).setEdge e.target e.source ⟨e.target, e.source, e.rttMs⟩

def mergeEdges (edges : List LatencyEdge) : MeshLatencyMatrix := edges.foldl addEdge m

/-- The number of relays other than the node that it has a measured edge to. -/
def relayCountWithRTT (nodeID : GoString) : ℕ :=
  m.nodes.entries.countP (fun e => e.1 ≠ nodeID ∧ .relay ∈ e.2.capabilities ∧
    ((m.neighbors nodeID).lookup e.1).any (fun edge => 0 < edge.rttMs))

def edge (u v : GoString) : Option LatencyEdge := (m.neighbors u).lookup v

def weight (u v : GoString) : ℚ := ((m.edge u v).map LatencyEdge.weight).getD 0

theorem weight_of_edge {m : MeshLatencyMatrix} {u v : GoString} {e : LatencyEdge} (h : m.edge u v = some e) :
    m.weight u v = e.weight := by
  rw [weight, h]
  rfl

theorem forall_edge_iff {m : MeshLatencyMatrix} {P : GoString → GoString → LatencyEdge → Prop} :
    (∀ u v e, m.edge u v = some e → P u v e) ↔ ∀ x ∈ m.edges.entries, ∀ y ∈ x.2.entries, P x.1 y.1 y.2 := by
  constructor
  · rintro h ⟨u, nbs⟩ hu ⟨v, e⟩ hv
    refine h u v e ?_
    rw [edge, neighbors, Map.mem_entries_iff.mp hu]
    exact Map.mem_entries_iff.mp hv
  · intro h u v e he
    rw [edge, neighbors] at he
    cases hu : m.edges.lookup u with
    | none =>
      rw [hu, Option.getD_none, AList.lookup_empty] at he
      cases he
    | some nbs =>
      rw [hu, Option.getD_some] at he
      exact h ⟨u, nbs⟩ (Map.mem_entries_iff.mpr hu) ⟨v, e⟩ (Map.mem_entries_iff.mpr he)

def Nonneg : Prop := ∀ u v e, m.edge u v = some e → 0 ≤ e.rttMs

instance : Decidable m.Nonneg := decidable_of_iff _ (forall_edge_iff (P := fun _ _ e => 0 ≤ e.rttMs)).symm

theorem Nonneg.weight {m : MeshLatencyMatrix} (h : m.Nonneg) {u v : GoString} (hedge : (m.edge u v).isSome) :
    0 ≤ m.weight u v := by
  obtain ⟨e, he⟩ := Option.isSome_iff_exists.mp hedge
  rw [weight_of_edge he, LatencyEdge.weight]
  split_ifs
  · decide
  · exact h u v e he

def NamesNodes : Prop := ∀ u v e, m.edge u v = some e → u ≠ [] ∧ v ≠ []

instance : Decidable m.NamesNodes := decidable_of_iff _ (forall_edge_iff (P := fun u v _ => u ≠ [] ∧ v ≠ [])).symm

def edgeCount : ℕ := (m.edges.keys.map (fun u => (m.neighbors u).size)).sum

end MeshLatencyMatrix
end MeshDesk.Proxy
