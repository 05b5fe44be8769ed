import Mathlib.Algebra.Order.BigOperators.Group.List
import MeshDesk.Mesh.MetaFlood

/-! How often a metadata message is sent. Every hop raises the TTL of a copy, so what a copy can still cause is bounded
by the session graph alone; the caches may hold anything at any time. -/
namespace MeshDesk.Mesh

/-- A node originates a message for the session peers that `keep` selects: `Broadcast` for all, `NotifyPeerJoined` for
one. The caches of a node may be reset to anything. -/
inductive FloodTurn
  | originate (node : String) (keep : String → Bool) (msg : MetaMessage)
  | deliver (i : ℕ)
  | reset (node : String) (me : MetaExchanger)

namespace FloodState
variable (sessions : String → List String) (M : MetaMessage)

def sends (s : FloodState) : FloodTurn → List MetaCopy
  | .originate node keep msg => copiesFrom node (MetaExchanger.broadcast ((sessions node).filter keep) node msg)
  | .deliver i => (s.inFlight[i]?).elim [] fun c =>
    if ((s.nodes c.receiver).apply c.sender c.msg).1 then
      copiesFrom c.receiver (MetaExchanger.forward (sessions c.receiver) c.sender c.msg)
    else []
  | .reset _ _ => []

def turn (s : FloodState) : FloodTurn → FloodState
  | .originate node keep msg => { s with inFlight := s.inFlight ++ s.sends sessions (.originate node keep msg) }
  | .deliver i => s.step sessions (.deliver i)
  | .reset node me => { s with nodes := Function.update s.nodes node me }

instance (m : MetaMessage) : Decidable (IsCopy M m) := inferInstanceAs (Decidable (_ = _))

def copiesOf (cs : List MetaCopy) : ℕ := cs.countP fun c => IsCopy M c.msg

/-- The copies of `M` that the turns send. -/
def sent : FloodState → List FloodTurn → ℕ
  | _, [] => 0
  | s, t :: turns => copiesOf M (s.sends sessions t) + sent (s.turn sessions t) turns

/-- How many sends a message with `hops` hops left can cause at a node. -/
def reach : ℕ → String → ℕ
  | 0, _ => 0
  | hops + 1, v => ((sessions v).map fun u => 1 + reach hops u).sum

def load (c : MetaCopy) : ℕ := if IsCopy M c.msg then reach sessions (maxMetaTTL - c.msg.ttl) c.receiver else 0

def cost : FloodTurn → ℕ
  | .originate node _ msg => if IsCopy M msg then reach sessions (maxMetaTTL - msg.ttl + 1) node else 0
  | _ => 0

variable {sessions M} {s : FloodState}

theorem isCopy_hop {m : MetaMessage} (k : ℕ) : IsCopy M { m with ttl := k } ↔ IsCopy M m := by
  obtain ⟨⟩ := m
  simp [IsCopy]

theorem load_copiesFrom (node : String) (m : MetaMessage) {peers : List String} (h : peers.Sublist (sessions node)) :
    let cs := copiesFrom node (peers.map fun key => (key, m))
    copiesOf M cs + (cs.map (load sessions M)).sum ≤
      if IsCopy M m then reach sessions (maxMetaTTL - m.ttl + 1) node else 0 := by
  have hsum : ∀ l : List String, copiesOf M (copiesFrom node (l.map fun key => (key, m))) +
      ((copiesFrom node (l.map fun key => (key, m))).map (load sessions M)).sum =
        if IsCopy M m then (l.map fun u => 1 + reach sessions (maxMetaTTL - m.ttl) u).sum else 0 := by
    intro l
    unfold copiesOf copiesFrom load
    induction l with
    | nil => simp
    | cons u l ih =>
      split_ifs at ih ⊢ with hm
      · simp only [List.map_cons, List.countP_cons, List.sum_cons, hm, decide_true, if_true] at ih ⊢
        omega
      · simpa [hm] using ih
  intro cs
  rw [hsum peers]
  split_ifs
  · exact (h.map _).sum_le_sum fun _ _ => Nat.zero_le _
  · exact le_rfl

theorem sum_load_deliver {i : ℕ} {c : MetaCopy} (hi : s.inFlight[i]? = some c) :
    (s.inFlight.map (load sessions M)).sum =
      load sessions M c + ((s.inFlight.eraseIdx i).map (load sessions M)).sum := by
  obtain ⟨hlt, rfl⟩ := List.getElem?_eq_some_iff.mp hi
  have hperm := (List.getElem_cons_eraseIdx_perm hlt).map (load sessions M)
  rw [← hperm.sum_eq, List.map_cons, List.sum_cons]

variable (sessions M)

theorem load_forward (c : MetaCopy) (applied : Bool) :
    let cs :=
      if applied then copiesFrom c.receiver (MetaExchanger.forward (sessions c.receiver) c.sender c.msg) else []
    copiesOf M cs + (cs.map (load sessions M)).sum ≤ load sessions M c := by
  unfold MetaExchanger.forward
  intro cs
  by_cases hsent : applied = true ∧ c.msg.ttl < maxMetaTTL
  · have hbound := load_copiesFrom (M := M) c.receiver { c.msg with ttl := c.msg.ttl + 1 }
      (List.filter_sublist (p := fun key => key ≠ c.sender ∧ key ≠ c.msg.self.key) (l := sessions c.receiver))
    have hhops : maxMetaTTL - (c.msg.ttl + 1) + 1 = maxMetaTTL - c.msg.ttl := by omega
    simp only [isCopy_hop, hhops] at hbound
    unfold cs
    rw [if_pos hsent.1, if_neg (not_le.mpr hsent.2)]
    exact hbound
  · have hnone : cs = [] := by
      unfold cs
      split_ifs with happlied httl
      · rfl
      · exact absurd ⟨happlied, not_le.mp httl⟩ hsent
      · rfl
    rw [hnone]
    exact Nat.zero_le _

theorem turn_bound (s : FloodState) (t : FloodTurn) :
    copiesOf M (s.sends sessions t) + ((s.turn sessions t).inFlight.map (load sessions M)).sum ≤
      (s.inFlight.map (load sessions M)).sum + cost sessions M t := by
  cases t with
  | originate node keep msg =>
    have hbound := load_copiesFrom (M := M) node msg
      ((List.filter_sublist (p := (· ≠ node))).trans (List.filter_sublist (p := keep) (l := sessions node)))
    simp only [turn, sends, cost, MetaExchanger.broadcast, List.map_append, List.sum_append]
    omega
  | reset node me => exact (Nat.zero_add _).le
  | deliver i =>
    cases hi : s.inFlight[i]? with
    | none => simp [turn, step, sends, cost, copiesOf, hi]
    | some c =>
      have hbound := load_forward sessions M c ((s.nodes c.receiver).apply c.sender c.msg).1
      rw [sum_load_deliver hi]
      simp only [turn, step, sends, cost, receive, hi, Option.elim_some, List.map_append, List.sum_append]
      omega

theorem sent_bound (s : FloodState) (turns : List FloodTurn) :
    s.sent sessions M turns ≤ (s.inFlight.map (load sessions M)).sum + (turns.map (cost sessions M)).sum := by
  induction turns generalizing s with
  | nil => exact Nat.zero_le _
  | cons t turns ih =>
    have hturn := turn_bound sessions M s t
    have hrest := ih (s.turn sessions t)
    rw [sent, List.map_cons, List.sum_cons]
    omega

/-- On every session graph, whatever is delivered when and however often caches are reset: each origination of a
message causes at most as many sends as the graph allows within its hops. A copy is forwarded only below the last TTL,
with a larger one, and neither to the neighbour it came from nor to its originator. -/
theorem flood_terminates (sessions : String → List String) :
    (∀ M turns, sent sessions M {} turns ≤ (turns.map (cost sessions M)).sum) ∧
      ∀ (s : FloodState) i, ∀ c' ∈ s.sends sessions (.deliver i), ∃ c, s.inFlight[i]? = some c ∧
        c.msg.ttl < maxMetaTTL ∧ c'.msg = { c.msg with ttl := c.msg.ttl + 1 } ∧ c'.sender = c.receiver ∧
        c'.receiver ∈ sessions c.receiver ∧ c'.receiver ≠ c.sender ∧ c'.receiver ≠ c.msg.self.key := by
  refine ⟨fun M turns => (sent_bound sessions M {} turns).trans (Nat.zero_add _).le, fun s i c' hc' => ?_⟩
  dsimp only [sends] at hc'
  cases hi : s.inFlight[i]? with
  | none =>
    rw [hi] at hc'
    cases hc'
  | some c =>
    rw [hi, Option.elim_some] at hc'
    split_ifs at hc'
    · obtain ⟨hsender, hmem⟩ := mem_copiesFrom.mp hc'
      obtain ⟨httl, hpeer, hback, horigin, hmsg⟩ := mem_forward.mp hmem
      exact ⟨c, rfl, httl, hmsg, hsender, hpeer, hback, horigin⟩
    · cases hc'

end FloodState
end MeshDesk.Mesh
