import MeshDesk.Lib.Table
import MeshDesk.Lib.Walks
import MeshDesk.Mesh.MetaExchange

/-! A metadata message flooding a static session graph: copies are in flight between nodes and are delivered
in any order. Every node within five hops of a broadcast applies it, provided each copy that is applied up
to the fourth hop has come along a shortest path. -/
namespace MeshDesk.Mesh
open Lib List

structure MetaCopy where
  sender : String
  receiver : String
  msg : MetaMessage
  deriving DecidableEq, Repr

/-- The exchangers of all nodes, the copies in flight, and who has applied what. -/
structure FloodState where
  nodes : String → MetaExchanger := fun _ => {}
  inFlight : List MetaCopy := []
  applied : List (String × MetaMessage) := []

inductive FloodStep where
  | broadcast (node : String) (msg : MetaMessage)
  | deliver (i : ℕ)
  deriving DecidableEq, Repr

namespace FloodState

def copiesFrom (sender : String) (copies : List (String × MetaMessage)) : List MetaCopy :=
  copies.map fun c => ⟨sender, c.1, c.2⟩

variable (sessions : String → List String) (s : FloodState)

def receive (rest : List MetaCopy) (c : MetaCopy) : FloodState :=
  let r := (s.nodes c.receiver).apply c.sender c.msg
  { nodes := Function.update s.nodes c.receiver r.2
    inFlight := rest ++
      if r.1 then copiesFrom c.receiver (MetaExchanger.forward (sessions c.receiver) c.sender c.msg) else []
    applied := if r.1 then s.applied ++ [(c.receiver, c.msg)] else s.applied }

def step : FloodStep → FloodState
  | .broadcast node msg =>
    { s with inFlight := s.inFlight ++ copiesFrom node (MetaExchanger.broadcast (sessions node) node msg) }
  | .deliver i =>
    match s.inFlight[i]? with
    | none => s
    | some c => s.receive sessions (s.inFlight.eraseIdx i) c

def run (steps : List FloodStep) : FloodState :=
  steps.foldl (step sessions) s

end FloodState

section OneBroadcast
variable {sessions : String → List String} {M : MetaMessage} {s : FloodState}

def IsCopy (M m : MetaMessage) : Prop := m = { M with ttl := m.ttl }

def HasApplied (s : FloodState) (v : String) : Prop := ∃ m, (v, m) ∈ s.applied

/-- The node has the message, or a copy is on its way to it. -/
def Reached (s : FloodState) (v : String) : Prop := HasApplied s v ∨ ∃ c ∈ s.inFlight, c.receiver = v

/-- What holds while the broadcast of `M` by the node `M.self.key` spreads. -/
structure Flooding (sessions : String → List String) (M : MetaMessage) (s : FloodState) : Prop where
  inFlight : ∀ c ∈ s.inFlight, IsCopy M c.msg ∧ c.receiver ≠ M.self.key ∧
    (c.sender = M.self.key ∨ HasApplied s c.sender)
  applied : ∀ e ∈ s.applied, IsCopy M e.2
  idle : ∀ v, ¬ HasApplied s v → s.nodes v = {}
  origin : ∀ v ∈ sessions M.self.key, v ≠ M.self.key → Reached s v
  forwarded : ∀ e ∈ s.applied, e.2.ttl < maxMetaTTL → ∀ v ∈ sessions e.1, v ≠ M.self.key → Reached s v

variable {c : MetaCopy} {m : MetaMessage} {i : ℕ}

theorem mem_copiesFrom {sender : String} {copies : List (String × MetaMessage)} :
    c ∈ FloodState.copiesFrom sender copies ↔ c.sender = sender ∧ (c.receiver, c.msg) ∈ copies := by
  unfold FloodState.copiesFrom
  rw [mem_map]
  constructor
  · rintro ⟨e, he, rfl⟩
    exact ⟨rfl, he⟩
  · rintro ⟨rfl, he⟩
    exact ⟨_, he, rfl⟩

theorem flooding_broadcast (httl : M.ttl = 0) :
    Flooding sessions M (FloodState.step sessions {} (.broadcast M.self.key M)) := by
  have hmem : ∀ c, c ∈ (FloodState.step sessions {} (.broadcast M.self.key M)).inFlight ↔
      c.sender = M.self.key ∧ (c.receiver ∈ sessions M.self.key ∧ c.receiver ≠ M.self.key) ∧ c.msg = M := by
    intro c
    change c ∈ [] ++ FloodState.copiesFrom _ _ ↔ _
    rw [nil_append, mem_copiesFrom]
    unfold MetaExchanger.broadcast
    simp only [mem_map, mem_filter, decide_eq_true_eq, Prod.mk.injEq]
    constructor
    · rintro ⟨hs, k, hk, rfl, hm⟩
      exact ⟨hs, hk, hm.symm⟩
    · rintro ⟨hs, hk, hm⟩
      exact ⟨hs, c.receiver, hk, rfl, hm.symm⟩
  refine ⟨?_, fun e he => absurd he not_mem_nil, fun v _ => rfl, ?_, fun e he => absurd he not_mem_nil⟩
  · intro c hc
    obtain ⟨hs, hr, hm⟩ := (hmem c).mp hc
    refine ⟨?_, hr.2, .inl hs⟩
    rw [hm]
    cases M
    rfl
  · intro v hv hne
    exact .inr ⟨⟨M.self.key, v, M⟩, (hmem _).mpr ⟨rfl, ⟨hv, hne⟩, rfl⟩, rfl⟩

theorem apply_first (htype : M.type = "meta") (hm : IsCopy M m) (sender : String) :
    (MetaExchanger.apply {} sender m).1 = true := by
  have ht : m.type = "meta" := by
    rw [hm]
    exact htype
  obtain ⟨hne, _⟩ | ⟨_, hl, _⟩ | ⟨_, ⟨_, hs⟩, _⟩ | ⟨_, ha⟩ := MetaExchanger.apply_cases {} sender m
  · exact absurd ht hne
  · cases hl
  · cases hs
  · rw [ha]

theorem mem_forward {peers : List String} {sender : String} {e : String × MetaMessage} :
    e ∈ MetaExchanger.forward peers sender m ↔ m.ttl < maxMetaTTL ∧ e.1 ∈ peers ∧ e.1 ≠ sender ∧ e.1 ≠ m.self.key ∧
      e.2 = { m with ttl := m.ttl + 1 } := by
  unfold MetaExchanger.forward
  split_ifs with httl
  · simp only [not_mem_nil, false_iff]
    rintro ⟨hlt, _⟩
    exact absurd hlt (not_lt.mpr httl)
  · simp only [mem_map, mem_filter, decide_eq_true_eq]
    constructor
    · rintro ⟨k, ⟨hk, hs, ho⟩, rfl⟩
      exact ⟨not_le.mp httl, hk, hs, ho, rfl⟩
    · rintro ⟨_, hk, hs, ho, he⟩
      exact ⟨e.1, ⟨hk, hs, ho⟩, by rw [← he]⟩

theorem mem_receive_inFlight {rest : List MetaCopy} {c' : MetaCopy} :
    c' ∈ (s.receive sessions rest c).inFlight ↔ c' ∈ rest ∨
      ((s.nodes c.receiver).apply c.sender c.msg).1 = true ∧ c'.sender = c.receiver ∧ c.msg.ttl < maxMetaTTL ∧
        c'.receiver ∈ sessions c.receiver ∧ c'.receiver ≠ c.sender ∧ c'.receiver ≠ c.msg.self.key ∧
        c'.msg = { c.msg with ttl := c.msg.ttl + 1 } := by
  unfold FloodState.receive
  rw [mem_append]
  split_ifs with hok
  · rw [mem_copiesFrom, mem_forward]
    simp only [hok, true_and]
  · simp only [hok, not_mem_nil, Bool.false_eq_true, false_and]

theorem mem_receive_applied {rest : List MetaCopy} {e : String × MetaMessage} :
    e ∈ (s.receive sessions rest c).applied ↔ e ∈ s.applied ∨
      ((s.nodes c.receiver).apply c.sender c.msg).1 = true ∧ e = (c.receiver, c.msg) := by
  unfold FloodState.receive
  dsimp only
  split_ifs with hok
  · rw [mem_append, mem_singleton]
    simp only [hok, true_and]
  · simp only [hok, Bool.false_eq_true, false_and, or_false]

theorem HasApplied.receive {v : String} (h : HasApplied s v) (rest : List MetaCopy) (c : MetaCopy) :
    HasApplied (s.receive sessions rest c) v := by
  obtain ⟨m, hm⟩ := h
  exact ⟨m, mem_receive_applied.mpr (.inl hm)⟩

theorem hasApplied_receiver (htype : M.type = "meta") (h : Flooding sessions M s) (rest : List MetaCopy)
    (hc : c ∈ s.inFlight) : HasApplied (s.receive sessions rest c) c.receiver := by
  by_cases hv : HasApplied s c.receiver
  · exact hv.receive rest c
  · have hok : ((s.nodes c.receiver).apply c.sender c.msg).1 = true := by
      rw [h.idle _ hv]
      exact apply_first htype (h.inFlight c hc).1 c.sender
    exact ⟨c.msg, mem_receive_applied.mpr (.inr ⟨hok, rfl⟩)⟩

theorem Reached.receive (htype : M.type = "meta") (h : Flooding sessions M s)
    (hi : s.inFlight[i]? = some c) {v : String} (hv : Reached s v) :
    Reached (s.receive sessions (s.inFlight.eraseIdx i) c) v := by
  rcases hv with hv | ⟨c', hc', rfl⟩
  · exact .inl (hv.receive _ c)
  · rcases Table.eq_or_mem_eraseIdx hi hc' with rfl | hmem
    · exact .inl (hasApplied_receiver htype h _ hc')
    · exact .inr ⟨c', mem_append_left _ hmem, rfl⟩

theorem IsCopy.self (h : IsCopy M m) : m.self = M.self := by rw [h]

theorem IsCopy.hop (h : IsCopy M m) (k : ℕ) : IsCopy M { m with ttl := k } := by
  unfold IsCopy
  rw [h]

theorem Flooding.receive (htype : M.type = "meta") (h : Flooding sessions M s)
    (hi : s.inFlight[i]? = some c) : Flooding sessions M (s.receive sessions (s.inFlight.eraseIdx i) c) := by
  have hc : c ∈ s.inFlight := mem_of_getElem? hi
  obtain ⟨hcopy, hrecv, hsend⟩ := h.inFlight c hc
  have hreach : ∀ v, Reached s v → Reached (s.receive sessions (s.inFlight.eraseIdx i) c) v :=
    fun v hv => hv.receive htype h hi
  have hgot := hasApplied_receiver htype h (s.inFlight.eraseIdx i) hc
  have hself : c.msg.self = M.self := hcopy.self
  constructor
  · intro c' hc'
    obtain hold | ⟨_, hs, _, _, _, ho, hm⟩ := mem_receive_inFlight.mp hc'
    · obtain ⟨hcp, hr, hs⟩ := h.inFlight c' (mem_of_mem_eraseIdx hold)
      exact ⟨hcp, hr, hs.imp_right fun ha => ha.receive _ c⟩
    · refine ⟨?_, hself ▸ ho, .inr (hs ▸ hgot)⟩
      rw [hm]
      exact hcopy.hop _
  · intro e he
    obtain hold | ⟨_, rfl⟩ := mem_receive_applied.mp he
    · exact h.applied e hold
    · exact hcopy
  · intro v hv
    have hne : v ≠ c.receiver := by
      rintro rfl
      exact hv hgot
    have hold : ¬ HasApplied s v := fun ha => hv (ha.receive _ c)
    change Function.update s.nodes c.receiver _ v = _
    rw [Function.update_of_ne hne]
    exact h.idle v hold
  · intro v hv hne
    exact hreach v (h.origin v hv hne)
  · intro e he httl v hv hne
    obtain hold | ⟨hok, rfl⟩ := mem_receive_applied.mp he
    · exact hreach v (h.forwarded e hold httl v hv hne)
    · -- the copy goes to every session peer but the sender, which has the message, and the originator
      by_cases hsender : v = c.sender
      · subst hsender
        exact .inl ((hsend.resolve_left hne).receive _ c)
      · exact .inr ⟨⟨c.receiver, v, { c.msg with ttl := c.msg.ttl + 1 }⟩,
          mem_receive_inFlight.mpr (.inr ⟨hok, rfl, httl, hv, hsender, hself ▸ hne, rfl⟩), rfl⟩

theorem Flooding.deliver (htype : M.type = "meta") (h : Flooding sessions M s) (i : ℕ) :
    Flooding sessions M (s.step sessions (.deliver i)) := by
  cases hi : s.inFlight[i]? with
  | none =>
    have hstep : s.step sessions (.deliver i) = s := by simp only [FloodState.step, hi]
    rw [hstep]
    exact h
  | some c =>
    have hstep : s.step sessions (.deliver i) = s.receive sessions (s.inFlight.eraseIdx i) c := by
      simp only [FloodState.step, hi]
    rw [hstep]
    exact h.receive htype hi

theorem Flooding.run (htype : M.type = "meta") (h : Flooding sessions M s) (order : List ℕ) :
    Flooding sessions M (s.run sessions (order.map .deliver)) := by
  induction order generalizing s with
  | nil => exact h
  | cons i order ih => exact ih (h.deliver htype i)

/-- On an idle network, whatever the order of deliveries: once nothing is in flight any more, every node
within five hops has applied the broadcast, if the copies applied within four hops came along shortest
paths, so that their hop counts are the distances. -/
theorem flood_covers (sessions : String → List String) (M : MetaMessage) (htype : M.type = "meta") (httl : M.ttl = 0)
    (order : List ℕ) (s : FloodState)
    (hs : s = FloodState.run sessions {} (.broadcast M.self.key M :: order.map .deliver)) (hdone : s.inFlight = [])
    (hshort : ∀ e ∈ s.applied, ∀ d ≤ maxMetaTTL, IsDist sessions M.self.key d e.1 → e.2.ttl + 1 = d)
    (d : ℕ) (hd : d ≤ maxMetaTTL + 1) (v : String) (hne : v ≠ M.self.key) (hv : IsDist sessions M.self.key d v) :
    ∃ m, (v, m) ∈ s.applied := by
  have h : Flooding sessions M s := by
    rw [hs]
    exact (flooding_broadcast httl).run htype order
  have hreached : ∀ v, Reached s v → HasApplied s v := by
    rintro v (hv | ⟨c, hc, _⟩)
    · exact hv
    · rw [hdone] at hc
      exact absurd hc not_mem_nil
  -- by induction on the distance, through the neighbour that is one hop nearer
  induction d generalizing v with
  | zero => exact absurd hv.eq_start hne
  | succ d ih =>
    obtain ⟨u, hu, huv⟩ := hv.pred
    by_cases huo : u = M.self.key
    · subst huo
      exact hreached v (h.origin v huv hne)
    · obtain ⟨m, hm⟩ := ih (by omega) u huo hu
      have hhop := hshort _ hm d (by omega) hu
      exact hreached v (h.forwarded _ hm (by dsimp only at hhop ⊢; omega) v huv hne)

end OneBroadcast

def inARow : String → List String
  | "o" => ["a"]
  | "a" => ["o", "b"]
  | "b" => ["a"]
  | _ => []

theorem flood_covers_inARow :
    let s := FloodState.run inARow {} (.broadcast "o" ⟨"meta", ⟨"o", ""⟩, [], 1, 0⟩ :: [0, 0].map .deliver)
    s.inFlight = [] ∧ ∃ m, ("b", m) ∈ s.applied := by
  intro s
  have hdone : s.inFlight = [] := by decide
  exact ⟨hdone, flood_covers inARow ⟨"meta", ⟨"o", ""⟩, [], 1, 0⟩ rfl rfl [0, 0] s rfl hdone (by decide) 2
    (by decide) "b" (by decide) (by decide)⟩

/-- `x` is next to `o`, and also behind `a`, `b` and `c`. -/
def detour : String → List String
  | "o" => ["x", "a"]
  | "a" => ["o", "b"]
  | "b" => ["a", "c"]
  | "c" => ["b", "x"]
  | "x" => ["o", "c", "y"]
  | "y" => ["x", "z"]
  | "z" => ["y"]
  | _ => []

/-- The copy that took the detour reaches `x` first and has no hops left behind `y`; the direct one is then a
duplicate, and `z`, three hops away, gets nothing. -/
theorem detour_first_misses :
    let s := FloodState.run detour {} (.broadcast "o" ⟨"meta", ⟨"o", ""⟩, [], 1, 0⟩ :: [1, 1, 1, 1, 0, 0].map .deliver)
    s.inFlight = [] ∧ IsDist detour "o" 3 "z" ∧ ∀ e ∈ s.applied, e.1 ≠ "z" := by
  decide

def star : String → List String
  | "r" => ["a", "b", "n"]
  | "a" => ["r"]
  | "b" => ["r"]
  | "n" => ["r"]
  | _ => []

/-- The clock of `b` is behind that of `a`. After `r` has sent the message of `a` on to `n`, the first message
of `b` arrives there through `r` and is discarded as stale, though `n` has applied nothing of `b`. -/
theorem slow_clock_discarded :
    let fromB : MetaMessage := ⟨"meta", ⟨"b", ""⟩, [], 50, 0⟩
    let s := FloodState.run star {} [.broadcast "a" ⟨"meta", ⟨"a", ""⟩, [], 100, 0⟩, .deliver 0, .deliver 1,
      .deliver 0, .broadcast "b" fromB, .deliver 0, .deliver 0]
    s.inFlight = [⟨"r", "n", { fromB with ttl := 1 }⟩] ∧ (∀ e ∈ s.applied, e.1 = "n" → e.2.self.key ≠ "b") ∧
      ((s.nodes "n").apply "r" { fromB with ttl := 1 }).1 = false := by
  decide

end MeshDesk.Mesh
