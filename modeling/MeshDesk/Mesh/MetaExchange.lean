import Mathlib.Data.List.Induction
import MeshDesk.Lib.Maps

/-! Metadata messages between nodes with a session: which copies a node applies, and which it sends on. A
message names its originator and the originator's clock as a sequence number. -/
namespace MeshDesk.Mesh
open Lib (Map)

def maxMetaTTL : ℕ := 4

structure PeerMeta where
  key : String
  vip : String := ""
  deriving DecidableEq, Repr

structure MetaMessage where
  type : String := "meta"
  self : PeerMeta
  peers : List PeerMeta := []
  seq : ℕ
  ttl : ℕ := 0
  deriving DecidableEq, Repr

/-- The last sequence number per neighbour, and the messages seen, by originator and sequence number. -/
structure MetaExchanger where
  peerSeq : Map String ℕ := ∅
  seen : Map (String × ℕ) ℕ := ∅

namespace MetaExchanger
variable {me : MetaExchanger} {fromKey : String} {msg : MetaMessage}

def boundMaps (me : MetaExchanger) : MetaExchanger where
  seen := if me.seen.size > 4096 then ∅ else me.seen
  peerSeq := if me.peerSeq.size > 512 then ∅ else me.peerSeq

/-- Whether a message from a neighbour is applied: the part of `apply` under the lock. -/
def apply (me : MetaExchanger) (fromKey : String) (msg : MetaMessage) : Bool × MetaExchanger :=
  if msg.type ≠ "meta" then (false, me)
  else if (me.peerSeq.lookup fromKey).any (msg.seq ≤ ·) then (false, me)
  else
    let me := { me with peerSeq := me.peerSeq.insert fromKey msg.seq }
    if (me.seen.lookup (msg.self.key, msg.seq)).any (msg.seq ≤ ·) then (false, me)
    else (true, { me with seen := me.seen.insert (msg.self.key, msg.seq) msg.seq }.boundMaps)

/-- The copies an applied message is sent on as: none from the last hop, else one to every session peer
but the one it came from and its originator. -/
def forward (sessionPeerKeys : List String) (fromKey : String) (msg : MetaMessage) : List (String × MetaMessage) :=
  if msg.ttl ≥ maxMetaTTL then []
  else (sessionPeerKeys.filter fun key => key ≠ fromKey ∧ key ≠ msg.self.key).map
    fun key => (key, { msg with ttl := msg.ttl + 1 })

def broadcast (sessionPeerKeys : List String) (localKey : String) (msg : MetaMessage) : List (String × MetaMessage) :=
  (sessionPeerKeys.filter (· ≠ localKey)).map fun key => (key, msg)

/-- The outcomes of a delivery: not a metadata message; not newer than what the neighbour sent last; seen
before; applied. -/
theorem apply_cases (me : MetaExchanger) (fromKey : String) (msg : MetaMessage) :
    (msg.type ≠ "meta" ∧ me.apply fromKey msg = (false, me)) ∨
      (∃ last, me.peerSeq.lookup fromKey = some last ∧ msg.seq ≤ last ∧ me.apply fromKey msg = (false, me)) ∨
      (msg.type = "meta" ∧ (∃ s, me.seen.lookup (msg.self.key, msg.seq) = some s) ∧
        me.apply fromKey msg = (false, { me with peerSeq := me.peerSeq.insert fromKey msg.seq })) ∨
      (msg.type = "meta" ∧ me.apply fromKey msg =
        (true, { peerSeq := me.peerSeq.insert fromKey msg.seq
                 seen := me.seen.insert (msg.self.key, msg.seq) msg.seq : MetaExchanger }.boundMaps)) := by
  unfold apply
  by_cases htype : msg.type = "meta"
  · rw [if_neg (not_not.mpr htype)]
    by_cases hstale : (me.peerSeq.lookup fromKey).any (msg.seq ≤ ·) = true
    · obtain ⟨last, hlast, hle⟩ := (Option.any_eq_true _ _).mp hstale
      exact .inr (.inl ⟨last, hlast, of_decide_eq_true hle, if_pos hstale⟩)
    · rw [if_neg hstale]
      by_cases hseen : (me.seen.lookup (msg.self.key, msg.seq)).any (msg.seq ≤ ·) = true
      · obtain ⟨s, hs, _⟩ := (Option.any_eq_true _ _).mp hseen
        exact .inr (.inr (.inl ⟨htype, ⟨s, hs⟩, if_pos hseen⟩))
      · exact .inr (.inr (.inr ⟨htype, if_neg hseen⟩))
  · exact .inl ⟨htype, if_pos htype⟩

end MetaExchanger

/-! ### Deliveries at one node -/

structure MetaHistory where
  me : MetaExchanger := {}
  applied : List MetaMessage := []

namespace MetaHistory

def deliver (s : MetaHistory) (d : String × MetaMessage) : MetaHistory where
  me := (s.me.apply d.1 d.2).2
  applied := if (s.me.apply d.1 d.2).1 then s.applied ++ [d.2] else s.applied

/-- The exchanger remembers only sequence numbers it was sent and messages it has applied. -/
structure Remembers (s : MetaHistory) (ds : List (String × MetaMessage)) : Prop where
  peerSeq : ∀ k last, s.me.peerSeq.lookup k = some last → ∃ d ∈ ds, d.1 = k ∧ d.2.seq = last
  seen : ∀ k q v, s.me.seen.lookup (k, q) = some v → ∃ m ∈ s.applied, m.self.key = k ∧ m.seq = q

theorem remembers_insert {m : Map String ℕ} {ds : List (String × MetaMessage)} {d : String × MetaMessage}
    (h : ∀ k last, m.lookup k = some last → ∃ d ∈ ds, d.1 = k ∧ d.2.seq = last) {k : String} {last : ℕ}
    (hk : (m.insert d.1 d.2.seq).lookup k = some last) : ∃ d' ∈ ds ++ [d], d'.1 = k ∧ d'.2.seq = last := by
  obtain ⟨rfl, rfl⟩ | ⟨-, hold⟩ := Map.lookup_of_insert hk
  · exact ⟨d, by simp, rfl, rfl⟩
  · obtain ⟨d', hd', heq⟩ := h k last hold
    exact ⟨d', List.mem_append_left _ hd', heq⟩

theorem Remembers.deliver {s : MetaHistory} {ds : List (String × MetaMessage)} (h : s.Remembers ds)
    (d : String × MetaMessage) : (s.deliver d).Remembers (ds ++ [d]) := by
  have hold : ∀ k last, s.me.peerSeq.lookup k = some last → ∃ d' ∈ ds ++ [d], d'.1 = k ∧ d'.2.seq = last := by
    intro k last hk
    obtain ⟨d', hd', heq⟩ := h.peerSeq k last hk
    exact ⟨d', List.mem_append_left _ hd', heq⟩
  unfold MetaHistory.deliver
  obtain ⟨_, ha⟩ | ⟨_, _, _, ha⟩ | ⟨_, _, ha⟩ | ⟨_, ha⟩ := s.me.apply_cases d.1 d.2
  · rw [ha]
    exact ⟨hold, h.seen⟩
  · rw [ha]
    exact ⟨hold, h.seen⟩
  · rw [ha]
    exact ⟨fun k last hk => remembers_insert h.peerSeq hk, h.seen⟩
  · rw [ha]
    constructor
    · intro k last hk
      dsimp only [MetaExchanger.boundMaps] at hk
      split_ifs at hk
      · cases hk
      · exact remembers_insert h.peerSeq hk
    · intro k q v hk
      dsimp only [MetaExchanger.boundMaps] at hk
      split_ifs at hk
      · cases hk
      · rw [if_pos rfl]
        obtain ⟨hkey, -⟩ | ⟨-, hold⟩ := Map.lookup_of_insert hk
        · obtain ⟨rfl, rfl⟩ := Prod.mk.inj hkey
          exact ⟨d.2, by simp, rfl, rfl⟩
        · obtain ⟨m, hm, heq⟩ := h.seen k q v hold
          exact ⟨m, List.mem_append_left _ hm, heq⟩

theorem remembers_run (ds : List (String × MetaMessage)) : (ds.foldl deliver {}).Remembers ds := by
  induction ds using List.reverseRecOn with
  | nil =>
    constructor
    · intro k last hk
      cases hk
    · intro k q v hk
      cases hk
  | append_singleton ds d ih =>
    rw [List.foldl_append]
    exact ih.deliver d

/-- A message newer than everything applied from its originator is applied, if it is also newer than
everything the same neighbour has sent. -/
theorem fresh_applied (ds : List (String × MetaMessage)) (fromKey : String) (msg : MetaMessage)
    (htype : msg.type = "meta")
    (hfresh : ∀ m ∈ (ds.foldl deliver {}).applied, m.self.key = msg.self.key → m.seq < msg.seq)
    (hneighbour : ∀ d ∈ ds, d.1 = fromKey → d.2.seq < msg.seq) :
    ((ds.foldl deliver {}).me.apply fromKey msg).1 = true := by
  have hr := remembers_run ds
  obtain ⟨hne, _⟩ | ⟨last, hlast, hle, _⟩ | ⟨_, ⟨v, hv⟩, _⟩ | ⟨_, ha⟩ :=
    (ds.foldl deliver {}).me.apply_cases fromKey msg
  · exact absurd htype hne
  · obtain ⟨d, hd, hk, hseq⟩ := hr.peerSeq _ _ hlast
    have := hneighbour d hd hk
    omega
  · obtain ⟨m, hm, hk, hseq⟩ := hr.seen _ _ _ hv
    have := hfresh m hm hk
    omega
  · rw [ha]

theorem fresh_applied_newer :
    let ds : List (String × MetaMessage) := [("r", { self := ⟨"a", ""⟩, seq := 100 })]
    ((ds.foldl deliver {}).me.apply "r" { self := ⟨"b", ""⟩, seq := 150 }).1 = true :=
  fresh_applied [("r", { self := ⟨"a", ""⟩, seq := 100 })] "r" { self := ⟨"b", ""⟩, seq := 150 } rfl
    (by decide) (by decide)

/-- Nothing is forgotten as long as `seen` has room. -/
structure Distinct (s : MetaHistory) : Prop where
  seen : s.applied.length ≤ 4096 → s.me.seen.size ≤ s.applied.length ∧
    ∀ m ∈ s.applied, s.me.seen.lookup (m.self.key, m.seq) = some m.seq
  nodup : s.applied.length ≤ 4097 → (s.applied.map fun m => (m.self.key, m.seq)).Nodup

theorem Distinct.deliver {s : MetaHistory} (h : s.Distinct) (d : String × MetaMessage) : (s.deliver d).Distinct := by
  have hrepeat : s.me.seen.lookup (d.2.self.key, d.2.seq) = some d.2.seq → (s.me.apply d.1 d.2).1 = false := by
    intro hseen
    unfold MetaExchanger.apply
    split_ifs <;> simp_all
  unfold MetaHistory.deliver
  obtain ⟨_, ha⟩ | ⟨_, _, _, ha⟩ | ⟨_, _, ha⟩ | ⟨_, ha⟩ := s.me.apply_cases d.1 d.2
  · rw [ha]
    exact h
  · rw [ha]
    exact h
  · rw [ha]
    exact ⟨h.seen, h.nodup⟩
  rw [ha] at hrepeat ⊢
  have hadd := Map.size_insert_le s.me.seen (d.2.self.key, d.2.seq) d.2.seq
  constructor
  · simp only [if_true, List.length_append, List.length_singleton, MetaExchanger.boundMaps]
    intro hlen
    obtain ⟨hsize, hall⟩ := h.seen (by omega)
    rw [if_neg (by omega)]
    refine ⟨by omega, List.forall_mem_append.mpr ⟨fun m hm => ?_, by simp⟩⟩
    by_cases heq : (m.self.key, m.seq) = (d.2.self.key, d.2.seq)
    · rw [heq, AList.lookup_insert, (Prod.mk.inj heq).2]
    · rw [AList.lookup_insert_ne heq, hall m hm]
  · simp only [if_true, List.length_append, List.length_singleton, List.map_append, List.map_singleton]
    intro hlen
    rw [← List.concat_eq_append, List.nodup_concat]
    refine ⟨fun hmem => ?_, h.nodup (by omega)⟩
    obtain ⟨m, hm, heq⟩ := List.mem_map.mp hmem
    have hseen := (h.seen (by omega)).2 m hm
    rw [heq, (Prod.mk.inj heq).2] at hseen
    cases hrepeat hseen

/-- Whatever arrives and from whom, the first 4097 messages that a node applies are different ones. -/
theorem applied_once (ds : List (String × MetaMessage)) (hlen : (ds.foldl deliver {}).applied.length ≤ 4097) :
    ((ds.foldl deliver {}).applied.map fun m => (m.self.key, m.seq)).Nodup := by
  have hstart : Distinct {} := ⟨fun _ => ⟨le_rfl, by simp⟩, by simp⟩
  exact (List.foldlRecOn (motive := Distinct) ds _ hstart fun _ h d _ => h.deliver d).nodup hlen

theorem applied_once_copies :
    ((List.foldl deliver {} (["a", "r"].map (·, { self := ⟨"a", ""⟩, seq := 1 }))).applied.map
      fun m => (m.self.key, m.seq)).Nodup :=
  applied_once _ (by decide)

end MetaHistory
end MeshDesk.Mesh
