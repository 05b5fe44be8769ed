import MeshDesk.Lib.Interleaving

/-! The limit on the connections that a SOCKS5 handler serves at once. `HandleStream` loads the counter, adds to it, and
subtracts from it when the connection ends: three atomic operations, with those of other calls between them. -/
namespace MeshDesk.Mesh
open Lib List

/-- A `SOCKS5ForwardHandler` asks nothing of its peers. -/
structure SOCKS5Handler where
  maxConnections : ℤ
  requireMesh : Bool := false
  checkMeshPeer : Option (String → Bool) := none
  allowedPeers : List String := []
  closed : Bool := false
  activeConns : ℤ := 0

def SOCKS5Handler.authorized (h : SOCKS5Handler) (peerID : String) : Bool :=
  (!h.requireMesh || match h.checkMeshPeer with
    | some check => check peerID
    | none => peerID ≠ "") && (h.allowedPeers = [] || peerID ≠ "" && peerID ∈ h.allowedPeers)

namespace SOCKS5Handler

inductive StreamSection where
  | load (peerID : String)
  | add
  | handling
  deriving DecidableEq

def handleStream : Sections SOCKS5Handler Unit String StreamSection where
  start := .load
  exec h _
    | .load peerID =>
      (h, if h.closed then [] else if h.maxConnections ≤ h.activeConns then []
        else if h.authorized peerID then [.add] else [])
    | .add => ({ h with activeConns := h.activeConns + 1 }, [.handling])
    | .handling => ({ h with activeConns := h.activeConns - 1 }, [])

/-- A call loads the counter only when no other is about to add to it. -/
def Serial (_ : SOCKS5Handler) (_ : Unit) (t : StreamSection) (others : List StreamSection) : Prop :=
  t = .add ∨ t = .handling ∨ .add ∉ others

instance (h : SOCKS5Handler) (u : Unit) (t : StreamSection) (others : List StreamSection) :
    Decidable (Serial h u t others) := inferInstanceAs (Decidable (_ ∨ _ ∨ _))

structure Limited (limit : ℤ) (h : SOCKS5Handler) (ready : List StreamSection) : Prop where
  same : h.maxConnections = limit
  counter : h.activeConns = ready.count .handling
  room : (ready.count .add : ℤ) + ready.count .handling ≤ limit

theorem handleStream_limited (limit : ℤ) : handleStream.Carries Serial (Limited limit) where
  perm h l l' hperm hl :=
    ⟨hl.same, by rw [hl.counter, hperm.count_eq], by rw [← hperm.count_eq, ← hperm.count_eq]; exact hl.room⟩
  start h peerID l hl := ⟨hl.same, by simpa [handleStream] using hl.counter, by simpa [handleStream] using hl.room⟩
  exec h u t l hserial hl := by
    obtain ⟨hsame, hcounter, hroom⟩ := hl
    cases t with
    | load peerID =>
      have hnone : l.count .add = 0 := count_eq_zero.mpr (by simpa [Serial] using hserial)
      simp only [reduceCtorEq, not_false_eq_true, count_cons_of_ne, ne_eq] at hcounter hroom
      simp only [handleStream]
      split_ifs with hclosed hfull
      · exact ⟨hsame, hcounter, hroom⟩
      · exact ⟨hsame, hcounter, hroom⟩
      · refine ⟨hsame, by simpa using hcounter, ?_⟩
        simp [hnone]
        omega
      · exact ⟨hsame, hcounter, hroom⟩
    | add | handling =>
      simp only [count_cons_self, reduceCtorEq, not_false_eq_true, count_cons_of_ne, ne_eq] at hcounter hroom
      refine ⟨hsame, by simp [handleStream, hcounter], ?_⟩
      simp [handleStream]
      omega

/-- Calls that do not load the counter while another is about to add to it keep to the limit, and the counter is 0 when
all have ended. -/
theorem connections_limited (h : SOCKS5Handler) (hnew : h.activeConns = 0) (hmax : 0 < h.maxConnections)
    (turns : List (Turn Unit String)) (hserial : handleStream.Permits Serial ⟨h, []⟩ turns) :
    let p := handleStream.run ⟨h, []⟩ turns
    (p.ready.count .handling : ℤ) ≤ h.maxConnections ∧ (p.ready = [] → p.state.activeConns = 0) := by
  obtain ⟨-, hcounter, hroom⟩ := (handleStream_limited h.maxConnections).run hserial ⟨rfl, hnew, Int.le_of_lt hmax⟩
  refine ⟨by omega, fun hended => ?_⟩
  rw [hcounter, hended]
  rfl

theorem connections_limited_one :
    (handleStream.run ⟨{ maxConnections := 1 }, []⟩
      [.call "a", .call "b", .exec 0 (), .exec 1 (), .exec 0 (), .exec 0 ()]).state.activeConns = 0 :=
  (connections_limited { maxConnections := 1 } rfl (by decide)
    [.call "a", .call "b", .exec 0 (), .exec 1 (), .exec 0 (), .exec 0 ()] (by decide)).2 (by decide)

/-- Two calls that both load the counter before either adds to it are both handled. -/
theorem limit_exceeded :
    (handleStream.run ⟨{ maxConnections := 1 }, []⟩
      [.call "a", .call "b", .exec 0 (), .exec 0 (), .exec 0 (), .exec 0 ()]).ready = [.handling, .handling] := by
  decide

end MeshDesk.Mesh.SOCKS5Handler
