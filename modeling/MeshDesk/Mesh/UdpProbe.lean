import MeshDesk.Mesh.UdpRecvBuf

/-! A path probe that is not acknowledged. The retransmission runs while its goroutine holds `sendMu`, in
`retransmitLoop` and in a `Write` that waits for the window, and it calls `Close`, which takes `sendMu`. -/
namespace MeshDesk.Mesh
open Lib
open Proxy (Bytes)

/-- A connection as a goroutine at work on it sees it. `held` says that the goroutine holds `sendMu`. -/
structure LockedConn where
  conn : UdpConn
  held : Bool

namespace LockedConn

variable (g : LockedConn)

/-- A goroutine that holds the lock waits for itself. -/
def lock : Option LockedConn := if g.held then none else some { g with held := true }

def unlock : LockedConn := { g with held := false }

/-- The function runs `once`. -/
def close : Option (LockedConn × List Bytes) :=
  if g.conn.closed then some (g, [])
  else do
    let g ← g.lock
    let g := { g with conn := { g.conn with closed := true } }.unlock
    some ({ g with conn := { g.conn with done := true } }, [(finFrame g.conn.baseSeq).encode])

def retransmitLocked (g : LockedConn) : List UInt32 → Option (LockedConn × List Bytes)
  | [] => some (g, [])
  | seq :: due =>
    match g.conn.inflight.lookup seq with
    | none => g.retransmitLocked due
    | some frame =>
      if g.conn.probePending && UdpConn.isLarge frame then g.close
      else (g.retransmitLocked due).map fun r => (r.1, frame :: r.2)

def retransmitTick (due : List UInt32) : Option (LockedConn × List Bytes) :=
  g.lock.bind fun g =>
    (if 0 < g.conn.inflight.size then g.retransmitLocked due else some (g, [])).map fun r => (r.1.unlock, r.2)

variable {sc : UdpConn} (hstuck : sc.stuck = false) (due : List UInt32)
include hstuck

theorem retransmitLocked_eq : retransmitLocked ⟨sc, true⟩ due =
    if (sc.retransmitLocked due).1.stuck then none else some (⟨sc, true⟩, (sc.retransmitLocked due).2) := by
  induction due with
  | nil => simp [retransmitLocked, UdpConn.retransmitLocked, hstuck]
  | cons seq due ih =>
    rw [retransmitLocked, UdpConn.retransmitLocked]
    cases hl : sc.inflight.lookup seq with
    | none => exact ih
    | some frame =>
      dsimp only
      split_ifs with hprobe hwaits hwaits
      · simp_all [close, lock]
      · simp_all [close]
      · rw [ih, if_pos hwaits]
        rfl
      · rw [ih, if_neg hwaits]
        rfl

end LockedConn

namespace UdpConn

/-- A large probe is among the frames that have waited for the retransmission timeout. -/
def ProbeDue (sc : UdpConn) (due : List UInt32) : Prop :=
  sc.probePending = true ∧ ∃ seq ∈ due, ∃ frame ∈ sc.inflight.lookup seq, isLarge frame = true

instance (sc : UdpConn) (due : List UInt32) : Decidable (sc.ProbeDue due) := by
  unfold ProbeDue
  infer_instance

variable {sc : UdpConn}

theorem ProbeDue.stuck {due : List UInt32} (h : sc.ProbeDue due) :
    (sc.retransmitLocked due).1.stuck = !sc.closed := by
  obtain ⟨hpending, seq, hseq, frame, hframe, hlarge⟩ := h
  induction due with
  | nil => cases hseq
  | cons k due ih =>
    rw [retransmitLocked]
    obtain rfl | hrest := List.mem_cons.mp hseq
    · rw [Option.mem_def.mp hframe]
      simp [hpending, hlarge]
    · cases sc.inflight.lookup k with
      | none => exact ih hrest
      | some other =>
        dsimp only
        split_ifs
        · rfl
        · exact ih hrest

theorem ProbeDue.size_pos {due : List UInt32} (h : sc.ProbeDue due) : 0 < sc.inflight.size := by
  obtain ⟨-, seq, -, frame, hframe, -⟩ := h
  exact List.length_pos_of_mem (Map.mem_entries_iff.mpr (Option.mem_def.mp hframe))

def OpenWrites (sc : UdpConn) : Prop := sc.writing ≠ none → sc.closed = false

structure Shut (sc : UdpConn) : Prop where
  closed : sc.closed = true
  writing : sc.writing = none
  stuck : sc.stuck = false

theorem OpenWrites.effect (h : sc.OpenWrites) {s : UdpStep} {r : UdpConn × UdpOutput}
    (he : sc.Effect s r) : r.1.OpenWrites := by
  cases he with
  | control closed stuck done ackCount ackTimer ackFiring hclosed =>
    intro hwriting
    obtain rfl | ⟨-, hfree⟩ := hclosed
    · exact h hwriting
    · exact absurd (Option.isNone_iff_eq_none.mp (Bool.and_eq_true_iff.mp hfree).1) hwriting
  | starts p hfree hopen => exact fun _ => hopen
  | resumes hw => exact fun _ => h (hw ▸ nofun)
  | returns => exact fun hwriting => absurd rfl hwriting
  | frame now socketOk event hw => cases socketOk <;> exact fun _ => h (hw ▸ nofun)
  | read n pick =>
    obtain ⟨_, _, _, _, heq, -⟩ := sc.readOnce_cases n pick
    exact heq ▸ h
  | _ => exact h

theorem Shut.effect (h : sc.Shut) {s : UdpStep} {r : UdpConn × UdpOutput} (he : sc.Effect s r) :
    r.1.Shut := by
  cases he with
  | control closed stuck done ackCount ackTimer ackFiring hclosed hstuck =>
    refine ⟨hclosed.elim (fun heq => heq.trans h.closed) And.left, h.writing, Bool.eq_false_iff.mpr fun hs => ?_⟩
    obtain hold | hopen := hstuck hs
    · exact absurd hold (Bool.eq_false_iff.mp h.stuck)
    · exact absurd h.closed (Bool.eq_false_iff.mp hopen)
  | starts p hfree hopen => exact absurd h.closed (Bool.eq_false_iff.mp hopen)
  | resumes hw | returns hw | frame now socketOk event hw => exact absurd (h.writing.symm.trans hw) nofun
  | read n pick =>
    obtain ⟨_, _, _, _, heq, -⟩ := sc.readOnce_cases n pick
    rw [heq]
    exact ⟨h.closed, h.writing, h.stuck⟩
  | _ => exact ⟨h.closed, h.writing, h.stuck⟩

theorem Shut.write (h : sc.Shut) (p : Bytes) : (sc.write p).2.wrote = some (0, some .closed) := by
  simp [UdpConn.write, sendFree, h.closed, h.writing, h.stuck]

end UdpConn

namespace Endpoint

theorem openWrites_runAny (steps : List (List Bytes × UdpStep)) : (newEndpoint.runAny steps).conn.OpenWrites :=
  runAny_keeps (fun h _ _ _ _ _ _ _ => h) (fun h _ _ he => h.effect he) steps fun h => absurd rfl h

theorem shut_runAny {e : Endpoint} (h : e.conn.Shut) (steps : List (List Bytes × UdpStep)) :
    (e.runAny steps).conn.Shut :=
  runAny_keeps (fun h _ _ _ _ _ _ _ => ⟨h.closed, h.writing, h.stuck⟩) (fun h _ _ he => h.effect he) steps h

end Endpoint

/-- In every state that can be reached with a large probe due: the retransmission of `retransmitLoop` comes to an end
exactly if the stream has been closed before, and that of a `Write` never does. A stream that was closed stays so. -/
theorem probeTimeout_completes (steps : List (List Bytes × UdpStep)) {due : List UInt32}
    (hfree : (newEndpoint.runAny steps).conn.stuck = false) (hdue : (newEndpoint.runAny steps).conn.ProbeDue due) :
    ((LockedConn.retransmitTick ⟨(newEndpoint.runAny steps).conn, false⟩ due).isSome ↔
        (newEndpoint.runAny steps).conn.closed = true) ∧
      ((newEndpoint.runAny steps).conn.writing ≠ none →
        LockedConn.retransmitLocked ⟨(newEndpoint.runAny steps).conn, true⟩ due = none) ∧
      ∀ r, LockedConn.retransmitTick ⟨(newEndpoint.runAny steps).conn, false⟩ due = some r →
        r.1.conn.closed = true ∧ ∀ more p,
          (({ newEndpoint.runAny steps with conn := r.1.conn }.runAny more).conn.write p).2.wrote =
            some (0, some .closed) := by
  set e := newEndpoint.runAny steps with he
  have hlocked := LockedConn.retransmitLocked_eq hfree due
  rw [hdue.stuck] at hlocked
  have htick : LockedConn.retransmitTick ⟨e.conn, false⟩ due =
      if e.conn.closed then some (⟨e.conn, false⟩, (e.conn.retransmitLocked due).2) else none := by
    change ((if 0 < e.conn.inflight.size then LockedConn.retransmitLocked ⟨e.conn, true⟩ due else _).map _) = _
    rw [if_pos hdue.size_pos, hlocked]
    cases e.conn.closed <;> rfl
  have hopen : e.conn.OpenWrites := he ▸ Endpoint.openWrites_runAny steps
  refine ⟨?_, fun hwriting => ?_, fun r hr => ?_⟩
  · rw [htick]
    cases e.conn.closed <;> simp
  · rw [hlocked, hopen hwriting]
    rfl
  · rw [htick] at hr
    split_ifs at hr with hclosed
    obtain rfl := Option.some.inj hr
    have hwriting : e.conn.writing = none := by
      by_contra hwriting
      exact absurd hclosed (Bool.eq_false_iff.mp (hopen hwriting))
    exact ⟨hclosed, fun more p => (Endpoint.shut_runAny ⟨hclosed, hwriting, hfree⟩ more).write p⟩

/-- A `Write` of 1200 bytes on a new stream sends them as a probe and returns. -/
def probing : List (List Bytes × UdpStep) :=
  [([], .write (.replicate 1200 7)), ([], .writeOn 0 true .ack), ([], .writeOn 0 true .ack), ([], .writeOn 0 true .ack)]

set_option maxRecDepth 8000

theorem probeTimeout_completes_closed :
    (LockedConn.retransmitTick ⟨(newEndpoint.runAny (probing ++ [([], .close)])).conn, false⟩ [0]).isSome := by
  have hstate : (newEndpoint.runAny (probing ++ [([], .close)])).conn.stuck = false ∧
      (newEndpoint.runAny (probing ++ [([], .close)])).conn.ProbeDue [0] ∧
      (newEndpoint.runAny (probing ++ [([], .close)])).conn.closed = true := by decide
  exact (probeTimeout_completes _ hstate.1 hstate.2.1).1.mpr hstate.2.2

/-- The timeout of the probe of an open stream: `retransmitLoop` waits for the lock that it holds. -/
theorem probeTimeout_deadlocks :
    (newEndpoint.runAny probing).conn.sendFree = true ∧ (newEndpoint.runAny probing).conn.ProbeDue [0] ∧
      (LockedConn.retransmitTick ⟨(newEndpoint.runAny probing).conn, false⟩ [0]).isNone := by
  decide

end MeshDesk.Mesh
