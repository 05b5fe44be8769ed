import MeshDesk.Mesh.UdpRecvBuf

/-! The `Write` calls of a connection: what each of them has put into frames, and what it answers. A frame that the
socket refuses is in the window, from where it is sent again, but its bytes are not counted. -/
namespace MeshDesk.Mesh
open Lib List
open Proxy (Bytes)

/-- A `Write` that has returned: its argument, the bytes of it that are in frames, and its answer. -/
structure UdpWrite where
  arg : Bytes
  framed : Bytes
  n : ℕ
  err : Option UdpError
  deriving DecidableEq, Repr

/-- The calls that have returned, and the argument and the framed bytes of the one under way. -/
structure WriteLog where
  returned : List UdpWrite
  arg : Bytes
  framed : Bytes
  deriving DecidableEq, Repr

namespace WriteLog

def new : WriteLog := ⟨[], [], []⟩

def start (l : WriteLog) (sc : UdpConn) : UdpStep → WriteLog
  | .write p => if sc.sendFree then { l with arg := p, framed := [] } else l
  | _ => l

def add (l : WriteLog) (out : UdpOutput) : WriteLog :=
  match out.wrote with
  | none => { l with framed := l.framed ++ out.framed.flatten }
  | some (n, err) => ⟨l.returned ++ [⟨l.arg, l.framed ++ out.framed.flatten, n, err⟩], [], []⟩

def step (l : WriteLog) (sc : UdpConn) (s : UdpStep) : WriteLog := (l.start sc s).add (sc.turn s).2

end WriteLog

/-- No more is counted than is in frames, and nothing else unless the socket failed. -/
structure UdpWrite.Counted (c : UdpWrite) : Prop where
  le : c.n ≤ c.arg.length
  isPrefix : c.arg.take c.n <+: c.framed
  eq : c.err ≠ some .socket → c.framed = c.arg.take c.n

structure Logs (sc : UdpConn) (framed : List Bytes) (l : WriteLog) : Prop where
  idle : sc.writing = none → l.framed = []
  total : ∀ w, sc.writing = some w → w.total ≤ l.arg.length
  rest : ∀ w, sc.writing = some w → w.rest = l.arg.drop w.total
  current : ∀ w, sc.writing = some w → l.framed = l.arg.take w.total
  returned : ∀ c ∈ l.returned, c.Counted
  history : framed.flatten = l.returned.flatMap UdpWrite.framed ++ l.framed

section Logging
variable {sc : UdpConn} {framed : List Bytes} {l : WriteLog}

theorem WriteLog.start_write (p : Bytes) (hfree : sc.sendFree = true) :
    l.start sc (.write p) = { l with arg := p, framed := [] } := if_pos hfree

section
variable (h : Logs sc framed l)
include h

theorem Logs.start (s : UdpStep) : Logs sc framed (l.start sc s) := by
  unfold WriteLog.start
  split
  · split_ifs with hfree
    · have hnone : sc.writing = none := by simpa [UdpConn.sendFree] using (Bool.and_eq_true_iff.mp hfree).1
      have hsome : ∀ w, sc.writing ≠ some w := fun w hw => by simp [hnone] at hw
      exact ⟨fun _ => rfl, fun w hw => absurd hw (hsome w), fun w hw => absurd hw (hsome w),
        fun w hw => absurd hw (hsome w), h.returned, h.idle hnone ▸ h.history⟩
    · exact h
  · exact h

variable {sc' : UdpConn} {out : UdpOutput}

theorem Logs.quiet (hwriting : sc'.writing = sc.writing)
    (hframed : out.framed = []) (hwrote : out.wrote = none) : Logs sc' (framed ++ out.framed) (l.add out) := by
  have hadd : l.add out = l := by simp [WriteLog.add, hwrote, hframed]
  rw [hadd, hframed, append_nil]
  exact ⟨hwriting ▸ h.idle, hwriting ▸ h.total, hwriting ▸ h.rest, hwriting ▸ h.current, h.returned, h.history⟩

theorem Logs.goOn {w : Writing}
    (hwriting : sc'.writing = some w) (hwrote : out.wrote = none) (htotal : w.total ≤ l.arg.length)
    (hrest : w.rest = l.arg.drop w.total) (hcurrent : l.framed ++ out.framed.flatten = l.arg.take w.total) :
    Logs sc' (framed ++ out.framed) (l.add out) := by
  have hadd : l.add out = { l with framed := l.framed ++ out.framed.flatten } := by rw [WriteLog.add, hwrote]
  have hw : ∀ w', sc'.writing = some w' → w = w' := fun w' hw' => Option.mem_unique hwriting hw'
  rw [hadd]
  refine ⟨fun hnone => by simp [hwriting] at hnone, fun w' hw' => hw w' hw' ▸ htotal, fun w' hw' => hw w' hw' ▸ hrest,
    fun w' hw' => hw w' hw' ▸ hcurrent, h.returned, ?_⟩
  rw [flatten_append, h.history, append_assoc]

theorem Logs.finish {n : ℕ} {err : Option UdpError}
    (hwriting : sc'.writing = none) (hwrote : out.wrote = some (n, err))
    (hcounted : UdpWrite.Counted ⟨l.arg, l.framed ++ out.framed.flatten, n, err⟩) :
    Logs sc' (framed ++ out.framed) (l.add out) := by
  have hadd : l.add out = ⟨l.returned ++ [⟨l.arg, l.framed ++ out.framed.flatten, n, err⟩], [], []⟩ := by
    rw [WriteLog.add, hwrote]
  have hnone : ∀ w, sc'.writing ≠ some w := fun w hw => by simp [hwriting] at hw
  rw [hadd]
  refine ⟨fun _ => rfl, fun w hw => absurd hw (hnone w), fun w hw => absurd hw (hnone w),
    fun w hw => absurd hw (hnone w), forall_mem_append.mpr ⟨h.returned, forall_mem_singleton.mpr hcounted⟩, ?_⟩
  rw [flatten_append, h.history]
  simp

theorem Logs.frameChunk {w : Writing} (hw : sc.writing = some w) (now : ℤ) (socketOk : Bool) :
    Logs (sc.frameChunk w now socketOk).1 (framed ++ (sc.frameChunk w now socketOk).2.framed)
      (l.add (sc.frameChunk w now socketOk).2) := by
  have htotal := h.total w hw
  have hrest := h.rest w hw
  -- the chunk continues the argument where the frames before it end
  obtain ⟨chunk, hchunk⟩ : ∃ chunk, chunk = w.rest.take (sc.chunkSize w.rest now).1 := ⟨_, rfl⟩
  have hlen : w.total + chunk.length ≤ l.arg.length := by
    rw [hchunk, hrest, length_take, length_drop]
    omega
  have htake : l.framed ++ chunk = l.arg.take (w.total + chunk.length) := by
    rw [take_add, ← hrest, ← h.current w hw, hchunk,
      ← prefix_iff_eq_take.mp (List.take_prefix (sc.chunkSize w.rest now).1 w.rest)]
  have hframed : (sc.frameChunk w now socketOk).2.framed.flatten = chunk := by
    cases socketOk <;> exact (append_nil _).trans hchunk.symm
  cases socketOk with
  | true =>
    have hgo : (sc.frameChunk w now true).1.writing = some ⟨w.rest.drop chunk.length, w.total + chunk.length, true⟩ := by
      rw [hchunk]
      rfl
    refine h.goOn hgo rfl hlen ?_ (hframed.symm ▸ htake)
    rw [hrest, drop_drop]
  | false =>
    have hwrote : (sc.frameChunk w now false).2.wrote = some (w.total, some .socket) := rfl
    refine h.finish rfl hwrote ⟨htotal, ?_, fun hne => absurd rfl hne⟩
    rw [← h.current w hw]
    exact prefix_append _ _

theorem Logs.effect {s : UdpStep} {r : UdpConn × UdpOutput} (he : sc.Effect s r) :
    Logs r.1 (framed ++ r.2.framed) ((l.start sc s).add r.2) := by
  have h' := h.start s
  cases he with
  | control | ackFire | takeAck | ackQueued | ackHeld => exact h'.quiet rfl rfl rfl
  | read n pick =>
    obtain ⟨readBuf, recvNext, recvBuf, read, heq, -⟩ := sc.readOnce_cases n pick
    rw [heq]
    exact h'.quiet rfl rfl rfl
  | starts p hfree =>
    rw [WriteLog.start_write p hfree] at h' ⊢
    exact h'.goOn rfl rfl (Nat.zero_le _) rfl rfl
  | refused p hfree =>
    have hnone : sc.writing = none := by simpa using (Bool.and_eq_true_iff.mp hfree).1
    rw [WriteLog.start_write p hfree] at h' ⊢
    exact h'.finish hnone rfl ⟨Nat.zero_le _, nil_prefix, fun _ => rfl⟩
  | @resumes _ _ _ w hw =>
    exact h'.goOn rfl rfl (h'.total w hw) (h'.rest w hw) ((append_nil _).trans (h'.current w hw))
  | returns hw =>
    have hcurrent := (append_nil _).trans (h'.current _ hw)
    exact h'.finish rfl rfl ⟨h'.total _ hw, hcurrent ▸ prefix_rfl, fun _ => hcurrent⟩
  | frame now socketOk event hw => exact h'.frameChunk hw now socketOk

end

theorem Logs.step {e : Endpoint} (h : Logs e.conn e.framed l) (peerSent : List Bytes) (s : UdpStep) :
    Logs (e.step peerSent s).conn (e.step peerSent s).framed (l.step e.conn s) := by
  obtain ⟨i, d, rfl, hd⟩ | heq := e.step_turn peerSent s
  · obtain ⟨_, _, _, _, _, _, _, hpacket, -⟩ := e.conn.handlePacket_fst d
    have hwriting : (e.conn.handlePacket d).1.writing = e.conn.writing := by rw [hpacket]
    rw [e.step_deliver_some peerSent hd]
    exact h.quiet hwriting (show UdpOutput.quiet.framed = [] from rfl) rfl
  · rw [heq]
    exact h.effect (e.conn.turn_effect s)

theorem logs_new : Logs newUDPStreamConn [] .new :=
  ⟨fun _ => rfl, nofun, nofun, nofun, forall_mem_nil _, rfl⟩

end Logging

/-! ### The window -/

/-- The window has its size, and room while a `Write` does not wait. -/
structure UdpConn.Windowed (sc : UdpConn) : Prop where
  size : sc.inflight.size ≤ udpWindowSize
  room : ∀ w, sc.writing = some w → w.waiting = false → sc.inflight.size < udpWindowSize

namespace Endpoint

def Roomy (e : Endpoint) (x : List Bytes × UdpStep) : Prop :=
  match x.2 with
  | .write _ => e.conn.sendFree = true → e.conn.closed = false → e.conn.inflight.size < udpWindowSize
  | _ => True

instance (e : Endpoint) (x : List Bytes × UdpStep) : Decidable (e.Roomy x) := by
  obtain ⟨peerSent, _ | _⟩ := x <;> dsimp only [Roomy] <;> infer_instance

theorem windowed_stepAny {e : Endpoint} (h : e.conn.Windowed) {x : List Bytes × UdpStep} (hx : e.Roomy x) :
    (e.stepAny x).conn.Windowed := by
  obtain ⟨peerSent, s⟩ := x
  -- an acknowledgement only takes frames out of the window
  have hack : ∀ {sc : UdpConn} (ack : UInt32), sc.inflight = e.conn.inflight → sc.writing = e.conn.writing →
      (sc.ackLocked ack).Windowed := by
    intro sc ack hinflight hwriting
    have hle : (sc.ackLocked ack).inflight.size ≤ e.conn.inflight.size := hinflight ▸ Map.size_filterKeys_le _ _
    exact ⟨hle.trans h.size, fun w hw hgo => hle.trans_lt (h.room w (hwriting ▸ hw) hgo)⟩
  obtain ⟨_, _, _, _, _, _, _, heq⟩ | ⟨r, heq, he⟩ := e.stepAny_conn (peerSent, s)
  · rw [heq]
    exact ⟨h.size, h.room⟩
  · rw [heq]
    cases he with
    | control | ackFire | takeAck | refused => exact ⟨h.size, h.room⟩
    | ackQueued | ackHeld => exact hack _ rfl rfl
    | read n pick =>
      obtain ⟨readBuf, recvNext, recvBuf, read, heq', -⟩ := e.conn.readOnce_cases n pick
      rw [heq']
      exact ⟨h.size, h.room⟩
    | starts p hfree hopen => exact ⟨h.size, fun _ _ _ => hx hfree hopen⟩
    | resumes hw hroom => exact ⟨h.size, fun _ _ _ => hroom⟩
    | returns => exact ⟨h.size, nofun⟩
    | @frame now socketOk event w hw hgo =>
      have hle := (Map.size_insert_le e.conn.inflight e.conn.nextSeq
        (UdpFrame.mk udpFrameTypeData e.conn.nextSeq e.conn.baseSeq
          (w.rest.take (e.conn.chunkSize w.rest now).1)).encode).trans (h.room w hw hgo)
      cases socketOk with
      | true =>
        refine ⟨hle, fun w' hw' hgo' => ?_⟩
        obtain rfl := Option.some.inj hw'
        cases hgo'
      | false => exact ⟨hle, nofun⟩

def log (e : Endpoint) (l : WriteLog) : List (List Bytes × UdpStep) → WriteLog
  | [] => l
  | x :: steps => (e.stepAny x).log (l.step e.conn x.2) steps

theorem logs_runAny {e : Endpoint} {l : WriteLog} (h : Logs e.conn e.framed l) (steps : List (List Bytes × UdpStep)) :
    Logs (e.runAny steps).conn (e.runAny steps).framed (e.log l steps) := by
  induction steps generalizing e l with
  | nil => exact h
  | cons x steps ih => exact ih (h.step x.1 x.2)

end Endpoint

/-- However `Write` calls, failures of the socket, timeouts and acknowledgements follow each other: the window is kept
as long as no `Write` is begun with a full one, and a `Write` that did not fail at the socket has counted the bytes
that it has put into frames. -/
theorem write_counts (steps : List (List Bytes × UdpStep)) :
    (Meets Endpoint.stepAny Endpoint.Roomy newEndpoint steps →
        (newEndpoint.runAny steps).conn.inflight.size ≤ udpWindowSize) ∧
      ∀ c ∈ (newEndpoint.log .new steps).returned, c.err ≠ some .socket →
        c.n ≤ c.arg.length ∧ c.framed = c.arg.take c.n := by
  refine ⟨fun hsteps => ?_, fun c hc herr => ?_⟩
  · have hnew : newEndpoint.conn.Windowed := ⟨by decide, nofun⟩
    have hwindow : (newEndpoint.runAny steps).conn.Windowed :=
      hsteps.invariant (fun e x hx h => Endpoint.windowed_stepAny h hx) hnew
    exact hwindow.size
  · have hcounted := (Endpoint.logs_runAny logs_new steps).returned c hc
    exact ⟨hcounted.le, hcounted.eq herr⟩

/-- A `Write` of `p` of one frame, whose wait for the window ends with `event`. -/
def oneFrame (p : Bytes) (socketOk : Bool) (event : UdpConn.WindowEvent) : List (List Bytes × UdpStep) :=
  [([], .write p), ([], .writeOn 0 socketOk event), ([], .writeOn 0 true event), ([], .writeOn 0 true event)]

theorem write_counts_two :
    (newEndpoint.log .new (oneFrame [7] true .ack ++ oneFrame [8, 9] true .ack)).returned =
        [⟨[7], [7], 1, none⟩, ⟨[8, 9], [8, 9], 2, none⟩] ∧
      (newEndpoint.runAny (oneFrame [7] true .ack ++ oneFrame [8, 9] true .ack)).conn.inflight.size ≤ udpWindowSize :=
  ⟨by decide, (write_counts _).1 (by decide)⟩

/-- The socket refuses a frame: `Write` returns 0, and the frame is sent all the same when it is due. And after 128
frames without an acknowledgement a `Write` that timed out is followed by another one. -/
theorem write_miscounts :
    let refused := oneFrame [7] false .ack ++ [([], .retransmit [0])]
    let full := (replicate 128 (oneFrame [7] true .timeout)).flatten ++ oneFrame [7] true .timeout
    (newEndpoint.log .new refused).returned = [⟨[7], [7], 0, some .socket⟩] ∧
      (newEndpoint.runAny refused).sent = [dataFrame 0 [7]] ∧
      (newEndpoint.runAny full).conn.inflight.size = 129 := by
  decide +kernel

end MeshDesk.Mesh
