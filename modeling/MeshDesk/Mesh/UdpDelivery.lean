import MeshDesk.Mesh.UdpLink

/-! The bytes that `Read` returns are the bytes that the peer's `Write` framed, in order. -/
namespace MeshDesk.Mesh
open Lib List
open Proxy (Bytes)

/-! ### What a step does -/

namespace UdpConn

/-- A datagram that acknowledges nothing: a FIN, a probe or a frame of the window. -/
def NoAck (sc : UdpConn) (d : Bytes) : Prop :=
  (∃ seq, d = (finFrame seq).encode) ∨ d = probeFrame.encode ∨ ∃ seq, sc.inflight.lookup seq = some d

/-- What a step other than an arrival can do: leave the connection alone but for its flags and timers, send an ACK,
move or process an acknowledgement, read, or go on with a `Write`. -/
inductive Effect (sc : UdpConn) : UdpStep → UdpConn × UdpOutput → Prop
  | control {s : UdpStep} (closed stuck done ackCount ackTimer ackFiring) {sent : List Bytes}
      (hclosed : closed = sc.closed ∨ closed = true ∧ sc.sendFree = true)
      (hstuck : stuck = true → sc.stuck = true ∨ sc.closed = false) (hsent : ∀ d ∈ sent, sc.NoAck d) :
      Effect sc s ({ sc with closed := closed, stuck := stuck, done := done, ackCount := ackCount,
                             ackTimer := ackTimer, ackFiring := ackFiring }, .sends sent)
  | ackFire (ackFiring : ℕ) (hfiring : sc.ackFiring ≠ 0) (hdone : sc.done = false) :
      Effect sc .ackFire ({ sc with ackFiring := ackFiring, ackCount := 0 }, .sends [(ackFrame sc.ackPending).encode])
  | takeAck {s : UdpStep} {ack : UInt32} {rest : List UInt32} (h : sc.ackRecv = ack :: rest) :
      Effect sc s ({ sc with held := some ack, ackRecv := rest }, .quiet)
  | ackQueued {s : UdpStep} {ack : UInt32} {rest : List UInt32} (h : sc.ackRecv = ack :: rest) :
      Effect sc s ({ sc with ackRecv := rest }.ackLocked ack, .quiet)
  | ackHeld {s : UdpStep} {ack : UInt32} (h : sc.held = some ack) :
      Effect sc s ({ sc with held := none }.ackLocked ack, .quiet)
  | read (n : ℕ) (pick : ReadPick) : Effect sc (.read n pick) (sc.readOnce n pick)
  | starts (p : Bytes) (hfree : sc.sendFree = true) (hopen : sc.closed = false) :
      Effect sc (.write p) ({ sc with writing := some ⟨p, 0, false⟩ }, .quiet)
  | refused (p : Bytes) (hfree : sc.sendFree = true) : Effect sc (.write p) (sc, ⟨[], [], some (0, some .closed), none⟩)
  | resumes {now : ℤ} {socketOk : Bool} {event : WindowEvent} {w : Writing} (hw : sc.writing = some w)
      (hroom : sc.inflight.size < udpWindowSize) :
      Effect sc (.writeOn now socketOk event) ({ sc with writing := some { w with waiting := false } }, .quiet)
  | returns {now : ℤ} {socketOk : Bool} {event : WindowEvent} {w : Writing} {err : Option UdpError}
      (hw : sc.writing = some w) (herr : err ≠ some .socket) :
      Effect sc (.writeOn now socketOk event) ({ sc with writing := none }, ⟨[], [], some (w.total, err), none⟩)
  | frame (now : ℤ) (socketOk : Bool) (event : WindowEvent) {w : Writing} (hw : sc.writing = some w)
      (hgo : w.waiting = false) : Effect sc (.writeOn now socketOk event) (sc.frameChunk w now socketOk)

variable (sc : UdpConn) {s : UdpStep}

theorem Effect.quiet : sc.Effect s (sc, .quiet) := .control _ _ _ _ _ _ (.inl rfl) .inl (forall_mem_nil _)

theorem retransmitLocked_cases (due : List UInt32) :
    (∃ stuck, (sc.retransmitLocked due).1 = { sc with stuck := stuck } ∧
        (stuck = true → sc.stuck = true ∨ sc.closed = false)) ∧
      ∀ frame ∈ (sc.retransmitLocked due).2, ∃ seq, sc.inflight.lookup seq = some frame := by
  induction due with
  | nil => exact ⟨⟨_, rfl, .inl⟩, forall_mem_nil _⟩
  | cons seq due ih =>
    rw [retransmitLocked]
    cases hl : sc.inflight.lookup seq with
    | none => exact ih
    | some frame =>
      dsimp only
      split_ifs
      · exact ⟨⟨_, rfl, fun h => .inr ((Bool.not_eq_true' _).mp h)⟩, forall_mem_nil _⟩
      · exact ⟨ih.1, forall_mem_cons.mpr ⟨⟨seq, hl⟩, ih.2⟩⟩

theorem retransmitLocked_effect (due : List UInt32) :
    sc.Effect s ((sc.retransmitLocked due).1, .sends (sc.retransmitLocked due).2) := by
  obtain ⟨⟨stuck, heq, hstuck⟩, hframes⟩ := sc.retransmitLocked_cases due
  rw [heq]
  exact .control _ _ _ _ _ _ (.inl rfl) hstuck fun d hd => .inr (.inr (hframes d hd))

theorem windowWait_effect {w : Writing} (hw : sc.writing = some w) (now : ℤ) (socketOk : Bool) (event : WindowEvent) :
    sc.Effect (.writeOn now socketOk event) (sc.windowWait w event) := by
  unfold windowWait
  split
  · rename_i hroom
    exact .resumes hw hroom
  · split
    · exact .returns hw nofun
    · split
      · exact .returns hw nofun
      · exact .quiet sc
    · split
      · exact .quiet sc
      · rename_i hacks
        exact .ackQueued hacks
    · exact sc.retransmitLocked_effect _

theorem writeOn_effect (now : ℤ) (socketOk : Bool) (event : WindowEvent) :
    sc.Effect (.writeOn now socketOk event) (sc.writeOn now socketOk event) := by
  unfold writeOn
  split
  · exact .quiet sc
  · split
    · exact .quiet sc
    · rename_i hw
      split
      · exact sc.windowWait_effect hw now socketOk event
      · rename_i hgo
        split
        · exact .returns hw nofun
        · exact .frame now socketOk event hw (Bool.eq_false_iff.mpr hgo)

theorem write_effect (p : Bytes) : sc.Effect (.write p) (sc.write p) := by
  unfold write
  split_ifs with hfree hclosed
  · exact .refused p hfree
  · exact .starts p hfree (Bool.eq_false_iff.mpr hclosed)
  · exact .quiet sc

theorem close_effect : sc.Effect s sc.close := by
  unfold close
  split_ifs with hcall
  · exact .control _ _ _ _ _ _ (.inr ⟨rfl, (Bool.and_eq_true_iff.mp hcall).1⟩) .inl
      (forall_mem_singleton.mpr (.inl ⟨_, rfl⟩))
  · exact .quiet sc

theorem takeAck_effect : sc.Effect s (sc.takeAck, .quiet) := by
  unfold takeAck
  split
  · rename_i hacks
    exact .takeAck hacks
  · exact .quiet sc

theorem advanceBase_effect : sc.Effect s (sc.advanceBase, .quiet) := by
  unfold advanceBase
  split
  · rename_i hheld
    split_ifs
    · exact .ackHeld hheld
    · exact .quiet sc
  · exact .quiet sc

theorem ackFire_effect : sc.Effect .ackFire sc.ackFire := by
  unfold ackFire
  split_ifs with hfiring hdone
  · exact .quiet sc
  · exact .control _ _ _ _ _ _ (.inl rfl) .inl (forall_mem_nil _)
  · exact .ackFire _ hfiring (Bool.eq_false_iff.mpr hdone)

theorem countFrame_fst : ∃ ackCount, sc.countFrame.1 = { sc with ackCount := ackCount } := by
  unfold countFrame
  split_ifs <;> exact ⟨_, rfl⟩

theorem receiveData_fst (seq : UInt32) (payload : Bytes) : ∃ ackPending ackCount ackTimer,
    (sc.receiveData seq payload).1 =
      { sc.buffer seq payload with ackPending := ackPending, ackCount := ackCount, ackTimer := ackTimer } := by
  obtain ⟨ackCount, hcount⟩ := ((sc.buffer seq payload).advanceAck seq).countFrame_fst
  unfold receiveData
  dsimp only
  rw [hcount]
  exact ⟨_, _, _, rfl⟩

theorem buffer_fst (seq : UInt32) (payload : Bytes) : ∃ recvBuf, sc.buffer seq payload = { sc with recvBuf := recvBuf } ∧
    (recvBuf = sc.recvBuf ∨ seqBefore seq sc.recvNext = false ∧ recvBuf = sc.recvBuf.insert seq payload) := by
  unfold buffer
  split_ifs with hold
  · exact ⟨_, rfl, .inl rfl⟩
  · exact ⟨_, rfl, .inr ⟨(by simpa using hold : _ ∧ _).1, rfl⟩⟩

theorem handlePacket_fst (data : Bytes) : ∃ recvBuf readBuf ackPending ackCount ackTimer ackRecv finRecv,
    (sc.handlePacket data).1 = { sc with
      recvBuf := recvBuf, readBuf := readBuf, ackPending := ackPending, ackCount := ackCount, ackTimer := ackTimer,
      ackRecv := ackRecv, finRecv := finRecv } ∧
    (recvBuf = sc.recvBuf ∨ arrivedSeq data = [frameSeq data] ∧ seqBefore (frameSeq data) sc.recvNext = false ∧
      recvBuf = sc.recvBuf.insert (frameSeq data) (framePayload data)) ∧
    (ackRecv = sc.ackRecv ∨ udpFrameHeaderLen ≤ data.length ∧ frameType data = udpFrameTypeAck ∧
      ackRecv = sc.ackRecv ++ [frameAck data]) := by
  unfold handlePacket
  split_ifs with hlen htype hplen htype' hprobe hplen' hack
  any_goals exact ⟨_, _, _, _, _, _, _, rfl, .inl rfl, .inl rfl⟩
  · obtain ⟨ackCount, hcount⟩ := sc.countFrame_fst
    exact ⟨_, _, _, _, _, _, _, hcount, .inl rfl, .inl rfl⟩
  · obtain ⟨ackPending, ackCount, ackTimer, hdata⟩ := sc.receiveData_fst (frameSeq data) (framePayload data)
    obtain ⟨recvBuf, hbuf, hcases⟩ := sc.buffer_fst (frameSeq data) (framePayload data)
    have harrived : arrivedSeq data = [frameSeq data] :=
      if_pos ⟨Nat.not_lt.mp hlen, htype', hprobe, Nat.not_lt.mp hplen'⟩
    rw [hdata, hbuf]
    exact ⟨_, _, _, _, _, _, _, rfl, hcases.imp_right fun h => ⟨harrived, h⟩, .inl rfl⟩
  · exact ⟨_, _, _, _, _, _, _, rfl, .inl rfl, .inr ⟨Nat.not_lt.mp hlen, hack, rfl⟩⟩

theorem readOnce_cases (n : ℕ) (pick : ReadPick) :
    ∃ readBuf recvNext recvBuf read, sc.readOnce n pick =
        ({ sc with readBuf := readBuf, recvNext := recvNext, recvBuf := recvBuf }, ⟨[], [], none, read⟩) ∧
      (recvBuf = sc.recvBuf ∨ recvBuf = sc.recvBuf.erase sc.recvNext) := by
  unfold readOnce
  split
  · exact ⟨_, sc.recvNext, sc.recvBuf, _, rfl, .inl rfl⟩
  · split
    · unfold readFrame
      split_ifs <;> first | exact ⟨_, _, sc.recvBuf, _, rfl, .inl rfl⟩ | exact ⟨sc.readBuf, _, _, _, rfl, .inr rfl⟩
    · cases pick <;> exact ⟨sc.readBuf, sc.recvNext, sc.recvBuf, _, rfl, .inl rfl⟩

def turn : UdpStep → UdpConn × UdpOutput
  | .deliver _ => (sc, .quiet)
  | .write p => sc.write p
  | .writeOn now socketOk event => sc.writeOn now socketOk event
  | .takeAck => (sc.takeAck, .quiet)
  | .advanceBase => (sc.advanceBase, .quiet)
  | .retransmit due => sc.retransmit due
  | .ackExpire => (sc.ackExpire, .quiet)
  | .ackFire => sc.ackFire
  | .read n pick => sc.readOnce n pick
  | .probe => (sc, if sc.done then .quiet else .sends [probeFrame.encode])
  | .close => sc.close

theorem turn_effect (s : UdpStep) : sc.Effect s (sc.turn s) := by
  cases s with
  | deliver i => exact .quiet sc
  | write p => exact sc.write_effect p
  | writeOn now socketOk event => exact sc.writeOn_effect now socketOk event
  | takeAck => exact sc.takeAck_effect
  | advanceBase => exact sc.advanceBase_effect
  | retransmit due =>
    change sc.Effect _ (sc.retransmit due)
    unfold retransmit
    split_ifs
    · exact sc.retransmitLocked_effect due
    · exact .quiet sc
  | ackExpire =>
    change sc.Effect _ (sc.ackExpire, .quiet)
    unfold ackExpire
    split_ifs
    · exact .control _ _ _ _ _ _ (.inl rfl) .inl (forall_mem_nil _)
    · exact .quiet sc
  | ackFire => exact sc.ackFire_effect
  | read n pick => exact .read n pick
  | probe =>
    change sc.Effect _ (sc, if sc.done then .quiet else .sends [probeFrame.encode])
    split_ifs
    · exact .quiet sc
    · exact .control _ _ _ _ _ _ (.inl rfl) .inl (forall_mem_singleton.mpr (.inr (.inl rfl)))
  | close => exact sc.close_effect

end UdpConn

namespace Endpoint
variable (e : Endpoint) (peerSent : List Bytes)

theorem step_deliver_none {i : ℕ} (h : peerSent[i]? = none) : e.step peerSent (.deliver i) = e := by
  simp only [step, h]

theorem step_deliver_some {i : ℕ} {data : Bytes} (h : peerSent[i]? = some data) :
    e.step peerSent (.deliver i) =
      { e.after ((e.conn.handlePacket data).1, .sends (e.conn.handlePacket data).2) with
        received := e.received ++ arrivedSeq data } := by
  simp only [step, h]

theorem after_quiet : e.after (e.conn, .quiet) = e := by
  simp [after, UdpOutput.quiet, UdpOutput.bytes]

theorem step_turn (s : UdpStep) :
    (∃ i d, s = .deliver i ∧ peerSent[i]? = some d) ∨ e.step peerSent s = e.after (e.conn.turn s) := by
  cases s with
  | deliver i =>
    cases hd : peerSent[i]? with
    | none => exact .inr ((e.step_deliver_none peerSent hd).trans e.after_quiet.symm)
    | some d => exact .inl ⟨i, d, rfl, hd⟩
  | _ => exact .inr rfl

theorem step_effect (s : UdpStep) :
    (∃ i d, s = .deliver i ∧ peerSent[i]? = some d) ∨ ∃ r, e.step peerSent s = e.after r ∧ e.conn.Effect s r :=
  (e.step_turn peerSent s).imp_right fun heq => ⟨_, heq, e.conn.turn_effect s⟩

end Endpoint

section Sending
variable {sc sc' : UdpConn} {framed sent : List Bytes}

theorem Sends.ackLocked (h : Sends sc framed sent) (ack : UInt32) : Sends (sc.ackLocked ack) framed (sent ++ []) := by
  refine ⟨h.next, ?_, fun seq frame hl => h.inflight seq frame ?_, (append_nil sent).symm ▸ h.sent⟩
  · have hsize := h.size
    unfold UdpConn.ackLocked
    dsimp only
    split_ifs
    · exact le_refl _
    · exact hsize
  · have hfilter := Map.lookup_filterKeys (fun seq => seqBefore ack seq) sc.inflight seq
    rw [UdpConn.ackLocked, hfilter] at hl
    split_ifs at hl
    exact hl

theorem Sends.genuine (h : Sends sc framed sent) {seq : UInt32} {frame : Bytes}
    (hl : sc.inflight.lookup seq = some frame) : Genuine framed frame := by
  obtain ⟨ack, payload, hframed, hlen, rfl⟩ := h.inflight seq frame hl
  exact .data ack hframed hlen

theorem UdpConn.chunkSize_le (hsize : sc.payloadSize ≤ udpPayloadLarge) (rest : Bytes) (now : ℤ) :
    (sc.chunkSize rest now).1 ≤ udpPayloadLarge := by
  unfold UdpConn.chunkSize
  dsimp only
  split_ifs
  · exact le_refl _
  · decide
  · exact le_refl _
  · exact hsize

theorem Sends.frame (h : Sends sc framed sent) (sc' : UdpConn) {chunk : Bytes} (hlen : chunk.length ≤ udpPayloadLarge)
    (hbound : framed.length + 1 < 2 ^ 29) (hnext : sc'.nextSeq = nextSeqAfter sc.nextSeq)
    (hsize : sc'.payloadSize = sc.payloadSize) (hinflight : sc'.inflight = sc.inflight.insert sc.nextSeq
      (UdpFrame.mk udpFrameTypeData sc.nextSeq sc.baseSeq chunk).encode) {more : List Bytes}
    (hmore : ∀ d ∈ more, d = (UdpFrame.mk udpFrameTypeData sc.nextSeq sc.baseSeq chunk).encode) :
    Sends sc' (framed ++ [chunk]) (sent ++ more) := by
  have hseq := h.next
  have hget : (framed ++ [chunk])[sc.nextSeq.toNat]? = some chunk := by
    rw [hseq]
    exact List.getElem?_concat_length
  refine ⟨?_, hsize ▸ h.size, fun seq frame hl => ?_, fun d hd => ?_⟩
  · rw [hnext, nextSeqAfter_toNat (by omega), List.length_append, List.length_singleton, hseq]
  · rw [hinflight] at hl
    obtain ⟨rfl, hnew⟩ | ⟨hs, hold⟩ := Map.lookup_of_insert hl
    · exact ⟨sc.baseSeq, chunk, hget, hlen, hnew⟩
    · obtain ⟨ack, payload, hframed, hpay, rfl⟩ := h.inflight seq frame hold
      refine ⟨ack, payload, ?_, hpay, rfl⟩
      rw [List.getElem?_append_left (List.getElem?_eq_some_iff.mp hframed).1]
      exact hframed
  · rcases List.mem_append.mp hd with hd | hd
    · exact (h.sent d hd).mono [chunk]
    · rw [hmore d hd]
      exact .data sc.baseSeq hget hlen

theorem Sends.frameChunk (h : Sends sc framed sent) (w : Writing) (now : ℤ) (socketOk : Bool)
    (hbound : framed.length + 1 < 2 ^ 29) :
    Sends (sc.frameChunk w now socketOk).1 (framed ++ (sc.frameChunk w now socketOk).2.framed)
      (sent ++ (sc.frameChunk w now socketOk).2.sent) := by
  have hlen : (w.rest.take (sc.chunkSize w.rest now).1).length ≤ udpPayloadLarge :=
    (length_take_le _ _).trans (sc.chunkSize_le h.size w.rest now)
  cases socketOk with
  | true => exact h.frame (sc.frameChunk w now true).1 hlen hbound rfl rfl rfl (fun d hd => mem_singleton.mp hd)
  | false =>
    exact h.frame (sc.frameChunk w now false).1 hlen hbound rfl rfl rfl (forall_mem_nil _)

theorem Sends.effect (h : Sends sc framed sent) {s : UdpStep} {r : UdpConn × UdpOutput} (he : sc.Effect s r)
    (hbound : (framed ++ r.2.framed).length < 2 ^ 29) : Sends r.1 (framed ++ r.2.framed) (sent ++ r.2.sent) := by
  rw [← append_nil framed] at h
  cases he with
  | control closed stuck done ackCount ackTimer ackFiring _ _ hsent =>
    refine ⟨h.next, h.size, h.inflight, forall_mem_append.mpr ⟨h.sent, fun d hd => ?_⟩⟩
    obtain ⟨seq, rfl⟩ | rfl | ⟨seq, hl⟩ := hsent d hd
    · exact .fin seq
    · exact .probe
    · exact h.genuine hl
  | ackFire =>
    exact ⟨h.next, h.size, h.inflight, forall_mem_append.mpr ⟨h.sent, forall_mem_singleton.mpr (.ack _)⟩⟩
  | takeAck | starts | refused | resumes | returns =>
    exact ⟨h.next, h.size, h.inflight, forall_mem_append.mpr ⟨h.sent, forall_mem_nil _⟩⟩
  | @ackQueued _ ack rest =>
    have hpopped : Sends { sc with ackRecv := rest } (framed ++ []) sent := ⟨h.next, h.size, h.inflight, h.sent⟩
    exact hpopped.ackLocked ack
  | @ackHeld _ ack =>
    have hreleased : Sends { sc with held := none } (framed ++ []) sent := ⟨h.next, h.size, h.inflight, h.sent⟩
    exact hreleased.ackLocked ack
  | @frame now socketOk _ w =>
    rw [append_nil] at h
    refine h.frameChunk w now socketOk ?_
    have hone : (sc.frameChunk w now socketOk).2.framed.length = 1 := by cases socketOk <;> rfl
    rw [length_append, hone] at hbound
    exact hbound
  | read n pick =>
    obtain ⟨readBuf, recvNext, recvBuf, read, heq, -⟩ := sc.readOnce_cases n pick
    rw [heq]
    exact ⟨h.next, h.size, h.inflight, forall_mem_append.mpr ⟨h.sent, forall_mem_nil _⟩⟩

end Sending

section Arriving
variable {framed : List Bytes}

theorem ne_probeSeq {seq : UInt32} (h : seq.toNat < 2 ^ 29) : seq ≠ probeSeq := fun he => by
  rw [he] at h
  exact absurd h (by decide)

variable (sc : UdpConn)

theorem handlePacket_data {seq : UInt32} (ack : UInt32) {payload : Bytes} (hseq : seq.toNat < 2 ^ 29)
    (hlen : payload.length ≤ udpPayloadLarge) :
    sc.handlePacket (UdpFrame.mk udpFrameTypeData seq ack payload).encode = sc.receiveData seq payload ∧
      arrivedSeq (UdpFrame.mk udpFrameTypeData seq ack payload).encode = [seq] := by
  have hsize : payload.length < 65536 := lt_of_le_of_lt hlen (by decide)
  have hlength := encode_length ⟨udpFrameTypeData, seq, ack, payload⟩
  have htype := frameType_encode ⟨udpFrameTypeData, seq, ack, payload⟩
  have hs := frameSeq_encode ⟨udpFrameTypeData, seq, ack, payload⟩
  have hplen := framePlen_encode ⟨udpFrameTypeData, seq, ack, payload⟩ hsize
  have hpay := framePayload_encode ⟨udpFrameTypeData, seq, ack, payload⟩ hsize
  dsimp only at hlength htype hs hplen hpay
  have hshort : ¬ udpFrameHeaderLen + payload.length < udpFrameHeaderLen := by omega
  have hfits : udpFrameHeaderLen + payload.length - udpFrameHeaderLen = payload.length := by omega
  constructor
  · rw [UdpConn.handlePacket, hlength, htype, hs, hplen, hpay, if_neg hshort, if_neg (by decide), if_pos rfl,
      if_neg (ne_probeSeq hseq), hfits, if_neg (lt_irrefl _)]
  · rw [arrivedSeq, hlength, htype, hs, hplen, hfits,
      if_pos ⟨by omega, rfl, ne_probeSeq hseq, le_refl _⟩]

theorem handlePacket_ack (seq : UInt32) : sc.handlePacket (ackFrame seq).encode =
        (if sc.ackRecv.length < ackRecvCap then { sc with ackRecv := sc.ackRecv ++ [seq] } else sc, []) ∧
      arrivedSeq (ackFrame seq).encode = [] := by
  have hlength : (ackFrame seq).encode.length = udpFrameHeaderLen := encode_length (ackFrame seq)
  have htype : frameType (ackFrame seq).encode = udpFrameTypeAck := rfl
  have hack : frameAck (ackFrame seq).encode = seq := frameAck_encode (ackFrame seq)
  constructor
  · rw [UdpConn.handlePacket, hlength, htype, hack, if_neg (lt_irrefl _), if_neg (by decide), if_neg (by decide),
      if_pos rfl]
  · rw [arrivedSeq, htype, if_neg (fun h => absurd h.2.1 (by decide))]

theorem handlePacket_fin (seq : UInt32) : sc.handlePacket (finFrame seq).encode = ({ sc with finRecv := true }, []) ∧
      arrivedSeq (finFrame seq).encode = [] := by
  have hlength : (finFrame seq).encode.length = udpFrameHeaderLen := encode_length (finFrame seq)
  have htype : frameType (finFrame seq).encode = udpFrameTypeFin := rfl
  constructor
  · rw [UdpConn.handlePacket, hlength, htype, if_neg (lt_irrefl _), if_neg (by decide), if_neg (by decide),
      if_neg (by decide), if_pos rfl]
  · rw [arrivedSeq, htype, if_neg (fun h => absurd h.2.1 (by decide))]

theorem handlePacket_probe :
    sc.handlePacket probeFrame.encode = sc.receiveProbe ∧ arrivedSeq probeFrame.encode = [] := by
  constructor
  · rw [UdpConn.handlePacket, if_neg (by decide), if_neg (by decide), if_pos (by decide), if_pos (by decide)]
  · decide

theorem Genuine.handlePacket_fst {d : Bytes} (h : Genuine framed d) (hbound : framed.length < 2 ^ 29) :
    (∃ seq payload ackPending ackCount ackTimer, framed[seq.toNat]? = some payload ∧ arrivedSeq d = [seq] ∧
      (sc.handlePacket d).1 =
        { sc.buffer seq payload with ackPending := ackPending, ackCount := ackCount, ackTimer := ackTimer }) ∨
    arrivedSeq d = [] ∧ ∃ ackCount ackRecv finRecv,
      (sc.handlePacket d).1 = { sc with ackCount := ackCount, ackRecv := ackRecv, finRecv := finRecv } := by
  cases h with
  | @data seq payload ack hframed hlen =>
    have hseq := (List.getElem?_eq_some_iff.mp hframed).1
    obtain ⟨hpacket, harrived⟩ := handlePacket_data sc ack (lt_trans hseq hbound) hlen
    obtain ⟨_, _, _, hdata⟩ := sc.receiveData_fst seq payload
    exact .inl ⟨_, _, _, _, _, hframed, harrived, (congrArg Prod.fst hpacket).trans hdata⟩
  | ack seq =>
    obtain ⟨hpacket, harrived⟩ := handlePacket_ack sc seq
    refine .inr ⟨harrived, ?_⟩
    rw [hpacket]
    split_ifs <;> exact ⟨_, _, _, rfl⟩
  | fin seq =>
    obtain ⟨hpacket, harrived⟩ := handlePacket_fin sc seq
    exact .inr ⟨harrived, _, _, _, congrArg Prod.fst hpacket⟩
  | probe =>
    obtain ⟨hpacket, harrived⟩ := handlePacket_probe sc
    obtain ⟨ackCount, hcount⟩ := sc.countFrame_fst
    exact .inr ⟨harrived, _, _, _, (congrArg Prod.fst hpacket).trans hcount⟩

end Arriving

section Receiving
variable {sc sc' : UdpConn} {framed : List Bytes} {got : Bytes}

section
variable (h : Receives sc framed got)
include h

theorem Receives.buffer {seq : UInt32} {payload : Bytes}
    (hframed : framed[seq.toNat]? = some payload) : Receives (sc.buffer seq payload) framed got := by
  unfold UdpConn.buffer
  split_ifs with hold
  · exact h
  · refine ⟨fun s p hl => ?_, h.next, h.delivered⟩
    obtain ⟨rfl, rfl⟩ | ⟨-, hold⟩ := Map.lookup_of_insert hl
    · exact hframed
    · exact h.buffered s p hold

variable (hbound : framed.length < 2 ^ 29)
include hbound

theorem Receives.handlePacket {d : Bytes} (hd : Genuine framed d) : Receives (sc.handlePacket d).1 framed got := by
  obtain ⟨seq, payload, _, _, _, hframed, -, hpacket⟩ | ⟨-, _, _, _, hpacket⟩ := hd.handlePacket_fst sc hbound <;>
    rw [hpacket]
  · have hb := h.buffer hframed
    exact ⟨hb.buffered, hb.next, hb.delivered⟩
  · exact ⟨h.buffered, h.next, h.delivered⟩

theorem Receives.readFrame (hempty : sc.readBuf = [])
    {data : Bytes} (hl : sc.recvBuf.lookup sc.recvNext = some data) (n : ℕ) :
    Receives (sc.readFrame n data) framed (got ++ data.take n) := by
  have hframed := h.buffered sc.recvNext data hl
  obtain ⟨hlt, hget⟩ := List.getElem?_eq_some_iff.mp hframed
  have hnext : (nextSeqAfter sc.recvNext).toNat = sc.recvNext.toNat + 1 := nextSeqAfter_toNat (by omega)
  have hdelivered := h.delivered
  rw [hempty, List.append_nil] at hdelivered
  have htake : (framed.take (sc.recvNext.toNat + 1)).flatten = got ++ data := by
    rw [List.take_succ_eq_append_getElem hlt, List.flatten_append, hget, ← hdelivered]
    simp
  unfold UdpConn.readFrame
  by_cases hn : n < data.length
  · simp only [hn, if_true]
    refine ⟨h.buffered, ?_, ?_⟩
    · change (nextSeqAfter sc.recvNext).toNat ≤ _
      omega
    · rw [hnext, htake, List.append_assoc, List.take_append_drop]
  · simp only [hn, if_false]
    refine ⟨fun s p hs => h.buffered s p (Map.lookup_of_erase hs).2, ?_, ?_⟩
    · change (nextSeqAfter sc.recvNext).toNat ≤ _
      omega
    · rw [hnext, htake, hempty, List.append_nil, List.take_of_length_le (by omega)]

theorem Receives.readOnce (n : ℕ) (pick : UdpConn.ReadPick) :
    Receives (sc.readOnce n pick).1 framed (got ++ (sc.readOnce n pick).2.bytes) := by
  unfold UdpConn.readOnce
  by_cases hbuf : sc.readBuf ≠ []
  · rw [if_pos hbuf]
    refine ⟨h.buffered, h.next, ?_⟩
    change got ++ sc.readBuf.take n ++ sc.readBuf.drop n = _
    rw [append_assoc, take_append_drop]
    exact h.delivered
  · rw [if_neg hbuf]
    cases hl : sc.recvBuf.lookup sc.recvNext with
    | some data =>
      have hframe := h.readFrame hbound (not_not.mp hbuf) hl n
      dsimp only
      split_ifs with hdata
      · rw [hdata, take_nil] at hframe
        rw [hdata]
        exact hframe
      · exact hframe
    | none =>
      rw [← append_nil got] at h
      cases pick with
      | ready => exact h
      | done | fin =>
        split_ifs <;> exact h

theorem Receives.effect {s : UdpStep}
    {r : UdpConn × UdpOutput} (he : sc.Effect s r) : Receives r.1 framed (got ++ r.2.bytes) := by
  have h' := h
  rw [← append_nil got] at h'
  cases he with
  | frame now socketOk => cases socketOk <;> exact ⟨h'.buffered, h'.next, h'.delivered⟩
  | read n pick => exact h.readOnce hbound n pick
  | _ => exact ⟨h'.buffered, h'.next, h'.delivered⟩

end

end Receiving

/-! ### Steps and runs -/

namespace Endpoint
variable {e : Endpoint} {peerSent framed : List Bytes}

theorem handlePacket_acks (sc : UdpConn) (d : Bytes) : ∀ a ∈ (sc.handlePacket d).2, ∃ seq, a = (ackFrame seq).encode := by
  have hacks : ∀ ack : Option UInt32, ∀ a ∈ UdpConn.sendAcks ack, ∃ seq, a = (ackFrame seq).encode :=
    fun _ => forall_mem_map.mpr fun seq _ => ⟨seq, rfl⟩
  unfold UdpConn.handlePacket
  split_ifs
  any_goals exact forall_mem_nil _
  all_goals exact hacks _

theorem step_sends (h : Sends e.conn e.framed e.sent) (s : UdpStep)
    (hbound : (e.step peerSent s).framed.length < 2 ^ 29) :
    Sends (e.step peerSent s).conn (e.step peerSent s).framed (e.step peerSent s).sent := by
  obtain ⟨i, d, rfl, hd⟩ | ⟨r, heq, he⟩ := e.step_effect peerSent s
  · obtain ⟨_, _, _, _, _, _, _, hpacket, -⟩ := e.conn.handlePacket_fst d
    rw [e.step_deliver_some peerSent hd]
    change Sends (e.conn.handlePacket d).1 (e.framed ++ []) (e.sent ++ (e.conn.handlePacket d).2)
    rw [hpacket, append_nil]
    refine ⟨h.next, h.size, h.inflight, forall_mem_append.mpr ⟨h.sent, fun a ha => ?_⟩⟩
    obtain ⟨seq, rfl⟩ := handlePacket_acks e.conn d a ha
    exact .ack seq
  · rw [heq] at hbound ⊢
    exact h.effect he hbound

theorem step_receives (h : Receives e.conn framed e.got) (hpeer : ∀ d ∈ peerSent, Genuine framed d)
    (hframed : framed.length < 2 ^ 29) (s : UdpStep) :
    Receives (e.step peerSent s).conn framed (e.step peerSent s).got := by
  obtain ⟨i, d, rfl, hd⟩ | ⟨r, heq, he⟩ := e.step_effect peerSent s
  · rw [e.step_deliver_some peerSent hd]
    change Receives (e.conn.handlePacket d).1 framed (e.got ++ [])
    rw [append_nil]
    exact h.handlePacket hframed (hpeer d (mem_of_getElem? hd))
  · rw [heq]
    exact h.effect hframed he

theorem step_framed (e : Endpoint) (peerSent : List Bytes) (s : UdpStep) :
    ∃ more, (e.step peerSent s).framed = e.framed ++ more := by
  obtain ⟨i, d, rfl, hd⟩ | ⟨r, heq, -⟩ := e.step_effect peerSent s
  · rw [e.step_deliver_some peerSent hd]
    exact ⟨_, rfl⟩
  · rw [heq]
    exact ⟨_, rfl⟩

end Endpoint

structure Flows (x y : Endpoint) : Prop where
  sends : Sends x.conn x.framed x.sent
  receives : Receives y.conn x.framed y.got

namespace Flows
variable {x y : Endpoint}

theorem stepSender (h : Flows x y) (s : UdpStep) (hbound : (x.step y.sent s).framed.length < 2 ^ 29) :
    Flows (x.step y.sent s) y where
  sends := Endpoint.step_sends h.sends s hbound
  receives := by
    obtain ⟨more, hmore⟩ := x.step_framed y.sent s
    rw [hmore]
    exact h.receives.mono more

theorem stepReceiver (h : Flows x y) (hx : x.framed.length < 2 ^ 29) (s : UdpStep) : Flows x (y.step x.sent s) where
  sends := h.sends
  receives := Endpoint.step_receives h.receives h.sends.sent hx s

end Flows

namespace UdpPair

/-- Fewer than 2^29 data frames in either direction. -/
def Bounded (p : UdpPair) : Prop := p.left.framed.length < 2 ^ 29 ∧ p.right.framed.length < 2 ^ 29

instance (p : UdpPair) : Decidable p.Bounded := inferInstanceAs (Decidable (_ ∧ _))

variable {p : UdpPair}

theorem Bounded.of_step {t : Side × UdpStep} (h : (p.step t).Bounded) : p.Bounded := by
  obtain ⟨side, s⟩ := t
  cases side with
  | left =>
    obtain ⟨more, hmore⟩ := p.left.step_framed p.right.sent s
    have hleft : (p.left.step p.right.sent s).framed.length < 2 ^ 29 := h.1
    rw [hmore, length_append] at hleft
    exact ⟨by omega, h.2⟩
  | right =>
    obtain ⟨more, hmore⟩ := p.right.step_framed p.left.sent s
    have hright : (p.right.step p.left.sent s).framed.length < 2 ^ 29 := h.2
    rw [hmore, length_append] at hright
    exact ⟨h.1, by omega⟩

theorem Bounded.of_run {steps : List (Side × UdpStep)} (h : (p.run steps).Bounded) : p.Bounded := by
  induction steps generalizing p with
  | nil => exact h
  | cons t steps ih => exact (ih h).of_step

/-- In both directions. -/
def Both (R : Endpoint → Endpoint → Prop) (p : UdpPair) : Prop := R p.left p.right ∧ R p.right p.left

theorem flows_step (h : p.Both Flows) {t : Side × UdpStep} (hbound : (p.step t).Bounded) :
    (p.step t).Both Flows := by
  have hp := hbound.of_step
  obtain ⟨side, s⟩ := t
  cases side with
  | left => exact ⟨h.1.stepSender s hbound.1, h.2.stepReceiver hp.2 s⟩
  | right => exact ⟨h.1.stepReceiver hp.1 s, h.2.stepSender s hbound.2⟩

theorem flows_run (h : p.Both Flows) {steps : List (Side × UdpStep)} (hbound : (p.run steps).Bounded) :
    (p.run steps).Both Flows := by
  induction steps generalizing p with
  | nil => exact h
  | cons t steps ih =>
    have hnext : (p.step t).Bounded := Bounded.of_run hbound
    exact ih (flows_step h hnext) hbound

theorem flows_new : newUdpPair.Both Flows := ⟨⟨sends_new, receives_new⟩, ⟨sends_new, receives_new⟩⟩

end UdpPair

theorem Flows.got_le {x y : Endpoint} (h : Flows x y) : y.got <+: x.framed.flatten := by
  have hsplit : (x.framed.take y.conn.recvNext.toNat).flatten ++ (x.framed.drop y.conn.recvNext.toNat).flatten =
      x.framed.flatten := by
    rw [← flatten_append, take_append_drop]
  rw [← h.receives.delivered, append_assoc] at hsplit
  exact ⟨_, hsplit⟩

/-- In every run with fewer than 2^29 data frames a direction, the bytes that `Read` returned are a
prefix of the bytes that the peer's `Write` calls framed. -/
theorem udpPair_delivers (steps : List (Side × UdpStep)) (hbound : (newUdpPair.run steps).Bounded) :
    (newUdpPair.run steps).right.got <+: (newUdpPair.run steps).left.framed.flatten ∧
      (newUdpPair.run steps).left.got <+: (newUdpPair.run steps).right.framed.flatten := by
  have h := UdpPair.flows_run UdpPair.flows_new hbound
  exact ⟨h.1.got_le, h.2.got_le⟩

/-- Two frames arrive in the wrong order and one of them twice; the reader has a small buffer. -/
def outOfOrder : List (Side × UdpStep) :=
  let go := (Side.left, UdpStep.writeOn 0 true .ack)
  [(.left, .write (List.replicate 40 7 ++ [8, 9])), go, go, go, go, go, (.right, .deliver 1), (.right, .read 30 .ready),
    (.right, .deliver 0), (.right, .read 30 .ready), (.right, .deliver 0), (.right, .read 30 .ready),
    (.right, .read 30 .ready)]

theorem udpPair_delivers_outOfOrder :
    (newUdpPair.run outOfOrder).right.got = List.replicate 40 7 ++ [8, 9] ∧
      (newUdpPair.run outOfOrder).left.framed.flatten = List.replicate 40 7 ++ [8, 9] ∧
      (newUdpPair.run outOfOrder).right.got <+: (newUdpPair.run outOfOrder).left.framed.flatten :=
  ⟨by decide, by decide, (udpPair_delivers outOfOrder (by decide)).1⟩

end MeshDesk.Mesh
