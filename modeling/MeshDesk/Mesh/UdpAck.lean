import MeshDesk.Lib.Runs
import MeshDesk.Mesh.UdpDelivery

/-! Cumulative acknowledgements. The acknowledged boundary starts at 0, which is also the number of the
first frame, and moves over frames that have arrived. So it covers every frame from 1 on, and an ACK is
sound if frame 0 has arrived when it is due. -/
namespace MeshDesk.Mesh
open Lib List
open Proxy (Bytes)
open UdpConn

def Covers (received : List UInt32) (n : UInt32) : Prop := ∀ k ≤ n, k ∈ received

def CoversRest (received : List UInt32) (n : UInt32) : Prop := ∀ k, 0 < k → k ≤ n → k ∈ received

section Covering
variable {received : List UInt32} {n : UInt32}

theorem Covers.mono (h : Covers received n) (more : List UInt32) : Covers (received ++ more) n :=
  fun k hk => mem_append_left _ (h k hk)

section
variable (h : CoversRest received n)
include h

theorem CoversRest.mono (more : List UInt32) : CoversRest (received ++ more) n :=
  fun k hpos hk => mem_append_left _ (h k hpos hk)

theorem CoversRest.covers (hzero : 0 ∈ received) : Covers received n := by
  intro k hk
  by_cases hpos : 0 < k
  · exact h k hpos hk
  · obtain rfl : k = 0 := UInt32.toNat_inj.mp (Nat.eq_zero_of_not_pos hpos)
    exact hzero

theorem CoversRest.lt (hlt : ∀ k ∈ received, k.toNat < 2 ^ 29) : n.toNat < 2 ^ 29 := by
  by_cases hpos : 0 < n
  · exact hlt n (h n hpos (UInt32.le_refl n))
  · rw [UInt32.lt_iff_toNat_lt] at hpos
    have h0 : UInt32.toNat 0 = 0 := rfl
    omega

theorem CoversRest.next (hlt : ∀ k ∈ received, k.toNat < 2 ^ 29)
    (hnext : nextSeqAfter n ∈ received) : CoversRest received (nextSeqAfter n) := by
  intro k hpos hk
  have hn := h.lt hlt
  have hsucc : (nextSeqAfter n).toNat = n.toNat + 1 := nextSeqAfter_toNat (by omega)
  rw [UInt32.le_iff_toNat_le, hsucc] at hk
  by_cases hlast : k.toNat = n.toNat + 1
  · obtain rfl : k = nextSeqAfter n := UInt32.toNat_inj.mp (hlast.trans hsucc.symm)
    exact hnext
  · exact h k hpos (UInt32.le_iff_toNat_le.mpr (by omega))

theorem CoversRest.walkAck (hlt : ∀ k ∈ received, k.toNat < 2 ^ 29)
    {recvBuf : Map UInt32 Bytes} (hbuf : ∀ k payload, recvBuf.lookup k = some payload → k ∈ received) (fuel : ℕ) :
    CoversRest received (walkAck recvBuf fuel n) := by
  induction fuel generalizing n with
  | zero => exact h
  | succ fuel ih =>
    unfold MeshDesk.Mesh.walkAck
    split_ifs with hsome
    · obtain ⟨payload, hpayload⟩ := Option.isSome_iff_exists.mp hsome
      exact ih (h.next hlt (hbuf _ payload hpayload))
    · exact h

end

end Covering

/-! ### The receiver -/

/-- The receiving half against the frames of the peer: the boundary and the ACKs cover what arrived. -/
structure Acks (conn : UdpConn) (framed sent : List Bytes) (received : List UInt32) : Prop where
  numbers : ∀ k ∈ received, k.toNat < framed.length
  buffered : ∀ k payload, conn.recvBuf.lookup k = some payload → k ∈ received
  pending : CoversRest received conn.ackPending
  sent : ∀ d ∈ sent, frameType d = udpFrameTypeAck → Covers received (frameAck d)

section Receiver
variable {sc sc' : UdpConn} {framed sent : List Bytes} {received : List UInt32}

theorem acks_new : Acks newUDPStreamConn [] [] [] where
  numbers := nofun
  buffered := fun k payload hl => by
    rw [newUDPStreamConn, AList.lookup_empty] at hl
    cases hl
  pending := fun k hpos hk => by
    rw [UInt32.lt_iff_toNat_lt] at hpos
    rw [UInt32.le_iff_toNat_le] at hk
    exact absurd hk (by change ¬ k.toNat ≤ UInt32.toNat 0; omega)
  sent := nofun

variable {seq : UInt32}

theorem Acks.arrive (h : Acks sc framed sent received) (hseq : seq.toNat < framed.length) :
    Acks sc framed sent (received ++ [seq]) where
  numbers := forall_mem_append.mpr ⟨h.numbers, forall_mem_singleton.mpr hseq⟩
  buffered := fun k payload hl => mem_append_left _ (h.buffered k payload hl)
  pending := h.pending.mono [seq]
  sent := fun d hd hack => (h.sent d hd hack).mono [seq]

theorem Acks.buffer (h : Acks sc framed sent received) (hseq : seq ∈ received) (payload : Bytes) :
    Acks (sc.buffer seq payload) framed sent received := by
  unfold UdpConn.buffer
  split_ifs
  · exact h
  · refine ⟨h.numbers, fun k data hl => ?_, h.pending, h.sent⟩
    obtain ⟨rfl, -⟩ | ⟨-, hold⟩ := Map.lookup_of_insert hl
    · exact hseq
    · exact h.buffered k data hold

theorem Acks.advanceAck (h : Acks sc framed sent received) (hbound : framed.length < 2 ^ 29)
    (hseq : seq ∈ received) : Acks (sc.advanceAck seq) framed sent received := by
  have hlt : ∀ k ∈ received, k.toNat < 2 ^ 29 := fun k hk => lt_trans (h.numbers k hk) hbound
  refine ⟨h.numbers, h.buffered, ?_, h.sent⟩
  unfold UdpConn.advanceAck
  refine CoversRest.walkAck ?_ hlt h.buffered _
  split_ifs with hrule hbefore
  · rcases hrule with hrule | hrule
    · rw [hrule]
      exact h.pending
    · rw [hrule] at hseq ⊢
      exact h.pending.next hlt hseq
  · exact h.pending
  · exact h.pending

theorem UdpConn.countFrame_ack {a : UInt32} (h : sc.countFrame.2 = some a) : a = sc.ackPending ∧ 1 ≤ sc.ackCount := by
  unfold countFrame at h
  split_ifs at h with hdue
  exact ⟨(Option.some.inj h).symm, by omega⟩

theorem Acks.countFrame (h : Acks sc framed sent received) (hzero : 1 ≤ sc.ackCount → 0 ∈ received) :
    Acks sc.countFrame.1 framed (sent ++ sendAcks sc.countFrame.2) received := by
  obtain ⟨ackCount, hcount⟩ := sc.countFrame_fst
  rw [hcount]
  refine ⟨h.numbers, h.buffered, h.pending, forall_mem_append.mpr ⟨h.sent, fun d hd hack => ?_⟩⟩
  obtain ⟨a, ha, rfl⟩ := mem_map.mp hd
  obtain ⟨rfl, hdue⟩ := countFrame_ack (Option.mem_toList.mp ha)
  have hvalue : frameAck (ackFrame sc.ackPending).encode = sc.ackPending := frameAck_encode _
  rw [hvalue]
  exact h.pending.covers (hzero hdue)

theorem UdpConn.buffer_ackCount (seq : UInt32) (payload : Bytes) :
    (sc.buffer seq payload).ackCount = sc.ackCount := by
  unfold buffer
  split_ifs <;> rfl

theorem noAck_data {ack : UInt32} {payload : Bytes} :
    frameType (UdpFrame.mk udpFrameTypeData seq ack payload).encode ≠ udpFrameTypeAck := by
  change udpFrameTypeData ≠ udpFrameTypeAck
  decide

theorem Sends.noAck (h : Sends sc framed sent) {d : Bytes} (hd : sc.NoAck d) : frameType d ≠ udpFrameTypeAck := by
  obtain ⟨seq, rfl⟩ | rfl | ⟨seq, hl⟩ := hd
  · change udpFrameTypeFin ≠ udpFrameTypeAck
    decide
  · exact noAck_data
  · obtain ⟨ack, payload, -, -, rfl⟩ := h.inflight seq d hl
    exact noAck_data

theorem Acks.effect (h : Acks sc framed sent received) {own : List Bytes} (hsends : Sends sc own sent) {s : UdpStep}
    {r : UdpConn × UdpOutput} (he : sc.Effect s r)
    (hzero : s = .ackFire → sc.ackFiring ≠ 0 → sc.done = false → 0 ∈ received) :
    Acks r.1 framed (sent ++ r.2.sent) received := by
  have h' := h
  rw [← append_nil sent] at h'
  cases he with
  | control closed stuck done ackCount ackTimer ackFiring _ _ hsent =>
    exact ⟨h.numbers, h.buffered, h.pending,
      forall_mem_append.mpr ⟨h.sent, fun d hd hack => absurd hack (hsends.noAck (hsent d hd))⟩⟩
  | ackFire ackFiring hfiring hdone =>
    have hvalue : frameAck (ackFrame sc.ackPending).encode = sc.ackPending := frameAck_encode _
    refine ⟨h.numbers, h.buffered, h.pending,
      forall_mem_append.mpr ⟨h.sent, forall_mem_singleton.mpr fun _ => ?_⟩⟩
    rw [hvalue]
    exact h.pending.covers (hzero rfl hfiring hdone)
  | takeAck | ackQueued | ackHeld | starts | refused | resumes | returns =>
    exact ⟨h'.numbers, h'.buffered, h'.pending, h'.sent⟩
  | frame now socketOk =>
    cases socketOk with
    | true =>
      exact ⟨h.numbers, h.buffered, h.pending, forall_mem_append.mpr
        ⟨h.sent, forall_mem_singleton.mpr fun hack => absurd hack noAck_data⟩⟩
    | false => exact ⟨h'.numbers, h'.buffered, h'.pending, h'.sent⟩
  | read n pick =>
    obtain ⟨readBuf, recvNext, recvBuf, read, heq, hbuf⟩ := sc.readOnce_cases n pick
    rw [heq]
    refine ⟨h'.numbers, fun k payload hl => h'.buffered k payload ?_, h'.pending, h'.sent⟩
    rcases hbuf with rfl | rfl
    · exact hl
    · exact (Map.lookup_of_erase hl).2

end Receiver

/-! ### The sender -/

/-- The sending half against what the peer received: acknowledgements under way cover what arrived, and
a frame that has not arrived is still in the window. -/
structure Keeps (conn : UdpConn) (framed : List Bytes) (received : List UInt32) : Prop where
  queued : ∀ a ∈ conn.ackRecv, Covers received a
  held : ∀ a ∈ conn.held, Covers received a
  kept : ∀ k : UInt32, k.toNat < framed.length → (conn.inflight.lookup k).isSome ∨ k ∈ received

section Sender
variable {sc sc' : UdpConn} {framed : List Bytes} {received : List UInt32}

theorem keeps_new : Keeps newUDPStreamConn [] [] where
  queued := nofun
  held := nofun
  kept := fun _ hk => absurd hk (Nat.not_lt_zero _)

section
variable (h : Keeps sc framed received)
include h

theorem Keeps.mono (more : List UInt32) : Keeps sc framed (received ++ more) where
  queued := fun a ha => (h.queued a ha).mono more
  held := fun a ha => (h.held a ha).mono more
  kept := fun k hk => (h.kept k hk).imp_right (mem_append_left _)

theorem Keeps.ackLocked (hnumbers : ∀ k ∈ received, k.toNat < framed.length)
    (hbound : framed.length < 2 ^ 29) {ack : UInt32} (hack : Covers received ack) :
    Keeps (sc.ackLocked ack) framed received := by
  refine ⟨h.queued, h.held, fun k hk => ?_⟩
  have hlt : ack.toNat < 2 ^ 29 := lt_trans (hnumbers ack (hack ack (UInt32.le_refl ack))) hbound
  by_cases hbefore : seqBefore ack k = true
  · rw [UdpConn.ackLocked, Map.lookup_filterKeys, if_pos hbefore]
    exact h.kept k hk
  · rw [seqBefore_iff hlt (lt_trans hk hbound)] at hbefore
    exact .inr (hack k (UInt32.le_iff_toNat_le.mpr (Nat.le_of_not_lt hbefore)))

theorem Keeps.frameChunk (hnext : sc.nextSeq.toNat = framed.length) (w : Writing)
    (now : ℤ) (socketOk : Bool) :
    Keeps (sc.frameChunk w now socketOk).1 (framed ++ (sc.frameChunk w now socketOk).2.framed) received := by
  obtain ⟨chunk, frame, hchunk, hinflight⟩ : ∃ chunk frame, (sc.frameChunk w now socketOk).2.framed = [chunk] ∧
      (sc.frameChunk w now socketOk).1.inflight = sc.inflight.insert sc.nextSeq frame := by
    cases socketOk <;> exact ⟨_, _, rfl, rfl⟩
  refine ⟨by cases socketOk <;> exact h.queued, by cases socketOk <;> exact h.held, fun k hk => ?_⟩
  rw [hchunk, length_append, length_singleton] at hk
  rw [hinflight]
  by_cases hnew : k = sc.nextSeq
  · rw [hnew, AList.lookup_insert]
    exact .inl rfl
  · rw [AList.lookup_insert_ne hnew]
    have hne : k.toNat ≠ sc.nextSeq.toNat := fun he => hnew (UInt32.toNat_inj.mp he)
    exact h.kept k (by omega)

theorem Keeps.effect (hnumbers : ∀ k ∈ received, k.toNat < framed.length)
    (hbound : framed.length < 2 ^ 29) (hnext : sc.nextSeq.toNat = framed.length) {s : UdpStep}
    {r : UdpConn × UdpOutput} (he : sc.Effect s r) : Keeps r.1 (framed ++ r.2.framed) received := by
  have hqueued := h.queued
  have hquiet : ∀ {sc'}, Keeps sc' framed received → Keeps sc' (framed ++ []) received := by simp
  cases he with
  | @frame now socketOk _ w => exact h.frameChunk hnext w now socketOk
  | control | ackFire | starts | refused | resumes | returns => exact hquiet ⟨h.queued, h.held, h.kept⟩
  | takeAck hacks =>
    rw [hacks] at hqueued
    apply hquiet
    refine ⟨(forall_mem_cons.mp hqueued).2, fun a ha => ?_, h.kept⟩
    rw [← Option.some.inj ha]
    exact hqueued _ mem_cons_self
  | @ackQueued _ ack rest hacks =>
    rw [hacks] at hqueued
    have hpopped : Keeps { sc with ackRecv := rest } framed received :=
      ⟨(forall_mem_cons.mp hqueued).2, h.held, h.kept⟩
    exact hquiet (hpopped.ackLocked hnumbers hbound (hqueued ack mem_cons_self))
  | @ackHeld _ ack hheld =>
    have hreleased : Keeps { sc with held := none } framed received := ⟨h.queued, nofun, h.kept⟩
    exact hquiet (hreleased.ackLocked hnumbers hbound (h.held ack hheld))
  | read n pick =>
    obtain ⟨readBuf, recvNext, recvBuf, read, heq, -⟩ := sc.readOnce_cases n pick
    rw [heq]
    exact hquiet ⟨h.queued, h.held, h.kept⟩

end

end Sender

/-! ### Steps and runs -/

namespace Endpoint
variable {e : Endpoint} {peerSent framed : List Bytes} {received : List UInt32}

/-- Frame 0 has arrived when an ACK is due: at the second frame or probe since the last ACK, and when
the delayed-ACK timer runs. -/
def ZeroArrived (e : Endpoint) (peerSent : List Bytes) : UdpStep → Prop
  | .deliver i =>
    match peerSent[i]? with
    | none => True
    | some data => frameType data = udpFrameTypeData → 1 ≤ e.conn.ackCount → 0 ∈ e.received ++ arrivedSeq data
  | .ackFire => e.conn.ackFiring ≠ 0 → e.conn.done = false → 0 ∈ e.received
  | _ => True

instance (e : Endpoint) (peerSent : List Bytes) (s : UdpStep) : Decidable (e.ZeroArrived peerSent s) := by
  unfold ZeroArrived
  split
  · split <;> infer_instance
  · infer_instance
  · infer_instance

theorem receive_acks (h : Acks e.conn framed e.sent e.received) {d : Bytes} (hd : Genuine framed d)
    (hbound : framed.length < 2 ^ 29)
    (hzero : frameType d = udpFrameTypeData → 1 ≤ e.conn.ackCount → 0 ∈ e.received ++ arrivedSeq d) :
    Acks (e.conn.handlePacket d).1 framed (e.sent ++ (e.conn.handlePacket d).2) (e.received ++ arrivedSeq d) := by
  cases hd with
  | @data seq payload ack hframed hlen =>
    have hseq := (List.getElem?_eq_some_iff.mp hframed).1
    obtain ⟨hpacket, harrived⟩ := handlePacket_data e.conn ack (lt_trans hseq hbound) hlen
    rw [harrived] at hzero ⊢
    rw [hpacket]
    have hmem : seq ∈ e.received ++ [seq] := mem_append_right _ mem_cons_self
    have hmoved := ((h.arrive hseq).buffer hmem payload).advanceAck hbound hmem
    have hcount : ((e.conn.buffer seq payload).advanceAck seq).ackCount = e.conn.ackCount :=
      buffer_ackCount seq payload
    have hcounted := hmoved.countFrame (fun hdue => hzero (frameType_encode _) (hcount ▸ hdue))
    exact ⟨hcounted.numbers, hcounted.buffered, hcounted.pending, hcounted.sent⟩
  | ack seq =>
    obtain ⟨hpacket, harrived⟩ := handlePacket_ack e.conn seq
    rw [harrived, hpacket, append_nil, append_nil]
    split_ifs
    · exact ⟨h.numbers, h.buffered, h.pending, h.sent⟩
    · exact h
  | fin seq =>
    obtain ⟨hpacket, harrived⟩ := handlePacket_fin e.conn seq
    rw [harrived, hpacket, append_nil, append_nil]
    exact ⟨h.numbers, h.buffered, h.pending, h.sent⟩
  | probe =>
    obtain ⟨hpacket, harrived⟩ := handlePacket_probe e.conn
    rw [harrived, append_nil] at hzero ⊢
    exact h.countFrame (hzero (frameType_encode _))

theorem step_acks (h : Acks e.conn framed e.sent e.received) (hsends : Sends e.conn e.framed e.sent)
    (hpeer : ∀ d ∈ peerSent, Genuine framed d) (hbound : framed.length < 2 ^ 29) (s : UdpStep)
    (hzero : e.ZeroArrived peerSent s) :
    Acks (e.step peerSent s).conn framed (e.step peerSent s).sent (e.step peerSent s).received := by
  obtain ⟨i, d, rfl, hd⟩ | ⟨r, heq, he⟩ := e.step_effect peerSent s
  · rw [e.step_deliver_some peerSent hd]
    simp only [ZeroArrived, hd] at hzero
    exact receive_acks h (hpeer d (mem_of_getElem? hd)) hbound hzero
  · rw [heq]
    refine h.effect hsends he ?_
    rintro rfl
    exact hzero

theorem receive_keeps (h : Keeps e.conn e.framed received) {d : Bytes}
    (hack : frameType d = udpFrameTypeAck → Covers received (frameAck d)) :
    Keeps (e.conn.handlePacket d).1 e.framed received := by
  obtain ⟨_, _, _, _, _, _, _, hpacket, -, rfl | ⟨-, htype, rfl⟩⟩ := e.conn.handlePacket_fst d <;> rw [hpacket]
  · exact ⟨h.queued, h.held, h.kept⟩
  · exact ⟨forall_mem_append.mpr ⟨h.queued, forall_mem_singleton.mpr (hack htype)⟩, h.held, h.kept⟩

theorem step_keeps (h : Keeps e.conn e.framed received) (hnumbers : ∀ k ∈ received, k.toNat < e.framed.length)
    (hsends : Sends e.conn e.framed e.sent) (hbound : e.framed.length < 2 ^ 29)
    (hacks : ∀ d ∈ peerSent, frameType d = udpFrameTypeAck → Covers received (frameAck d)) (s : UdpStep) :
    Keeps (e.step peerSent s).conn (e.step peerSent s).framed received := by
  obtain ⟨i, d, rfl, hd⟩ | ⟨r, heq, he⟩ := e.step_effect peerSent s
  · rw [e.step_deliver_some peerSent hd]
    change Keeps _ (e.framed ++ []) received
    rw [append_nil]
    exact receive_keeps h (hacks d (mem_of_getElem? hd))
  · rw [heq]
    exact h.effect hnumbers hbound hsends.next he

theorem step_received (e : Endpoint) (peerSent : List Bytes) (s : UdpStep) :
    ∃ more, (e.step peerSent s).received = e.received ++ more := by
  obtain ⟨i, d, rfl, hd⟩ | ⟨r, heq, -⟩ := e.step_effect peerSent s
  · rw [e.step_deliver_some peerSent hd]
    exact ⟨_, rfl⟩
  · rw [heq]
    exact ⟨[], (append_nil _).symm⟩

end Endpoint

structure Confirms (x y : Endpoint) : Prop where
  flows : Flows x y
  acks : Acks y.conn x.framed y.sent y.received
  keeps : Keeps x.conn x.framed y.received

namespace Confirms
variable {x y : Endpoint}

theorem stepSender (h : Confirms x y) (hx : x.framed.length < 2 ^ 29) (s : UdpStep)
    (hbound : (x.step y.sent s).framed.length < 2 ^ 29) : Confirms (x.step y.sent s) y where
  flows := h.flows.stepSender s hbound
  acks := by
    obtain ⟨more, hmore⟩ := x.step_framed y.sent s
    refine ⟨fun k hk => ?_, h.acks.buffered, h.acks.pending, h.acks.sent⟩
    rw [hmore, length_append]
    exact Nat.lt_add_right _ (h.acks.numbers k hk)
  keeps := Endpoint.step_keeps h.keeps h.acks.numbers h.flows.sends hx h.acks.sent s

theorem stepReceiver (h : Confirms x y) (hback : Flows y x) (hx : x.framed.length < 2 ^ 29) (s : UdpStep)
    (hzero : y.ZeroArrived x.sent s) : Confirms x (y.step x.sent s) where
  flows := h.flows.stepReceiver hx s
  acks := Endpoint.step_acks h.acks hback.sends h.flows.sends.sent hx s hzero
  keeps := by
    obtain ⟨more, hmore⟩ := y.step_received x.sent s
    rw [hmore]
    exact h.keeps.mono more

end Confirms

namespace UdpPair

def ZeroArrived (p : UdpPair) : Side × UdpStep → Prop
  | (.left, s) => p.left.ZeroArrived p.right.sent s
  | (.right, s) => p.right.ZeroArrived p.left.sent s

def ZeroFirst (p : UdpPair) (steps : List (Side × UdpStep)) : Prop := Meets step ZeroArrived p steps

instance (p : UdpPair) (t : Side × UdpStep) : Decidable (p.ZeroArrived t) := by
  obtain ⟨side, s⟩ := t
  cases side <;> exact inferInstanceAs (Decidable (Endpoint.ZeroArrived _ _ s))

instance (p : UdpPair) (steps : List (Side × UdpStep)) : Decidable (p.ZeroFirst steps) :=
  inferInstanceAs (Decidable (Meets step ZeroArrived p steps))

theorem confirms_step {p : UdpPair} (h : p.Both Confirms) {t : Side × UdpStep} (hzero : p.ZeroArrived t)
    (hbound : (p.step t).Bounded) : (p.step t).Both Confirms := by
  have hp := hbound.of_step
  obtain ⟨side, s⟩ := t
  cases side with
  | left =>
    exact ⟨h.1.stepSender hp.1 s hbound.1, h.2.stepReceiver h.1.flows hp.2 s hzero⟩
  | right =>
    exact ⟨h.1.stepReceiver h.2.flows hp.1 s hzero, h.2.stepSender hp.2 s hbound.2⟩

theorem confirms_run {p : UdpPair} (h : p.Both Confirms) {steps : List (Side × UdpStep)}
    (hzero : p.ZeroFirst steps) (hbound : (p.run steps).Bounded) : (p.run steps).Both Confirms := by
  induction steps generalizing p with
  | nil => exact h
  | cons t steps ih =>
    have hnext : (p.step t).Bounded := Bounded.of_run hbound
    exact ih (confirms_step h hzero.1 hnext) hzero.2 hbound

theorem confirms_new : newUdpPair.Both Confirms :=
  ⟨⟨flows_new.1, acks_new, keeps_new⟩, ⟨flows_new.2, acks_new, keeps_new⟩⟩

end UdpPair

/-- Every ACK that `y` has sent covers what `y` has received, and every frame of `x` is in the window
of `x` or has been received by `y`. -/
def SoundAcks (x y : Endpoint) : Prop :=
  (∀ d ∈ y.sent, frameType d = udpFrameTypeAck → Covers y.received (frameAck d)) ∧
    ∀ k : UInt32, k.toNat < x.framed.length → (x.conn.inflight.lookup k).isSome ∨ k ∈ y.received

theorem Confirms.soundAcks {x y : Endpoint} (h : Confirms x y) : SoundAcks x y := ⟨h.acks.sent, h.keeps.kept⟩

/-! ### The condition is needed -/

theorem UdpConn.countFrame_due {sc : UdpConn} (h : 1 ≤ sc.ackCount) : sc.countFrame.2 = some sc.ackPending := by
  unfold countFrame
  rw [if_pos (by omega)]

theorem zero_mem_of_ack {sent : List Bytes} {received : List UInt32} {a : UInt32}
    (h : ∀ d ∈ sent, frameType d = udpFrameTypeAck → Covers received (frameAck d))
    (hmem : (ackFrame a).encode ∈ sent) : 0 ∈ received :=
  h _ hmem rfl 0 (UInt32.le_iff_toNat_le.mpr (Nat.zero_le _))

theorem Endpoint.zeroArrived_of_sound {e : Endpoint} {peerSent framed : List Bytes}
    (hpeer : ∀ d ∈ peerSent, Genuine framed d) (hbound : framed.length < 2 ^ 29) (s : UdpStep)
    (h : ∀ d ∈ (e.step peerSent s).sent, frameType d = udpFrameTypeAck →
      Covers (e.step peerSent s).received (frameAck d)) : e.ZeroArrived peerSent s := by
  cases s with
  | deliver i =>
    cases hd : peerSent[i]? with
    | none => simp only [ZeroArrived, hd]
    | some data =>
      rw [e.step_deliver_some peerSent hd] at h
      simp only [ZeroArrived, hd]
      intro htype hdue
      obtain ⟨a, ha⟩ : ∃ a, (ackFrame a).encode ∈ (e.conn.handlePacket data).2 := by
        cases hpeer data (mem_of_getElem? hd) with
        | @data seq payload ack hframed hlen =>
          have hseq := (List.getElem?_eq_some_iff.mp hframed).1
          have hcount : ((e.conn.buffer seq payload).advanceAck seq).ackCount = e.conn.ackCount :=
            buffer_ackCount seq payload
          rw [(handlePacket_data e.conn ack (lt_trans hseq hbound) hlen).1, receiveData,
            countFrame_due (hcount ▸ hdue)]
          exact ⟨_, mem_cons_self⟩
        | ack | fin => cases htype
        | probe =>
          rw [(handlePacket_probe e.conn).1, receiveProbe, countFrame_due hdue]
          exact ⟨_, mem_cons_self⟩
      exact zero_mem_of_ack h (mem_append_right _ ha)
  | ackFire =>
    intro hfiring hdone
    refine zero_mem_of_ack (a := e.conn.ackPending) h (mem_append_right _ ?_)
    unfold ackFire
    rw [if_neg hfiring, if_neg (Bool.eq_false_iff.mp hdone)]
    exact mem_cons_self
  | _ => trivial

namespace UdpPair

def Sound (p : UdpPair) : Prop := SoundAcks p.left p.right ∧ SoundAcks p.right p.left

variable {p : UdpPair}

theorem zeroArrived_of_sound (h : p.Both Confirms) (hbound : p.Bounded) {t : Side × UdpStep}
    (hsound : (p.step t).Sound) : p.ZeroArrived t := by
  obtain ⟨side, s⟩ := t
  cases side with
  | left => exact Endpoint.zeroArrived_of_sound h.2.flows.sends.sent hbound.2 s hsound.2.1
  | right => exact Endpoint.zeroArrived_of_sound h.1.flows.sends.sent hbound.1 s hsound.1.1

theorem zeroFirst_of_sound (h : p.Both Confirms) {steps : List (Side × UdpStep)} (hbound : (p.run steps).Bounded)
    (hsound : ∀ k, (p.run (steps.take k)).Sound) : p.ZeroFirst steps := by
  induction steps generalizing p with
  | nil => trivial
  | cons t steps ih =>
    have hnext : (p.step t).Bounded := Bounded.of_run hbound
    have hzero := zeroArrived_of_sound h hnext.of_step (hsound 1)
    exact ⟨hzero, ih (confirms_step h hzero hnext) hbound (fun k => hsound (k + 1))⟩

theorem Bounded.take {steps : List (Side × UdpStep)} (h : (p.run steps).Bounded) (k : ℕ) :
    (p.run (steps.take k)).Bounded := by
  rw [← take_append_drop k steps, run, foldl_append] at h
  exact Bounded.of_run h

end UdpPair

/-- The acknowledgements of a run are sound at every moment, and no frame is discarded that has not been
received, exactly if frame 0 has arrived whenever an ACK is due. -/
theorem udpPair_acks_sound (steps : List (Side × UdpStep)) (hbound : (newUdpPair.run steps).Bounded) :
    (∀ k, (newUdpPair.run (steps.take k)).Sound) ↔ newUdpPair.ZeroFirst steps := by
  constructor
  · exact UdpPair.zeroFirst_of_sound UdpPair.confirms_new hbound
  · intro hzero k
    have h := UdpPair.confirms_run UdpPair.confirms_new (Meets.take hzero k) (UdpPair.Bounded.take hbound k)
    exact ⟨h.1.soundAcks, h.2.soundAcks⟩

/-- Both frames arrive, the second one first, and the sender releases them. -/
def bothAcked : List (Side × UdpStep) := outOfOrder ++ [(.left, .deliver 0), (.left, .takeAck), (.left, .advanceBase)]

theorem udpPair_acks_sound_bothAcked :
    newUdpPair.ZeroFirst bothAcked ∧ (newUdpPair.run bothAcked).right.sent = [(ackFrame 1).encode] ∧
      (newUdpPair.run bothAcked).left.conn.inflight.size = 0 ∧
      ∀ k, (newUdpPair.run (bothAcked.take k)).Sound :=
  ⟨by decide, by decide, by decide,
    (udpPair_acks_sound bothAcked (by decide)).mpr (by decide)⟩

/-- Frame 0 is lost and frame 1 arrives: the timer acknowledges both. -/
def firstLost : List (Side × UdpStep) :=
  let go := (Side.left, UdpStep.writeOn 0 true .ack)
  [(.left, .write (List.replicate 40 7 ++ [8, 9])), go, go, go, go, go, (.right, .deliver 1), (.right, .ackExpire),
    (.right, .ackFire), (.left, .deliver 0), (.left, .takeAck), (.left, .advanceBase)]

theorem udpPair_firstLost :
    (newUdpPair.run firstLost).Bounded ∧ (newUdpPair.run firstLost).right.received = [1] ∧
      (newUdpPair.run firstLost).right.sent = [(ackFrame 1).encode] ∧
      (newUdpPair.run firstLost).left.framed.length = 2 ∧
      (newUdpPair.run firstLost).left.conn.inflight.size = 0 ∧ ¬ (newUdpPair.run firstLost).Sound := by
  have hreceived : (newUdpPair.run firstLost).right.received = [1] := by decide
  have hsent : (newUdpPair.run firstLost).right.sent = [(ackFrame 1).encode] := by decide
  refine ⟨by decide, hreceived, hsent, by decide, by decide, fun h => ?_⟩
  have hzero := zero_mem_of_ack h.1.1 (hsent ▸ mem_cons_self)
  exact absurd hzero (by decide)

end MeshDesk.Mesh
