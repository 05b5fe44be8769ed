import MeshDesk.Mesh.UdpProbe

/-! Dialling a stream. The first frame has number 0 and is not sent by `Write`. `DialTUNStream` puts it into the window
and waits until the window is empty; `DialUDPStream` waits in the same way and never puts its frame there. -/
namespace MeshDesk.Mesh
open Lib List
open Proxy (Bytes)

inductive DialKind where
  | udp
  | tun (authHeader : Bytes)
  deriving DecidableEq, Repr

inductive DialError where
  | socket
  | noAck
  deriving DecidableEq, Repr

namespace DialKind

def payload : DialKind → Bytes
  | .udp => [meshInternalMarker]
  | .tun authHeader => tunUDPMarker :: authHeader

def frame (k : DialKind) : Bytes := dataFrame 0 k.payload

def tracks : DialKind → Bool
  | .udp => false
  | .tun _ => true

def errorText (k : DialKind) (remote : String) : DialError → String
  | .socket => UdpError.socket.text
  | .noAck =>
    let stream := match k with
      | .udp => "udp mesh stream"
      | .tun _ => "udp tun stream"
    s!"{stream}: no ACK from {remote} within 1s (path unusable)"

end DialKind

inductive DialPc where
  | reserve
  | track
  | send
  | confirm
  | closing (err : DialError)
  | returned (err : Option DialError)
  deriving DecidableEq, Repr

/-- The dial of a new stream: the stream, where the dial is, and the datagrams that have arrived from the remote. -/
structure Dial where
  stream : Endpoint
  pc : DialPc
  arrived : List Bytes

inductive DialTurn where
  | stream (peerSent : List Bytes) (s : UdpStep)
  | dial (socketOk expired : Bool)
  deriving DecidableEq, Repr

namespace Dial

def new : Dial := ⟨newEndpoint, .reserve, []⟩

def setConn (d : Dial) (conn : UdpConn) (pc : DialPc) : Dial :=
  { d with stream := { d.stream with conn := conn }, pc := pc }

/-- The next section of the dial. All but the transmission take `sendMu`, except that a second `Close` does nothing. -/
def next (k : DialKind) (d : Dial) (socketOk expired : Bool) : Dial :=
  let sc := d.stream.conn
  match d.pc with
  | .reserve => if sc.sendFree then d.setConn { sc with nextSeq := 1 } .track else d
  | .track =>
    if k.tracks then
      if sc.sendFree then d.setConn { sc with inflight := sc.inflight.insert 0 k.frame } .send else d
    else { d with pc := .send }
  | .send =>
    if socketOk then { d with stream := { d.stream with sent := d.stream.sent ++ [k.frame] }, pc := .confirm }
    else { d with pc := .closing .socket }
  | .confirm =>
    if sc.sendFree then
      if sc.inflight.size = 0 then { d with pc := .returned none }
      else if expired then { d with pc := .closing .noAck }
      else d
    else d
  | .closing err =>
    if sc.sendFree || sc.closed then { d with stream := d.stream.step [] .close, pc := .returned (some err) } else d
  | .returned _ => d

def step (k : DialKind) (d : Dial) : DialTurn → Dial
  | .stream peerSent s =>
    let arrived := match s with
      | .deliver i => peerSent[i]?.toList
      | _ => []
    { d with stream := d.stream.step peerSent s, arrived := d.arrived ++ arrived }
  | .dial socketOk expired => d.next k socketOk expired

def run (k : DialKind) (turns : List DialTurn) : Dial := turns.foldl (step k) new

end Dial

/-- An acknowledgement that covers the first frame is among the datagrams. -/
def Confirmed (arrived : List Bytes) : Prop :=
  ∃ data ∈ arrived, udpFrameHeaderLen ≤ data.length ∧ frameType data = udpFrameTypeAck ∧
    seqBefore (frameAck data) 0 = false

instance (arrived : List Bytes) : Decidable (Confirmed arrived) := by
  unfold Confirmed
  infer_instance

theorem Confirmed.append {arrived : List Bytes} (h : Confirmed arrived) (more : List Bytes) :
    Confirmed (arrived ++ more) :=
  h.imp fun _ hdata => hdata.imp_left (mem_append_left more)

/-- Number 0 is not given again after it was reserved, and a first frame that is tracked stays in the window until an
acknowledgement of it has arrived. -/
structure Awaiting (first : Bytes) (arrived framed : List Bytes) (pc : DialPc) (sc : UdpConn) : Prop where
  queued : ∀ ack ∈ sc.ackRecv, seqBefore ack 0 = false → Confirmed arrived
  held : ∀ ack ∈ sc.held, seqBefore ack 0 = false → Confirmed arrived
  next : pc ≠ .reserve → framed.length < 2 ^ 29 → 1 ≤ sc.nextSeq.toNat ∧ sc.nextSeq.toNat ≤ framed.length + 1
  kept : pc = .send ∨ pc = .confirm →
    Confirmed arrived ∨ ∃ frame, sc.inflight.lookup 0 = some frame ∧ (framed.length < 2 ^ 29 → frame = first)
  result : pc = .returned none → Confirmed arrived

namespace Awaiting
variable {first : Bytes} {arrived framed : List Bytes} {pc : DialPc} {sc sc' : UdpConn}

section
variable (h : Awaiting first arrived framed pc sc)
include h

theorem append (more : List Bytes) :
    Awaiting first (arrived ++ more) (framed ++ []) pc sc := by
  rw [append_nil]
  exact ⟨fun a ha hcovers => (h.queued a ha hcovers).append _, fun a ha hcovers => (h.held a ha hcovers).append _, h.next,
    fun hpc => (h.kept hpc).imp_left fun hc => hc.append _, fun hpc => (h.result hpc).append _⟩

theorem handlePacket (data : Bytes) :
    Awaiting first (arrived ++ [data]) (framed ++ []) pc (sc.handlePacket data).1 := by
  obtain ⟨_, _, _, _, _, _, _, heq, -, hacks⟩ := sc.handlePacket_fst data
  obtain ⟨hqueued, hheld, hnext, hkept, hresult⟩ := h.append [data]
  rw [heq]
  refine ⟨?_, hheld, hnext, hkept, hresult⟩
  obtain rfl | ⟨hlen, htype, rfl⟩ := hacks
  · exact hqueued
  · refine forall_mem_append.mpr ⟨hqueued, forall_mem_singleton.mpr fun hcovers => ?_⟩
    exact ⟨data, mem_append_right _ mem_cons_self, hlen, htype, hcovers⟩

theorem of_eq (hqueued : ∀ a ∈ sc'.ackRecv, a ∈ sc.ackRecv)
    (hheld : ∀ a ∈ sc'.held, a ∈ sc.held ∨ a ∈ sc.ackRecv) (hnext : sc'.nextSeq = sc.nextSeq)
    (hinflight : sc'.inflight = sc.inflight) : Awaiting first arrived (framed ++ []) pc sc' := by
  rw [append_nil]
  exact ⟨fun a ha => h.queued a (hqueued a ha), fun a ha => (hheld a ha).elim (h.held a) (h.queued a), hnext ▸ h.next,
    hinflight ▸ h.kept, h.result⟩

theorem ackLocked {ack : UInt32} (hack : ack ∈ sc.ackRecv ∨ ack ∈ sc.held) :
    Awaiting first arrived framed pc (sc.ackLocked ack) := by
  refine ⟨h.queued, h.held, h.next, fun hpc => ?_, h.result⟩
  cases hcovers : seqBefore ack 0 with
  | false => exact .inl (hack.elim (h.queued ack · hcovers) (h.held ack · hcovers))
  | true =>
    refine (h.kept hpc).imp_right fun ⟨frame, hl, hframe⟩ => ⟨frame, ?_, hframe⟩
    rw [UdpConn.ackLocked, Map.lookup_filterKeys, if_pos hcovers, hl]

theorem frame (chunk frame : Bytes) (hqueued : sc'.ackRecv = sc.ackRecv)
    (hheld : sc'.held = sc.held) (hnext : sc'.nextSeq = nextSeqAfter sc.nextSeq)
    (hinflight : sc'.inflight = sc.inflight.insert sc.nextSeq frame) :
    Awaiting first arrived (framed ++ [chunk]) pc sc' := by
  have hless : (framed ++ [chunk]).length < 2 ^ 29 → framed.length < 2 ^ 29 := by
    rw [length_append]
    omega
  refine ⟨hqueued ▸ h.queued, hheld ▸ h.held, fun hpc hlen => ?_, fun hpc => ?_, h.result⟩
  · obtain ⟨hpos, hle⟩ := h.next hpc (hless hlen)
    rw [hnext, nextSeqAfter_toNat (by have := hless hlen; omega), length_append, length_singleton]
    omega
  · rw [hinflight]
    refine (h.kept hpc).imp_right fun ⟨old, hl, hold⟩ => ?_
    by_cases hzero : sc.nextSeq = 0
    · refine ⟨frame, by rw [hzero, AList.lookup_insert], fun hlen => ?_⟩
      have hpos := (h.next (by rintro rfl; simp at hpc) (hless hlen)).1
      rw [hzero] at hpos
      exact absurd hpos (by decide)
    · exact ⟨old, by rw [AList.lookup_insert_ne (Ne.symm hzero), hl], fun hlen => hold (hless hlen)⟩

theorem effect {s : UdpStep} {r : UdpConn × UdpOutput} (he : sc.Effect s r) :
    Awaiting first arrived (framed ++ r.2.framed) pc r.1 := by
  cases he with
  | frame now socketOk => cases socketOk <;> exact h.frame _ _ rfl rfl rfl rfl
  | takeAck hq =>
    exact h.of_eq (fun a ha => hq ▸ mem_cons_of_mem _ ha)
      (fun a ha => .inr (hq ▸ Option.some.inj ha ▸ mem_cons_self)) rfl rfl
  | ackQueued hq =>
    exact (h.ackLocked (.inl (hq ▸ mem_cons_self))).of_eq (fun a ha => hq ▸ mem_cons_of_mem _ ha)
      (fun _ => .inl) rfl rfl
  | ackHeld hheld => exact (h.ackLocked (.inr hheld)).of_eq (fun _ ha => ha) nofun rfl rfl
  | read n pick =>
    obtain ⟨_, _, _, _, heq, -⟩ := sc.readOnce_cases n pick
    rw [heq]
    exact h.of_eq (fun _ ha => ha) (fun _ => .inl) rfl rfl
  | _ => exact h.of_eq (fun _ ha => ha) (fun _ => .inl) rfl rfl

theorem toPc {pc' : DialPc} (hpc : pc ≠ .reserve)
    (hkept : pc' = .send ∨ pc' = .confirm → pc = .send ∨ pc = .confirm)
    (hresult : pc' = .returned none → Confirmed arrived) : Awaiting first arrived framed pc' sc :=
  ⟨h.queued, h.held, fun _ => h.next hpc, fun hpc' => h.kept (hkept hpc'), hresult⟩

end

end Awaiting

namespace Dial
variable {k : DialKind} {d : Dial}

def Awaits (k : DialKind) (d : Dial) : Prop := Awaiting k.frame d.arrived d.stream.framed d.pc d.stream.conn

theorem Awaits.step_stream (h : d.Awaits k) (peerSent : List Bytes) (s : UdpStep) :
    (d.step k (.stream peerSent s)).Awaits k := by
  obtain ⟨i, data, rfl, hd⟩ | ⟨r, heq, he⟩ := d.stream.step_effect peerSent s
  · change Awaits k ⟨d.stream.step peerSent _, d.pc, d.arrived ++ peerSent[i]?.toList⟩
    rw [d.stream.step_deliver_some peerSent hd, hd]
    exact h.handlePacket data
  · change Awaiting _ (d.arrived ++ _) (d.stream.step peerSent s).framed d.pc (d.stream.step peerSent s).conn
    rw [heq, ← append_nil (d.stream.after r).framed]
    exact (h.effect he).append _

theorem Awaits.next (hk : k.tracks = true) (h : d.Awaits k) (socketOk expired : Bool) :
    (d.next k socketOk expired).Awaits k := by
  obtain ⟨e, pc, arrived⟩ := d
  unfold Dial.next
  cases pc with
  | reserve =>
    dsimp only
    split_ifs
    · exact ⟨h.queued, h.held, fun _ _ => ⟨le_refl 1, Nat.le_add_left _ _⟩, by simp [setConn], nofun⟩
    · exact h
  | track =>
    dsimp only
    split_ifs
    · exact ⟨h.queued, h.held, fun _ => h.next nofun, fun _ => .inr ⟨k.frame, AList.lookup_insert _, fun _ => rfl⟩, nofun⟩
    · exact h
  | send =>
    cases socketOk
    · exact h.toPc nofun (by simp) nofun
    · exact h.toPc nofun (fun _ => .inl rfl) nofun
  | confirm =>
    dsimp only
    split_ifs with hfree hsize
    · refine h.toPc nofun (by simp) fun _ => (h.kept (.inr rfl)).resolve_right ?_
      rintro ⟨frame, hl, -⟩
      rw [Map.lookup_eq_none_of_size_zero hsize] at hl
      cases hl
    · exact h.toPc nofun (by simp) nofun
    · exact h
    · exact h
  | closing err =>
    dsimp only
    split_ifs
    · have hclosed : Awaits k ⟨e.step [] .close, .closing err, arrived ++ []⟩ := h.step_stream [] .close
      rw [append_nil] at hclosed
      exact hclosed.toPc nofun (by simp) (by simp)
    · exact h
  | returned => exact h

theorem run_awaits (hk : k.tracks = true) (turns : List DialTurn) : (run k turns).Awaits k := by
  unfold run
  induction turns using reverseRecOn with
  | nil => exact ⟨nofun, nofun, fun h => absurd rfl h, by simp [new], nofun⟩
  | append_singleton turns turn ih =>
    rw [foldl_append]
    cases turn with
    | stream peerSent s => exact ih.step_stream peerSent s
    | dial socketOk expired => exact ih.next hk socketOk expired

end Dial

theorem UdpConn.mem_retransmitLocked {sc : UdpConn} {due : List UInt32} (hprobe : ¬ sc.ProbeDue due) {seq : UInt32}
    (hseq : seq ∈ due) {frame : Bytes} (hl : sc.inflight.lookup seq = some frame) :
    frame ∈ (sc.retransmitLocked due).2 := by
  induction due with
  | nil => cases hseq
  | cons key due ih =>
    have hrest : ¬ sc.ProbeDue due := fun ⟨hpending, k, hk, hlarge⟩ =>
      hprobe ⟨hpending, k, mem_cons_of_mem _ hk, hlarge⟩
    have hkey : ∀ other, sc.inflight.lookup key = some other → ¬ (sc.probePending && isLarge other) = true :=
      fun other hother hlarge => hprobe ⟨(Bool.and_eq_true_iff.mp hlarge).1, key, mem_cons_self, other, hother,
        (Bool.and_eq_true_iff.mp hlarge).2⟩
    rw [retransmitLocked]
    obtain rfl | hmem := mem_cons.mp hseq
    · simp only [hl, if_neg (hkey frame hl)]
      exact mem_cons_self
    · cases hother : sc.inflight.lookup key with
      | none => exact ih hrest hmem
      | some other =>
        dsimp only
        rw [if_neg (hkey other hother)]
        exact mem_cons_of_mem _ (ih hrest hmem)

/-- The dial of a tunnel up to its first look at the window, and the answer of the peer. -/
def dialled : List DialTurn := [.dial true false, .dial true false, .dial true false, .dial true false]

def answered : List DialTurn :=
  [.stream [(ackFrame 0).encode] (.deliver 0), .stream [] .takeAck, .stream [] .advanceBase, .dial true false]

end MeshDesk.Mesh
