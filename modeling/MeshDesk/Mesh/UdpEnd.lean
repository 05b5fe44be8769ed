import MeshDesk.Mesh.UdpWrites

/-! The end of a stream. `Close` sends one FIN and stops the retransmissions, and a `Read` that finds no frame returns
`io.EOF` as soon as a FIN has arrived, whatever is still missing. -/
namespace MeshDesk.Mesh
open Lib List
open Proxy (Bytes)

/-- A `Read` has looked for a frame in the state `sc`, has found none, and finds a FIN in the state `sc'`. -/
structure UdpConn.ReadsEnd (sc sc' : UdpConn) : Prop where
  readBuf : sc.readBuf = []
  missing : sc.recvBuf.lookup sc.recvNext = none
  fin : sc'.finRecv = true

theorem UdpConn.readOnce_eof (sc : UdpConn) (n : ℕ) : (sc.readOnce n .fin).2.read = some (.error .eof) ↔ sc.ReadsEnd sc := by
  unfold UdpConn.readOnce
  by_cases hbuf : sc.readBuf ≠ []
  · rw [if_pos hbuf]
    exact ⟨nofun, fun h => absurd h.readBuf hbuf⟩
  rw [if_neg hbuf]
  cases hl : sc.recvBuf.lookup sc.recvNext with
  | some data =>
    refine ⟨fun h => ?_, fun h => absurd (hl.symm.trans h.missing) nofun⟩
    dsimp only at h
    split_ifs at h
    cases h
  | none =>
    refine ⟨fun h => ⟨not_not.mp hbuf, hl, ?_⟩, fun h => by simp [h.fin]⟩
    by_contra hfin
    simp [hfin] at h

/-- What has arrived of the frames `framed` has been handed on or is in the buffer. -/
structure Stores (conn : UdpConn) (framed : List Bytes) (received : List UInt32) : Prop where
  numbers : ∀ k ∈ received, k.toNat < framed.length
  stored : ∀ k ∈ received, k.toNat < conn.recvNext.toNat ∨ k ∈ conn.recvBuf

section Storing
variable {sc : UdpConn} {framed : List Bytes} {received : List UInt32}

theorem stores_new : Stores newUDPStreamConn [] [] := ⟨forall_mem_nil _, forall_mem_nil _⟩

section
variable (h : Stores sc framed received)
include h

theorem Stores.mono (more : List Bytes) : Stores sc (framed ++ more) received where
  numbers := fun k hk => by
    rw [length_append]
    exact Nat.lt_add_right _ (h.numbers k hk)
  stored := h.stored

theorem Stores.buffer (hnext : sc.recvNext.toNat < 2 ^ 29) {seq : UInt32}
    (hlt : seq.toNat < 2 ^ 29) (hseq : seq.toNat < framed.length) (payload : Bytes) :
    Stores (sc.buffer seq payload) framed (received ++ [seq]) := by
  refine ⟨forall_mem_append.mpr ⟨h.numbers, forall_mem_singleton.mpr hseq⟩, ?_⟩
  unfold UdpConn.buffer
  split_ifs with hold
  · refine forall_mem_append.mpr ⟨h.stored, forall_mem_singleton.mpr ?_⟩
    exact (Bool.or_eq_true_iff.mp hold).imp (seqBefore_iff hlt hnext).mp AList.lookup_isSome.mp
  · have hmem : ∀ k, k = seq ∨ k ∈ sc.recvBuf → k ∈ sc.recvBuf.insert seq payload := fun k => (AList.mem_insert _).mpr
    exact forall_mem_append.mpr ⟨fun k hk => (h.stored k hk).imp_right fun hk' => hmem k (.inr hk'),
      forall_mem_singleton.mpr (.inr (hmem seq (.inl rfl)))⟩

theorem Stores.handlePacket (hnext : sc.recvNext.toNat ≤ framed.length) {d : Bytes}
    (hd : Genuine framed d) (hbound : framed.length < 2 ^ 29) :
    Stores (sc.handlePacket d).1 framed (received ++ arrivedSeq d) := by
  obtain ⟨seq, payload, _, _, _, hframed, harrived, hpacket⟩ | ⟨harrived, _, _, _, hpacket⟩ :=
    hd.handlePacket_fst sc hbound <;> rw [hpacket, harrived]
  · have hseq := (List.getElem?_eq_some_iff.mp hframed).1
    have hbuffer := h.buffer (by omega) (by omega) hseq payload
    exact ⟨hbuffer.numbers, hbuffer.stored⟩
  · rw [append_nil]
    exact ⟨h.numbers, h.stored⟩

theorem Stores.readOnce (hnext : sc.recvNext.toNat < 2 ^ 29) (n : ℕ)
    (pick : UdpConn.ReadPick) : Stores (sc.readOnce n pick).1 framed received := by
  refine ⟨h.numbers, fun k hk => ?_⟩
  unfold UdpConn.readOnce
  split
  · exact h.stored k hk
  · split
    · have hsucc : (nextSeqAfter sc.recvNext).toNat = sc.recvNext.toNat + 1 := nextSeqAfter_toNat (by omega)
      have hpassed : k.toNat < (nextSeqAfter sc.recvNext).toNat ∨ k ≠ sc.recvNext ∧ k ∈ sc.recvBuf := by
        obtain hlt | hmem := h.stored k hk
        · exact .inl (by omega)
        · by_cases heq : k = sc.recvNext
          · exact .inl (by rw [hsucc, heq]; omega)
          · exact .inr ⟨heq, hmem⟩
      unfold UdpConn.readFrame
      dsimp only
      split_ifs
      · exact hpassed.imp_right And.right
      · exact hpassed.imp_right AList.mem_erase.mpr
    · cases pick <;> exact h.stored k hk

end

theorem Stores.step {e : Endpoint} {peerSent : List Bytes} (h : Stores e.conn framed e.received)
    (hreceives : Receives e.conn framed e.got) (hpeer : ∀ d ∈ peerSent, Genuine framed d)
    (hbound : framed.length < 2 ^ 29) (s : UdpStep) :
    Stores (e.step peerSent s).conn framed (e.step peerSent s).received := by
  obtain ⟨i, d, rfl, hd⟩ | ⟨r, heq, he⟩ := e.step_effect peerSent s
  · rw [e.step_deliver_some peerSent hd]
    exact h.handlePacket hreceives.next (hpeer d (mem_of_getElem? hd)) hbound
  · rw [heq]
    cases he with
    | frame now socketOk => cases socketOk <;> exact ⟨h.numbers, h.stored⟩
    | read n pick => exact h.readOnce (hreceives.next.trans_lt hbound) n pick
    | _ => exact ⟨h.numbers, h.stored⟩

end Storing

/-! ### Runs -/

structure Ends (x y : Endpoint) (l : WriteLog) : Prop where
  stores : Stores y.conn x.framed y.received
  logs : Logs x.conn x.framed l

namespace UdpPair

def reader (p : UdpPair) : Side → Endpoint
  | .left => p.left
  | .right => p.right

def writer (p : UdpPair) : Side → Endpoint
  | .left => p.right
  | .right => p.left

def log (side : Side) (p : UdpPair) (l : WriteLog) : List (Side × UdpStep) → WriteLog
  | [] => l
  | t :: steps => log side (p.step t) (if t.1 = side then l else l.step (p.writer side).conn t.2) steps

variable {p : UdpPair}

theorem ends_step {side : Side} {l : WriteLog} (h : Ends (p.writer side) (p.reader side) l)
    (hflows : p.Both Flows) (hbound : p.Bounded) (t : Side × UdpStep) :
    Ends ((p.step t).writer side) ((p.step t).reader side)
      (if t.1 = side then l else l.step (p.writer side).conn t.2) := by
  -- a step of the reader, and a step of the writer
  have hread : ∀ {x y : Endpoint}, Ends x y l → Flows x y → x.framed.length < 2 ^ 29 → Ends x (y.step x.sent t.2) l :=
    fun h hf hx => ⟨h.stores.step hf.receives hf.sends.sent hx t.2, h.logs⟩
  have hwrite : ∀ {x y : Endpoint} (peerSent), Ends x y l → Ends (x.step peerSent t.2) y (l.step x.conn t.2) := by
    intro x y peerSent h
    obtain ⟨more, hmore⟩ := x.step_framed peerSent t.2
    exact ⟨hmore ▸ h.stores.mono more, h.logs.step peerSent t.2⟩
  obtain ⟨s₀, s⟩ := t
  cases side <;> cases s₀
  · exact hread h hflows.2 hbound.2
  · exact hwrite _ h
  · exact hwrite _ h
  · exact hread h hflows.1 hbound.1

theorem ends_run {side : Side} {l : WriteLog} (h : Ends (p.writer side) (p.reader side) l)
    (hflows : p.Both Flows) {steps : List (Side × UdpStep)} (hbound : (p.run steps).Bounded) :
    Ends ((p.run steps).writer side) ((p.run steps).reader side) (p.log side l steps) := by
  induction steps generalizing p l with
  | nil => exact h
  | cons t steps ih =>
    have hnext : (p.step t).Bounded := Bounded.of_run hbound
    exact ih (ends_step h hflows hnext.of_step t) (flows_step hflows hnext) hbound

theorem writer_step_framed (side : Side) (p : UdpPair) (t : Side × UdpStep) :
    (p.writer side).framed <+: ((p.step t).writer side).framed := by
  obtain ⟨s₀, s⟩ := t
  cases side <;> cases s₀
  · exact prefix_refl _
  · exact (p.right.step_framed p.left.sent s).imp fun _ h => h.symm
  · exact (p.left.step_framed p.right.sent s).imp fun _ h => h.symm
  · exact prefix_refl _

theorem writer_run_framed (side : Side) (p : UdpPair) (steps : List (Side × UdpStep)) :
    (p.writer side).framed <+: ((p.run steps).writer side).framed := by
  induction steps generalizing p with
  | nil => exact prefix_refl _
  | cons t steps ih => exact (p.writer_step_framed side t).trans (ih (p.step t))

theorem flows_writer (h : p.Both Flows) (side : Side) : Flows (p.writer side) (p.reader side) := by
  cases side
  · exact h.2
  · exact h.1

theorem Bounded.writer (h : p.Bounded) (side : Side) : (p.writer side).framed.length < 2 ^ 29 := by
  cases side
  · exact h.2
  · exact h.1

theorem ends_new (side : Side) : Ends (newUdpPair.writer side) (newUdpPair.reader side) .new := by
  cases side <;> exact ⟨stores_new, logs_new⟩

end UdpPair

def WriteLog.reported (l : WriteLog) : Bytes := l.returned.flatMap fun c => c.arg.take c.n

theorem Logs.reported_sublist {sc : UdpConn} {framed : List Bytes} {l : WriteLog} (h : Logs sc framed l) :
    l.reported.Sublist framed.flatten := by
  have hcalls : ∀ cs : List UdpWrite, (∀ c ∈ cs, c.Counted) →
      (cs.flatMap fun c => c.arg.take c.n).Sublist (cs.flatMap UdpWrite.framed) := by
    intro cs hcs
    induction cs with
    | nil => exact .slnil
    | cons c cs ih =>
      obtain ⟨hc, hcs⟩ := forall_mem_cons.mp hcs
      exact hc.isPrefix.sublist.append (ih hcs)
  rw [h.history]
  exact (hcalls _ h.returned).trans (sublist_append_left _ _)

theorem Ends.got_eq {x y : Endpoint} {l : WriteLog} (h : Ends x y l) (hf : Flows x y) (hread : y.conn.readBuf = [])
    (hmissing : y.conn.recvBuf.lookup y.conn.recvNext = none)
    (harrived : ∀ k : UInt32, k.toNat < x.framed.length → k ∈ y.received) : y.got = x.framed.flatten := by
  have hdelivered := hf.receives.delivered
  have hall : x.framed.length ≤ y.conn.recvNext.toNat := by
    by_contra hlt
    obtain hpassed | hmem := h.stores.stored _ (harrived y.conn.recvNext (by omega))
    · exact lt_irrefl _ hpassed
    · rw [← AList.lookup_isSome, hmissing] at hmem
      cases hmem
  rw [hread, append_nil, take_of_length_le hall] at hdelivered
  exact hdelivered

/-- A `Read` that looks for a frame after `steps` and returns `io.EOF` after `later` has returned every byte that the
peer's `Write` calls have reported, if all frames of the peer had arrived when it looked. -/
theorem eof_after_reported (side : Side) (steps later : List (Side × UdpStep))
    (hbound : (newUdpPair.run (steps ++ later)).Bounded)
    (heof : ((newUdpPair.run steps).reader side).conn.ReadsEnd ((newUdpPair.run (steps ++ later)).reader side).conn)
    (harrived : ∀ k : UInt32, k.toNat < ((newUdpPair.run (steps ++ later)).writer side).framed.length →
      k ∈ ((newUdpPair.run steps).reader side).received) :
    (newUdpPair.log side .new (steps ++ later)).reported.Sublist ((newUdpPair.run steps).reader side).got := by
  have hrun : newUdpPair.run (steps ++ later) = (newUdpPair.run steps).run later := foldl_append
  have hsteps : (newUdpPair.run steps).Bounded := UdpPair.Bounded.of_run (hrun ▸ hbound)
  have hends := UdpPair.ends_run (UdpPair.ends_new side) UdpPair.flows_new hsteps
  -- a frame that is made later could not have arrived before
  have hframed : ((newUdpPair.run (steps ++ later)).writer side).framed = ((newUdpPair.run steps).writer side).framed := by
    have hgrown := hrun ▸ (newUdpPair.run steps).writer_run_framed side later
    refine (hgrown.eq_of_length_le ?_).symm
    by_contra hlt
    have hnumber := (UdpPair.Bounded.writer hsteps side).trans (by norm_num : 2 ^ 29 < 2 ^ 32)
    have hnext : (UInt32.ofNat ((newUdpPair.run steps).writer side).framed.length).toNat =
        ((newUdpPair.run steps).writer side).framed.length := UInt32.toNat_ofNat_of_lt' hnumber
    have hbefore := hends.stores.numbers _ (harrived _ (by rw [hnext]; omega))
    omega
  have hgot := hends.got_eq (UdpPair.flows_writer (UdpPair.flows_run UdpPair.flows_new hsteps) side) heof.readBuf heof.missing
    (hframed ▸ harrived)
  rw [hgot, ← hframed]
  exact (UdpPair.ends_run (UdpPair.ends_new side) UdpPair.flows_new hbound).logs.reported_sublist

/-- The left end writes one byte, which `Write` reports, and closes. -/
def writtenAndClosed : List (Side × UdpStep) :=
  [(.left, .write [7]), (.left, .writeOn 0 true .ack), (.left, .writeOn 0 true .ack), (.left, .writeOn 0 true .ack),
    (.left, .close)]

theorem eof_after_reported_written :
    (newUdpPair.log .right .new (writtenAndClosed ++ [(.right, .deliver 0), (.right, .read 4 .fin)] ++
        [(.right, .deliver 1)])).reported.Sublist
      ((newUdpPair.run (writtenAndClosed ++ [(.right, .deliver 0), (.right, .read 4 .fin)])).reader .right).got :=
  eof_after_reported .right _ _ ⟨by decide, by decide⟩ ⟨by decide, by decide, by decide⟩ fun k hk => by
    have hk : k.toNat < 1 := hk
    have hzero : k = 0 := UInt32.toNat_inj.mp (Nat.lt_one_iff.mp hk)
    rw [hzero]
    decide

/-- The FIN overtakes the frame: `Read` returns `io.EOF` and nothing before it. -/
theorem eof_before_reported :
    (newUdpPair.log .right .new writtenAndClosed).reported = [7] ∧
      ((newUdpPair.run (writtenAndClosed ++ [(.right, .deliver 1)])).reader .right).got = [] ∧
      (((newUdpPair.run (writtenAndClosed ++ [(.right, .deliver 1)])).reader .right).conn.readOnce 4 .fin).2.read =
        some (.error .eof) := by decide

end MeshDesk.Mesh
