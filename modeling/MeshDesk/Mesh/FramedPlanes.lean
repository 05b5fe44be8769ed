import MeshDesk.Lib.Connections
import MeshDesk.Proxy.Chunk

/-! The two ways of a packet to a peer: framed on a stream, or as a datagram of its own. The datagram plane is handed
the frame too, and takes the length in front of it away if it looks like one. -/
namespace MeshDesk.Mesh
open Lib
open Proxy (Bytes)

def tunPacketHeaderLen : ℕ := 4

def maxTunPacketSize : ℕ := 65535

def defaultTunMTU : ℕ := 1400

/-- The values of `tun_mtu` that `Validate` lets pass. -/
def TunMTUValid (tunMTU : ℤ) : Prop := ¬ (tunMTU < 0 ∨ tunMTU > 9000)

instance (tunMTU : ℤ) : Decidable (TunMTUValid tunMTU) := inferInstanceAs (Decidable (¬ _))

def mtuOf (tunMTU : ℤ) : ℕ := if tunMTU = 0 then defaultTunMTU else tunMTU.toNat

/-- The buffer of the one call of `Write`. -/
def writeFramedPacket (packet : Bytes) : Bytes := toBE tunPacketHeaderLen (packet.length % 2 ^ 32) ++ packet

inductive FrameError
  | read (e : IncomingError ReadError Unit)
  | invalidLength (length : ℕ)

def readFramedPacket (r : Conn UInt8) : Except FrameError Bytes × Conn UInt8 :=
  match r.fill tunPacketHeaderLen false with
  | (.error e, r) => (.error (.read e), r)
  | (.ok header, r) =>
    let length := ofBE header
    if length = 0 ∨ length > maxTunPacketSize then (.error (.invalidLength length), r)
    else
      match r.fill length false with
      | (.error e, r) => (.error (.read e), r)
      | (.ok buf, r) => (.ok buf, r)

/-- The datagram that `PunchDataplane.Write` sends. -/
def punchDatagram (p : Bytes) : Bytes :=
  if 4 ≤ p.length then
    let framedLen := ofBE (p.take 4)
    if framedLen > 0 ∧ framedLen ≤ p.length - 4 ∧ framedLen ≤ 1500 then p.drop 4 else p
  else p

section Framed
variable {packet : Bytes}

theorem ofBE_header (h : packet.length ≤ maxTunPacketSize) : ofBE (toBE 4 (packet.length % 2 ^ 32)) = packet.length := by
  have hlt : packet.length < 2 ^ 32 := h.trans_lt (by decide)
  rw [Nat.mod_eq_of_lt hlt, ofBE_toBE_of_lt hlt]

theorem readFramedPacket_frame (hpos : 1 ≤ packet.length) (h : packet.length ≤ maxTunPacketSize)
    {pieces : List Bytes} {rest : Bytes} (hpieces : pieces.flatten = writeFramedPacket packet ++ rest) :
    ∃ r, readFramedPacket (.ofPieces pieces) = (.ok packet, r) ∧ r.lead = rest := by
  have hlead : (Conn.ofPieces pieces).lead = toBE 4 (packet.length % 2 ^ 32) ++ (packet ++ rest) := by
    rw [← Conn.bytes_of_later_none (Conn.later_ofPieces pieces), Conn.bytes_ofPieces, hpieces, writeFramedPacket,
      List.append_assoc, tunPacketHeaderLen]
  obtain ⟨r, hheader, hr, -⟩ := Conn.fill_append hlead (toBE_length _ _) false
  obtain ⟨r', hbody, hr', -⟩ := Conn.fill_append hr rfl false
  refine ⟨r', ?_, hr'⟩
  unfold readFramedPacket
  rw [tunPacketHeaderLen, hheader]
  dsimp only
  rw [ofBE_header h, if_neg (by omega), hbody]

theorem punchDatagram_frame (hpos : 1 ≤ packet.length) (h : packet.length ≤ maxTunPacketSize) :
    punchDatagram (writeFramedPacket packet) = if packet.length ≤ 1500 then packet else writeFramedPacket packet := by
  have hlen : (writeFramedPacket packet).length = 4 + packet.length := by simp [writeFramedPacket, tunPacketHeaderLen]
  have hheader : ofBE ((writeFramedPacket packet).take 4) = packet.length := by
    rw [writeFramedPacket, tunPacketHeaderLen, List.take_left' (toBE_length _ _), ofBE_header h]
  have hbody : (writeFramedPacket packet).drop 4 = packet := List.drop_left' (toBE_length _ _)
  unfold punchDatagram
  rw [hlen, hheader, hbody, if_pos (Nat.le_add_right _ _)]
  exact if_congr (by omega) rfl rfl

end Framed

/-- A packet of up to the MTU arrives unchanged from a stream, and from the datagram plane exactly if it has at most
1500 bytes. -/
theorem planes_agree {tunMTU : ℤ} (hmtu : TunMTUValid tunMTU) {packet : Bytes} (hpos : 1 ≤ packet.length)
    (hpacket : packet.length ≤ mtuOf tunMTU) :
    (∀ pieces rest, pieces.flatten = writeFramedPacket packet ++ rest →
      ∃ r, readFramedPacket (.ofPieces pieces) = (.ok packet, r) ∧ r.lead = rest) ∧
      (punchDatagram (writeFramedPacket packet) = packet ↔ packet.length ≤ 1500) := by
  have hmax : packet.length ≤ maxTunPacketSize := by
    unfold TunMTUValid at hmtu
    unfold mtuOf at hpacket
    split_ifs at hpacket
    · exact hpacket.trans (by decide)
    · unfold maxTunPacketSize
      omega
  refine ⟨fun _ _ => readFramedPacket_frame hpos hmax, ?_⟩
  rw [punchDatagram_frame hpos hmax]
  split_ifs with hshort
  · exact iff_of_true rfl hshort
  · refine iff_of_false (fun heq => ?_) hshort
    have := congrArg List.length heq
    simp [writeFramedPacket, tunPacketHeaderLen] at this

theorem planes_agree_default : punchDatagram (writeFramedPacket [0x45]) = [0x45] :=
  (planes_agree (show TunMTUValid 0 by decide) (by decide) (by decide)).2.mpr (by decide)

/-- With the largest MTU, a packet of 1501 bytes is sent with the length in front of it. -/
theorem planes_differ :
    TunMTUValid 9000 ∧ (List.replicate 1501 (0x45 : UInt8)).length ≤ mtuOf 9000 ∧
      punchDatagram (writeFramedPacket (List.replicate 1501 0x45)) =
        [0, 0, 0x05, 0xdd] ++ List.replicate 1501 0x45 := by
  have hlen : (List.replicate 1501 (0x45 : UInt8)).length = 1501 := List.length_replicate
  refine ⟨by decide, hlen.le.trans (by decide), ?_⟩
  rw [punchDatagram_frame (hlen.symm ▸ by decide) (hlen.symm ▸ by decide), hlen, if_neg (by decide), writeFramedPacket, hlen]
  rfl

end MeshDesk.Mesh
