import MeshDesk.Mesh.Acl

/-! What the ACL engine takes for the ports of a packet. It reads them at a fixed offset, which is where the transport
header stands in a packet without options and extension headers. -/
namespace MeshDesk.Mesh
open Proxy (Bytes)

inductive Transport
  | tcp
  | udp
  deriving DecidableEq, Repr

namespace Transport

def number : Transport → ℕ
  | tcp => 6
  | udp => 17

def name : Transport → String
  | tcp => "tcp"
  | udp => "udp"

def headerLen : Transport → ℕ
  | tcp => 20
  | udp => 8

theorem eight_le_headerLen (t : Transport) : 8 ≤ t.headerLen := by cases t <;> decide

end Transport

/-- A chain of hop-by-hop, routing and destination-option headers from the header `next` at `offset`. -/
inductive Chain (packet : Bytes) (protocol last : ℕ) : ℕ → ℕ → Prop
  | done : Chain packet protocol last protocol last
  | extension {next offset : ℕ} (hnext : next = 0 ∨ next = 43 ∨ next = 60)
      (h : Chain packet protocol last (byteAt packet offset) (offset + 8 * (byteAt packet (offset + 1) + 1))) :
      Chain packet protocol last next offset

/-- The packet is well formed and not a fragment, and has a complete header of the transport at `offset`. -/
structure Carries (packet : Bytes) (t : Transport) (offset : ℕ) : Prop where
  complete : offset + t.headerLen ≤ packet.length
  header : byteAt packet 0 / 16 = 4 ∧ beAt packet 2 2 = packet.length ∧ beAt packet 6 2 % 2 ^ 14 = 0 ∧
      5 ≤ byteAt packet 0 % 16 ∧ offset = 4 * (byteAt packet 0 % 16) ∧ byteAt packet 9 = t.number ∨
    byteAt packet 0 / 16 = 6 ∧ 40 + beAt packet 4 2 = packet.length ∧ Chain packet t.number offset (byteAt packet 6) 40

/-- The engine takes the packet for one of the transport, with the ports of the header at `offset`. -/
def SeesPorts (packet : Bytes) (t : Transport) (offset : ℕ) : Prop :=
  (parsePacketInfo packet).map (fun info => (info.protocol, info.srcPort, info.dstPort)) =
    some (t.name, ↑(beAt packet offset 2), ↑(beAt packet (offset + 2) 2))

instance (packet : Bytes) (t : Transport) (offset : ℕ) : Decidable (SeesPorts packet t offset) :=
  inferInstanceAs (Decidable (_ = _))

theorem Chain.start {packet : Bytes} {protocol last next offset : ℕ} (h : Chain packet protocol last next offset) :
    next = protocol ∧ offset = last ∨ offset < last := by
  induction h with
  | done => exact .inl ⟨rfl, rfl⟩
  | extension _ _ ih =>
    right
    obtain ⟨-, hlast⟩ | hlast := ih <;> omega

theorem portsAt_of_le {packet : Bytes} {i need : ℕ} (h : need ≤ packet.length) :
    portsAt packet i need = (↑(beAt packet i 2), ↑(beAt packet (i + 2) 2)) := if_neg (not_lt.mpr h)

/-- An SSH packet from 10.0.0.1 to 10.0.0.2 with the given first byte, total length and options, its checksums left 0. -/
def ssh (first length : UInt8) (options : Bytes) : Bytes :=
  [first, 0, 0, length, 0, 0, 0, 0, 64, 6, 0, 0, 10, 0, 0, 1, 10, 0, 0, 2] ++ options ++
    [0xc0, 0, 0, 22, 0, 0, 0, 0, 0, 0, 0, 0, 0x50, 2, 0, 0, 0, 0, 0, 0]

/-- The same segment over IPv6, behind a hop-by-hop header. -/
def sshOverV6 : Bytes :=
  [0x60, 0, 0, 0, 0, 28, 0, 64] ++ List.replicate 32 0 ++ [6, 0, 1, 4, 0, 0, 0, 0] ++
    [0xc0, 0, 0, 22, 0, 0, 0, 0, 0, 0, 0, 0, 0x50, 2, 0, 0, 0, 0, 0, 0]

/-- An engine that denies TCP to port 22. -/
def noSSH : ACLEngine where
  snapshot := some ⟨true, .allow, [⟨.deny, none, none, "tcp", 0, 22, "", ""⟩], [0]⟩

end MeshDesk.Mesh
