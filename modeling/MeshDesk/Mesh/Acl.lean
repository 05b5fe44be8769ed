import MeshDesk.Net.Address
import MeshDesk.Proxy.Chunk

/-! The ACL engine of the virtual network: rules as configured, their compiled form, and the decision about
a packet. -/
namespace MeshDesk.Mesh
open Lib (ofBE)
open Net (IP IPNet NetText)
open Proxy (Bytes)

/-! ### Configuration -/

/-- An action is any text of the configuration; two of them have a meaning. -/
structure ACLAction where
  text : String
  deriving DecidableEq, Repr

namespace ACLAction

def allow : ACLAction := ⟨"allow"⟩
def deny : ACLAction := ⟨"deny"⟩
def empty : ACLAction := ⟨""⟩

end ACLAction

structure ACLRule where
  action : ACLAction
  sourceCIDR : String := ""
  destCIDR : String := ""
  protocol : String := ""
  srcPort : ℤ := 0
  dstPort : ℤ := 0
  peerID : String := ""
  description : String := ""
  deriving DecidableEq, Repr

structure ACLConfig where
  enabled : Bool
  defaultPolicy : ACLAction
  rules : List ACLRule
  deriving DecidableEq, Repr

/-- `unicode.ToLower`, which `strings.ToLower` applies to every character. -/
structure Casing where
  lower : Char → Char
  lower_ascii (c : Char) (h : c.toNat < 128) : lower c = c.toLower
  lower_lower (c : Char) : lower (lower c) = lower c

def Casing.toLower (L : Casing) (s : String) : String := .ofList (s.toList.map L.lower)

theorem Casing.toLower_toLower (L : Casing) (s : String) : L.toLower (L.toLower s) = L.toLower s := by
  simp [toLower, Function.comp_def, L.lower_lower]

theorem Casing.toLower_star (L : Casing) : L.toLower "*" = "*" := by
  have hstar : L.lower '*' = '*' := L.lower_ascii '*' (by decide)
  simp [toLower, hstar]

theorem toLower_toLower_char (c : Char) : c.toLower.toLower = c.toLower := by
  unfold Char.toLower
  split_ifs with h h' <;> grind

def asciiCasing : Casing := ⟨Char.toLower, fun _ _ => rfl, toLower_toLower_char⟩

/-! ### Compiled rules -/

structure CompiledACLRule where
  action : ACLAction
  srcNet : Option IPNet
  dstNet : Option IPNet
  protocol : String
  srcPort : ℤ
  dstPort : ℤ
  peerID : String
  desc : String
  deriving DecidableEq

inductive RuleError where
  | invalidAction (action : ACLAction)
  | invalidSrcCIDR (cidr : String)
  | invalidDstCIDR (cidr : String)
  deriving DecidableEq, Repr

def RuleError.text (quote : String → String) : RuleError → String
  | .invalidAction a => s!"invalid action {quote a.text} (must be allow or deny)"
  | .invalidSrcCIDR c => s!"invalid src_cidr {quote c}: invalid CIDR address: {c}"
  | .invalidDstCIDR c => s!"invalid dst_cidr {quote c}: not a valid CIDR or IP"

/-- The rule that failed, by its position in the configuration. -/
structure ACLError where
  rule : ℕ
  error : RuleError
  deriving DecidableEq, Repr

def ACLError.text (quote : String → String) (e : ACLError) : String :=
  s!"acl: rule {e.rule}: {e.error.text quote}"

section Compile
variable (T : NetText) (L : Casing)

def isAny (s : String) : Bool := s == "" || s == "*"

def compileSrc (cidr : String) : Except RuleError (Option IPNet) :=
  if isAny cidr then .ok none
  else match T.parseCIDR cidr with
    | some (_, n) => .ok (some n)
    | none => .error (.invalidSrcCIDR cidr)

/-- A destination may also be a single address, which stands for its own `/32` or `/128`. -/
def compileDst (cidr : String) : Except RuleError (Option IPNet) :=
  if isAny cidr then .ok none
  else match T.parseCIDR cidr with
    | some (_, n) => .ok (some n)
    | none =>
      match T.parseIP cidr with
      | some ip => .ok (some (.host ip))
      | none => .error (.invalidDstCIDR cidr)

def compileProtocol (p : String) : String := if L.toLower p = "" then "*" else L.toLower p

def compileRule (rule : ACLRule) : Except RuleError CompiledACLRule :=
  if rule.action ≠ .allow ∧ rule.action ≠ .deny then .error (.invalidAction rule.action)
  else
    (compileSrc T rule.sourceCIDR).bind fun src =>
    (compileDst T rule.destCIDR).bind fun dst =>
    .ok { action := rule.action, srcNet := src, dstNet := dst, protocol := compileProtocol L rule.protocol,
          srcPort := rule.srcPort, dstPort := rule.dstPort, peerID := rule.peerID, desc := rule.description }

def compileRules : ℕ → List ACLRule → Except ACLError (List CompiledACLRule)
  | _, [] => .ok []
  | i, rule :: rules =>
    match compileRule T L rule with
    | .error e => .error ⟨i, e⟩
    | .ok c => (compileRules (i + 1) rules).map (c :: ·)

end Compile

/-! ### Packets -/

structure PacketInfo where
  srcIP : IP
  dstIP : IP
  protocol : String
  srcPort : ℤ
  dstPort : ℤ
  deriving DecidableEq

variable (packet : Bytes) (i : ℕ)

def beAt (w : ℕ) : ℕ := ofBE ((packet.drop i).take w)

def v4At : IP := .ofV4 (BitVec.ofNat 32 (beAt packet i 4))

def v6At : IP := ⟨BitVec.ofNat 128 (beAt packet i 16)⟩

def byteAt : ℕ := (packet.getD i 0).toNat

/-- Ports are read at a fixed offset, and only from a packet that is long enough. -/
def portsAt (need : ℕ) : ℤ × ℤ :=
  if packet.length < need then (0, 0) else (beAt packet i 2, beAt packet (i + 2) 2)

def parseV4 : PacketInfo :=
  let info : PacketInfo := ⟨v4At packet 12, v4At packet 16, "", 0, 0⟩
  match byteAt packet 9 with
  | 6 => { info with protocol := "tcp", srcPort := (portsAt packet 20 24).1, dstPort := (portsAt packet 20 24).2 }
  | 17 => { info with protocol := "udp", srcPort := (portsAt packet 20 28).1, dstPort := (portsAt packet 20 28).2 }
  | 1 => { info with protocol := "icmp" }
  | _ => info

def parseV6 : PacketInfo :=
  let info : PacketInfo := ⟨v6At packet 8, v6At packet 24, "", 0, 0⟩
  match byteAt packet 6 with
  | 6 => { info with protocol := "tcp", srcPort := (portsAt packet 40 44).1, dstPort := (portsAt packet 40 44).2 }
  | 17 => { info with protocol := "udp", srcPort := (portsAt packet 40 44).1, dstPort := (portsAt packet 40 44).2 }
  | 58 => { info with protocol := "icmp" }
  | _ => info

def parsePacketInfo : Option PacketInfo :=
  if packet.length < 1 then none
  else match byteAt packet 0 / 16 with
    | 4 => if packet.length < 20 then none else some (parseV4 packet)
    | 6 => if packet.length < 40 then none else some (parseV6 packet)
    | _ => none

def ruleMatches (rule : CompiledACLRule) (info : PacketInfo) (peerID : String) : Bool :=
  rule.srcNet.all (·.contains info.srcIP) &&
  rule.dstNet.all (·.contains info.dstIP) &&
  (isAny rule.protocol || info.protocol == rule.protocol) &&
  (rule.srcPort == 0 || info.srcPort == rule.srcPort) &&
  (rule.dstPort == 0 || info.dstPort == rule.dstPort) &&
  (isAny rule.peerID || peerID == rule.peerID)

/-! ### The engine -/

structure AclSnapshot where
  enabled : Bool
  defaultPolicy : ACLAction
  rules : List CompiledACLRule
  hitCounts : List UInt64
  deriving DecidableEq

structure ACLEngine where
  snapshot : Option AclSnapshot := none
  allowCount : UInt64 := 0
  denyCount : UInt64 := 0
  deriving DecidableEq

namespace ACLEngine
variable (T : NetText) (L : Casing)

def effectivePolicy (p : ACLAction) : ACLAction := if p = .empty then .allow else p

variable (e : ACLEngine) (cfg : ACLConfig)

def snapshotOf (compiled : List CompiledACLRule) : AclSnapshot where
  enabled := cfg.enabled
  defaultPolicy := effectivePolicy cfg.defaultPolicy
  rules := compiled
  hitCounts := List.replicate compiled.length 0

def updateRules : Except ACLError ACLEngine :=
  (compileRules T L 0 cfg.rules).map fun compiled => { e with snapshot := some (snapshotOf cfg compiled) }

def newACLEngine : Except ACLError ACLEngine := updateRules T L {} cfg

/-- The decision with its counter: everything but `allow` denies. -/
def count (action : ACLAction) : Bool × ACLEngine :=
  if action = .allow then (true, { e with allowCount := e.allowCount + 1 })
  else (false, { e with denyCount := e.denyCount + 1 })

def check (packet : Bytes) (peerID : String) : Bool × ACLEngine :=
  match e.snapshot with
  | none => (true, e)
  | some snap =>
    if !snap.enabled then (true, e)
    else match parsePacketInfo packet with
      | none => e.count snap.defaultPolicy
      | some info =>
        match snap.rules.find? (ruleMatches · info peerID) with
        | some rule =>
          let i := snap.rules.findIdx (ruleMatches · info peerID)
          let hit := { snap with hitCounts := snap.hitCounts.modify i (· + 1) }
          count { e with snapshot := some hit } rule.action
        | none => e.count snap.defaultPolicy

def isEnabled : Bool := e.snapshot.any (·.enabled)

def defaultPolicy (e : ACLEngine) : ACLAction :=
  match e.snapshot with
  | none => .allow
  | some snap => snap.defaultPolicy

/-- The rule as a configuration: networks are printed, an absent one is left empty. -/
def ruleOf (c : CompiledACLRule) : ACLRule where
  action := c.action
  sourceCIDR := (c.srcNet.map T.print).getD ""
  destCIDR := (c.dstNet.map T.print).getD ""
  protocol := c.protocol
  srcPort := c.srcPort
  dstPort := c.dstPort
  peerID := c.peerID
  description := c.desc

def currentRules : List ACLRule :=
  match e.snapshot with
  | none => []
  | some snap => snap.rules.map (ruleOf T)

end ACLEngine
end MeshDesk.Mesh
