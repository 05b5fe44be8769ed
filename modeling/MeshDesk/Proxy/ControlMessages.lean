import MeshDesk.Proxy.Exit

/-! The control messages of a circuit. Strings and lists are preceded by a 16-bit length, which is the
length of what follows only as long as that fits. -/
namespace MeshDesk.Proxy.Control
open Lib

inductive ControlError where
  | circuitIDSize
  | ecdhKeySize
  | targetTooLong (got : ℕ)
  | setupTooShort (got : ℕ)
  | targetLength (declared actual : ℕ)
  | tooShort (got : ℕ)
  | reasonOverflows
  | keepaliveTooShort (got : ℕ)
  | seqOverflows (index : ℕ)
  deriving DecidableEq, Repr

def ControlError.text : ControlError → String
  | .circuitIDSize => "circuit ID must be 16 bytes"
  | .ecdhKeySize => "ECDH public key must be 32 bytes"
  | .targetTooLong got => s!"target address too long: {got}"
  | .setupTooShort got => s!"data too short: {got} bytes (min 50)"
  | .targetLength declared actual => s!"target length mismatch: declared {declared}, actual {actual}"
  | .tooShort got => s!"data too short: {got} bytes"
  | .reasonOverflows => "reason length overflows data"
  | .keepaliveTooShort got => s!"data too short: {got} bytes (need 24)"
  | .seqOverflows index => s!"NACK seq {index} overflows data"

structure CircuitSetup where
  circuitID : Bytes
  ecdhPubKey : Bytes
  targetAddr : GoString
  deriving DecidableEq, Repr

def CircuitSetup.encode (cs : CircuitSetup) : Except ControlError Bytes :=
  if cs.circuitID.length ≠ circuitIDSize then .error .circuitIDSize
  else if cs.ecdhPubKey.length ≠ 32 then .error .ecdhKeySize
  else if 65535 < cs.targetAddr.length then .error (.targetTooLong cs.targetAddr.length)
  else .ok (cs.circuitID ++ (cs.ecdhPubKey ++ (toBE 2 cs.targetAddr.length ++ cs.targetAddr)))

variable (data : Bytes)

def decodeCircuitSetup : Except ControlError CircuitSetup :=
  if data.length < circuitIDSize + 32 + 2 then .error (.setupTooShort data.length)
  else
    let targetLen := ofBE (sliceAt data (circuitIDSize + 32) 2)
    let targetStart := circuitIDSize + 32 + 2
    if targetLen ≠ data.length - targetStart then .error (.targetLength targetLen (data.length - targetStart))
    else .ok ⟨data.take circuitIDSize, sliceAt data circuitIDSize 32, data.drop targetStart⟩

structure CircuitAck where
  circuitID : Bytes
  ecdhPubKey : Bytes
  accepted : Bool
  reason : GoString
  deriving DecidableEq, Repr

def acceptedByte (accepted : Bool) : UInt8 := if accepted then 0x01 else 0x00

def CircuitAck.encode (ca : CircuitAck) : Except ControlError Bytes :=
  if ca.circuitID.length ≠ circuitIDSize then .error .circuitIDSize
  else if ca.ecdhPubKey.length ≠ 32 then .error .ecdhKeySize
  else .ok (ca.circuitID ++ (ca.ecdhPubKey ++ ([acceptedByte ca.accepted] ++ (toBE 2 ca.reason.length ++ ca.reason))))

/-- The reason of an acknowledgement or a teardown: its length at `offset`, then the string. -/
def decodeReason (offset : ℕ) : Except ControlError GoString :=
  let reasonLen := ofBE (sliceAt data offset 2)
  let reasonStart := offset + 2
  if data.length - reasonStart < reasonLen then .error .reasonOverflows
  else .ok (sliceAt data reasonStart reasonLen)

def decodeCircuitAck : Except ControlError CircuitAck :=
  if data.length < circuitIDSize + 32 + 1 + 2 then .error (.tooShort data.length)
  else do
    let accepted : Bool := sliceAt data (circuitIDSize + 32) 1 = [0x01]
    let reason ← decodeReason data (circuitIDSize + 33)
    return ⟨data.take circuitIDSize, sliceAt data circuitIDSize 32, accepted, reason⟩

structure TeardownMsg where
  circuitID : Bytes
  reason : GoString
  deriving DecidableEq, Repr

def TeardownMsg.encode (ct : TeardownMsg) : Except ControlError Bytes :=
  if ct.circuitID.length ≠ circuitIDSize then .error .circuitIDSize
  else .ok (ct.circuitID ++ (toBE 2 ct.reason.length ++ ct.reason))

def decodeTeardown : Except ControlError TeardownMsg :=
  if data.length < circuitIDSize + 2 then .error (.tooShort data.length)
  else do
    let reason ← decodeReason data circuitIDSize
    return ⟨data.take circuitIDSize, reason⟩

def decodeKeepalive : Except ControlError KeepaliveMsg :=
  if data.length < circuitIDSize + 8 then .error (.keepaliveTooShort data.length)
  else .ok ⟨data.take circuitIDSize, (UInt64.ofNat (ofBE (sliceAt data circuitIDSize 8))).toInt64⟩

end MeshDesk.Proxy.Control

namespace MeshDesk.Proxy
open Lib Control List

def NACKMsg.encode (n : NACKMsg) : Except ControlError Bytes :=
  if n.circuitID.length ≠ circuitIDSize then .error .circuitIDSize
  else .ok (n.circuitID ++ (toBE 4 n.streamID.toNat ++ (toBE 2 n.missingSeqs.length ++
    n.missingSeqs.flatMap (fun seq => toBE 4 seq.toNat))))

namespace Control

/-- The sequence numbers `i`, `i + 1`, … of a NACK; `count` of them are left to read at `offset`. -/
def decodeSeqs (data : Bytes) : ℕ → ℕ → ℕ → Except ControlError (List UInt32)
  | 0, _, _ => .ok []
  | count + 1, i, offset =>
    if data.length < offset + 4 then .error (.seqOverflows i)
    else do
      let seqs ← decodeSeqs data count (i + 1) (offset + 4)
      return UInt32.ofNat (ofBE (sliceAt data offset 4)) :: seqs

def decodeNACK (data : Bytes) : Except ControlError NACKMsg :=
  if data.length < circuitIDSize + 6 then .error (.tooShort data.length)
  else do
    let count := ofBE (sliceAt data (circuitIDSize + 4) 2)
    let seqs ← decodeSeqs data count 0 (circuitIDSize + 6)
    return ⟨data.take circuitIDSize, UInt32.ofNat (ofBE (sliceAt data circuitIDSize 4)), seqs⟩

theorem ofBE_length (n : ℕ) : ofBE (toBE 2 n) = n % 65536 := ofBE_toBE 2 n

theorem decodeReason_eq {data reason : Bytes} {offset : ℕ} (h : data.drop offset = toBE 2 reason.length ++ reason) :
    decodeReason data offset = .ok (reason.take (reason.length % 65536)) := by
  have hrest := drop_next h (toBE_length _ _)
  have hlen : data.length - (offset + 2) = reason.length := by rw [← length_drop, hrest]
  have hle := Nat.mod_le reason.length 65536
  unfold decodeReason
  dsimp only
  rw [sliceAt_eq h (toBE_length _ _), ofBE_length, hlen, if_neg (Nat.not_lt.mpr hle), sliceAt, hrest]

variable {bs : Bytes}

/-- Every message starts with the circuit. -/
theorem split_encoded {ε : Type} {circuitID rest : Bytes} (hid : ¬ circuitID.length ≠ circuitIDSize)
    (h : (.ok (circuitID ++ rest) : Except ε Bytes) = .ok bs) :
    bs.drop circuitIDSize = rest ∧ bs.take circuitIDSize = circuitID ∧ bs.length = circuitIDSize + rest.length := by
  have hid := not_not.mp hid
  obtain rfl := Except.ok.inj h
  exact ⟨drop_left' hid, take_left' hid, by rw [length_append, hid]⟩

theorem decodeCircuitSetup_encode {m : CircuitSetup} (h : m.encode = .ok bs) :
    decodeCircuitSetup bs = .ok m := by
  unfold CircuitSetup.encode at h
  split_ifs at h with hid hkey hlen
  have hkey := not_not.mp hkey
  obtain ⟨h16, hid, hbs⟩ := split_encoded hid h
  have h48 := drop_next h16 hkey
  have h50 := drop_next h48 (toBE_length _ _)
  have hsize : bs.length - (circuitIDSize + 32 + 2) = m.targetAddr.length := by rw [← length_drop, h50]
  have hshort : ¬ bs.length < circuitIDSize + 32 + 2 := by
    simp only [hbs, length_append, hkey, toBE_length]
    omega
  unfold decodeCircuitSetup
  dsimp only
  rw [if_neg hshort, sliceAt_eq h48 (toBE_length _ _), sliceAt_eq h16 hkey, ofBE_length, Nat.mod_eq_of_lt (by omega),
    hsize, h50, hid]
  simp

theorem decodeCircuitAck_encode {m : CircuitAck} (h : m.encode = .ok bs) :
    decodeCircuitAck bs = .ok { m with reason := m.reason.take (m.reason.length % 65536) } := by
  unfold CircuitAck.encode at h
  split_ifs at h with hid hkey
  have hkey := not_not.mp hkey
  obtain ⟨h16, hid, hbs⟩ := split_encoded hid h
  have h48 := drop_next h16 hkey
  have h49 : bs.drop (circuitIDSize + 33) = toBE 2 m.reason.length ++ m.reason := by
    have hnext := drop_next h48 length_singleton
    exact hnext
  have hflag : sliceAt bs (circuitIDSize + 32) 1 = [acceptedByte m.accepted] := sliceAt_eq h48 length_singleton
  have hshort : ¬ bs.length < circuitIDSize + 32 + 1 + 2 := by
    simp only [hbs, length_append, hkey, toBE_length, length_singleton]
    omega
  unfold decodeCircuitAck
  rw [if_neg hshort, decodeReason_eq h49, sliceAt_eq h16 hkey, hflag, hid]
  cases m with
  | mk circuitID ecdhPubKey accepted reason => cases accepted <;> rfl

theorem decodeTeardown_encode {m : TeardownMsg} (h : m.encode = .ok bs) :
    decodeTeardown bs = .ok { m with reason := m.reason.take (m.reason.length % 65536) } := by
  unfold TeardownMsg.encode at h
  split_ifs at h with hid
  obtain ⟨h16, hid, hbs⟩ := split_encoded hid h
  have hshort : ¬ bs.length < circuitIDSize + 2 := by
    simp only [hbs, length_append, toBE_length]
    omega
  unfold decodeTeardown
  rw [if_neg hshort, decodeReason_eq h16, hid]
  rfl

theorem decodeKeepalive_encode {m : KeepaliveMsg} (h : m.encode = .ok bs) :
    decodeKeepalive bs = .ok m := by
  unfold KeepaliveMsg.encode at h
  split_ifs at h with hid
  obtain ⟨h16, hid, hbs⟩ := split_encoded hid h
  rw [← append_nil (toBE 8 _)] at h16
  have hshort : ¬ bs.length < circuitIDSize + 8 := by
    simp [hbs]
  unfold decodeKeepalive
  rw [if_neg hshort, sliceAt_eq h16 (toBE_length _ _), ofBE_toBE_of_lt m.timestamp.toUInt64.toNat_lt, hid]
  simp

theorem decodeSeqs_eq {data : Bytes} {seqs : List UInt32} {offset : ℕ} (count i : ℕ)
    (h : data.drop offset = seqs.flatMap (fun seq => toBE 4 seq.toNat)) (hc : count ≤ seqs.length) :
    decodeSeqs data count i offset = .ok (seqs.take count) := by
  induction count generalizing seqs i offset with
  | zero => rfl
  | succ count ih =>
    cases seqs with
    | nil => simp at hc
    | cons seq seqs =>
      rw [flatMap_cons] at h
      have hnext := drop_next h (toBE_length _ _)
      have hfit : ¬ data.length < offset + 4 := by
        have := congrArg length h
        rw [length_drop, length_append, toBE_length] at this
        omega
      rw [decodeSeqs, if_neg hfit, ih (i + 1) hnext (by simpa using hc), sliceAt_eq h (toBE_length _ _),
        ofBE_toBE_of_lt seq.toNat_lt]
      simp [bind, Except.bind, pure, Except.pure]

theorem decodeNACK_encode {m : NACKMsg} (h : m.encode = .ok bs) :
    decodeNACK bs = .ok { m with missingSeqs := m.missingSeqs.take (m.missingSeqs.length % 65536) } := by
  unfold NACKMsg.encode at h
  split_ifs at h with hid
  obtain ⟨h16, hid, hbs⟩ := split_encoded hid h
  have h20 := drop_next h16 (toBE_length _ _)
  have h22 := drop_next h20 (toBE_length _ _)
  have hshort : ¬ bs.length < circuitIDSize + 6 := by
    simp only [hbs, length_append, toBE_length]
    omega
  have hseqs := decodeSeqs_eq (m.missingSeqs.length % 65536) 0 h22 (Nat.mod_le _ _)
  unfold decodeNACK
  rw [if_neg hshort, sliceAt_eq h20 (toBE_length _ _), ofBE_length, sliceAt_eq h16 (toBE_length _ _),
    ofBE_toBE_of_lt m.streamID.toNat_lt]
  dsimp only
  rw [hseqs, hid]
  simp [bind, Except.bind, pure, Except.pure]

theorem take_mod_eq_iff {α : Type*} (l : List α) : l.take (l.length % 65536) = l ↔ l.length < 65536 := by
  rw [take_eq_self_iff]
  constructor
  · intro h
    have := Nat.mod_lt l.length (show 65536 > 0 by decide)
    omega
  · intro h
    rw [Nat.mod_eq_of_lt h]

/-- Setups and keepalives are decoded to what was encoded. Acknowledgements, teardowns and NACKs are exactly as
long as their reason or list has a length that fits its field. -/
theorem control_round_trip (setup : CircuitSetup) (keepalive : KeepaliveMsg) (ack : CircuitAck) (td : TeardownMsg)
    (nack : NACKMsg) (bs : Bytes) :
    (setup.encode = .ok bs → decodeCircuitSetup bs = .ok setup) ∧
    (keepalive.encode = .ok bs → decodeKeepalive bs = .ok keepalive) ∧
    (ack.encode = .ok bs → (decodeCircuitAck bs = .ok ack ↔ ack.reason.length < 65536)) ∧
    (td.encode = .ok bs → (decodeTeardown bs = .ok td ↔ td.reason.length < 65536)) ∧
    (nack.encode = .ok bs → (decodeNACK bs = .ok nack ↔ nack.missingSeqs.length < 65536)) := by
  refine ⟨decodeCircuitSetup_encode, decodeKeepalive_encode, ?_, ?_, ?_⟩
  · intro h
    rw [decodeCircuitAck_encode h, Except.ok.injEq, ← take_mod_eq_iff]
    exact ⟨fun he => congrArg CircuitAck.reason he, fun he => by rw [he]⟩
  · intro h
    rw [decodeTeardown_encode h, Except.ok.injEq, ← take_mod_eq_iff]
    exact ⟨fun he => congrArg TeardownMsg.reason he, fun he => by rw [he]⟩
  · intro h
    rw [decodeNACK_encode h, Except.ok.injEq, ← take_mod_eq_iff]
    exact ⟨fun he => congrArg NACKMsg.missingSeqs he, fun he => by rw [he]⟩

theorem control_round_trip_refusal :
    decodeTeardown (List.replicate 16 0 ++ (toBE 2 2 ++ [110, 111])) = .ok ⟨List.replicate 16 0, [110, 111]⟩ := by
  have htrip := control_round_trip ⟨[], [], []⟩ ⟨[], 0⟩ ⟨[], [], false, []⟩ ⟨List.replicate 16 0, [110, 111]⟩ ⟨[], 0, []⟩
    (List.replicate 16 0 ++ (toBE 2 2 ++ [110, 111]))
  exact (htrip.2.2.2.1 rfl).mpr (by decide)

/-- A refusal with a reason of 64 KiB. -/
def longRefusal : CircuitAck := ⟨List.replicate 16 0, List.replicate 32 0, false, List.replicate 65536 97⟩

/-- Its length field is zero, and it is decoded to a refusal without a reason. -/
theorem longRefusal_reason_lost :
    ∃ bs, longRefusal.encode = .ok bs ∧ decodeCircuitAck bs = .ok { longRefusal with reason := [] } ∧
      longRefusal.reason.length = 65536 := by
  have hlen : longRefusal.reason.length = 65536 := by rw [longRefusal, length_replicate]
  have henc : ∃ bs, longRefusal.encode = .ok bs := by
    unfold CircuitAck.encode
    exact ⟨_, rfl⟩
  obtain ⟨bs, hbs⟩ := henc
  refine ⟨bs, hbs, ?_, hlen⟩
  rw [decodeCircuitAck_encode hbs, hlen, Nat.mod_self, take_zero]

end Control
end MeshDesk.Proxy
