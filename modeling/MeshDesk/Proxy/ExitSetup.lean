import Mathlib.Data.FinEnum
import MeshDesk.Proxy.ControlMessages

/-! What the exit does with a setup message between its critical sections: the port filter, the key
agreement and the connection to the target. -/
namespace MeshDesk.Proxy
open Lib Control

def goString (s : String) : GoString := s.toUTF8.data.toList

structure PortPolicy where
  allowAllPorts : Bool
  allowedPorts : List Int64
  deriving DecidableEq, Repr

inductive PortError where
  | address (addr err : GoString)
  | badPort (portStr addr : GoString)
  | portNumber (port : Int64)
  | notAllowed (port : Int64) (allowed : List Int64)
  deriving DecidableEq, Repr

def PortError.text (quote : GoString → GoString) : PortError → GoString
  | .address addr err => goString "invalid target address " ++ quote addr ++ goString ": " ++ err
  | .badPort portStr addr => goString "invalid port " ++ quote portStr ++ goString " in address " ++ quote addr
  | .portNumber port => goString s!"invalid port number {port}"
  | .notAllowed port allowed =>
    goString s!"port {port} is not in the allowed list [" ++ goString (" ".intercalate (allowed.map toString)) ++
      goString "]"

def IsDigit (c : UInt8) : Prop := 48 ≤ c ∧ c ≤ 57

instance (c : UInt8) : Decidable (IsDigit c) := inferInstanceAs (Decidable (_ ∧ _))

/-- The digits are accumulated in a machine integer. The source ranges over runes; no byte of a longer rune is a
digit, so the bytes decide. -/
def scanPort : Int64 → GoString → Option Int64
  | port, [] => some port
  | port, c :: cs => if IsDigit c then scanPort (port * 10 + Int64.ofNat (c.toNat - 48)) cs else none

def validatePort (cfg : PortPolicy) (splitHostPort : GoString → Except GoString (GoString × GoString))
    (addr : GoString) : Except PortError Unit :=
  if cfg.allowAllPorts then .ok ()
  else
    match splitHostPort addr with
    | .error err => .error (.address addr err)
    | .ok (_, portStr) =>
      match scanPort 0 portStr with
      | none => .error (.badPort portStr addr)
      | some port =>
        if port ≤ 0 ∨ 65535 < port then .error (.portNumber port)
        else if cfg.allowedPorts.length = 0 then .ok ()
        else if port ∈ cfg.allowedPorts then .ok ()
        else .error (.notAllowed port cfg.allowedPorts)

def decimalValue (s : GoString) : ℕ := s.foldl (fun n c => n * 10 + (c.toNat - 48)) 0

theorem scanPort_ofNat (s : GoString) (n : ℕ) :
    scanPort (Int64.ofNat n) s =
      if ∀ c ∈ s, IsDigit c then some (Int64.ofNat (s.foldl (fun n c => n * 10 + (c.toNat - 48)) n)) else none := by
  induction s generalizing n with
  | nil => simp [scanPort]
  | cons c s ih =>
    unfold scanPort
    by_cases hc : IsDigit c
    · have hstep : Int64.ofNat n * 10 + Int64.ofNat (c.toNat - 48) = Int64.ofNat (n * 10 + (c.toNat - 48)) := by
        rw [Int64.ofNat_add, Int64.ofNat_mul]
        rfl
      rw [if_pos hc, hstep, ih]
      simp only [List.forall_mem_cons, hc, true_and, List.foldl_cons]
    · rw [if_neg hc, if_neg (fun h => hc (h c List.mem_cons_self))]

theorem ofNat_port_iff (v : ℕ) :
    ¬ (Int64.ofNat v ≤ 0 ∨ 65535 < Int64.ofNat v) ↔ 1 ≤ v % 2 ^ 64 ∧ v % 2 ^ 64 ≤ 65535 := by
  have hint : (Int64.ofNat v).toInt = (v : ℤ).bmod (2 ^ 64) := Int64.toInt_ofNat
  have hzero : (0 : Int64).toInt = 0 := rfl
  have hmax : (65535 : Int64).toInt = 65535 := rfl
  rw [Int64.le_iff_toInt_le, Int64.lt_iff_toInt_lt, hint, hzero, hmax, Int.bmod_def]
  split_ifs <;> omega

theorem ofNat_eq_iff {v : ℕ} (hv : v % 2 ^ 64 ≤ 65535) (port : Int64) :
    Int64.ofNat v = port ↔ port.toInt = (v % 2 ^ 64 : ℕ) := by
  have hint : (Int64.ofNat v).toInt = (v : ℤ).bmod (2 ^ 64) := Int64.toInt_ofNat
  have hmod : (v : ℤ).bmod (2 ^ 64) = (v % 2 ^ 64 : ℕ) := by
    rw [Int.bmod_def]
    split_ifs <;> omega
  rw [← Int64.toInt_inj, hint, hmod]
  exact eq_comm

theorem validatePort_ok_iff {cfg : PortPolicy} {splitHostPort : GoString → Except GoString (GoString × GoString)}
    {addr host portStr : GoString} (hall : cfg.allowAllPorts = false) (hports : cfg.allowedPorts ≠ [])
    (hsplit : splitHostPort addr = .ok (host, portStr)) :
    validatePort cfg splitHostPort addr = .ok () ↔
      (∀ c ∈ portStr, IsDigit c) ∧ 1 ≤ decimalValue portStr % 2 ^ 64 ∧ decimalValue portStr % 2 ^ 64 ≤ 65535 ∧
        ∃ allowed ∈ cfg.allowedPorts, allowed.toInt = (decimalValue portStr % 2 ^ 64 : ℕ) := by
  have hscan : scanPort 0 portStr =
      if ∀ c ∈ portStr, IsDigit c then some (Int64.ofNat (decimalValue portStr)) else none := scanPort_ofNat portStr 0
  have hlen : cfg.allowedPorts.length ≠ 0 := fun h => hports (List.length_eq_zero_iff.mp h)
  unfold validatePort
  rw [hall, hsplit]
  dsimp only
  rw [if_neg Bool.false_ne_true, hscan]
  by_cases hdigits : ∀ c ∈ portStr, IsDigit c
  · rw [if_pos hdigits]
    dsimp only
    rw [if_neg hlen]
    have hrange := ofNat_port_iff (decimalValue portStr)
    by_cases hport : Int64.ofNat (decimalValue portStr) ≤ 0 ∨ 65535 < Int64.ofNat (decimalValue portStr)
    · rw [if_pos hport]
      refine ⟨nofun, fun h => ?_⟩
      exact absurd hport (hrange.mpr ⟨h.2.1, h.2.2.1⟩)
    · have hin := hrange.mp hport
      have hmem : Int64.ofNat (decimalValue portStr) ∈ cfg.allowedPorts ↔
          ∃ allowed ∈ cfg.allowedPorts, allowed.toInt = (decimalValue portStr % 2 ^ 64 : ℕ) := by
        simp only [← ofNat_eq_iff hin.2, exists_eq_right']
      rw [← hmem]
      split_ifs with h
      · exact ⟨fun _ => ⟨hdigits, hin.1, hin.2, h⟩, fun _ => rfl⟩
      · exact ⟨nofun, fun h' => absurd h'.2.2.2 h⟩
  · rw [if_neg hdigits]
    exact ⟨nofun, fun h => absurd h.1 hdigits⟩

/-- The port filter accepts exactly the allowed ports in decimal, as long as the number fits 64 bits. -/
theorem validatePort_iff_allowed (cfg : PortPolicy)
    (splitHostPort : GoString → Except GoString (GoString × GoString)) (addr host portStr : GoString)
    (hall : cfg.allowAllPorts = false) (hports : cfg.allowedPorts ≠ [])
    (hsplit : splitHostPort addr = .ok (host, portStr))
    (hfits : (∀ c ∈ portStr, IsDigit c) → decimalValue portStr < 2 ^ 64) :
    validatePort cfg splitHostPort addr = .ok () ↔
      (∀ c ∈ portStr, IsDigit c) ∧ 1 ≤ decimalValue portStr ∧ decimalValue portStr ≤ 65535 ∧
        ∃ allowed ∈ cfg.allowedPorts, allowed.toInt = decimalValue portStr := by
  rw [validatePort_ok_iff hall hports hsplit]
  refine and_congr_right fun hdigits => ?_
  rw [Nat.mod_eq_of_lt (hfits hdigits)]

def webPorts : PortPolicy := ⟨false, [80, 443]⟩

def portOnly (addr : GoString) : Except GoString (GoString × GoString) := .ok ([], addr)

theorem validatePort_iff_allowed_443 : validatePort webPorts portOnly [52, 52, 51] = .ok () := by
  have hvalue : decimalValue [52, 52, 51] = 443 := rfl
  refine (validatePort_iff_allowed webPorts portOnly [52, 52, 51] [] [52, 52, 51] rfl (by decide) rfl ?_).mpr ?_
  · intro _
    omega
  · exact ⟨by simp [IsDigit], by omega, by omega, 443, by decide, by rw [hvalue]; rfl⟩

def wrappedPort : GoString := [49, 56, 52, 52, 54, 55, 52, 52, 48, 55, 51, 55, 48, 57, 53, 53, 49, 54, 57, 54]

/-- The accumulator wraps around to an allowed port. -/
theorem validatePort_wraps :
    decimalValue wrappedPort = 2 ^ 64 + 80 ∧ validatePort webPorts portOnly wrappedPort = .ok () := by
  exact ⟨by simp [decimalValue, wrappedPort], by decide⟩

/-! ### Between the sections of a setup -/

structure ECDHKeyPair where
  privateKey : Bytes
  publicKey : Bytes
  publicKey_length : publicKey.length = 32

/-- The outcomes of everything outside the exit that a setup meets; errors are given by their texts. -/
structure SetupEnv where
  splitHostPort : GoString → Except GoString (GoString × GoString)
  quote : GoString → GoString
  generateECDHKeyPair : Except GoString ECDHKeyPair
  deriveSharedKey : Bytes → Bytes → Except GoString Bytes
  dial : GoString → Except GoString Unit

inductive SetupError where
  | circuitClosed
  | circuitIDSize
  | ecdhKeySize
  | targetRequired
  | alreadyExists (circuitID : Bytes)
  | generateKeys (err : GoString)
  | deriveKey (err : GoString)
  deriving DecidableEq, Repr

def SetupError.text (render : Bytes → GoString) : SetupError → GoString
  | .circuitClosed => goString "circuit is closed"
  | .circuitIDSize => goString "circuit ID must be 16 bytes"
  | .ecdhKeySize => goString "ECDH public key must be 32 bytes"
  | .targetRequired => goString "target address is required"
  | .alreadyExists circuitID => goString "circuit " ++ render circuitID ++ goString " already exists"
  | .generateKeys err => goString "generate ECDH key pair: " ++ err
  | .deriveKey err => goString "derive shared key: " ++ err

def checkSetup (setup : CircuitSetup) : Except SetupError Unit :=
  if setup.circuitID.length ≠ circuitIDSize then .error .circuitIDSize
  else if setup.ecdhPubKey.length ≠ 32 then .error .ecdhKeySize
  else if setup.targetAddr = [] then .error .targetRequired
  else .ok ()

/-- A setup is refused with an acknowledgement or its circuit can be registered. -/
inductive Prepared where
  | refused (ack : Control.CircuitAck)
  | ready (keys : ECDHKeyPair) (e2eKey : Bytes)

/-- A refusal carries no key. -/
def refuse (setup : CircuitSetup) (reason : GoString) : Control.CircuitAck := ⟨setup.circuitID, [], false, reason⟩

def prepareCircuit (ports : PortPolicy) (env : SetupEnv) (setup : CircuitSetup) : Except SetupError Prepared :=
  match validatePort ports env.splitHostPort setup.targetAddr with
  | .error e => .ok (.refused (refuse setup (e.text env.quote)))
  | .ok () =>
    match env.generateECDHKeyPair with
    | .error err => .error (.generateKeys err)
    | .ok keys =>
      match env.deriveSharedKey keys.privateKey setup.ecdhPubKey with
      | .error err => .error (.deriveKey err)
      | .ok e2eKey =>
        match env.dial setup.targetAddr with
        | .error err => .ok (.refused (refuse setup (goString "dial target: " ++ err)))
        | .ok () => .ok (.ready keys e2eKey)

end MeshDesk.Proxy
