import MeshDesk.Lib.Paths
import MeshDesk.Proxy.Chunk
import Mathlib.Data.List.Infix

/-! The capability engine: what a peer may do, and on which resources. -/
namespace MeshDesk.Auth
open Proxy (GoString Time)
open Lib (Map)

inductive Capability where
  | sshProxy
  | fileTransfer
  | monitorRead
  | monitorWrite
  | serviceManage
  | binaryUpgrade
  | relay
  | exit
  | other (name : GoString)
  deriving DecidableEq, Repr

/-- Empty scopes and paths do not restrict. -/
structure PeerGrant where
  capabilities : List Capability
  serviceScopes : List GoString
  fileTransferPaths : List GoString
  monitorScopes : List GoString
  deriving DecidableEq, Repr

inductive AuthReason where
  | explicitAllow
  | noCapability
  | revoked
  | pathDenied
  | serviceNotScoped
  | scopeDenied
  deriving DecidableEq, Repr

structure AuthResult where
  allowed : Bool
  reason : AuthReason
  capability : Capability
  resource : GoString
  sourcePeer : GoString
  sourceIP : GoString
  timestamp : Time
  deriving DecidableEq, Repr

structure CapabilityEngine where
  grants : Map GoString PeerGrant
  revoked : List GoString

/-- Both paths are cleaned. A resource with two dots in a row anywhere in it is refused. -/
def pathWithinPrefix (resource root : GoString) : Bool :=
  decide (¬ Lib.Paths.parent <:+: Lib.Paths.clean resource) &&
    Lib.Paths.within (Lib.Paths.clean resource) (Lib.Paths.clean root)

def PeerGrant.checkResource (g : PeerGrant) (capability : Capability) (resource : GoString) : Bool × AuthReason :=
  match capability with
  | .serviceManage =>
    if g.serviceScopes ≠ [] ∧ resource ∉ g.serviceScopes then (false, .serviceNotScoped) else (true, .explicitAllow)
  | .fileTransfer =>
    if g.fileTransferPaths ≠ [] ∧ ¬ g.fileTransferPaths.any (pathWithinPrefix resource) then (false, .pathDenied)
    else (true, .explicitAllow)
  | .monitorRead | .monitorWrite =>
    if g.monitorScopes ≠ [] ∧ resource ≠ [] ∧ resource ∉ g.monitorScopes then (false, .scopeDenied)
    else (true, .explicitAllow)
  | _ => (true, .explicitAllow)

namespace CapabilityEngine

variable (e : CapabilityEngine) (sourcePeer : GoString) (capability : Capability) (resource : GoString)

def decision : Bool × AuthReason :=
  if sourcePeer ∈ e.revoked then (false, .revoked)
  else match e.grants.lookup sourcePeer with
    | none => (false, .noCapability)
    | some grant =>
      if capability ∉ grant.capabilities then (false, .noCapability) else grant.checkResource capability resource

def authorizeWithSourceIP (sourceIP : GoString) (now : Time) : AuthResult :=
  ⟨(e.decision sourcePeer capability resource).1, (e.decision sourcePeer capability resource).2, capability, resource,
    sourcePeer, sourceIP, now⟩

def authorize (now : Time) : AuthResult := e.authorizeWithSourceIP sourcePeer capability resource [] now

theorem authorize_fileTransfer_allowed (peer resource resource' : GoString) (now : Time)
    (h : ∀ g, e.grants.lookup peer = some g → g.fileTransferPaths = []) :
    (e.authorize peer .fileTransfer resource now).allowed = (e.authorize peer .fileTransfer resource' now).allowed := by
  change (e.decision peer .fileTransfer resource).1 = (e.decision peer .fileTransfer resource').1
  unfold decision
  cases hg : e.grants.lookup peer with
  | none => rfl
  | some g => simp [PeerGrant.checkResource, h g hg]

end CapabilityEngine

/-- `AuthorizeFileTransfer` asks for the empty resource. -/
structure TransferAuthChecker where
  engine : Option CapabilityEngine

def TransferAuthChecker.authorizeFileTransfer (c : TransferAuthChecker) (sourcePeer : GoString) (now : Time) : Bool :=
  match c.engine with
  | none => false
  | some e => (e.authorize sourcePeer .fileTransfer [] now).allowed

/-! ### Path scopes -/

open Lib.Paths (isAbs parent clean elements)

/-- The resource lies in the directory, element by element. -/
def Contained (resource root : GoString) : Prop :=
  isAbs resource = isAbs root ∧ parent ∉ elements resource ∧ elements root <+: elements resource

end MeshDesk.Auth
