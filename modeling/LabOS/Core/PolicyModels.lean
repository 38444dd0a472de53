import LabOS.Core.Enums
import Mathlib.Data.Int.Order.Basic

/-!
# Profiles

A profile fixes what a lab of its kind may do. `validate` is what the model class
checks whenever a profile is built, the bounds of its fields and
`validate_combinations`; a `Profile` carries the proof that it passed, so that
tables hold no other.
-/

namespace LabOS

inductive RuntimeClass where
  | container
  | microvm
  deriving DecidableEq, Repr

def RuntimeClass.value : RuntimeClass → String
  | .container => "container"
  | .microvm => "microvm"

inductive NetworkMode where
  | deny
  | restricted
  | allowlist
  deriving DecidableEq, Repr

def NetworkMode.value : NetworkMode → String
  | .deny => "deny"
  | .restricted => "restricted"
  | .allowlist => "allowlist"

inductive FilesystemMode where
  | managed
  | readOnlyRoot
  deriving DecidableEq, Repr

def FilesystemMode.value : FilesystemMode → String
  | .managed => "managed"
  | .readOnlyRoot => "read-only-root"

inductive PersistenceMode where
  | ephemeral
  | persistent
  deriving DecidableEq, Repr

def PersistenceMode.value : PersistenceMode → String
  | .ephemeral => "ephemeral"
  | .persistent => "persistent"

/-- `PersistenceMode(value)`, where it is one. -/
def PersistenceMode.ofValue : String → Option PersistenceMode
  | "ephemeral" => some .ephemeral
  | "persistent" => some .persistent
  | _ => none

inductive ExportMode where
  | request
  | approval
  deriving DecidableEq, Repr

def ExportMode.value : ExportMode → String
  | .request => "request"
  | .approval => "approval"

inductive RiskClass where
  | low
  | medium
  | high
  | critical
  deriving DecidableEq, Repr

inductive RequesterType where
  | human
  | agent
  | scheduler
  deriving DecidableEq, Repr

def RequesterType.value : RequesterType → String
  | .human => "human"
  | .agent => "agent"
  | .scheduler => "scheduler"

/-- `RequesterType(value)`. -/
def RequesterType.ofValue : String → Option RequesterType
  | "human" => some .human
  | "agent" => some .agent
  | "scheduler" => some .scheduler
  | _ => none

/-- The actor an audit event of a requester names. -/
def RequesterType.actorType : RequesterType → ActorType
  | .human => .human
  | .agent => .agent
  | .scheduler => .scheduler

/-- The fields of a profile. -/
structure ProfileFields where
  name : String
  runtimeClass : RuntimeClass
  riskClass : RiskClass
  networkMode : NetworkMode
  filesystemMode : FilesystemMode
  persistenceMode : PersistenceMode
  exportMode : ExportMode
  cpuLimit : ℤ
  memoryMb : ℤ
  diskMb : ℤ
  maxRuntimeMinutes : ℤ
  approvalOnStart : Bool := false
  approvalOnExport : Bool := false
  auditLevel : AuditLevel := .basic
  retentionDays : ℤ
  allowHostMounts : Bool := false
  allowedSecretNames : List String := []
  deriving DecidableEq, Repr

/-- `risk_class in {HIGH, CRITICAL}`. -/
def RiskClass.isHigh (r : RiskClass) : Bool := r = .high || r = .critical

/-- `validate_combinations`: what keeps a profile from being built. -/
def ProfileFields.validateCombinations (p : ProfileFields) : Except String Unit := do
  if p.runtimeClass = .microvm then
    if p.networkMode ≠ .deny then throw "microVM profiles must deny network egress"
    if p.exportMode ≠ .approval then throw "microVM profiles must require approval-based exports"
    if p.approvalOnStart = false then throw "microVM profiles must require approval on start"
    if p.allowHostMounts then throw "microVM profiles cannot allow host mounts"
  if p.riskClass.isHigh && !p.approvalOnExport then throw "high-risk profiles must require export approval"
  if p.riskClass = .low ∧ p.runtimeClass = .microvm then
    throw "low-risk profiles cannot require a microVM runtime"

/-- The bounds of the fields. -/
def ProfileFields.inBounds (p : ProfileFields) : Bool :=
  1 ≤ p.cpuLimit && 256 ≤ p.memoryMb && 1024 ≤ p.diskMb && 1 ≤ p.maxRuntimeMinutes && 1 ≤ p.retentionDays

/-- Did the validator let the fields pass? -/
def ProfileFields.passes (p : ProfileFields) : Bool :=
  p.inBounds && match p.validateCombinations with
    | .ok _ => true
    | .error _ => false

/-- A profile: fields that passed the validator when it was built. -/
structure Profile extends ProfileFields where
  valid : toProfileFields.passes = true

end LabOS
