import Mathlib.Init

/-!
# Enumerations

The state and actor enumerations of the control plane, each with its `value`, the
text the API and the audit events show. The database columns that hold such a value
hold the constructor here.
-/

namespace LabOS

inductive LabState where
  | requested
  | pendingApproval
  | approved
  | provisioning
  | running
  | stopped
  | failed
  | destroying
  | destroyed
  | archived
  deriving DecidableEq, Repr

def LabState.value : LabState → String
  | .requested => "requested"
  | .pendingApproval => "pending_approval"
  | .approved => "approved"
  | .provisioning => "provisioning"
  | .running => "running"
  | .stopped => "stopped"
  | .failed => "failed"
  | .destroying => "destroying"
  | .destroyed => "destroyed"
  | .archived => "archived"

inductive RunState where
  | queued
  | starting
  | running
  | completed
  | failed
  | cancelled
  | timedOut
  deriving DecidableEq, Repr

def RunState.value : RunState → String
  | .queued => "queued"
  | .starting => "starting"
  | .running => "running"
  | .completed => "completed"
  | .failed => "failed"
  | .cancelled => "cancelled"
  | .timedOut => "timed_out"

inductive ApprovalState where
  | requested
  | approved
  | rejected
  | expired
  deriving DecidableEq, Repr

inductive ExportState where
  | requested
  | quarantined
  | approved
  | released
  | rejected
  deriving DecidableEq, Repr

inductive SnapshotState where
  | pending
  | created
  | failed
  | restored
  deriving DecidableEq, Repr

def SnapshotState.value : SnapshotState → String
  | .pending => "pending"
  | .created => "created"
  | .failed => "failed"
  | .restored => "restored"

inductive SchedulerAction where
  | createLab
  | startRun
  deriving DecidableEq, Repr

def SchedulerAction.value : SchedulerAction → String
  | .createLab => "create_lab"
  | .startRun => "start_run"

inductive SchedulerJobState where
  | queued
  | dispatched
  | succeeded
  | failed
  deriving DecidableEq, Repr

def SchedulerJobState.value : SchedulerJobState → String
  | .queued => "queued"
  | .dispatched => "dispatched"
  | .succeeded => "succeeded"
  | .failed => "failed"

inductive ActorType where
  | human
  | agent
  | scheduler
  | system
  deriving DecidableEq, Repr

inductive AuditLevel where
  | basic
  | detailed
  | forensic
  deriving DecidableEq, Repr

end LabOS
