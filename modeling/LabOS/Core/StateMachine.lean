import LabOS.Core.Enums

/-!
# Declared lifecycles

The transition tables the repository declares for its resources: from each state,
the states it may change to.
-/

namespace LabOS

/-- `LAB_TRANSITIONS`. -/
def labTransitions : LabState → List LabState
  | .requested => [.pendingApproval, .approved, .failed]
  | .pendingApproval => [.approved, .failed]
  | .approved => [.provisioning, .failed, .destroying]
  | .provisioning => [.running, .failed, .destroying]
  | .running => [.stopped, .failed, .destroying]
  | .stopped => [.running, .destroying, .archived]
  | .failed => [.destroying, .archived]
  | .destroying => [.destroyed]
  | .destroyed => []
  | .archived => []

/-- `RUN_TRANSITIONS`. -/
def runTransitions : RunState → List RunState
  | .queued => [.starting, .cancelled]
  | .starting => [.running, .failed, .cancelled]
  | .running => [.completed, .failed, .cancelled, .timedOut]
  | .completed => []
  | .failed => []
  | .cancelled => []
  | .timedOut => []

/-- `APPROVAL_TRANSITIONS`. -/
def approvalTransitions : ApprovalState → List ApprovalState
  | .requested => [.approved, .rejected, .expired]
  | .approved => []
  | .rejected => []
  | .expired => []

/-- `EXPORT_TRANSITIONS`. -/
def exportTransitions : ExportState → List ExportState
  | .requested => [.quarantined, .rejected]
  | .quarantined => [.approved, .rejected]
  | .approved => [.released]
  | .released => []
  | .rejected => []

/-- `SNAPSHOT_TRANSITIONS`. -/
def snapshotTransitions : SnapshotState → List SnapshotState
  | .pending => [.created, .failed]
  | .created => [.restored]
  | .failed => []
  | .restored => []

end LabOS
