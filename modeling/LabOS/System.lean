import LabOS.Api.App
import LabOS.Library.Runs

/-!
# The system

The state is every row of the database, the file tree, and how many identifiers have
been taken. It changes by one request after another, each at a time of its own and with
whatever becomes of its effects on the disk, and between requests by the guests of the
labs, who may write anything into the workspace and the exports directory of their lab.
-/

namespace LabOS

open Exceptional FileTree

variable {β : Type} [Content β]

structure State (β : Type) where
  store : Store
  tree : FileTree β
  minted : ℕ

/-- What the application is asked to do. A reconciliation pass counts as a request: its
caller opens the session and commits it. -/
inductive Request (β : Type) where
  | createLab (profileName : String) (requesterType : RequesterType)
  | destroyLab (labId : String)
  | createSecretLease (labId secretName : String) (requesterType : RequesterType) (ttlMinutes : ℤ)
  | revokeSecretLease (leaseId actor : String) (reason : Option String)
  | createRun (labId command : String) (requesterType : RequesterType)
  | enqueueSchedulerJob (request : SchedulerJobCreateRequest)
  | dispatchNextSchedulerJob
  | approveRequest (approvalId actor : String) (comment : Option String)
  | denyRequest (approvalId actor : String) (comment : Option String)
  | createSnapshot (labId : String) (runId : Option String) (requesterType : RequesterType)
  | restoreSnapshot (snapshotId labId : String) (requesterType : RequesterType)
  | createExport (labId sourcePath : String) (runId : Option String) (requesterType : RequesterType)
  | releaseExport (exportId : String)
  | denyExport (exportId reason : String)
  | reconcile (inventory : Option (List LabInspection)) (destroys : Bool) (maxDestroyAttempts : ℕ)
      (now : DateTime)

/-- What a request returns: the row its response shows. -/
inductive Response where
  | lab (row : LabRow)
  | lease (row : SecretLeaseRow)
  | run (row : RunRow)
  | job (row : SchedulerJobRow)
  | approval (row : ApprovalRow)
  | snapshot (row : SnapshotRow)
  | export (row : ExportRow)
  | report (report : ReconciliationReport)

/-- The reconciler of a pass. The storage destroyer it may be given is the allocator. -/
def reconciler (env : Environment β) (inventory : Option (List LabInspection)) (destroys : Bool)
    (maxDestroyAttempts : ℕ) : Reconciler β where
  runtimeInventory := inventory
  storageDestroyer := if destroys then some (ManagedStorageAllocator.destroy env.root) else none
  maxDestroyAttempts := maxDestroyAttempts

/-- Answer a request: check what the request model checks, run the handler in a session,
and commit. -/
def respond (env : Environment β) (now : ℤ) : Request β → SessionM β Response
  | .createLab profileName requesterType =>
    Response.lab <$> withSession (App.createLabRecord env now profileName requesterType)
  | .destroyLab labId => Response.lab <$> withSession (App.destroyLab env labId)
  | .createSecretLease labId secretName requesterType ttlMinutes => do
    raiseIf (¬ (1 ≤ ttlMinutes ∧ ttlMinutes ≤ 24 * 60)) .requestValidation
    Response.lease <$> withSession (App.createSecretLease env now labId secretName requesterType ttlMinutes)
  | .revokeSecretLease leaseId actor reason =>
    Response.lease <$> withSession (App.revokeSecretLease now leaseId actor reason)
  | .createRun labId command requesterType =>
    Response.run <$> withSession (App.createRunRecord env now labId command requesterType)
  | .enqueueSchedulerJob request => do
    raiseIf (request.accepted = false) .requestValidation
    Response.job <$> withSession (App.enqueueSchedulerJob env now request)
  | .dispatchNextSchedulerJob => Response.job <$> withSession (App.dispatchNextSchedulerJob env now)
  | .approveRequest approvalId actor comment =>
    Response.approval <$> withSession (App.approveRequest now approvalId actor comment)
  | .denyRequest approvalId actor comment =>
    Response.approval <$> withSession (App.denyRequest now approvalId actor comment)
  | .createSnapshot labId runId requesterType =>
    Response.snapshot <$> withSession (App.createSnapshot env now labId runId requesterType)
  | .restoreSnapshot snapshotId labId requesterType =>
    Response.snapshot <$> withSession (App.restoreSnapshot env now snapshotId labId requesterType)
  | .createExport labId sourcePath runId requesterType =>
    Response.export <$> withSession (App.createExport env now labId sourcePath runId requesterType)
  | .releaseExport exportId => do
    let released ← withSession (App.releaseExport exportId)
    Response.export <$> fromExcept released
  | .denyExport exportId reason => Response.export <$> withSession (App.denyExport exportId reason)
  | .reconcile inventory destroys maxDestroyAttempts now =>
    Response.report <$> withSession
      (ReconciliationService.reconcile (reconciler env inventory destroys maxDestroyAttempts) now)

/-! ### Guests -/

/-- Is the path strictly below a directory? -/
def strictlyBelow (d p : PosixPath) : Bool := d.isPrefixOf p && d ≠ p

/-- The paths the guest of a lab may write: what is in its workspace and its exports. -/
def guestArea (root : PosixPath) (labId : String) (p : PosixPath) : Bool :=
  strictlyBelow (ManagedStorageAllocator.labRoot root labId ++ ["workspace"]) p ||
    strictlyBelow (ManagedStorageAllocator.labRoot root labId ++ ["exports"]) p

/-- The guest of a lab replaces all it may write by `entries`, where that leaves a tree. -/
def guestWrite (root : PosixPath) (labId : String) (entries : List (PosixPath × Entry β))
    (t : FileTree β) : FileTree β :=
  let kept : FileTree β := t.restrict fun x => !guestArea root labId x.1
  let t' : FileTree β := (entries.filter fun x => guestArea root labId x.1).foldl
    (fun t x => FileTree.set t x.1 x.2) kept
  if t'.checkTree then t' else t

/-! ### Steps -/

inductive Action (β : Type) where
  /-- A request at a time, and what becomes of its effects. -/
  | request (r : Request β) (now : ℤ) (fates : List Fate)
  | guest (labId : String) (entries : List (PosixPath × Entry β))

/-- The session a request starts with. -/
def State.session (s : State β) (fates : List Fate) : Session β := ⟨s.store, ⟨s.tree, fates⟩, s.minted⟩

/-- The state a session leaves behind. -/
def Session.state (s : Session β) : State β := ⟨s.store, s.disk.tree, s.minted⟩

/-- How a request ends. -/
def answer (env : Environment β) (s : State β) (r : Request β) (now : ℤ) (fates : List Fate) :
    EStateM.Result Exc (Session β) Response := respond env now r (s.session fates)

/-- Does a request return, and not raise? -/
def Succeeds (env : Environment β) (s : State β) (r : Request β) (now : ℤ) (fates : List Fate) : Prop :=
  ∃ response s', answer env s r now fates = .ok response s'

instance (env : Environment β) (s : State β) (r : Request β) (now : ℤ) (fates : List Fate) :
    Decidable (Succeeds env s r now fates) :=
  match h : answer env s r now fates with
  | .ok response s' => isTrue ⟨response, s', h⟩
  | .error _ _ => isFalse fun ⟨_, _, h'⟩ => by rw [h] at h'; cases h'

/-- The state an action leads to. -/
def step (env : Environment β) (s : State β) : Action β → State β
  | .request r now fates => (endState (answer env s r now fates)).state
  | .guest labId entries => { s with tree := guestWrite env.root labId entries s.tree }

/-- A state from which the system may start: no rows, and nothing below the managed root,
to which no link leads. -/
structure Initial (env : Environment β) (s : State β) : Prop where
  store : s.store = Store.empty
  tree : IsTree s.tree
  noLink : NoLink s.tree env.root
  unused : ∀ p, strictlyBelow env.root p = true → s.tree.lookup p = none

/-- The state a run of actions leads to. -/
abbrev runFrom (env : Environment β) (s : State β) (actions : List (Action β)) : State β :=
  Runs.after (step env) s actions

end LabOS
