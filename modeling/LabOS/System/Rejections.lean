import LabOS.System.Approvals
import LabOS.System.Regions

/-!
# Rejected exports

An export is rejected by `deny_export`, by the denial of its approval, or when that
approval expires. The first of these leaves the approval pending, and neither the
decision on an approval nor its expiry looks at the state of the export, so an export that
was denied can still be approved, and released. Apart from these steps a rejected export stays rejected,
and nothing is written where it would be released to.

## What is proved

* `rejected_for_good` — in every run that does not decide a pending approval of the export
  otherwise, it stays rejected for the same reason and no file is written below its
  released directory.
* `rejected_released` — a run that approves and releases a denied export.
-/

namespace LabOS

open Exceptional FileOps FileTree ManagedStorageAllocator

variable {β : Type} [Content β] {env : Environment β}

/-- A pending approval of an export. -/
def awaits (exportId : String) (a : ApprovalRow) : Bool :=
  a.state = .requested && a.resourceType = "export" && a.resourceId = exportId

/-- The step writes nothing else over the rejection of an export: it does not approve a pending approval of
it, nor deny one with another comment, nor expire one unless that is why the export was rejected. -/
def leavesRejected (exportId : String) (reason : Option String) (s : State β) : Action β → Bool
  | .request (.approveRequest approvalId _ _) now _ =>
    (s.store.approvals.get? approvalId).all fun a => !(awaits exportId a && !App.isExpired now a)
  | .request (.denyRequest approvalId _ comment) now _ =>
    comment.all Strings.isBlank || comment = reason ||
      (s.store.approvals.get? approvalId).all fun a => !(awaits exportId a && !App.isExpired now a)
  | .request (.reconcile _ _ _ at') _ _ =>
    reason = some "approval request expired" ||
      s.store.approvals.rows.all fun a =>
        !(awaits exportId a && ReconciliationService.isStale at'.normalize a)
  | _ => true

/-- The export is of the lab and rejected for the reason. -/
def RejectedFor (labId exportId : String) (reason : Option String) (st : Store) : Prop :=
  ∃ row, st.exports.get? exportId = some row ∧ row.labId = labId ∧ row.state = .rejected ∧
    row.denialReason = reason

theorem awaits_iff {exportId : String} {a : ApprovalRow} :
    awaits exportId a = true ↔ a.state = .requested ∧ a.resourceType = "export" ∧
      a.resourceId = exportId := by
  simp [awaits, and_assoc]

theorem rejectedFor_of_effect {labId exportId : String} {reason : Option String} {s : State β}
    {r : Request β} {now : ℤ} {fates : List Fate} {m m' : ℕ} {st' : Store}
    (hok : leavesRejected exportId reason s (.request r now fates) = true)
    (h : Effect env now r m m' s.store st') (hst : RejectedFor labId exportId reason s.store) :
    RejectedFor labId exportId reason st' := by
  obtain ⟨row, hrow, hlab, hstate, hreason⟩ := hst
  have hid : row.id = exportId := Table.key_of_get? hrow
  obtain ⟨row', hrow', hmove⟩ := exportMove_of_effect h hrow
  refine ⟨row', hrow', (origin_of_exportMove hmove).1.trans hlab, ?_⟩
  cases hmove with
  | same => exact ⟨hstate, hreason⟩
  | released _ _ unrejected => exact absurd hstate unrejected
  | denied _ unrejected => exact absurd hstate unrejected
  | @decided decision approvalId actor comment a request decides type resource =>
    have hawaits : awaits exportId a = true := awaits_iff.mpr ⟨decides.pending, type, resource.trans hid⟩
    cases decision with
    | approved =>
      rw [request] at hok
      simp [leavesRejected, decisionRequest, decides.row, hawaits, decides.unexpired] at hok
    | rejected =>
      rw [request] at hok
      simp only [leavesRejected, decisionRequest, decides.row, decides.commented rfl,
        Option.all_some, hawaits,
        decides.unexpired, Bool.or_eq_true, decide_eq_true_eq] at hok
      rcases hok with (hblank | hsame) | hnone
      · cases hblank
      · exact ⟨rfl, hsame⟩
      · cases hnone
  | swept request swept =>
    rcases swept with rfl | ⟨⟨a, ha, -, requested, stale, type, resource⟩, rfl⟩
    · exact ⟨hstate, hreason⟩
    · -- an approval of the export expires, which gives that as the reason
      obtain ⟨inventory, destroys, maxDestroyAttempts, at', rfl, rfl⟩ := request
      refine ⟨rfl, ?_⟩
      simp only [leavesRejected, Bool.or_eq_true, decide_eq_true_eq] at hok
      rcases hok with hsame | hnone
      · exact hsame.symm
      · have hawaits : awaits exportId a = true := awaits_iff.mpr ⟨requested, type, resource.trans hid⟩
        have hnot := List.all_eq_true.mp hnone a (Table.mem_of_get? ha)
        simp [hawaits, stale] at hnot

/-- The export is rejected for the reason, and of what stands where it would be released to nothing was
written since the tree was `t₀`. -/
structure Withheld (env : Environment β) (t₀ : FileTree β) (labId exportId : String) (reason : Option String)
    (s : State β) : Prop where
  healthy : Healthy env anyContent s
  rejected : RejectedFor labId exportId reason s.store
  unwritten : ∀ q e, s.tree.lookup (inLab env.root labId ("released" :: exportId :: q)) = some e →
    t₀.lookup (inLab env.root labId ("released" :: exportId :: q)) = some e

theorem withheld_of_step {t₀ : FileTree β} {labId exportId : String} {reason : Option String}
    {s : State β} {a : Action β} (hs : Withheld env t₀ labId exportId reason s)
    (hok : leavesRejected exportId reason s a = true) :
    Withheld env t₀ labId exportId reason (step env s a) where
  healthy := healthy_of_step carries_any hs.healthy (brings_any s a)
  rejected := by
    cases a with
    | request r now fates => exact rejectedFor_of_effect hok (effect_of_answer env s r now fates) hs.rejected
    | guest labId entries => exact hs.rejected
  unwritten := by
    intro q e he
    obtain ⟨row, hrow, rfl, hstate, -⟩ := hs.rejected
    obtain rfl : row.id = exportId := Table.key_of_get? hrow
    refine hs.unwritten q e ?_
    by_cases hchanges : Changes env s a (inLab env.root row.labId ("released" :: row.id :: q))
    · rcases changes_artifact hs.healthy.sound hrow (.inr rfl) hchanges with ⟨now, fates, rfl⟩ |
        ⟨-, -, unrejected, -⟩
      · exact removes_of_destroyLab _ e he
      · exact absurd hstate unrejected
    · exact ((keeps_of_step hs.healthy.sound carries_any (brings_any s a) hs.healthy.tidy).2 _
        hchanges).symm.trans he

/-- **A rejected export stays rejected**, for the same reason, and no file is written below its released
directory, in every run from a reachable state that does not decide a pending approval of it otherwise. -/
theorem rejected_for_good (env : Environment β) (s₀ : State β) (h₀ : Initial env s₀)
    (past future : List (Action β)) (row : ExportRow) (hrow : row ∈ (runFrom env s₀ past).store.exports.rows)
    (hstate : row.state = .rejected)
    (hok : Runs.Allowed (step env) (fun s a => leavesRejected row.id row.denialReason s a = true)
      (runFrom env s₀ past) future) :
    (∃ row' ∈ (runFrom env s₀ (past ++ future)).store.exports.rows,
      row'.id = row.id ∧ row'.state = .rejected ∧ row'.denialReason = row.denialReason) ∧
    ∀ q e, (runFrom env s₀ (past ++ future)).tree.lookup
      (inLab env.root row.labId ("released" :: row.id :: q)) = some e →
      (runFrom env s₀ past).tree.lookup (inLab env.root row.labId ("released" :: row.id :: q)) = some e := by
  have hfirst : Withheld env (runFrom env s₀ past).tree row.labId row.id row.denialReason
      (runFrom env s₀ past) :=
    ⟨healthy_of_actions h₀ past, ⟨row, Table.get?_of_mem hrow, rfl, hstate, rfl⟩, fun _ _ he => he⟩
  have hlast : Withheld env (runFrom env s₀ past).tree row.labId row.id row.denialReason
      (runFrom env s₀ (past ++ future)) := by
    rw [show runFrom env s₀ (past ++ future) =
      runFrom env (runFrom env s₀ past) future from Runs.after_append ..]
    exact Runs.after_keeps_of (I := Withheld env (runFrom env s₀ past).tree row.labId row.id row.denialReason)
      (fun _ _ => withheld_of_step) hfirst hok
  obtain ⟨row', hrow', -, hstate', hreason'⟩ := hlast.rejected
  exact ⟨⟨row', Table.mem_of_get? hrow', Table.key_of_get? hrow', hstate', hreason'⟩, hlast.unwritten⟩

/-- An export of a profile that demands an approval is staged and denied. -/
def denyRun : List (Action Blob) :=
  [.request (.createLab "model-local" .human) 0 [],
   .guest "a" [(["srv", "labs", "a", "exports", "r.txt"], .file (.data "a" ['x']))],
   .request (.createExport "a" "/lab/exports/r.txt" none .human) 1 [],
   .request (.denyExport "aa" "not needed") 2 []]

/-- It is not released, and its approval does not expire. -/
def waitRun : List (Action Blob) :=
  [.request (.releaseExport "aa") 3 [], .request (.reconcile none true 3 (.utc 4)) 4 []]

/-- Its approval is granted, and it is released. -/
def grantRun : List (Action Blob) :=
  [.request (.approveRequest "aaa" "ops" none) 3 [], .request (.releaseExport "aa") 4 []]

/-- A denied export that is not approved stays denied, whoever tries to release it. -/
theorem rejected_for_good_denyRun :
    ∃ row ∈ (runFrom (symbolic defaultProfiles) emptyState (denyRun ++ waitRun)).store.exports.rows,
      row.state = .rejected ∧ row.denialReason = some "not needed" := by
  have hbefore : ∃ row ∈ (runFrom (symbolic defaultProfiles) emptyState denyRun).store.exports.rows,
      row.state = .rejected ∧ row.id = "aa" ∧ row.denialReason = some "not needed" := by
    decide +kernel
  obtain ⟨row, hrow, hstate, hid, hreason⟩ := hbefore
  have hok : Runs.Allowed (step (symbolic defaultProfiles))
      (fun s a => leavesRejected row.id row.denialReason s a = true)
        (runFrom (symbolic defaultProfiles) emptyState denyRun) waitRun := by
    rw [hid, hreason]
    decide +kernel
  have hstays := rejected_for_good (symbolic defaultProfiles) emptyState (initial_emptyState _) denyRun _
    row hrow hstate hok
  obtain ⟨row', hrow', -, hstate', hreason'⟩ := hstays.1
  exact ⟨row', hrow', hstate', hreason'.trans hreason⟩

/-- **Not so when its pending approval is granted**: a denied export is approved, and released. -/
theorem rejected_released :
    (∃ row ∈ (runFrom (symbolic defaultProfiles) emptyState denyRun).store.exports.rows,
      row.id = "aa" ∧ row.labId = "a" ∧ row.state = .rejected) ∧
    (∃ row ∈ (runFrom (symbolic defaultProfiles) emptyState (denyRun ++ grantRun)).store.exports.rows,
      row.id = "aa" ∧ row.state = .released) ∧
    ((runFrom (symbolic defaultProfiles) emptyState denyRun).tree.lookup
      (inLab ["srv"] "a" ["released", "aa", "r.txt"])).isNone = true ∧
    ((runFrom (symbolic defaultProfiles) emptyState (denyRun ++ grantRun)).tree.lookup
      (inLab ["srv"] "a" ["released", "aa", "r.txt"])).isSome = true := by
  decide +kernel

end LabOS
