import LabOS.System.Moves
import LabOS.System.Symbolic

/-!
# The approval gate

A lab whose profile demands an approval becomes approved, and an export whose profile
demands one becomes approved or released, only on a granted approval for it. What
carries this over all the operations that write an export is `Gated`: an export that
demands an approval has a granted one, or is rejected, or is in quarantine and still
waiting.

## What is proved

* `approval_gate` — in every state of every run, what is approved or released though an
  approval was demanded has one.
* `approval_mode_gate` — a profile whose `export_mode` is `approval` gates releases as
  long as it demands an approval on export too; `approval_mode_ungated` is a run where it
  does not.
-/

namespace LabOS

open Exceptional

variable {β : Type} [Content β] {env : Environment β}

/-- An approval for the resource has been granted. -/
def Granted (st : Store) (resourceType resourceId : String) : Prop :=
  ∃ a ∈ st.approvals.rows,
    a.resourceType = resourceType ∧ a.resourceId = resourceId ∧ a.state = .approved ∧ a.approved = true

instance (st : Store) (resourceType resourceId : String) :
    Decidable (Granted st resourceType resourceId) := by
  unfold Granted
  infer_instance

/-- The profile of a lab. -/
def labProfile? (env : Environment β) (st : Store) (labId : String) : Option Profile :=
  (st.labs.get? labId).bind fun lab => PolicyEngine.profile? env.profiles lab.profileName

/-- Does `validate_request` demand an approval for the lab a request creates? -/
def demandedAtCreation (env : Environment β) (now : ℤ) (st : Store) (r : Request β) : Bool :=
  match creation now st r with
  | some (profileName, requester) =>
    match PolicyEngine.validateRequest env.profiles profileName [] requester.value with
    | .ok decision => decision.approvalRequired
    | .error _ => false
  | none => false

/-! ### What stays -/

section Effects

variable {now : ℤ} {r : Request β} {m m' : ℕ} {st st' : Store}

/-- A granted approval stays granted. -/
theorem granted_of_effect {resourceType resourceId : String} (h : Effect env now r m m' st st')
    (hg : Granted st resourceType resourceId) : Granted st' resourceType resourceId := by
  obtain ⟨a, ha, type, resource, state, approved⟩ := hg
  obtain ⟨a', ha', hmove⟩ := approvalMove_of_effect h (Table.get?_of_mem ha)
  have heq : a' = a := by
    cases hmove with
    | same => rfl
    | decided _ decides =>
      exact absurd (decides.pending.symm.trans state) (by decide)
    | swept _ swept =>
      rcases swept with rfl | ⟨requested, -⟩
      · rfl
      · exact absurd (requested.symm.trans state) (by decide)
  exact ⟨a, heq ▸ Table.mem_of_get? ha', type, resource, state, approved⟩

/-- An approval that has been decided for is granted. -/
theorem granted_of_stored {actor : String} {comment : Option String} {a : ApprovalRow} {resourceType : String}
    (type : a.resourceType = resourceType)
    (h : st.approvals.get? a.id = some (App.decidedApproval now .approved actor comment a)) :
    Granted st resourceType a.resourceId :=
  ⟨_, Table.mem_of_get? h, type, rfl, rfl, rfl⟩

/-- A lab keeps its profile. -/
theorem labProfile_of_effect {labId : String} (h : Effect env now r m m' st st')
    (hlab : ∃ lab, st.labs.get? labId = some lab) :
    (∃ lab, st'.labs.get? labId = some lab) ∧ labProfile? env st' labId = labProfile? env st labId := by
  obtain ⟨lab, hlab⟩ := hlab
  obtain ⟨lab', hlab', hmove⟩ := labMove_of_effect h hlab
  have hname : lab'.profileName = lab.profileName := by
    cases hmove with
    | swept _ swept => exact swept.profile
    | _ => rfl
  refine ⟨⟨lab', hlab'⟩, ?_⟩
  simp [labProfile?, hlab, hlab', hname]

end Effects

/-! ### Exports -/

/-- An export of a lab that exists; when the lab's profile demands an approval, it has a granted
one, or is rejected, or waits for one in quarantine. -/
structure Gated (env : Environment β) (st : Store) (row : ExportRow) : Prop where
  lab : ∃ lab, st.labs.get? row.labId = some lab
  gate : ∀ profile, labProfile? env st row.labId = some profile → profile.approvalOnExport = true →
    Granted st "export" row.id ∨ row.state = .rejected ∨ row.state = .quarantined ∧
      row.approvalRequired = true

/-- Every export is gated. -/
def AllGated (env : Environment β) (st : Store) : Prop :=
  ∀ id row, st.exports.get? id = some row → Gated env st row

theorem allGated_empty : AllGated env Store.empty := by
  intro id row h
  cases h

/-- **What answering a request does keeps every export gated.** -/
theorem allGated_of_effect {now : ℤ} {r : Request β} {m m' : ℕ} {st st' : Store}
    (h : Effect env now r m m' st st') (hst : AllGated env st) : AllGated env st' := by
  intro id row' hrow'
  rcases export_of_effect h hrow' with ⟨row, hrow⟩ | ⟨labId, sourcePath, runId, requester, rfl, new⟩
  · obtain ⟨row₁, hrow₁, hmove⟩ := exportMove_of_effect h hrow
    obtain rfl := Option.some.inj (hrow₁.symm.trans hrow')
    obtain ⟨hlab, hgate⟩ := hst id row hrow
    have hkept := labProfile_of_effect h hlab
    cases hmove with
    | same =>
      refine ⟨hkept.1, fun profile hp hdemands => ?_⟩
      exact (hgate profile (hkept.2 ▸ hp) hdemands).imp_left (granted_of_effect h)
    | @decided decision _ _ _ a _ _ type resource stored =>
      cases decision with
      | approved =>
        exact ⟨hkept.1, fun _ _ _ => .inl (resource ▸ granted_of_stored type stored)⟩
      | rejected => exact ⟨hkept.1, fun _ _ _ => .inr (.inl rfl)⟩
    | released _ _ unrejected _ cleared =>
      refine ⟨hkept.1, fun profile hp hdemands => ?_⟩
      rcases hgate profile (hkept.2 ▸ hp) hdemands with hg | hrejected | ⟨-, hwaits⟩
      · exact .inl (granted_of_effect h hg)
      · exact absurd hrejected unrejected
      · exact absurd (hwaits.symm.trans cleared) (by decide)
    | denied => exact ⟨hkept.1, fun _ _ _ => .inr (.inl rfl)⟩
    | swept _ swept =>
      rcases swept with rfl | ⟨-, rfl⟩
      · refine ⟨hkept.1, fun profile hp hdemands => ?_⟩
        exact (hgate profile (hkept.2 ▸ hp) hdemands).imp_left (granted_of_effect h)
      · exact ⟨hkept.1, fun _ _ _ => .inr (.inl rfl)⟩
  · -- a new export asks for an approval as its lab's profile does
    obtain ⟨lab, profile, hlab, hprofile, happroval⟩ := new.lab
    have hlab' := labProfile_of_effect h ⟨lab, hlab⟩
    rw [← new.labId] at hlab'
    refine ⟨hlab'.1, fun profile' hp hdemands => .inr (.inr ⟨new.state.1, ?_⟩)⟩
    have hbefore : labProfile? env st row'.labId =
        some profile := by simp [labProfile?, new.labId, hlab, hprofile]
    obtain rfl := Option.some.inj (hbefore.symm.trans (hlab'.2 ▸ hp))
    exact happroval.trans hdemands

/-! ### Labs -/

/-- The lab is there, and approved only on a granted approval. -/
def LabGated (labId : String) (st : Store) : Prop :=
  ∃ lab, st.labs.get? labId = some lab ∧ (lab.state = .approved → Granted st "lab" labId)

theorem labGated_of_effect {labId : String} {now : ℤ} {r : Request β} {m m' : ℕ} {st st' : Store}
    (h : Effect env now r m m' st st') (hst : LabGated labId st) : LabGated labId st' := by
  obtain ⟨lab, hlab, hgate⟩ := hst
  obtain ⟨lab', hlab', hmove⟩ := labMove_of_effect h hlab
  refine ⟨lab', hlab', fun hstate => ?_⟩
  cases hmove with
  | same => exact granted_of_effect h (hgate hstate)
  | destroyed => cases hstate
  | @decided decision _ _ _ a _ _ type resource stored =>
    cases decision with
    | approved =>
      have hid : lab.id = labId := Table.key_of_get? hlab
      exact hid ▸ resource ▸ granted_of_stored type stored
    | rejected => cases hstate
  | swept _ swept =>
    rcases swept.state with hs | ⟨-, hs⟩ | ⟨-, hs⟩
    · exact granted_of_effect h (hgate (hs.symm.trans hstate))
    · exact absurd (hs.symm.trans hstate) (by decide)
    · exact absurd (hs.symm.trans hstate) (by decide)

/-- A lab for which an approval was demanded starts out waiting. -/
theorem labGated_of_creation {labId : String} {now : ℤ} {r : Request β} {m m' : ℕ} {st st' : Store}
    (h : Effect env now r m m' st st') (hdemanded : demandedAtCreation env now st r = true)
    (hnew : st.labs.get? labId = none) (hlab : ∃ lab, st'.labs.get? labId = some lab) :
    LabGated labId st' := by
  obtain ⟨lab, hlab⟩ := hlab
  refine ⟨lab, hlab, fun hstate => ?_⟩
  rcases lab_of_effect h hlab with ⟨old, hold⟩ | ⟨profileName, requester, storage, hcreation, new⟩
  · exact absurd (hnew.symm.trans hold) (by simp)
  · obtain ⟨profile, hprofile, -, -, hfirst⟩ := new.profile
    unfold demandedAtCreation at hdemanded
    rw [hcreation] at hdemanded
    dsimp only at hdemanded
    split at hdemanded
    · next decision hdecision =>
      obtain ⟨profile', hprofile', -, -, -, hasked⟩ := PolicyEngine.validateRequest_eq_ok hdecision
      obtain rfl := Option.some.inj (hprofile.symm.trans hprofile')
      rw [← hasked, hdemanded] at hfirst
      exact absurd (hfirst.symm.trans hstate) (by decide)
    · cases hdemanded

/-- **The approval gate over whole runs.** In every reachable state an export that is approved or
released, of a lab whose profile has `approval_on_export`, has a granted approval; and so has every
approved lab for which `validate_request` demanded an approval when it was created. -/
theorem approval_gate (env : Environment β) (s₀ : State β) (h₀ : Initial env s₀) (actions : List (Action β)) :
    (∀ row ∈ (runFrom env s₀ actions).store.exports.rows, row.state = .approved ∨ row.state = .released →
      ∀ profile, labProfile? env (runFrom env s₀ actions).store row.labId = some profile →
        profile.approvalOnExport = true → Granted (runFrom env s₀ actions).store "export" row.id) ∧
    ∀ past r now fates future labId, actions = past ++ .request r now fates :: future →
      demandedAtCreation env now (runFrom env s₀ past).store r = true →
      (runFrom env s₀ past).store.labs.get? labId = none →
      (∃ lab, (step env (runFrom env s₀ past) (.request r now fates)).store.labs.get? labId = some lab) →
      ∀ lab, (runFrom env s₀ actions).store.labs.get? labId = some lab → lab.state = .approved →
        Granted (runFrom env s₀ actions).store "lab" labId := by
  constructor
  · intro row hrow hstate profile hprofile hdemands
    have hgated : AllGated env (runFrom env s₀ actions).store :=
      rows_kept allGated_of_effect (h₀.store ▸ allGated_empty)
    rcases (hgated row.id row (Table.get?_of_mem hrow)).gate profile hprofile hdemands with hg |
      hrejected | ⟨hwaits, -⟩
    · exact hg
    · rcases hstate with hs | hs <;> exact absurd (hs.symm.trans hrejected) (by decide)
    · rcases hstate with hs | hs <;> exact absurd (hs.symm.trans hwaits) (by decide)
  · rintro past r now fates future labId rfl hdemanded hnew hcreated lab hlab hstate
    have hfirst := labGated_of_creation
      (effect_of_answer env (runFrom env s₀ past) r now fates) hdemanded hnew hcreated
    have hlast : LabGated labId (runFrom env s₀ (past ++ .request r now fates :: future)).store := by
      rw [runFrom, Runs.after_append]
      exact rows_kept labGated_of_effect (s := step env (runFrom env s₀ past) (.request r now fates)) hfirst
    obtain ⟨lab', hlab', hgate⟩ := hlast
    obtain rfl := Option.some.inj (hlab'.symm.trans hlab)
    exact hgate hstate

/-- A lab of a profile is created, its guest writes an artifact, which is staged and decided as `decisions`
say, and released. -/
def exportRun (profileName exportId : String) (decisions : List (Action Blob)) : List (Action Blob) :=
  [.request (.createLab profileName .human) 0 [],
   .guest "a" [(["srv", "labs", "a", "exports", "r.txt"], .file (.data "a" ['x']))],
   .request (.createExport "a" "/lab/exports/r.txt" none .human) 1 []] ++ decisions ++
  [.request (.releaseExport exportId) 3 []]

/-- An export of a profile that demands an approval is released once it is granted. -/
theorem approval_gate_exportRun :
    ∃ row ∈ (runFrom (symbolic defaultProfiles) emptyState
        (exportRun "model-local" "aa" [.request (.approveRequest "aaa" "ops" none) 2 []])).store.exports.rows,
      row.state = .released ∧ Granted (runFrom (symbolic defaultProfiles) emptyState
        (exportRun "model-local" "aa" [.request (.approveRequest "aaa" "ops" none) 2 []])).store
          "export" row.id := by
  have hrow : ∃ row ∈ (runFrom (symbolic defaultProfiles) emptyState
      (exportRun "model-local" "aa" [.request (.approveRequest "aaa" "ops" none) 2 []])).store.exports.rows,
      row.state = .released ∧
        (labProfile? (symbolic defaultProfiles) (runFrom (symbolic defaultProfiles) emptyState
        (exportRun "model-local" "aa" [.request (.approveRequest "aaa" "ops" none) 2 []])).store
          row.labId).any
          (fun profile => profile.approvalOnExport) = true := by
    decide +kernel
  obtain ⟨row, hrow, hstate, hprofile⟩ := hrow
  obtain ⟨profile, hp, hdemands⟩ := (Option.any_eq_true ..).mp hprofile
  exact ⟨row, hrow, hstate,
    (approval_gate (symbolic defaultProfiles) emptyState (initial_emptyState _) _).1 row hrow
      (.inr hstate) profile hp
      hdemands⟩

/-! ### Approval-mode profiles -/

/-- The lab's profile, when its `export_mode` is `approval`, demands an approval on export. -/
def ModeDemands (env : Environment β) (st : Store) (labId : String) : Prop :=
  ∀ profile, labProfile? env st labId = some profile → profile.exportMode = .approval →
    profile.approvalOnExport = true

instance (env : Environment β) (st : Store) (labId : String) : Decidable (ModeDemands env st labId) := by
  unfold ModeDemands
  cases labProfile? env st labId with
  | none => exact isTrue fun _ h => by cases h
  | some profile =>
    exact decidable_of_iff (profile.exportMode = .approval → profile.approvalOnExport = true)
      ⟨fun h _ he => Option.some.inj he ▸ h, fun h => h profile rfl⟩

/-- No export is staged for a lab whose profile has `export_mode` approval and does not demand an
approval on export; it may be asked for, and be refused. -/
def stagesDemanding (env : Environment β) (s : State β) : Action β → Prop
  | .request (.createExport labId sourcePath runId requester) now fates =>
    Succeeds env s (.createExport labId sourcePath runId requester) now fates → ModeDemands env s.store labId
  | _ => True

instance (env : Environment β) (s : State β) (a : Action β) : Decidable (stagesDemanding env s a) := by
  unfold stagesDemanding
  split <;> infer_instance

/-- Every export is of a lab that exists and whose profile, if its mode is approval, demands one. -/
def AllDemanding (env : Environment β) (st : Store) : Prop :=
  ∀ id row, st.exports.get? id = some row → (∃ lab, st.labs.get? row.labId = some lab) ∧
    ModeDemands env st row.labId

theorem modeDemands_congr {st st' : Store} {labId : String}
    (h : labProfile? env st' labId = labProfile? env st labId) (hst : ModeDemands env st labId) :
    ModeDemands env st' labId := by
  intro profile hp
  exact hst profile (h ▸ hp)

/-- A request that stages no export leaves the rows as they were. -/
theorem store_of_unstaged {s : State β} {labId sourcePath : String} {runId : Option String}
    {requester : RequesterType} {now : ℤ} {fates : List Fate}
    (h : ¬ Succeeds env s (.createExport labId sourcePath runId requester) now fates) :
    (step env s (.request (.createExport labId sourcePath runId requester) now fates)).store = s.store := by
  cases hanswer : answer env s (.createExport labId sourcePath runId requester) now fates with
  | ok response s' => exact absurd ⟨response, s', hanswer⟩ h
  | error e s' =>
    rw [step, hanswer]
    exact store_of_rollingBack_error (map_eq_error.mp hanswer)

theorem allDemanding_of_effect {r : Request β} {now : ℤ} {m m' : ℕ} {st st' : Store}
    (hok : ∀ labId sourcePath runId requester, r = .createExport labId sourcePath runId requester →
      ModeDemands env st labId)
    (h : Effect env now r m m' st st') (hst : AllDemanding env st) : AllDemanding env st' := by
  intro id row' hrow'
  rcases export_of_effect h hrow' with ⟨row, hrow⟩ | ⟨labId, sourcePath, runId, requester, rfl, new⟩
  · obtain ⟨row₁, hrow₁, hmove⟩ := exportMove_of_effect h hrow
    obtain rfl := Option.some.inj (hrow₁.symm.trans hrow')
    obtain ⟨hlab, hmode⟩ := hst id row hrow
    have hkept := labProfile_of_effect h hlab
    rw [(origin_of_exportMove hmove).1]
    exact ⟨hkept.1, modeDemands_congr hkept.2 hmode⟩
  · obtain ⟨lab, -, hlab, -⟩ := new.lab
    have hkept := labProfile_of_effect h ⟨lab, hlab⟩
    rw [new.labId]
    exact ⟨hkept.1, modeDemands_congr hkept.2 (hok labId sourcePath runId requester rfl)⟩

theorem allDemanding_of_step {s : State β} {a : Action β} (hs : AllDemanding env s.store)
    (hok : stagesDemanding env s a) : AllDemanding env (step env s a).store := by
  cases a with
  | guest labId entries => exact hs
  | request r now fates =>
    by_cases hstages : ∀ labId sourcePath runId requester,
      r = .createExport labId sourcePath runId requester →
        Succeeds env s r now fates
    · refine allDemanding_of_effect (fun labId sourcePath runId requester hr => ?_)
        (effect_of_answer env s r now fates) hs
      subst hr
      exact hok (hstages labId sourcePath runId requester rfl)
    · push Not at hstages
      obtain ⟨labId, sourcePath, runId, requester, rfl, hrefused⟩ := hstages
      rw [store_of_unstaged hrefused]
      exact hs

/-- **Approval-mode profiles are gated on release** in every run that stages no export for a lab whose
profile has `export_mode` approval without demanding an approval on export. -/
theorem approval_mode_gate (env : Environment β) (s₀ : State β) (h₀ : Initial env s₀)
    (actions : List (Action β)) (hok : Runs.Allowed (step env) (stagesDemanding env) s₀ actions) :
    ∀ row ∈ (runFrom env s₀ actions).store.exports.rows, row.state = .released →
      ∀ profile, labProfile? env (runFrom env s₀ actions).store row.labId = some profile →
        profile.exportMode = .approval → Granted (runFrom env s₀ actions).store "export" row.id := by
  intro row hrow hstate profile hprofile hmode
  have hempty : ∀ I : Store → Prop, I Store.empty → I s₀.store := fun I h => h₀.store ▸ h
  have hdemanding : AllDemanding env (runFrom env s₀ actions).store :=
    Runs.after_keeps_of (I := fun s : State β => AllDemanding env s.store)
      (fun _ _ => allDemanding_of_step) (hempty _ fun _ _ h => by cases h) hok
  have hgated : AllGated env (runFrom env s₀ actions).store :=
    rows_kept allGated_of_effect (hempty _ allGated_empty)
  have hdemands := (hdemanding row.id row (Table.get?_of_mem hrow)).2 profile hprofile hmode
  rcases (hgated row.id row (Table.get?_of_mem hrow)).gate profile hprofile hdemands with hg |
    hrejected | ⟨hwaits, -⟩
  · exact hg
  · exact absurd (hstate.symm.trans hrejected) (by decide)
  · exact absurd (hstate.symm.trans hwaits) (by decide)

/-- A profile that passes the validator: its exports are by approval, but it demands none. -/
def approvalMode : Profile where
  name := "approval-mode"
  runtimeClass := .microvm
  riskClass := .medium
  networkMode := .deny
  filesystemMode := .managed
  persistenceMode := .ephemeral
  exportMode := .approval
  cpuLimit := 1
  memoryMb := 256
  diskMb := 1024
  maxRuntimeMinutes := 1
  approvalOnStart := true
  approvalOnExport := false
  retentionDays := 1
  valid := by decide

theorem approval_mode_gate_exportRun :
    ∃ row ∈ (runFrom (symbolic defaultProfiles) emptyState
        (exportRun "research-persistent" "aa"
          [.request (.approveRequest "aaa" "ops" none) 2 []])).store.exports.rows,
      row.state = .released ∧ Granted (runFrom (symbolic defaultProfiles) emptyState
        (exportRun "research-persistent" "aa" [.request (.approveRequest "aaa" "ops" none) 2 []])).store
          "export" row.id := by
  have hok : Runs.Allowed (step (symbolic defaultProfiles))
      (stagesDemanding (symbolic defaultProfiles)) emptyState
      (exportRun "research-persistent" "aa" [.request (.approveRequest "aaa" "ops" none) 2 []]) := by
    decide +kernel
  have hrow : ∃ row ∈ (runFrom (symbolic defaultProfiles) emptyState
      (exportRun "research-persistent" "aa"
        [.request (.approveRequest "aaa" "ops" none) 2 []])).store.exports.rows,
      row.state = .released ∧
        (labProfile? (symbolic defaultProfiles) (runFrom (symbolic defaultProfiles) emptyState
        (exportRun "research-persistent" "aa" [.request (.approveRequest "aaa" "ops" none) 2 []])).store
          row.labId).any (fun profile => profile.exportMode = .approval) = true := by
    decide +kernel
  obtain ⟨row, hrow, hstate, hprofile⟩ := hrow
  obtain ⟨profile, hp, hmode⟩ := (Option.any_eq_true ..).mp hprofile
  exact ⟨row, hrow, hstate,
    approval_mode_gate (symbolic defaultProfiles) emptyState
      (initial_emptyState _) _ hok row hrow hstate profile hp
      (of_decide_eq_true hmode)⟩

/-- **Not so where the profile demands none**: a microVM lab's export is released without any approval. -/
theorem approval_mode_ungated :
    ∃ row ∈ (runFrom (symbolic [("approval-mode", approvalMode)]) emptyState
        (exportRun "approval-mode" "aaa" [])).store.exports.rows,
      row.state = .released ∧ (labProfile? (symbolic [("approval-mode", approvalMode)])
        (runFrom (symbolic [("approval-mode", approvalMode)]) emptyState
          (exportRun "approval-mode" "aaa" [])).store
          row.labId).any (fun profile => profile.exportMode = .approval) = true ∧
      ¬ Granted (runFrom (symbolic [("approval-mode", approvalMode)]) emptyState
        (exportRun "approval-mode" "aaa" [])).store "export" row.id := by
  decide +kernel

end LabOS
