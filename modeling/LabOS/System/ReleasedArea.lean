import LabOS.System.Approvals
import LabOS.System.Coherence
import LabOS.System.Regions

/-!
# The released area

A release copies the artifact first and stores the new state of the export last. When it
raises in between, or its commit fails, the copy stays and the row does not say so; the export can be
denied or expire after that, and nothing ever takes the copy back. So the released area holds what
was released, and what a release that failed left there.

## What is proved

* `released_area` — in every run **every file in the released directory of an export** belongs to
  an export of that lab, which is released or of which a release got past the gate and failed.
* `released_without_release` — a release whose commit fails, and a denial after it.
-/

namespace LabOS

open Exceptional FileOps FileTree ManagedStorageAllocator

variable {β : Type} [Content β] {env : Environment β} {s : State β}

/-- The gate lets an export be released. -/
def PassesGate (s : State β) (exportId : String) : Prop :=
  ∃ row, s.store.exports.get? exportId = some row ∧ row.state ≠ .rejected ∧ row.state ≠ .released ∧
    row.approvalRequired = false

/-- A request of the run to release an export got past the gate and failed. -/
def ReleaseFailed (env : Environment β) (s₀ : State β) (actions : List (Action β))
    (exportId : String) : Prop :=
  ∃ past now fates later, actions = past ++ .request (.releaseExport exportId) now fates :: later ∧
    PassesGate (runFrom env s₀ past) exportId ∧
    ¬ Succeeds env (runFrom env s₀ past) (.releaseExport exportId) now fates

/-- A release that failed in a run failed in every run that goes on from it. -/
theorem ReleaseFailed.append {s₀ : State β} {actions : List (Action β)} {exportId : String}
    (h : ReleaseFailed env s₀ actions exportId) (more : List (Action β)) :
    ReleaseFailed env s₀ (actions ++ more) exportId := by
  obtain ⟨past, now, fates, later, rfl, hgate, hfailed⟩ := h
  exact ⟨past, now, fates, later ++ more, by simp, hgate, hfailed⟩

/-! ### What a step puts there -/

/-- A request that makes a lab makes directories and nothing else. -/
theorem onlyDirs_of_newLab {r : Request β} {now : ℤ} {fates : List Fate}
    (hr : (∃ profileName requester, r = .createLab profileName requester) ∨ r = .dispatchNextSchedulerJob) :
    onlyDirs.rel s.tree (endState (answer env s r now fates)).disk.tree := by
  have hallocate : ∀ policy, Within (onTree onlyDirs)
      (allocate env.root (env.uuid4 (s.session fates).minted) policy) (s.session fates).disk := by
    intro policy
    refine Within.bind ?_ fun _ _ _ _ => Within.pure _
    exact Within.forM (fun _ => True) trivial (fun p _ d _ => within_files within_makeDirs_onlyDirs)
      fun _ _ _ _ _ _ _ => trivial
  have hwork : DiskWork env now onlyDirs (s.session fates) r := by
    rcases hr with ⟨profileName, requester, rfl⟩ | rfl
    · exact hallocate
    · exact hallocate
  exact (within_respond hwork).1

/-- **What stands in the released directory of an export** and is no directory was there before, or the step
releases the export. -/
theorem entry_of_step {a : Action β} {labId exportId : String} {q : List String} {e : Entry β}
    (hs : Healthy env anyContent s) (hdir : e ≠ .dir)
    (he : (step env s a).tree.lookup (inLab env.root labId ("released" :: exportId :: q)) = some e) :
    s.tree.lookup (inLab env.root labId ("released" :: exportId :: q)) = some e ∨
      (∃ now fates, a = .request (.releaseExport exportId) now fates) ∧
        ∃ row, s.store.exports.get? exportId = some row ∧ row.labId = labId ∧ row.state ≠ .rejected ∧
          row.state ≠ .released ∧ row.approvalRequired = false := by
  by_cases hchanges : Changes env s a (inLab env.root labId ("released" :: exportId :: q))
  · rcases changes_place (.inr rfl) hchanges with ⟨-, r, now, fates, rfl, hr⟩ | ⟨now, fates, rfl⟩ |
      ⟨hplace, -⟩ | ⟨hreleases, -, hrow⟩
    · exact .inl ((onlyDirs_of_newLab hr _ e he).resolve_left hdir)
    · exact .inl (removes_of_destroyLab _ e he)
    · exact absurd hplace (by decide)
    · exact .inr ⟨hreleases, hrow⟩
  · exact .inl (((keeps_of_step hs.sound carries_any (brings_any s a) hs.tidy).2 _ hchanges).symm.trans he)

/-! ### What a step does to the rows -/

/-- An export stays an export of its lab, and stays released. -/
theorem export_of_step {a : Action β} {row : ExportRow} (hs : Coherent s.store)
    (hrow : s.store.exports.get? row.id = some row) :
    ∃ row', (step env s a).store.exports.get? row.id = some row' ∧ row'.labId = row.labId ∧
      (row.state = .released → row'.state = .released) := by
  cases a with
  | guest labId entries => exact ⟨row, hrow, rfl, fun hstate => hstate⟩
  | request r now fates =>
    obtain ⟨row', hrow', hmove⟩ := exportMove_of_effect (effect_of_answer env s r now fates) hrow
    refine ⟨row', hrow', (origin_of_exportMove hmove).1, fun hstate => ?_⟩
    rw [released_of_move hs hrow hstate hmove]
    exact hstate

/-- **A release that succeeds** stores that the export is released. -/
theorem released_of_success {exportId : String} {now : ℤ} {fates : List Fate} {row' : ExportRow}
    (h : Succeeds env s (.releaseExport exportId) now fates)
    (hrow' : (step env s (.request (.releaseExport exportId) now fates)).store.exports.get?
      exportId = some row') :
    row'.state = .released := by
  obtain ⟨response, s', hanswer⟩ := h
  have hstep : (step env s (.request (.releaseExport exportId) now fates)).store = s'.store :=
    congrArg (fun x => (endState x).store) hanswer
  obtain ⟨released, s₁, hblock, hresponse⟩ := bind_eq_ok.mp hanswer
  obtain ⟨row₁, hok, -⟩ := map_eq_ok.mp hresponse
  obtain ⟨rfl, rfl⟩ := fromExcept_eq_ok.mp hok
  obtain ⟨s₂, hbody, hstore, -⟩ := withSession_eq_ok hblock
  simp only [App.releaseExport, bind_eq_ok, getOr_eq_ok] at hbody
  obtain ⟨row, _, ⟨hrow, rfl⟩, storage, _, ⟨-, rfl⟩, outcome, s₃, hattempt, hfinish⟩ := hbody
  unfold App.finishRelease at hfinish
  rcases attempt_eq_ok.mp hattempt with ⟨result, rfl, hgate⟩ | ⟨e, rfl, -⟩
  · obtain ⟨d, hreleased, rfl⟩ := onDisk_eq_ok.mp hgate
    obtain ⟨-, -, -, hstate, -⟩ := ExportGate.releaseExport_eq_ok hreleased
    simp [bind_eq_ok] at hfinish
    obtain ⟨rfl, rfl⟩ := hfinish
    obtain rfl : row.id = exportId := Table.key_of_get? hrow
    rw [hstep, hstore] at hrow'
    rcases Table.eq_or_of_get?_put hrow' with ⟨-, rfl⟩ | ⟨hne, -⟩
    · exact hstate
    · exact absurd rfl hne
  · cases e with
    | exportPolicy message => simp at hfinish
    | _ => exact absurd hfinish throw_eq_ok

/-! ### Runs -/

/-- The export is one of the lab, and released, or a release of it failed in the run. -/
def Accountable (env : Environment β) (s₀ : State β) (actions : List (Action β)) (labId exportId : String) :
    Prop :=
  ∃ row, (runFrom env s₀ actions).store.exports.get? exportId = some row ∧ row.labId = labId ∧
    (row.state = .released ∨ ReleaseFailed env s₀ actions exportId)

/-- Who accounted for the entries of a run accounts for them after one more step. -/
theorem accountable_of_step {s₀ : State β} {actions : List (Action β)}
    {labId exportId : String} (a : Action β) (h₀ : Initial env s₀)
    (h : Accountable env s₀ actions labId exportId) :
    Accountable env s₀ (actions ++ [a]) labId exportId := by
  obtain ⟨row, hrow, hlab, hwhy⟩ := h
  obtain rfl : row.id = exportId := Table.key_of_get? hrow
  have hcoherent : Coherent (runFrom env s₀ actions).store :=
    rows_kept coherent_of_effect (h₀.store ▸ coherent_empty)
  obtain ⟨row', hrow', hlab', hreleased⟩ := export_of_step (a := a) hcoherent hrow
  refine ⟨row', ?_, hlab'.trans hlab, hwhy.imp hreleased fun hfailed => hfailed.append [a]⟩
  rw [show runFrom env s₀ (actions ++ [a]) = step env (runFrom env s₀ actions) a from Runs.after_append ..]
  exact hrow'

/-- A release that got past the gate accounts for what it left: the export is released, or the release
failed. -/
theorem accountable_of_release {s₀ : State β} {actions : List (Action β)} {row : ExportRow} {now : ℤ}
    {fates : List Fate} (h₀ : Initial env s₀)
    (hrow : (runFrom env s₀ actions).store.exports.get? row.id = some row)
    (hgate : row.state ≠ .rejected ∧ row.state ≠ .released ∧ row.approvalRequired = false) :
    Accountable env s₀ (actions ++ [.request (.releaseExport row.id) now fates]) row.labId row.id := by
  have hcoherent : Coherent (runFrom env s₀ actions).store :=
    rows_kept coherent_of_effect (h₀.store ▸ coherent_empty)
  obtain ⟨row', hrow', hlab', -⟩ :=
    export_of_step (a := .request (.releaseExport row.id) now fates) hcoherent hrow
  refine ⟨row', ?_, hlab', ?_⟩
  · rw [show runFrom env s₀ (actions ++ [.request (.releaseExport row.id) now fates]) =
      step env (runFrom env s₀ actions)
        (.request (.releaseExport row.id) now fates) from Runs.after_append ..]
    exact hrow'
  · by_cases hsucceeds : Succeeds env (runFrom env s₀ actions) (.releaseExport row.id) now fates
    · exact .inl (released_of_success hsucceeds hrow')
    · exact .inr ⟨actions, now, fates, [], rfl, ⟨row, hrow, hgate⟩, hsucceeds⟩

/-- **Every file in the released directory of an export** belongs to an export of that lab that is released,
or of which a release got past the gate and failed. -/
theorem released_area (env : Environment β) (s₀ : State β) (h₀ : Initial env s₀) (actions : List (Action β))
    (labId exportId : String) (q : List String) (e : Entry β) (hdir : e ≠ .dir)
    (he : (runFrom env s₀ actions).tree.lookup
      (inLab env.root labId ("released" :: exportId :: q)) = some e) :
    ∃ row, (runFrom env s₀ actions).store.exports.get? exportId = some row ∧ row.labId = labId ∧
      (row.state = .released ∨ ReleaseFailed env s₀ actions exportId) := by
  show Accountable env s₀ actions labId exportId
  induction actions using List.reverseRecOn with
  | nil =>
    -- nothing stands below the managed root at the start
    rw [show runFrom env s₀ [] = s₀ from rfl, h₀.unused _ (by simp [strictlyBelow, inLab, labRoot])] at he
    cases he
  | append_singleton actions a ih =>
    rw [show runFrom env s₀ (actions ++ [a]) =
      step env (runFrom env s₀ actions) a from Runs.after_append ..] at he
    rcases entry_of_step (healthy_of_actions h₀ actions) hdir he with
      hbefore | ⟨⟨now, fates, rfl⟩, row, hrow, rfl, hgate⟩
    · exact accountable_of_step a h₀ (ih hbefore)
    · obtain rfl : row.id = exportId := Table.key_of_get? hrow
      exact accountable_of_release h₀ hrow hgate

/-- An export of a profile that demands no approval is staged. -/
def stagedRun : List (Action Blob) :=
  [.request (.createLab "safe-dev" .human) 0 [],
   .guest "a" [(["srv", "labs", "a", "exports", "r.txt"], .file (.data "a" ['x']))],
   .request (.createExport "a" "/lab/exports/r.txt" none .human) 1 []]

/-- It is released. -/
theorem released_area_stagedRun :
    ∃ row, (runFrom (symbolic defaultProfiles) emptyState
        (stagedRun ++ [.request (.releaseExport "aa") 2 []])).store.exports.get? "aa" = some row ∧
      row.labId = "a" ∧ (row.state = .released ∨ ReleaseFailed (symbolic defaultProfiles) emptyState
        (stagedRun ++ [.request (.releaseExport "aa") 2 []]) "aa") := by
  have hfile : ((runFrom (symbolic defaultProfiles) emptyState
      (stagedRun ++ [.request (.releaseExport "aa") 2 []])).tree.lookup
      (inLab ["srv"] "a" ["released", "aa", "r.txt"])).any
      (fun e => e.bytes?.isSome) = true := by decide +kernel
  obtain ⟨e, he, hkind⟩ := (Option.any_eq_true ..).mp hfile
  refine released_area (symbolic defaultProfiles) emptyState (initial_emptyState _) _ "a" "aa"
    ["r.txt"] e ?_ he
  rintro rfl
  cases hkind

/-- **A file without a release**: the commit of a release fails after the copy, and the export is denied. -/
theorem released_without_release :
    ((runFrom (symbolic defaultProfiles) emptyState (stagedRun ++
        [.request (.releaseExport "aa") 2 [.done, .done, .done, .failed (fun _ => false) none],
          .request (.denyExport "aa" "no") 3 []])).tree.lookup
      (inLab ["srv"] "a" ["released", "aa", "r.txt"])).any
      (fun e => match e with | .file _ => true | _ => false) = true ∧
    ((runFrom (symbolic defaultProfiles) emptyState (stagedRun ++
        [.request (.releaseExport "aa") 2 [.done, .done, .done, .failed (fun _ => false) none],
          .request (.denyExport "aa" "no") 3 []])).store.exports.get? "aa").any
      (fun row => row.labId = "a" && row.state = .rejected) = true := by
  decide +kernel

end LabOS
