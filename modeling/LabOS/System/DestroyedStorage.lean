import LabOS.System.Regions
import LabOS.System.Symbolic

/-!
# The storage of destroyed labs

`DELETE` removes the tree of a lab before it marks the lab destroyed. A snapshot that is
made of the lab afterwards, or restored into it, makes the directories it needs without a
look at the state of the lab, and nothing removes them again. No other request writes below the root
of a destroyed lab: what is staged or released must first be found there.

## What is proved

* `destroyed_holds_nothing` — in every run that makes no snapshot of a destroyed lab and restores none
  into one, nothing stands at the root of a destroyed lab.
* `destroyed_lab_snapshot` — a run that makes a snapshot of a destroyed lab.
-/

namespace LabOS

open Exceptional FileOps FileTree ManagedStorageAllocator

variable {β : Type} [Content β] {env : Environment β}

/-- The step makes no directories in the tree of a destroyed lab: it makes no snapshot of one, and restores
none into one. A snapshot is made of a container lab, with a run of that lab if it names one, and restored
from a manifest that can be read and an archive that is there. -/
def sparesDestroyed (env : Environment β) (s : State β) : Action β → Bool
  | .request (.createSnapshot labId runId _) _ _ =>
    (s.store.labs.get? labId).all fun lab =>
      !(lab.state = .destroyed && lab.runtimeClass = .container && runOf s.store runId labId)
  | .request (.restoreSnapshot snapshotId labId _) _ _ =>
    (s.store.labs.get? labId).all fun lab => (s.store.snapshots.get? snapshotId).all fun snapshot =>
      !(lab.state = .destroyed && SnapshotManager.restorable env s.tree snapshot lab)
  | _ => true

/-- Nothing stands at the roots of destroyed labs. -/
def DestroyedGone (env : Environment β) (s : State β) : Prop :=
  ∀ id lab, s.store.labs.get? id = some lab → lab.state = .destroyed →
    s.tree.lookup (labRoot env.root id) = none

/-! ### Destroying -/

/-- Nothing stands at a root that has been destroyed. -/
theorem gone_of_destroy {storage : LabStorageRow} {allocation : StorageAllocation} {good : String → β → Prop}
    {d d' : Disk β} {u : Unit} (hid : isIdentifier storage.labId = true) (hlayout : AtLayout env.root storage)
    (hallocation : storageAllocationFromRow storage = .ok allocation) (ht : Tidy (Managed env good) d.tree)
    (h : destroy env.root allocation d = .ok u d') :
    d'.tree.lookup (labRoot env.root storage.labId) = none := by
  have hroot : allocation.rootPath = labRoot env.root storage.labId := by
    rw [storageAllocationFromRow_eq_ok hallocation, hlayout.1]
  have hfirm : Firm (Managed env good) (labRoot env.root storage.labId) :=
    (firm_of_ours ⟨hid, by simp, .inl (by simp)⟩ : Firm (Managed env good)
      (inLab env.root storage.labId [])).mono
      (List.prefix_append _ _)
  have hne : labRoot env.root storage.labId ≠ [] := by simp [labRoot]
  unfold destroy at h
  rw [hroot] at h
  obtain ⟨_, d₁, h₁, h⟩ := bind_eq_ok.mp h
  have hsame : d = d₁ := by
    have hmanaged : Within unchanged (assertManagedPath env.root (labRoot env.root storage.labId)) d :=
      (within_files (within_look _ _)).bind fun _ _ _ _ => Within.raiseIf _ _
    exact hmanaged.of_ok h₁
  subst hsame
  obtain ⟨there, d₂, h₂, h⟩ := bind_eq_ok.mp h
  obtain ⟨hthere, rfl⟩ := look_eq_ok.mp (files_eq_ok.mp h₂)
  rcases whenever_eq_ok.mp h with ⟨-, h⟩ | ⟨hmissing, rfl⟩
  · rw [lookup_of_rmtree (hfirm.leads ht) (files_eq_ok.mp h) _ hne, if_pos List.prefix_rfl]
  · -- what is not found there does not stand there
    by_contra hsome
    obtain ⟨e, he⟩ := Option.ne_none_iff_exists'.mp hsome
    have hlink : ∀ tgt, e ≠ .symlink tgt := by
      rintro tgt rfl
      exact hfirm.noLink _ List.prefix_rfl tgt (ht.allowed _ _ he)
    rw [ht.tree.stat_of_lookup he hlink, hmissing] at hthere
    cases hthere

/-- A lab that a request has destroyed has no root any more. -/
theorem gone_of_answer {s : State β} {good : String → β → Prop} {labId : String} {now : ℤ} {fates : List Fate}
    {response : Response} {s' : Session β} (hs : Healthy env good s)
    (h : answer env s (.destroyLab labId) now fates = .ok response s') :
    s'.disk.tree.lookup (labRoot env.root labId) = none := by
  obtain ⟨lab, h, -⟩ := map_eq_ok.mp h
  obtain ⟨s₁, hbody, -, htree, -⟩ := withSession_eq_ok h
  simp [App.destroyLab, bind_eq_ok] at hbody
  obtain ⟨row, hrow, storage, hstorage, -, allocation, hallocation, _, d, hdestroy, rfl, -⟩ := hbody
  have hrowId : row.id = labId := Table.key_of_get? hrow
  have hstorageId : storage.labId = row.id := Table.key_of_get? hstorage
  have hid : isIdentifier storage.labId = true := by
    rw [hstorageId, hrowId]
    exact (hs.sound.labs _ _ hrow).isIdentifier
  have hgone := gone_of_destroy hid (hs.sound.layout _ _ hstorage).1 hallocation hs.tidy hdestroy
  rw [htree, ← hrowId, ← hstorageId]
  exact hgone

/-! ### Steps and runs -/

/-- A step that spares destroyed labs changes nothing at their roots. -/
theorem not_changes_destroyedRoot {s : State β} {a : Action β} {id : String} {lab : LabRow}
    (hs : SoundState env s) (hgone : DestroyedGone env s) (hok : sparesDestroyed env s a = true)
    (hlab : s.store.labs.get? id = some lab) (hdestroyed : lab.state = .destroyed) :
    ¬ Changes env s a (labRoot env.root id) := by
  intro h
  have hroot : labRoot env.root id = inLab env.root id [] := (List.append_nil _).symm
  have hnone := hgone id lab hlab hdestroyed
  cases changesLab_of_changes (hroot ▸ h) with
  | written _ _ place => cases place
  | made _ new => exact (hs.labs _ _ hlab).ne_uuid4 le_rfl new
  | destroyed found alive =>
    obtain rfl := Option.some.inj (found.symm.trans hlab)
    exact alive hdestroyed
  | archived found container run =>
    obtain rfl := Option.some.inj (found.symm.trans hlab)
    simp [sparesDestroyed, hlab, hdestroyed, container, run] at hok
  | restored source found restorable =>
    obtain rfl := Option.some.inj (found.symm.trans hlab)
    simp [sparesDestroyed, hlab, source, hdestroyed, restorable] at hok
  | described place => cases place
  | staged dir =>
    rw [hnone] at dir
    cases dir
  | released _ _ _ dir =>
    rw [hnone] at dir
    cases dir

/-- **A step that spares destroyed labs leaves nothing at their roots.** -/
theorem destroyedGone_of_step {s : State β} {a : Action β} (hs : Healthy env anyContent s)
    (hgone : DestroyedGone env s) (hok : sparesDestroyed env s a = true) :
    DestroyedGone env (step env s a) := by
  intro id lab' hlab' hdestroyed'
  have hkept : ∀ lab, s.store.labs.get? id = some lab → lab.state = .destroyed →
      (step env s a).tree.lookup (labRoot env.root id) = none := by
    intro lab hlab hdestroyed
    have hout := not_changes_destroyedRoot hs.sound hgone hok hlab hdestroyed
    rw [(keeps_of_step hs.sound carries_any (brings_any s a) hs.tidy).2 _ hout]
    exact hgone id lab hlab hdestroyed
  cases a with
  | guest labId entries => exact hkept lab' hlab' hdestroyed'
  | request r now fates =>
    have heffect := effect_of_answer env s r now fates
    rcases lab_of_effect heffect hlab' with ⟨lab, hlab⟩ | ⟨profileName, requester, storage, -, new⟩
    · obtain ⟨lab₁, hlab₁, hmove⟩ := labMove_of_effect heffect hlab
      obtain rfl := Option.some.inj (hlab₁.symm.trans hlab')
      cases hmove with
      | same => exact hkept _ hlab hdestroyed'
      | destroyed request alive =>
        have hid : lab.id = id := Table.key_of_get? hlab
        rw [hid] at request
        subst request
        cases hanswer : answer env s (.destroyLab id) now fates with
        | ok response s' =>
          simp only [step, hanswer, endState_ok]
          exact gone_of_answer hs hanswer
        | error e s' =>
          simp only [step, hanswer, endState_error, Session.state, store_of_block_error hanswer] at hlab'
          have hstate := congrArg LabRow.state (Option.some.inj (hlab.symm.trans hlab'))
          exact absurd hstate alive
      | @decided decision => cases decision <;> cases hdestroyed'
      | swept _ swept =>
        rcases swept.state with hs' | ⟨-, hs'⟩ | ⟨hdestroying, -⟩
        · exact hkept lab hlab (hs'.symm.trans hdestroyed')
        · exact absurd (hs'.symm.trans hdestroyed') (by decide)
        · exact absurd hdestroying (hs.sound.quiet _ _ hlab)
    · obtain ⟨profile, -, -, -, hfirst⟩ := new.profile
      rw [hfirst] at hdestroyed'
      split at hdestroyed' <;> cases hdestroyed'

/-- **Destroyed labs hold no storage** in every state of every run that makes no directories in the tree of
a destroyed lab. -/
theorem destroyed_holds_nothing (env : Environment β) (s₀ : State β) (h₀ : Initial env s₀)
    (actions : List (Action β))
    (hok : Runs.Allowed (step env) (fun s a => sparesDestroyed env s a = true) s₀ actions) :
    ∀ lab ∈ (runFrom env s₀ actions).store.labs.rows, lab.state = .destroyed →
      ∀ storage, (runFrom env s₀ actions).store.labStorage.get? lab.id = some storage →
        (runFrom env s₀ actions).tree.lookup storage.rootPath = none := by
  intro lab hlab hdestroyed storage hstorage
  have hfirst : DestroyedGone env s₀ := by
    intro id lab hlab
    rw [h₀.store] at hlab
    cases hlab
  have hlast : Healthy env anyContent (runFrom env s₀ actions) ∧ DestroyedGone env (runFrom env s₀ actions) :=
    Runs.after_keeps_of (I := fun s => Healthy env anyContent s ∧ DestroyedGone env s)
      (fun s a hs ha => ⟨healthy_of_step carries_any hs.1 (brings_any s a),
        destroyedGone_of_step hs.1 hs.2 ha⟩)
      ⟨healthy_of_initial h₀, hfirst⟩ hok
  have hid : storage.labId = lab.id := Table.key_of_get? hstorage
  rw [(hlast.1.sound.layout _ _ hstorage).1.1, hid]
  exact hlast.2 lab.id lab (Table.get?_of_mem hlab) hdestroyed

/-- A lab is created, a snapshot of it is made, and it is destroyed, before one more request. -/
def destroyRun (last : Request Blob) : List (Action Blob) :=
  [.request (.createLab "safe-dev" .human) 0 [], .request (.createSnapshot "a" none .human) 1 [],
   .request (.destroyLab "a") 2 [], .request last 3 []]

/-- A restore into a destroyed lab fails for the archive that went with it, and leaves nothing there. -/
theorem destroyed_holds_nothing_destroyRun :
    ∃ lab ∈ (runFrom (symbolic defaultProfiles) emptyState (destroyRun (.restoreSnapshot "aa" "a" .human))).store.labs.rows,
      lab.state = .destroyed ∧ ∃ storage,
        (runFrom (symbolic defaultProfiles) emptyState
          (destroyRun (.restoreSnapshot "aa" "a" .human))).store.labStorage.get? lab.id =
          some storage ∧
        (runFrom (symbolic defaultProfiles) emptyState
          (destroyRun (.restoreSnapshot "aa" "a" .human))).tree.lookup storage.rootPath = none := by
  have hok : Runs.Allowed (step (symbolic defaultProfiles))
      (fun s a => sparesDestroyed (symbolic defaultProfiles) s a = true) emptyState
      (destroyRun (.restoreSnapshot "aa" "a" .human)) := by
    decide +kernel
  have hlab : ∃ lab ∈ (runFrom (symbolic defaultProfiles) emptyState (destroyRun (.restoreSnapshot "aa" "a" .human))).store.labs.rows,
      lab.state = .destroyed ∧
      ((runFrom (symbolic defaultProfiles) emptyState
        (destroyRun (.restoreSnapshot "aa" "a" .human))).store.labStorage.get? lab.id).isSome =
        true := by
    decide +kernel
  obtain ⟨lab, hlab, hstate, hstorage⟩ := hlab
  obtain ⟨storage, hstorage⟩ := Option.isSome_iff_exists.mp hstorage
  exact ⟨lab, hlab, hstate, storage, hstorage, destroyed_holds_nothing (symbolic defaultProfiles) emptyState
    (initial_emptyState _) _ hok lab hlab hstate storage hstorage⟩

/-- **Not so when a snapshot is made of a destroyed lab**: its root is there again. -/
theorem destroyed_lab_snapshot :
    ∃ lab ∈ (runFrom (symbolic defaultProfiles) emptyState (destroyRun (.createSnapshot "a" none .human))).store.labs.rows,
      lab.state = .destroyed ∧
      ((runFrom (symbolic defaultProfiles) emptyState
        (destroyRun (.createSnapshot "a" none .human))).store.labStorage.get? lab.id).any
        (fun storage => ((runFrom (symbolic defaultProfiles) emptyState
          (destroyRun (.createSnapshot "a" none .human))).tree.lookup
          storage.rootPath).isSome) = true := by
  decide +kernel

end LabOS
