import LabOS.Library.Runs
import LabOS.Runtimes.Lifecycle
import LabOS.System.Containers
import LabOS.System.PassRows

/-!
# The fleet

What the runtime is for, said without a daemon: there is a fleet of labs, to which a creation that returns
adds one and from which a destruction that returns takes one, and which no other call changes. The daemon
*serves* a fleet when its managed containers are those of the labs of the fleet. Each call of the runtime,
whether it returns or raises, and whatever others do beside it, leaves a daemon that serves the fleet
as the call changes it (`serves_of_step`), so it does after every run.

## What is proved

* `fleet_served` — after every run of the runtime, the managed labs that are listed are the labs of
  the fleet, each once, and none of them can be created again.
* `orphans_of_fleet` — a pass over that inventory reports the labs of the fleet that have no row, and those
  that run for a lab which should not.
-/

namespace LabOS

open Exceptional DockerRuntime

variable {α σ ε : Type} {client : DockerClient σ ε} {listing : DockerListing client}

/-! ### The fleet and the daemon -/

/-- The labels of the specification leave those alone that the runtime reads. -/
def RuntimeSpec.Plain (spec : RuntimeSpec) : Prop :=
  spec.labels.get? "labos.managed" = none ∧ spec.labels.get? "labos.lab_id" = none

/-- What is done to the daemon: a call of the runtime, or anything that others do but for the containers
that are labelled as managed. -/
inductive FleetAction (listing : DockerListing client) where
  | create (now : ℤ) (labId : String) (spec : RuntimeSpec)
  | start (labId : String)
  | stop (labId : String) (timeout : ℤ)
  | execRun (labId command : String)
  | getLogs (labId tail : String)
  | inspect (labId : String)
  | list
  | destroy (labId : String) (removePersistentVolume : Bool)
  | others (f : σ → σ) (spares : ∀ s, ((listing.contained (f s)).filter fun entry =>
      entry.2.get? "labos.managed" = some "true").Perm
        ((listing.contained s).filter fun entry => entry.2.get? "labos.managed" = some "true"))

/-- A creation asks for no label that the runtime reads. -/
def FleetAction.Plain {listing : DockerListing client} : FleetAction listing → Prop
  | .create _ _ spec => spec.Plain
  | _ => True

/-- Does a call return? -/
def returned? : EStateM.Result ε σ α → Bool
  | .ok _ _ => true
  | .error _ _ => false

/-- The labs of the fleet after a call that returned or raised. -/
def FleetAction.next {listing : DockerListing client} (fleet : List String) :
    FleetAction listing → Bool → List String
  | .create _ labId _, true => labId :: fleet
  | .destroy labId _, true => fleet.filter (· ≠ labId)
  | _, _ => fleet

variable (containers : DockerContainers client)

/-- Does a call return, and the daemon after it. -/
def FleetAction.run (s : σ) : FleetAction listing → Bool × σ
  | .create now labId spec => let r := createLab client now labId spec s; (returned? r, endState r)
  | .start labId => let r := startLab containers labId s; (returned? r, endState r)
  | .stop labId timeout => let r := stopLab containers labId timeout s; (returned? r, endState r)
  | .execRun labId command =>
    let r := DockerRuntime.execRun containers labId command s; (returned? r, endState r)
  | .getLogs labId tail => let r := DockerRuntime.getLogs containers labId tail s; (returned? r, endState r)
  | .inspect labId => let r := inspectLab containers labId s; (returned? r, endState r)
  | .list => let r := listManagedLabs listing s; (returned? r, endState r)
  | .destroy labId removePersistentVolume =>
    let r := destroyLab containers labId removePersistentVolume s; (returned? r, endState r)
  | .others f _ => (true, f s)

/-- A daemon and the fleet beside it, after an action. -/
def fleetStep (p : σ × List String) (a : FleetAction listing) : σ × List String :=
  let r := a.run containers p.1
  (r.2, a.next p.2 r.1)

/-- The managed containers, by their names and the labs they are labelled with. -/
def managed (listing : DockerListing client) (s : σ) : List (String × Option String) :=
  ((listing.contained s).filter fun entry => entry.2.get? "labos.managed" = some "true").map fun entry =>
    (entry.1, entry.2.get? "labos.lab_id")

/-- **The daemon serves a fleet**: its managed containers are one for each lab, under its name
and with its label. -/
structure Serves (listing : DockerListing client) (s : σ) (fleet : List String) : Prop where
  nodup : fleet.Nodup
  managed : (managed listing s).Perm (fleet.map fun labId => (containerName labId, some labId))

/-! ### Names -/

theorem containerName_inj {labId labId' : String} (h : containerName labId = containerName labId') :
    labId = labId' := by
  have h' : "labos-" ++ labId = "labos-" ++ labId' := by simpa [containerName, toString] using h
  exact (String.append_right_inj _).mp h'

/-! ### What the calls leave as it is -/

section Calls

variable {containers} {s s' : σ} {fleet : List String} {labId : String}

theorem Serves.same (hs : Serves listing s fleet) (h : listing.Same s s') : Serves listing s' fleet :=
  ⟨hs.nodup, ((h.filter _).map _).trans hs.managed⟩

/-- What is kept of the daemon, whatever becomes of the lists of what was made. -/
def besides (F : Frame σ) : Frame (σ × Created) where
  rel p p' := F.rel p.1 p'.1
  refl _ := F.refl _
  trans h h' := F.trans h h'

theorem within_calling {F : Frame σ} {x : EStateM ε σ α} {p : σ × Created} (h : Within F x p.1) :
    Within (besides F) (calling x) p := by
  obtain ⟨s, created⟩ := p
  unfold Within at h ⊢
  cases hx : x s with
  | ok a s' =>
    rw [calling_eq_ok (p := (s', created)) |>.mpr ⟨hx, rfl⟩]
    rw [hx] at h
    exact h
  | error e s' =>
    rw [calling_eq_error (p := (s', created)) |>.mpr ⟨e, hx, rfl, rfl⟩]
    rw [hx] at h
    exact h

theorem spares_decode {output : ByteArray} (s : σ) :
    Within listing.sparing (decode output : EStateM (ContainerExc ε) σ String) s := .orRaise _ _

/-- What is passed over never raises, and spares what it spares. -/
theorem passing_run (x : EStateM ε σ Unit) (s : σ) : passing x s = .ok () (endState (x s)) := by
  unfold passing
  cases x s <;> rfl

theorem spares_passing {F : Frame σ} {x : EStateM ε σ Unit} (h : Within F x s) : Within F (passing x) s := by
  unfold Within
  rw [passing_run]
  exact h

theorem forM_passing_run {γ : Type} (xs : List γ) (x : γ → EStateM ε σ Unit) (s : σ) :
    ∃ s', xs.forM (fun y => passing (x y)) s = .ok () s' := by
  induction xs generalizing s with
  | nil => exact ⟨s, rfl⟩
  | cons y ys ih =>
    obtain ⟨s', hs'⟩ := ih (endState (x y s))
    exact ⟨s', bind_of_ok (passing_run (x y) s) hs'⟩

variable (hlawful : containers.Lawful listing)

include hlawful

theorem spares_startLab (s : σ) : Within listing.sparing (startLab containers labId) s :=
  (hlawful.getContainer _ s).bind fun container s' _ _ => hlawful.start container s'

theorem spares_stopLab {timeout : ℤ} (s : σ) : Within listing.sparing (stopLab containers labId timeout) s :=
  (hlawful.getContainer _ s).bind fun container s' _ _ => hlawful.stop container timeout s'

theorem spares_inspectLab (s : σ) : Within listing.sparing (inspectLab containers labId) s :=
  (hlawful.getContainer _ s).bind fun container s' _ _ =>
    (hlawful.reload container s').bind fun _ _ _ _ => .pure _

theorem spares_execRun {command : String} (s : σ) :
    Within listing.sparing (DockerRuntime.execRun containers labId command) s :=
  (Within.adaptExcept (hlawful.getContainer _ s)).bind fun container s' _ _ =>
    (Within.adaptExcept (hlawful.execRun container command s')).bind fun _ s'' _ _ =>
      (spares_decode s'').bind fun _ _ _ _ => .pure _

theorem spares_getLogs {tail : String} (s : σ) :
    Within listing.sparing (DockerRuntime.getLogs containers labId tail) s :=
  (Within.adaptExcept (hlawful.getContainer _ s)).bind fun container s' _ _ =>
    (Within.adaptExcept (hlawful.logs container tail s')).bind fun _ s'' _ _ => spares_decode s''

theorem spares_listManagedLabs (s : σ) : Within listing.sparing (listManagedLabs listing) s :=
  (hlawful.list _ _ s).bind fun _ _ _ _ => .pure _

/-! ### Creation and destruction -/

/-- What comes after the container of a lab is removed neither raises nor touches another container. -/
theorem rest_of_destroyLab (labId : String) (removePersistentVolume : Bool) (mounts : List String) (s : σ) :
    ∃ s', (do
      removeLabNetwork containers labId
      whenever removePersistentVolume (mounts.forM (removeMountedVolume containers))) s = .ok () s' ∧
      listing.Same s s' := by
  have hnetwork : Within listing.sparing (removeLabNetwork containers labId) s :=
    spares_passing ((hlawful.getNetwork _ s).bind fun network s' _ _ => hlawful.removeNetwork network s')
  have hvolumes : ∀ s, Within listing.sparing (mounts.forM (removeMountedVolume containers)) s := fun s =>
    Within.forM (fun _ => True) trivial (fun name _ s' _ => spares_passing
      ((hlawful.getVolume name s').bind fun volume s'' _ _ => hlawful.removeVolume volume true s''))
      fun _ _ _ _ _ _ _ => trivial
  obtain ⟨s₂, hrun⟩ : ∃ s₂, whenever removePersistentVolume (mounts.forM (removeMountedVolume containers))
      (endState ((do
        let network ← containers.getNetwork (networkName labId)
        client.removeNetwork network) s)) = .ok () s₂ := by
    cases removePersistentVolume with
    | false => exact ⟨_, rfl⟩
    | true => exact forM_passing_run mounts _ _
  have hall : (do
      removeLabNetwork containers labId
      whenever removePersistentVolume (mounts.forM (removeMountedVolume containers))) s = .ok () s₂ :=
    bind_of_ok (passing_run _ s) hrun
  refine ⟨s₂, hall, ?_⟩
  exact (hnetwork.bind fun _ s' _ _ => Within.whenever fun _ => hvolumes s').of_ok hall

/-- A destruction that returns has removed the container of the lab, and one that raises none. -/
theorem contained_of_destroyLab (removePersistentVolume : Bool) (s : σ) :
    (∃ s', destroyLab containers labId removePersistentVolume s = .ok () s' ∧
      (listing.contained s').Perm ((listing.contained s).filter fun entry => entry.1 ≠ containerName labId)) ∨
    ∃ e s', destroyLab containers labId removePersistentVolume s = .error e s' ∧ listing.Same s s' := by
  have hgets : Within listing.sparing (getContainer containers labId) s :=
    hlawful.getContainer (containerName labId) s
  cases hget : getContainer containers labId s with
  | error e s₁ => exact .inr ⟨e, s₁, bind_eq_error.mpr (.inl hget), hgets.of_error hget⟩
  | ok container s₁ =>
    have hsame : listing.Same s s₁ := hgets.of_ok hget
    have hname : container.name = containerName labId := hlawful.getContainer_ok hget
    cases hremove : containers.removeContainer container true s₁ with
    | error e s₂ =>
      refine .inr ⟨e, s₂, bind_eq_error.mpr (.inr ⟨_, _, hget, bind_eq_error.mpr (.inl hremove)⟩), ?_⟩
      exact (hlawful.removeContainer_error hremove).trans hsame
    | ok u s₂ =>
      obtain ⟨s₃, hrest, hspared⟩ := rest_of_destroyLab hlawful labId removePersistentVolume
        (extractVolumeNames container) s₂
      refine .inl ⟨s₃, bind_of_ok hget (bind_of_ok hremove hrest), hspared.trans ?_⟩
      rw [← hname]
      exact (hlawful.removeContainer_ok hremove).trans (hsame.filter _)

/-- Cleaning up after a creation spares the containers. -/
theorem within_cleanUp (created : Created) (s : σ) : Within listing.sparing (cleanUp client created) s := by
  refine Within.bind ?_ fun _ s' _ _ => Within.forM (fun _ => True) trivial
    (fun volume _ s _ => hlawful.removeVolume volume true s) fun _ _ _ _ _ _ _ => trivial
  cases created.network with
  | none => exact .pure _
  | some network => exact hlawful.removeNetwork network s

/-- Where provisioning raises it has made no container. -/
theorem same_of_provision {now : ℤ} {spec : RuntimeSpec} {e : RuntimeExc ε} {created : Created}
    (h : provision client now labId spec (s, {}) = .error e (s', created)) : listing.Same s s' := by
  have hvolumes : ∀ p : σ × Created, Within (besides listing.sparing)
      (spec.managedMounts.forM (provisionVolume client (labels labId spec.labels))) p := fun p =>
    Within.forM (fun _ => True) trivial (fun mount _ p _ =>
      (within_calling (hlawful.createVolume mount.source (labels labId spec.labels) p.1)).bind
        fun _ p' _ _ => (besides listing.sparing).refl _) fun _ _ _ _ _ _ _ => trivial
  have hnetwork : Within (besides listing.sparing) (provisionNetwork client labId spec) (s, {}) :=
    Within.whenever fun _ =>
      (within_calling (p := (s, {})) (hlawful.createNetwork (networkRequest labId spec) s)).bind
      fun _ p' _ _ => (besides listing.sparing).refl _
  rcases bind_eq_error.mp h with h | ⟨_, p₁, h₁, h⟩
  · exact hnetwork.of_error h
  have hs₁ : listing.Same s p₁.1 := hnetwork.of_ok h₁
  rcases bind_eq_error.mp h with h | ⟨_, p₂, h₂, h⟩
  · exact ((hvolumes p₁).of_error h).trans hs₁
  have hs₂ : listing.Same s p₂.1 := ((hvolumes p₁).of_ok h₂).trans hs₁
  rcases bind_eq_error.mp h with h | ⟨environment, p₃, h₃, h⟩
  · obtain ⟨-, rfl⟩ := fromExcept_eq_error.mp h
    exact hs₂
  · obtain ⟨-, rfl⟩ := fromExcept_eq_ok.mp h₃
    obtain ⟨_, hraises, -, -⟩ := calling_eq_error.mp h
    exact (hlawful.createContainer_error hraises).trans hs₂

/-- A creation that raises has made no container. -/
theorem same_of_createLab {now : ℤ} {spec : RuntimeSpec} {e : Propagated ε}
    (h : createLab client now labId spec s = .error e s') : listing.Same s s' := by
  unfold createLab at h
  split at h
  · cases h
  · next e' s₁ created hprovision =>
    have hsame := same_of_provision hlawful hprovision
    split at h
    · next hcleaned =>
      obtain ⟨-, rfl⟩ := EStateM.Result.error.inj h
      exact ((within_cleanUp hlawful created s₁).of_ok hcleaned).trans hsame
    · next hraised =>
      obtain ⟨-, rfl⟩ := EStateM.Result.error.inj h
      exact ((within_cleanUp hlawful created s₁).of_error hraised).trans hsame

end Calls

/-! ### Serving -/

section Serving

variable {containers} {s s' : σ} {fleet : List String}

/-- A lab of the fleet is not created again: the daemon would not give its name to another container. -/
theorem notMem_of_createLab (hlisting : listing.Lawful) {now : ℤ} {labId : String} {spec : RuntimeSpec}
    {lab : ProvisionedLab} (hs : Serves listing s fleet)
    (h : createLab client now labId spec s = .ok lab s') :
    labId ∉ fleet := by
  obtain ⟨-, n, s₁, s₂, environment, hnetworked, hobtained, hcontainer⟩ := container_of_createLab h
  obtain ⟨hfresh, -⟩ := hlisting.createContainer_ok hcontainer
  rw [listed_of_obtained hlisting hobtained, listed_of_networked hlisting hnetworked] at hfresh
  intro hmem
  have hmanaged : (containerName labId, some labId) ∈ managed listing s :=
    hs.managed.symm.subset (List.mem_map_of_mem hmem)
  obtain ⟨entry, hentry, he⟩ := List.mem_map.mp hmanaged
  obtain ⟨other, hother, rfl⟩ := List.mem_map.mp (List.mem_filter.mp hentry).1
  exact hfresh other hother (congrArg Prod.fst he)

/-- A creation that returns has made the container of its lab. -/
theorem serves_of_createLab (hlisting : listing.Lawful) {now : ℤ} {labId : String} {spec : RuntimeSpec}
    {lab : ProvisionedLab} (hplain : spec.Plain) (hs : Serves listing s fleet)
    (h : createLab client now labId spec s = .ok lab s') : Serves listing s' (labId :: fleet) := by
  refine ⟨List.nodup_cons.mpr ⟨notMem_of_createLab hlisting hs h, hs.nodup⟩, ?_⟩
  obtain ⟨-, n, s₁, s₂, environment, hnetworked, hobtained, hcontainer⟩ := container_of_createLab h
  obtain ⟨-, container, hname, hlabels, hperm⟩ := hlisting.createContainer_ok hcontainer
  rw [listed_of_obtained hlisting hobtained, listed_of_networked hlisting hnetworked] at hperm
  have hmarked : container.labels.get? "labos.managed" = some "true" := by
    rw [get?_container_labels hlabels rfl, get?_labels, hplain.1]
    rfl
  have howned : container.labels.get? "labos.lab_id" = some labId := by
    rw [get?_container_labels hlabels rfl, get?_labels, hplain.2]
    rfl
  have hcontained : (listing.contained s').Perm ((container.name, container.labels) :: listing.contained s) :=
    hperm.map _
  have hnew : (managed listing s').Perm ((containerName labId, some labId) :: managed listing s) := by
    refine ((hcontained.filter _).map _).trans (List.Perm.of_eq ?_)
    rw [List.filter_cons_of_pos (by simpa using hmarked), List.map_cons, howned, hname]
    rfl
  exact hnew.trans (hs.managed.cons _)

/-- A destruction that returns has removed the container of its lab. -/
theorem serves_filter {labId : String} (hs : Serves listing s fleet)
    (h : (listing.contained s').Perm ((listing.contained s).filter fun entry =>
      entry.1 ≠ containerName labId)) :
    Serves listing s' (fleet.filter (· ≠ labId)) := by
  refine ⟨hs.nodup.filter _, ?_⟩
  have hmanaged : (managed listing s').Perm ((managed listing s).filter fun entry =>
      entry.1 ≠ containerName labId) := by
    refine ((h.filter _).map _).trans (List.Perm.of_eq ?_)
    rw [List.filter_filter, managed, List.filter_map, List.filter_filter]
    congr 1
    exact List.filter_congr fun entry _ => Bool.and_comm _ _
  refine (hmanaged.trans (hs.managed.filter _)).trans (List.Perm.of_eq ?_)
  rw [List.filter_map]
  congr 1
  refine List.filter_congr fun other _ => ?_
  simp only [Function.comp_apply, ne_eq, decide_eq_decide, not_iff_not]
  exact ⟨containerName_inj, congrArg containerName⟩

/-- **Each action leaves a daemon that serves the fleet** as the action changes it. -/
theorem serves_of_step (hlisting : listing.Lawful) (hlawful : containers.Lawful listing)
    {p : σ × List String} (a : FleetAction listing) (hp : Serves listing p.1 p.2) (hplain : a.Plain) :
    Serves listing (fleetStep containers p a).1 (fleetStep containers p a).2 := by
  obtain ⟨s, fleet⟩ := p
  cases a with
  | create now labId spec =>
    cases h : createLab client now labId spec s with
    | ok lab s' =>
      have hrun : (FleetAction.create now labId spec : FleetAction listing).run containers s =
          (true, s') := by
        rw [FleetAction.run, h]
        rfl
      rw [fleetStep, hrun]
      exact serves_of_createLab hlisting hplain hp h
    | error e s' =>
      have hrun : (FleetAction.create now labId spec : FleetAction listing).run containers s =
          (false, s') := by
        rw [FleetAction.run, h]
        rfl
      rw [fleetStep, hrun]
      exact hp.same (same_of_createLab hlawful h)
  | start labId => exact hp.same (spares_startLab hlawful s)
  | stop labId timeout => exact hp.same (spares_stopLab hlawful s)
  | execRun labId command => exact hp.same (spares_execRun hlawful s)
  | getLogs labId tail => exact hp.same (spares_getLogs hlawful s)
  | inspect labId => exact hp.same (spares_inspectLab hlawful s)
  | list => exact hp.same (spares_listManagedLabs hlawful s)
  | destroy labId removePersistentVolume =>
    rcases contained_of_destroyLab hlawful removePersistentVolume s with ⟨s', h, hremoved⟩ | ⟨e, s', h, hsame⟩
    · have hrun : (FleetAction.destroy labId removePersistentVolume : FleetAction listing).run containers s =
          (true, s') := by
        rw [FleetAction.run, h]
        rfl
      rw [fleetStep, hrun]
      exact serves_filter hp hremoved
    · have hrun : (FleetAction.destroy labId removePersistentVolume : FleetAction listing).run containers s =
          (false, s') := by
        rw [FleetAction.run, h]
        rfl
      rw [fleetStep, hrun]
      exact hp.same hsame
  | others f spares => exact ⟨hp.nodup, ((spares s).map _).trans hp.managed⟩

/-- What is listed of a daemon that serves a fleet: each lab of it once, in order, with its container. -/
theorem listManagedLabs_of_serves (hlisting : listing.Lawful) (hs : Serves listing s fleet) :
    ∃ inspections, listManagedLabs listing s = .ok inspections s ∧
      (inspections.map LabInspection.labId).Pairwise (· < ·) ∧
      (inspections.map LabInspection.labId).Perm fleet ∧
      ∀ inspection, inspection ∈ inspections ↔ ∃ container ∈ listing.listed s,
        container.labels.get? "labos.managed" = some "true" ∧ inspection? container = some inspection := by
  obtain ⟨listed, hlist, hmanaged⟩ := hlisting.list_ok (s := s) "labos.managed" "true" (by decide)
  refine ⟨_, bind_of_ok hlist rfl, ?_⟩
  have hids : ((listed.filterMap inspection?).map LabInspection.labId).Perm fleet := by
    have hfound : (listed.filterMap inspection?).map LabInspection.labId =
        listed.filterMap fun container => container.labels.get? "labos.lab_id" := by
      rw [List.map_filterMap]
      refine List.filterMap_congr fun container _ => ?_
      unfold inspection?
      cases container.labels.get? "labos.lab_id" <;> rfl
    have hall : (managed listing s).filterMap Prod.snd = ((listing.listed s).filter fun container =>
        container.labels.get? "labos.managed" = some "true").filterMap fun container =>
          container.labels.get? "labos.lab_id" := by
      unfold managed DockerListing.contained
      rw [List.filter_map, List.map_map, List.filterMap_map]
      rfl
    rw [hfound]
    refine (hmanaged.filterMap _).trans ((List.Perm.of_eq hall.symm).trans ?_)
    refine (hs.managed.filterMap _).trans (List.Perm.of_eq ?_)
    rw [List.filterMap_map]
    exact List.filterMap_some
  have hsorted : ((listed.filterMap inspection?).insertionSort fun a b => a.labId ≤ b.labId).map
      LabInspection.labId = ((listed.filterMap inspection?).map LabInspection.labId).insertionSort (· ≤ ·) :=
    List.map_insertionSort _ _ _ _ fun _ _ _ _ => Iff.rfl
  have hperm := (List.perm_insertionSort (· ≤ ·) _).trans hids
  refine ⟨?_, hsorted ▸ hperm, fun inspection => ?_⟩
  · rw [hsorted]
    have hle := List.pairwise_insertionSort (· ≤ ·) ((listed.filterMap inspection?).map LabInspection.labId)
    have hnodup := hperm.nodup_iff.mpr hs.nodup
    exact (hle.and hnodup).imp fun h => lt_of_le_of_ne h.1 h.2
  · rw [List.mem_insertionSort, List.mem_filterMap]
    refine exists_congr fun container => ?_
    rw [hmanaged.mem_iff, List.mem_filter]
    simp [and_assoc]

/-- Every managed container is of a lab of the fleet, under its name. -/
theorem containerName_of_serves (hs : Serves listing s fleet) {container : ListedContainer}
    {inspection : LabInspection} (hmem : container ∈ listing.listed s)
    (hmarked : container.labels.get? "labos.managed" = some "true")
    (hinspect : inspection? container = some inspection) :
    inspection.labId ∈ fleet ∧ container.name = containerName inspection.labId := by
  obtain ⟨labId, howned, rfl⟩ := Option.map_eq_some_iff.mp hinspect
  have hentry : (container.name, some labId) ∈ managed listing s := by
    refine List.mem_map.mpr ⟨(container.name, container.labels), List.mem_filter.mpr ⟨?_, ?_⟩, ?_⟩
    · exact List.mem_map_of_mem
        (f := fun container : ListedContainer => (container.name, container.labels)) hmem
    · simpa using hmarked
    · rw [howned]
  obtain ⟨other, hother, he⟩ := List.mem_map.mp (hs.managed.subset hentry)
  obtain ⟨hname, hlab⟩ := Prod.mk.inj he
  obtain rfl := Option.some.inj hlab
  exact ⟨hother, hname.symm⟩

/-- Every lab of the fleet has its container, and no other container has its name. -/
theorem container_of_mem (hlawful : containers.Lawful listing) (hs : Serves listing s fleet) {labId : String}
    (hmem : labId ∈ fleet) :
    ∃ container ∈ listing.listed s, container.labels.get? "labos.managed" = some "true" ∧
      container.labels.get? "labos.lab_id" = some labId ∧ container.name = containerName labId ∧
      ∀ other ∈ listing.listed s, other.name = containerName labId → other.status = container.status ∧
        other.labels = container.labels := by
  have hentry : (containerName labId, some labId) ∈ managed listing s :=
    hs.managed.symm.subset (List.mem_map_of_mem hmem)
  obtain ⟨entry, hentry, he⟩ := List.mem_map.mp hentry
  obtain ⟨hcontained, hmarked⟩ := List.mem_filter.mp hentry
  obtain ⟨container, hcontainer, rfl⟩ := List.mem_map.mp hcontained
  obtain ⟨hname, howned⟩ := Prod.mk.inj he
  refine ⟨container, hcontainer, by simpa using hmarked, howned, hname, fun other hother hsame => ?_⟩
  have hnames : ((listing.listed s).map ListedContainer.name).Nodup := by
    have h := hlawful.names s
    rwa [DockerListing.contained, List.map_map] at h
  obtain rfl := List.inj_on_of_nodup_map hnames hother hcontainer (hsame.trans hname.symm)
  exact ⟨rfl, rfl⟩

end Serving

/-- A pass keeps every lab and adds none, so its orphans are those of the store it starts from. -/
theorem isOrphan_checked {β : Type} (service : Reconciler β) (now : DateTime) (t : Session β)
    (inspection : LabInspection) :
    ReconciliationService.isOrphan (ReconciliationService.checked service now t).labs inspection =
      (t.store.labs.get? inspection.labId).isNone := by
  have hkept : ((ReconciliationService.pass service now t).store.labs.get? inspection.labId).isSome =
      (t.store.labs.get? inspection.labId).isSome := by
    rw [ReconciliationService.get?_labs, Option.isSome_map, ReconciliationService.isSome_get?_retried]
  show ((ReconciliationService.pass service now t).store.labs.get? inspection.labId).isNone = _
  rw [← Option.not_isSome, hkept, Option.not_isSome]

section Runs

variable (containers : DockerContainers client)

/-- After every run in which no creation asks for a label that the runtime reads, the daemon serves the
fleet. -/
theorem serves_of_run (hlisting : listing.Lawful) (hlawful : containers.Lawful listing) {s₀ : σ}
    (h₀ : managed listing s₀ = []) {actions : List (FleetAction listing)} (hplain : ∀ a ∈ actions, a.Plain) :
    Serves listing (Runs.after (fleetStep containers) (s₀, []) actions).1
      (Runs.after (fleetStep containers) (s₀, []) actions).2 :=
  have hallowed : Runs.Allowed (fleetStep containers) (fun _ a => a.Plain) (s₀, []) actions :=
    Runs.allowed_of_forall hplain
  Runs.after_keeps_of (I := fun p : σ × List String => Serves listing p.1 p.2)
    (fun _ a hp ha => serves_of_step hlisting hlawful a hp ha) ⟨List.nodup_nil, by rw [h₀]; exact .nil⟩
    hallowed

/-- **The fleet is served.** After any run of the runtime over labs of any ids, in which no creation asks for
a label that the runtime reads and any call may raise, beside whatever others do but for the managed
containers: the managed labs that are listed are the labs of the fleet, each once and in order, each with its
container; no lab of the fleet can be created again; and what is inspected of a lab of the fleet is what is
listed of it, but for the labels, which are those the runtime gives a lab. -/
theorem fleet_served (hlisting : listing.Lawful) (hlawful : containers.Lawful listing) (s₀ : σ)
    (h₀ : managed listing s₀ = []) (actions : List (FleetAction listing)) (hplain : ∀ a ∈ actions, a.Plain)
    (s : σ) (fleet : List String)
    (hrun : Runs.after (fleetStep containers) (s₀, []) actions = (s, fleet)) :
    (∃ inspections, listManagedLabs listing s = .ok inspections s ∧
      (inspections.map LabInspection.labId).Pairwise (· < ·) ∧
      (∀ labId, labId ∈ inspections.map LabInspection.labId ↔ labId ∈ fleet) ∧
      ∀ inspection ∈ inspections, inspection.containerName = containerName inspection.labId) ∧
    ∀ labId ∈ fleet,
      (∀ now spec, ∃ e s', createLab client now labId spec s = .error e s') ∧
      ∀ inspection s', inspectLab containers labId s = .ok inspection s' →
        inspection.labels = labels labId [] ∧
        ∃ inspections, listManagedLabs listing s' = .ok inspections s' ∧
          ∃ listed ∈ inspections, listed = { inspection with labels := listed.labels } := by
  have hs : Serves listing s fleet := by
    have h := serves_of_run containers hlisting hlawful h₀ hplain
    rwa [hrun] at h
  refine ⟨?_, fun labId hmem => ⟨fun now spec => ?_, fun inspection s' h => ?_⟩⟩
  · obtain ⟨inspections, hlist, hsorted, hids, hfound⟩ := listManagedLabs_of_serves hlisting hs
    refine ⟨inspections, hlist, hsorted, fun labId => hids.mem_iff, fun inspection hinspection => ?_⟩
    obtain ⟨container, hcontainer, hmarked, hinspect⟩ := (hfound inspection).mp hinspection
    rw [containerName_of_inspection hinspect]
    exact (containerName_of_serves hs hcontainer hmarked hinspect).2
  · cases h : createLab client now labId spec s with
    | error e s' => exact ⟨e, s', rfl⟩
    | ok lab s' => exact absurd hmem (notMem_of_createLab hlisting hs h)
  · obtain ⟨handle, s₁, hget, h⟩ := bind_eq_ok.mp h
    obtain ⟨reloaded, s₂, hreload, h⟩ := bind_eq_ok.mp h
    obtain ⟨rfl, rfl⟩ := pure_eq_ok.mp h
    have hs₂ : Serves listing s₂ fleet := (hs.same ((hlawful.getContainer _ s).of_ok hget)).same
      ((hlawful.reload handle s₁).of_ok hreload)
    obtain ⟨there, hthere, hname, hstatus⟩ := hlawful.reload_ok hreload
    obtain ⟨container, -, hmarked, howned, -, hunique⟩ := container_of_mem hlawful hs₂ hmem
    have hlabels := (hunique there hthere (hname.trans (hlawful.getContainer_ok hget))).2
    obtain ⟨inspections, hlist, -, -, hfound⟩ := listManagedLabs_of_serves hlisting hs₂
    have hlisted : inspection? there =
        some ⟨labId, backendName, containerName labId, there.status, there.labels⟩ := by
      rw [inspection?, hlabels, howned, Option.map_some, hname, hlawful.getContainer_ok hget]
    refine ⟨rfl, inspections, hlist, _, (hfound _).mpr ⟨there, hthere, hlabels ▸ hmarked, hlisted⟩, ?_⟩
    rw [hstatus, Option.getD_some]

/-- What a pass reports of an inventory in which every lab is listed once. -/
theorem pairwise_reported {inspections : List LabInspection}
    (h : (inspections.map LabInspection.labId).Pairwise (· < ·)) (reports : LabInspection → Bool) :
    (((inspections.filter reports).map LabInspection.labId).insertionSort (· ≤ ·)).Pairwise (· < ·) := by
  have hsub : ((inspections.filter reports).map LabInspection.labId).Pairwise (· < ·) :=
    h.sublist ((List.filter_sublist).map _)
  rw [List.Pairwise.insertionSort_eq (hsub.imp le_of_lt)]
  exact hsub

theorem mem_reported {inspections : List LabInspection} {reports : LabInspection → Bool} {labId : String} :
    labId ∈ ((inspections.filter reports).map LabInspection.labId).insertionSort (· ≤ ·) ↔
      ∃ inspection ∈ inspections, reports inspection = true ∧ inspection.labId = labId := by
  rw [List.mem_insertionSort, List.mem_map]
  simp only [List.mem_filter, and_assoc]

/-- **The orphans of a pass** over what the runtime lists, after any such run of it, are the labs of the fleet that
have no row, and its zombies those whose container is up for a lab in a state without one; each is
reported once. -/
theorem orphans_of_fleet {β : Type} (hlisting : listing.Lawful) (hlawful : containers.Lawful listing)
    (s₀ : σ) (h₀ : managed listing s₀ = []) (actions : List (FleetAction listing))
    (hplain : ∀ a ∈ actions, a.Plain) (s : σ) (fleet : List String)
    (hrun : Runs.after (fleetStep containers) (s₀, []) actions = (s, fleet)) (service : Reconciler β)
    (now : DateTime) (t : Session β) :
    ∃ inspections report t', listManagedLabs listing s = .ok inspections s ∧
      ReconciliationService.reconcile { service with runtimeInventory := some inspections } now t =
        .ok report t' ∧
      report.orphanedRuntimeLabIds.Pairwise (· < ·) ∧
      (∀ labId, labId ∈ report.orphanedRuntimeLabIds ↔ labId ∈ fleet ∧ t.store.labs.get? labId = none) ∧
      report.zombieLabIds.Pairwise (· < ·) ∧
      ∀ labId, labId ∈ report.zombieLabIds ↔ labId ∈ fleet ∧ ∃ lab, t'.store.labs.get? labId = some lab ∧
        ∃ container ∈ listing.listed s, container.name = containerName labId ∧
          ReconciliationService.isZombieLab lab.state container.status = true := by
  have hs : Serves listing s fleet := by
    have h := serves_of_run containers hlisting hlawful h₀ hplain
    rwa [hrun] at h
  obtain ⟨inspections, hlist, hsorted, hids, hfound⟩ := listManagedLabs_of_serves hlisting hs
  refine ⟨inspections, _, _, hlist, ReconciliationService.reconcile_eq _ now t, ?_, fun labId => ?_, ?_,
    fun labId => ?_⟩
  · exact pairwise_reported hsorted _
  · refine mem_reported.trans ⟨?_, ?_⟩
    · rintro ⟨inspection, hinspection, horphan, rfl⟩
      rw [isOrphan_checked, Option.isNone_iff_eq_none] at horphan
      exact ⟨hids.subset (List.mem_map_of_mem hinspection), horphan⟩
    · rintro ⟨hmem, hnone⟩
      obtain ⟨inspection, hinspection, rfl⟩ := List.mem_map.mp (hids.symm.subset hmem)
      refine ⟨inspection, hinspection, ?_, rfl⟩
      rw [isOrphan_checked, hnone, Option.isNone_none]
  · exact pairwise_reported hsorted _
  · refine mem_reported.trans ⟨?_, ?_⟩
    · rintro ⟨inspection, hinspection, hzombie, rfl⟩
      obtain ⟨container, hcontainer, hmarked, hinspect⟩ := (hfound inspection).mp hinspection
      obtain ⟨hmem, hname⟩ := containerName_of_serves hs hcontainer hmarked hinspect
      obtain ⟨lab, hlab, hzombie⟩ := (Option.any_eq_true _ _).mp hzombie
      refine ⟨hmem, lab, hlab, container, hcontainer, hname, ?_⟩
      obtain ⟨labId, -, rfl⟩ := Option.map_eq_some_iff.mp hinspect
      exact hzombie
    · rintro ⟨hmem, lab, hlab, other, hother, hname, hzombie⟩
      obtain ⟨container, hcontainer, hmarked, howned, -, hunique⟩ := container_of_mem hlawful hs hmem
      have hinspect : inspection? container =
          some ⟨labId, backendName, container.name, container.status, container.labels⟩ := by
        rw [inspection?, howned, Option.map_some]
      refine ⟨_, (hfound _).mpr ⟨container, hcontainer, hmarked, hinspect⟩, ?_, rfl⟩
      refine (Option.any_eq_true _ _).mpr ⟨lab, hlab, ?_⟩
      rwa [← (hunique other hother hname).1]

end Runs

/-! ### A daemon whose containers have names of their own -/

/-- A container with what it uses. -/
abbrev TidyContainer : Type := ListedContainer × DockerContainer

/-- A daemon in which no two containers have one name. -/
structure TidyDaemon where
  networks : List String := []
  volumes : List String := []
  containers : Table fun container : TidyContainer => container.1.name := ∅

namespace TidyDaemon

/-- The container of a request. -/
def made (r : ContainerRequest) : TidyContainer :=
  (⟨r.name, "created", r.labels⟩, ⟨r.network.toList, r.volumes.map Prod.fst⟩)

/-- A container with another status, if it has the name. -/
def withStatus (name status : String) (container : TidyContainer) : TidyContainer :=
  if container.1.name = name then ({ container.1 with status := status }, container.2) else container

theorem name_withStatus (name status : String) (container : TidyContainer) :
    (withStatus name status container).1.name = container.1.name := by
  unfold withStatus
  split <;> rfl

theorem labels_withStatus (name status : String) (container : TidyContainer) :
    (withStatus name status container).1.labels = container.1.labels := by
  unfold withStatus
  split <;> rfl

/-- The containers, that of a name with another status. -/
def setStatus (name status : String) (s : TidyDaemon) : TidyDaemon :=
  { s with containers := ⟨s.containers.rows.map (withStatus name status), by
      rw [List.map_map]
      exact List.map_congr_left
        (fun container _ => name_withStatus name status container) ▸ s.containers.nodup⟩ }

/-- What is read of a container. -/
def handleOf (container : TidyContainer) : ContainerHandle where
  name := container.1.name
  mounts := container.2.volumes.map some
  status := some container.1.status

/-- Get a container. -/
def get (name : String) : EStateM String TidyDaemon ContainerHandle := fun s =>
  match s.containers.get? name with
  | some container => .ok (handleOf container) s
  | none => .error "no such container" s

end TidyDaemon

open TidyDaemon

/-- Its client. -/
def tidyClient : DockerClient TidyDaemon String where
  networks s := {n | n ∈ s.networks}
  volumes s := {v | v ∈ s.volumes}
  containers s := s.containers.rows.map Prod.snd
  createNetwork r s :=
    if r.name ∈ s.networks then .error "network exists" s
    else .ok r.name { s with networks := s.networks ++ [r.name] }
  createVolume v _ s := .ok v (if v ∈ s.volumes then s else { s with volumes := s.volumes ++ [v] })
  createContainer r s :=
    if (s.containers.get? r.name).isSome then .error "name in use" s
    else .ok () { s with containers := s.containers.put (made r) }
  removeNetwork n s :=
    if n ∈ s.networks then .ok () { s with networks := s.networks.filter (· ≠ n) }
    else .error "no such network" s
  removeVolume v _ s :=
    if v ∈ s.volumes then .ok () { s with volumes := s.volumes.filter (· ≠ v) } else .error "no such volume" s

/-- What it lists. -/
def tidyListing : DockerListing tidyClient where
  listed s := s.containers.rows.map Prod.fst
  list _ label s := .ok ((s.containers.rows.map Prod.fst).filter fun container =>
    container.labels.get? (labelOf label.toList).1 = some (labelOf label.toList).2) s

/-- Its containers. -/
def tidyContainers : DockerContainers tidyClient where
  getContainer := TidyDaemon.get
  reload container := TidyDaemon.get container.name
  start container s := .ok () (s.setStatus container.name "running")
  stop container _ s := .ok () (s.setStatus container.name "exited")
  execRun _ _ s := .ok ⟨0, .empty⟩ s
  logs _ _ s := .ok .empty s
  removeContainer container _ s :=
    if (s.containers.get? container.name).isSome
      then .ok () { s with containers := s.containers.restrict fun other => other.1.name ≠ container.name }
    else .error "no such container" s
  getNetwork name s := if name ∈ s.networks then .ok name s else .error "no such network" s
  getVolume name s := if name ∈ s.volumes then .ok name s else .error "no such volume" s

theorem tidyListing_lawful : tidyListing.Lawful where
  createNetwork_ok {r s n s'} h := by
    simp only [tidyClient] at h
    split at h
    · cases h
    · obtain ⟨-, rfl⟩ := EStateM.Result.ok.inj h
      rfl
  createVolume_ok {v labels s v' s'} h := by
    obtain ⟨-, rfl⟩ := EStateM.Result.ok.inj h
    split <;> rfl
  createContainer_ok {r s u s'} h := by
    simp only [tidyClient] at h
    split at h
    · cases h
    · next hfree =>
      obtain ⟨-, rfl⟩ := EStateM.Result.ok.inj h
      have hnone : s.containers.get? (made r).1.name = none := by simpa [made] using hfree
      refine ⟨?_, (made r).1, rfl, fun _ _ hlabel => hlabel, ?_⟩
      · intro container hcontainer hname
        obtain ⟨entry, hentry, rfl⟩ := List.mem_map.mp hcontainer
        have hfound := Table.get?_of_mem hentry
        rw [hname] at hfound
        exact hfree (by rw [hfound]; rfl)
      · simp only [tidyListing, Table.rows_put_of_fresh hnone, List.map_append]
        exact List.perm_append_singleton _ _
  list_ok {s} key value h := by
    refine ⟨_, rfl, ?_⟩
    rw [labelOf_append h]
    exact .refl _

/-- A call that leaves the names and the labels as they are takes no container away and makes none. -/
theorem spares_of_contained {x : EStateM ε σ α}
    (h : ∀ s, listing.contained (endState (x s)) = listing.contained s) :
    listing.Spares x := fun s => List.Perm.of_eq (h s)

theorem contained_setStatus (name status : String) (s : TidyDaemon) :
    tidyListing.contained (s.setStatus name status) = tidyListing.contained s := by
  simp only [DockerListing.contained, tidyListing, setStatus, List.map_map]
  refine List.map_congr_left fun container _ => ?_
  simp only [Function.comp_apply, name_withStatus, labels_withStatus]

theorem spares_get (name : String) : tidyListing.Spares (TidyDaemon.get name) := by
  refine spares_of_contained fun s => ?_
  unfold TidyDaemon.get
  cases s.containers.get? name <;> rfl

theorem tidyContainers_lawful : tidyContainers.Lawful tidyListing where
  names s := by
    simp only [DockerListing.contained, tidyListing, List.map_map]
    exact s.containers.nodup
  list _ _ := spares_of_contained fun _ => rfl
  createNetwork r := spares_of_contained fun s => by
    simp only [tidyClient]
    split <;> rfl
  createVolume v _ := spares_of_contained fun s => by
    simp only [tidyClient, endState_ok]
    split <;> rfl
  createContainer_error {r s e s'} h := by
    simp only [tidyClient] at h
    split at h
    · obtain ⟨-, rfl⟩ := EStateM.Result.error.inj h
      exact .refl _
    · cases h
  removeNetwork n := spares_of_contained fun s => by
    simp only [tidyClient]
    split <;> rfl
  removeVolume v _ := spares_of_contained fun s => by
    simp only [tidyClient]
    split <;> rfl
  getContainer := spares_get
  getContainer_ok {name s container s'} h := by
    simp only [tidyContainers, TidyDaemon.get] at h
    split at h
    · next found hfound =>
      obtain ⟨rfl, -⟩ := EStateM.Result.ok.inj h
      have hname := Table.key_of_get? hfound
      exact hname
    · cases h
  reload container := spares_get container.name
  reload_ok {container s container' s'} h := by
    simp only [tidyContainers, TidyDaemon.get] at h
    split at h
    · next found hfound =>
      obtain ⟨rfl, rfl⟩ := EStateM.Result.ok.inj h
      have hname := Table.key_of_get? hfound
      exact ⟨found.1, List.mem_map_of_mem (Table.mem_of_get? hfound), hname, rfl⟩
    · cases h
  start container := spares_of_contained fun s => contained_setStatus container.name "running" s
  stop container _ := spares_of_contained fun s => contained_setStatus container.name "exited" s
  execRun _ _ := spares_of_contained fun _ => rfl
  logs _ _ := spares_of_contained fun _ => rfl
  getNetwork name := spares_of_contained fun s => by
    simp only [tidyContainers]
    split <;> rfl
  getVolume name := spares_of_contained fun s => by
    simp only [tidyContainers]
    split <;> rfl
  removeContainer_ok {container force s u s'} h := by
    simp only [tidyContainers] at h
    split at h
    · obtain ⟨-, rfl⟩ := EStateM.Result.ok.inj h
      refine List.Perm.of_eq ?_
      simp only [DockerListing.contained, tidyListing, Table.restrict, List.map_map, List.filter_map]
      rfl
    · cases h
  removeContainer_error {container force s e s'} h := by
    simp only [tidyContainers] at h
    split at h
    · cases h
    · obtain ⟨-, rfl⟩ := EStateM.Result.error.inj h
      exact .refl _

theorem plain_mountSpec (sources : List String) : (mountSpec sources).Plain := ⟨rfl, rfl⟩

/-- Three labs are created, the first is started, and the second destroyed; the third is created twice. -/
def tidyRun : List (FleetAction tidyListing) :=
  [.create 0 "lab-1" (mountSpec ["work"]), .create 0 "lab-2" (mountSpec []),
   .create 0 "lab-3" (mountSpec []), .start "lab-1", .destroy "lab-2" true,
   .create 0 "lab-3" (mountSpec [])]

theorem plain_tidyRun : ∀ a ∈ tidyRun, a.Plain := by
  simp [tidyRun, FleetAction.Plain, plain_mountSpec]

/-- The labs that are left are listed, and none of them can be created once more. -/
theorem fleet_served_tidyRun : ∃ s inspections, listManagedLabs tidyListing s = .ok inspections s ∧
    (∀ labId, labId ∈ inspections.map LabInspection.labId ↔ labId ∈ ["lab-3", "lab-1"]) ∧
    ∃ e s', createLab tidyClient 0 "lab-3" (mountSpec []) s = .error e s' := by
  have hrun : Runs.after (fleetStep tidyContainers) ({}, []) tidyRun =
      ((Runs.after (fleetStep tidyContainers) ({}, []) tidyRun).1, ["lab-3", "lab-1"]) :=
    Prod.ext rfl (by decide +kernel)
  obtain ⟨⟨inspections, hlist, -, hids, -⟩, hlabs⟩ :=
    fleet_served tidyContainers tidyListing_lawful tidyContainers_lawful {} rfl tidyRun plain_tidyRun _ _ hrun
  exact ⟨_, inspections, hlist, hids, (hlabs "lab-3" (by decide)).1 0 (mountSpec [])⟩

/-- Over a database without rows, both are orphans. -/
theorem orphans_of_tidyRun : ∃ s inspections report t', listManagedLabs tidyListing s = .ok inspections s ∧
    ReconciliationService.reconcile { runtimeInventory := some inspections } (.utc 0)
      ⟨Store.empty, ⟨∅, []⟩, 0⟩ = .ok report (t' : Session Unit) ∧
    ∀ labId, labId ∈ report.orphanedRuntimeLabIds ↔ labId ∈ ["lab-3", "lab-1"] := by
  have hrun : Runs.after (fleetStep tidyContainers) ({}, []) tidyRun =
      ((Runs.after (fleetStep tidyContainers) ({}, []) tidyRun).1, ["lab-3", "lab-1"]) :=
    Prod.ext rfl (by decide +kernel)
  obtain ⟨inspections, report, t', hlist, hreport, -, horphans, -⟩ :=
    orphans_of_fleet tidyContainers tidyListing_lawful tidyContainers_lawful {} rfl tidyRun
      plain_tidyRun _ _ hrun
      { runtimeInventory := none } (.utc 0) ⟨Store.empty, ⟨∅, []⟩, 0⟩
  refine ⟨_, inspections, report, t', hlist, hreport, fun labId => ?_⟩
  rw [horphans]
  exact ⟨And.left, fun h => ⟨h, rfl⟩⟩

end LabOS
