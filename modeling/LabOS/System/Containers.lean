import LabOS.Runtimes.Inventory
import LabOS.System.Provisioning

/-!
# The container of a lab

When `create_lab` returns, the last it did is to make the container of the lab. Two maps that the
container is given are made of what the specification lists: the volumes it mounts, of the mounts, and its
labels, of the reserved labels and the labels of the specification. An item that comes later
under the same key replaces the one before.

## What is proved

* `container_of_createLab` — a lab that is created has a container with the volumes and the labels
  of its specification.
* `mounts_bound_iff` — **the container mounts what the specification lists, and nothing else,
  exactly when** no two different mounts have the same source.
* `created_lab_listed_iff` — **the new container is listed once, under the id of its lab, exactly
  when** the specification does not change the reserved labels that the runtime reads.

## Where the code parts from its callers

`mount_lost`: of two mounts of one volume the first is not bound, so that a volume that was to be
read-only at one place is writable at another. `lab_mislabelled`: a specification with a label
`labos.lab_id` makes a container that is listed as another lab's.
-/

namespace LabOS

open Exceptional DockerRuntime

variable {σ ε : Type} {client : DockerClient σ ε} {now : ℤ} {labId : String} {spec : RuntimeSpec} {s s' : σ}
  {lab : ProvisionedLab}

/-- **What a created lab took**: its network, its volumes and its container. -/
theorem container_of_createLab (h : createLab client now labId spec s = .ok lab s') :
    lab = provisioned labId spec ∧ ∃ n s₁ s₂ environment, Networked client labId spec s n s₁ ∧
      Obtained client (labels labId spec.labels) spec.managedMounts s₁ s₂ ∧
      client.createContainer (containerRequest labId spec environment) s₂ = .ok () s' := by
  unfold createLab at h
  split at h
  · next s₃ created hprovision =>
    obtain ⟨rfl, rfl⟩ := EStateM.Result.ok.inj h
    obtain ⟨_, ⟨s₁, created₁⟩, hnetwork, hprovision⟩ := bind_eq_ok.mp hprovision
    obtain ⟨_, ⟨s₂, created₂⟩, hvolumes, hprovision⟩ := bind_eq_ok.mp hprovision
    obtain ⟨environment, _, hbuilds, hcontainer⟩ := bind_eq_ok.mp hprovision
    obtain ⟨-, rfl⟩ := fromExcept_eq_ok.mp hbuilds
    obtain ⟨n, hnetworked, -⟩ := networked_of_ok hnetwork
    exact ⟨rfl, n, s₁, s₂, environment, hnetworked, obtained_of_forM_ok hvolumes,
      (calling_eq_ok.mp hcontainer).1⟩
  · split at h <;> cases h

/-! ### Volumes -/

/-- How a mount is to be bound. -/
def boundAs (mount : ManagedMount) : VolumeBinding where
  bind := mount.target
  mode := if mount.readOnly then "ro" else "rw"

theorem boundAs_inj {mount mount' : ManagedMount} (hsource : mount.source = mount'.source)
    (h : boundAs mount = boundAs mount') : mount = mount' := by
  obtain ⟨source, target, readOnly⟩ := mount
  obtain ⟨source', target', readOnly'⟩ := mount'
  simp only [boundAs, VolumeBinding.mk.injEq] at h hsource ⊢
  refine ManagedMount.mk.injEq .. |>.mpr ⟨hsource, h.1, ?_⟩
  cases readOnly <;> cases readOnly' <;> simp at h ⊢

theorem buildVolumes_eq (mounts : List ManagedMount) :
    buildVolumes mounts = Dict.update [] (mounts.map fun mount => (mount.source, boundAs mount)) := by
  rw [buildVolumes, Dict.update, List.foldl_map]
  rfl

/-- **Every mount is bound, and nothing else, exactly when** no two different mounts have the same source. -/
theorem buildVolumes_faithful_iff {mounts : List ManagedMount} :
    (∀ source binding, (source, binding) ∈ buildVolumes mounts ↔
      ∃ mount ∈ mounts, source = mount.source ∧ binding = boundAs mount) ↔
    ∀ mount ∈ mounts, ∀ mount' ∈ mounts, mount.source = mount'.source → mount = mount' := by
  have hunique : (buildVolumes mounts).Unique := by
    rw [buildVolumes_eq]
    exact Dict.unique_update List.nodup_nil
  have hfound : ∀ source binding, (source, binding) ∈ buildVolumes mounts ↔
      Dict.get? (mounts.map fun mount => (mount.source, boundAs mount)) source = some binding := by
    intro source binding
    rw [Dict.mem_iff_get? hunique, buildVolumes_eq, Dict.get?_update, Dict.get?, Option.or_none]
  constructor
  · intro hfaithful mount hmount mount' hmount' hsource
    have hbound := (hfound _ _).mp ((hfaithful _ _).mpr ⟨mount, hmount, rfl, rfl⟩)
    have hbound' := (hfound _ _).mp ((hfaithful _ _).mpr ⟨mount', hmount', rfl, rfl⟩)
    rw [hsource, hbound'] at hbound
    exact boundAs_inj hsource (Option.some.inj hbound).symm
  · intro hsources source binding
    rw [hfound]
    constructor
    · intro hget
      obtain ⟨mount, hmount, he⟩ := List.mem_map.mp (Dict.mem_of_get? hget)
      obtain ⟨rfl, rfl⟩ := Prod.mk.inj he
      exact ⟨mount, hmount, rfl, rfl⟩
    · rintro ⟨mount, hmount, rfl, rfl⟩
      obtain ⟨binding, hget⟩ := Dict.exists_get?_of_mem (List.mem_map_of_mem
        (f := fun mount : ManagedMount => (mount.source, boundAs mount)) hmount)
      obtain ⟨mount', hmount', he⟩ := List.mem_map.mp (Dict.mem_of_get? hget)
      obtain ⟨hsource, rfl⟩ := Prod.mk.inj he
      rw [hget, hsources mount' hmount' mount hmount hsource]

/-- **The container of a lab mounts what the specification lists**, each source at its target and in its
mode, and nothing else, exactly when no two different mounts have the same source. -/
theorem mounts_bound_iff (client : DockerClient σ ε) (now : ℤ) (labId : String)
    (spec : RuntimeSpec) (s s' : σ) (lab : ProvisionedLab)
    (h : createLab client now labId spec s = .ok lab s') :
    ∃ s₂ environment, client.createContainer (containerRequest labId spec environment) s₂ = .ok () s' ∧
      ((∀ source binding, (source, binding) ∈ (containerRequest labId spec environment).volumes ↔
        ∃ mount ∈ spec.managedMounts, source = mount.source ∧ binding = boundAs mount) ↔
      ∀ mount ∈ spec.managedMounts, ∀ mount' ∈ spec.managedMounts, mount.source = mount'.source →
        mount = mount') := by
  obtain ⟨-, -, -, s₂, environment, -, -, hcontainer⟩ := container_of_createLab h
  exact ⟨s₂, environment, hcontainer, buildVolumes_faithful_iff⟩

/-! ### Labels -/

theorem get?_labels (key : String) : (labels labId spec.labels).get? key = (spec.labels.get? key).or
    (Dict.get? [("labos.managed", "true"), ("labos.lab_id", labId), ("labos.runtime", backendName)] key) :=
  Dict.get?_update

/-- A container has the reserved labels of its request. -/
theorem get?_container_labels {container : ListedContainer} {key value : String}
    (hlabels : ∀ key value, (labels labId spec.labels).get? key = some value →
      container.labels.get? key = some value)
    (hkey : Dict.get? [("labos.managed", "true"), ("labos.lab_id", labId),
      ("labos.runtime", backendName)] key =
      some value) :
    container.labels.get? key = (labels labId spec.labels).get? key := by
  have hasked : ∃ asked, (labels labId spec.labels).get? key = some asked := by
    rw [get?_labels, hkey]
    cases spec.labels.get? key with
    | none => exact ⟨value, rfl⟩
    | some other => exact ⟨other, rfl⟩
  obtain ⟨asked, hasked⟩ := hasked
  rw [hasked, hlabels key asked hasked]

/-- The value of a reserved label, which the specification may change. -/
theorem get?_labels_eq_some_iff {key value : String}
    (hkey : Dict.get? [("labos.managed", "true"), ("labos.lab_id", labId),
      ("labos.runtime", backendName)] key =
      some value) :
    (labels labId spec.labels).get? key = some value ↔
      ∀ other, spec.labels.get? key = some other → other = value := by
  rw [get?_labels, hkey]
  cases spec.labels.get? key with
  | none => simp
  | some other => simp

section Listing

variable {listing : DockerListing client}

theorem listed_of_networked {n : Option String} (hlisting : listing.Lawful)
    (h : Networked client labId spec s n s') :
    listing.listed s' = listing.listed s := by
  cases h with
  | none => rfl
  | some _ hcreate => exact hlisting.createNetwork_ok hcreate

theorem listed_of_obtained {labels : Dict String} {mounts : List ManagedMount} (hlisting : listing.Lawful)
    (h : Obtained client labels mounts s s') : listing.listed s' = listing.listed s := by
  induction h with
  | nil => rfl
  | cons hcreate _ ih => rw [ih, hlisting.createVolume_ok hcreate]

theorem containerName_of_inspection {container : ListedContainer} {inspection : LabInspection}
    (h : inspection? container = some inspection) : inspection.containerName = container.name := by
  obtain ⟨labId, -, rfl⟩ := Option.map_eq_some_iff.mp h
  rfl

/-- What is listed of the containers of one name, where one container has it. -/
theorem filter_filterMap_inspection {container : ListedContainer}
    {others : List ListedContainer} {name : String} (hname : container.name = name)
    (hothers : ∀ other ∈ others, other.name ≠ name) :
    (((container :: others).filterMap inspection?).filter fun inspection => inspection.containerName = name) =
      (inspection? container).toList := by
  have hnone : (others.filterMap inspection?).filter
      (fun inspection => inspection.containerName = name) = [] := by
    rw [List.filter_eq_nil_iff]
    intro inspection hmem
    obtain ⟨other, hother, hinspect⟩ := List.mem_filterMap.mp hmem
    simpa [containerName_of_inspection hinspect] using hothers other hother
  cases hinspect : inspection? container with
  | none => rw [List.filterMap_cons_none hinspect, hnone, Option.toList_none]
  | some inspection =>
    rw [List.filterMap_cons_some hinspect, List.filter_cons_of_pos, hnone, Option.toList_some]
    simpa [hname] using containerName_of_inspection hinspect

/-- **A created lab is listed**, once and under its own id, exactly when the labels of its specification
change neither the label that marks a managed lab nor the one that names the lab. -/
theorem created_lab_listed_iff (client : DockerClient σ ε) (listing : DockerListing client)
    (hlisting : listing.Lawful) (now : ℤ) (labId : String) (spec : RuntimeSpec) (s s' : σ)
    (lab : ProvisionedLab) (h : createLab client now labId spec s = .ok lab s') :
    ∃ inspections, listManagedLabs listing s' = .ok inspections s' ∧
      ((∃ inspection,
          (inspections.filter fun inspection => inspection.containerName = lab.containerName) = [inspection] ∧
        inspection.labId = labId) ↔
      (∀ value, spec.labels.get? "labos.managed" = some value → value = "true") ∧
        ∀ value, spec.labels.get? "labos.lab_id" = some value → value = labId) := by
  obtain ⟨rfl, n, s₁, s₂, environment, hnetworked, hobtained, hcontainer⟩ := container_of_createLab h
  obtain ⟨hfresh, container, hname, hlabels, hperm⟩ := hlisting.createContainer_ok hcontainer
  rw [listed_of_obtained hlisting hobtained, listed_of_networked hlisting hnetworked] at hfresh hperm
  obtain ⟨containers, hlist, hmanaged⟩ := hlisting.list_ok (s := s') "labos.managed" "true" (by decide)
  refine ⟨_, bind_of_ok hlist rfl, ?_⟩
  -- what is listed under the name of the new container, in whatever order
  have hfound : (((containers.filterMap inspection?).insertionSort fun a b => a.labId ≤ b.labId).filter
      fun inspection => inspection.containerName = (provisioned labId spec).containerName).Perm
      (if container.labels.get? "labos.managed" = some "true"
        then (inspection? container).toList else []) := by
    have hothers : ∀ other ∈ (listing.listed s).filter (fun other => other.labels.get? "labos.managed" = some "true"),
        other.name ≠ (provisioned labId spec).containerName :=
          fun other hother => hfresh other (List.mem_filter.mp hother).1
    refine ((List.perm_insertionSort _ _).filter _).trans
      ((((hmanaged.trans (hperm.filter _)).filterMap _).filter
      _).trans (List.Perm.of_eq ?_))
    split
    · next hmarked =>
      rw [List.filter_cons_of_pos (by simpa using hmarked)]
      exact filter_filterMap_inspection hname hothers
    · next hmarked =>
      rw [List.filter_cons_of_neg (by simpa using hmarked), List.filter_eq_nil_iff]
      intro inspection hmem
      obtain ⟨other, hother, hinspect⟩ := List.mem_filterMap.mp hmem
      simpa [containerName_of_inspection hinspect] using hothers other hother
  have hmarked : (labels labId spec.labels).get? "labos.managed" = some "true" ↔ _ :=
    get?_labels_eq_some_iff rfl
  have howned : (labels labId spec.labels).get? "labos.lab_id" = some labId ↔ _ := get?_labels_eq_some_iff rfl
  have hmark : container.labels.get? "labos.managed" = _ := get?_container_labels hlabels rfl
  have howner : container.labels.get? "labos.lab_id" = _ := get?_container_labels hlabels rfl
  rw [← hmarked, ← howned, ← hmark, ← howner]
  constructor
  · rintro ⟨inspection, he, hof⟩
    rw [he] at hfound
    split at hfound
    · next hmarked =>
      refine ⟨hmarked, ?_⟩
      have hinspect : inspection? container = some inspection :=
        Option.toList_eq_singleton_iff.mp (List.perm_singleton.mp hfound.symm)
      obtain ⟨owner, howner, rfl⟩ := Option.map_eq_some_iff.mp hinspect
      rw [howner, ← hof]
    · cases List.perm_nil.mp hfound
  · rintro ⟨hmarked, hnamed⟩
    rw [if_pos hmarked, inspection?, hnamed] at hfound
    exact ⟨_, List.perm_singleton.mp hfound, rfl⟩

end Listing

/-! ### A daemon that makes containers -/

/-- A daemon: its networks, its volumes, and its containers with what they use. -/
structure BusyDaemon where
  networks : List String
  volumes : List String
  containers : List (ListedContainer × DockerContainer)

/-- Its client. -/
def busyClient : DockerClient BusyDaemon String where
  networks s := {n | n ∈ s.networks}
  volumes s := {v | v ∈ s.volumes}
  containers s := s.containers.map Prod.snd
  createNetwork r s :=
    if r.name ∈ s.networks then .error "network exists" s
    else .ok r.name { s with networks := s.networks ++ [r.name] }
  createVolume v _ s := .ok v (if v ∈ s.volumes then s else { s with volumes := s.volumes ++ [v] })
  createContainer r s :=
    if s.containers.any (fun container => container.1.name = r.name) then .error "name in use" s
    else .ok () { s with containers := s.containers ++
      [(⟨r.name, "created", r.labels⟩, ⟨r.network.toList, r.volumes.map Prod.fst⟩)] }
  removeNetwork n s :=
    if n ∈ s.networks then .ok () { s with networks := s.networks.filter (· ≠ n) }
    else .error "no such network" s
  removeVolume v _ s :=
    if v ∈ s.volumes then .ok () { s with volumes := s.volumes.filter (· ≠ v) } else .error "no such volume" s

/-- The key and the value of a filter on a label. -/
def labelOf (label : List Char) : String × String :=
  (String.ofList (label.takeWhile (· ≠ '=')), String.ofList ((label.dropWhile (· ≠ '=')).drop 1))

/-- What the daemon lists. -/
def busyListing : DockerListing busyClient where
  listed s := s.containers.map Prod.fst
  list _ label s := .ok ((s.containers.map Prod.fst).filter fun container =>
    container.labels.get? (labelOf label.toList).1 = some (labelOf label.toList).2) s

theorem labelOf_append {key value : String} (h : '=' ∉ key.toList) :
    labelOf s!"{key}={value}".toList = (key, value) := by
  have hall : ∀ c ∈ key.toList, decide (c ≠ '=') = true := by
    intro c hc
    refine decide_eq_true fun he => h ?_
    exact he ▸ hc
  have htext : s!"{key}={value}".toList = key.toList ++ '=' :: value.toList := by
    simp [toString]
  rw [labelOf, htext, List.takeWhile_append_of_pos hall, List.dropWhile_append_of_pos hall]
  simp

theorem busyListing_lawful : busyListing.Lawful where
  createNetwork_ok {r s n s'} h := by
    simp only [busyClient] at h
    split at h
    · cases h
    · obtain ⟨-, rfl⟩ := EStateM.Result.ok.inj h
      rfl
  createVolume_ok {v labels s v' s'} h := by
    obtain ⟨-, rfl⟩ := EStateM.Result.ok.inj h
    split <;> rfl
  createContainer_ok {r s u s'} h := by
    simp only [busyClient] at h
    split at h
    · cases h
    · next hfree =>
      obtain ⟨-, rfl⟩ := EStateM.Result.ok.inj h
      refine ⟨?_, ⟨r.name, "created", r.labels⟩, rfl, fun _ _ hlabel => hlabel, ?_⟩
      · intro container hcontainer
        obtain ⟨entry, hentry, rfl⟩ := List.mem_map.mp hcontainer
        exact fun he => hfree (List.any_eq_true.mpr ⟨entry, hentry, decide_eq_true he⟩)
      · simp only [busyListing, List.map_append]
        exact List.perm_append_singleton _ _
  list_ok {s} key value h := by
    refine ⟨_, rfl, ?_⟩
    rw [labelOf_append h]
    exact .refl _

/-- A lab with one mount has it bound. -/
theorem mounts_bound_iff_work :
    ∃ environment, ("work", ⟨"/workspace", "rw"⟩) ∈
      (containerRequest "lab-123" (mountSpec ["work"]) environment).volumes := by
  obtain ⟨s₂, environment, -, hiff⟩ :=
    mounts_bound_iff busyClient 0 "lab-123" (mountSpec ["work"]) ⟨[], [], []⟩ _ _ rfl
  have hbound := hiff.mpr (by decide)
  exact ⟨environment, (hbound "work" ⟨"/workspace", "rw"⟩).mpr
    ⟨⟨"work", "/workspace", false⟩, by decide, rfl, rfl⟩⟩

/-- A volume that is to be read-only at one place and writable at another. -/
def sharedVolumeSpec : RuntimeSpec :=
  { mountSpec [] with managedMounts := [⟨"data", "/data", true⟩, ⟨"data", "/scratch", false⟩] }

/-- **The first of two mounts of a volume is not bound**, and the lab is created all the same. -/
theorem mount_lost :
    (∃ lab s', createLab busyClient 0 "lab-123" sharedVolumeSpec ⟨[], [], []⟩ = .ok lab s') ∧
    ∀ environment, ("data", ⟨"/data", "ro"⟩) ∉
      (containerRequest "lab-123" sharedVolumeSpec environment).volumes ∧
      ("data", ⟨"/scratch", "rw"⟩) ∈ (containerRequest "lab-123" sharedVolumeSpec environment).volumes := by
  refine ⟨⟨_, _, rfl⟩, fun environment => ?_⟩
  have hvolumes : (containerRequest "lab-123" sharedVolumeSpec environment).volumes =
      [("data", ⟨"/scratch", "rw"⟩)] := rfl
  rw [hvolumes]
  decide

/-- A lab whose specification has a label of its own is listed as itself. -/
theorem created_lab_listed_iff_work :
    ∃ lab s' inspections inspection,
      createLab busyClient 0 "lab-123" (mountSpec ["work"]) ⟨[], [], []⟩ = .ok lab s' ∧
      listManagedLabs busyListing s' = .ok inspections s' ∧
      (inspections.filter fun inspection => inspection.containerName = lab.containerName) = [inspection] ∧
      inspection.labId = "lab-123" := by
  have hcreated : ∃ lab s', createLab busyClient 0 "lab-123" (mountSpec ["work"]) ⟨[], [], []⟩ = .ok lab s' :=
    ⟨_, _, rfl⟩
  obtain ⟨lab, s', h⟩ := hcreated
  obtain ⟨inspections, hlist, hiff⟩ :=
    created_lab_listed_iff busyClient busyListing busyListing_lawful 0 "lab-123"
    (mountSpec ["work"]) ⟨[], [], []⟩ s' lab h
  obtain ⟨inspection, hfound, hof⟩ := hiff.mpr ⟨by decide, by decide⟩
  exact ⟨lab, s', inspections, inspection, h, hlist, hfound, hof⟩

/-- A specification whose labels name a lab. -/
def mislabelledSpec : RuntimeSpec := { mountSpec [] with labels := [("labos.lab_id", "lab-9")] }

/-- **The container of the lab is listed as another lab's.** -/
theorem lab_mislabelled :
    ∃ lab s', createLab busyClient 0 "lab-123" mislabelledSpec ⟨[], [], []⟩ = .ok lab s' ∧
      listManagedLabs busyListing s' = .ok [⟨"lab-9", "docker", "labos-lab-123", "created",
        [("labos.managed", "true"), ("labos.lab_id", "lab-9"), ("labos.runtime", "docker")]⟩] s' :=
  ⟨_, _, rfl, rfl⟩

end LabOS
