import LabOS.Runtimes.DockerRuntime

/-!
# Cleaning up after a failed creation

`create_lab` keeps a list of the volumes it obtained and removes these when a later step raises.
But a volume is obtained by its name, and one that was there before is obtained as one that is new:
the clean-up removes it too, or raises where a container uses it. A name that two mounts share is
removed twice, and the second removal raises.

## What is proved

* `fails_of_createLab` — when `create_lab` raises, a step of it failed, after the volumes of some of
  the mounts were obtained.
* `create_lab_cleans_up_iff` — **then the networks and the volumes are those that were there before,
  and the exception is that of the step, exactly when** these mounts name different volumes and none
  that was there before.

## Where the code parts from its tests

`create_lab_removes_foreign_volume`: a volume that was there before is removed, and a name that is
mounted twice makes the clean-up raise.
-/

namespace LabOS

open Exceptional DockerRuntime

variable {σ ε : Type} {client : DockerClient σ ε} {now : ℤ} {labId : String} {spec : RuntimeSpec}

/-! ### The steps -/

/-- The lab has its network, if it is to have one. -/
inductive Networked (client : DockerClient σ ε) (labId : String) (spec : RuntimeSpec) (s : σ) :
    Option String → σ → Prop
  | none : spec.networkMode = .deny → Networked client labId spec s none s
  | some {n s'} : spec.networkMode ≠ .deny → client.createNetwork (networkRequest labId spec) s = .ok n s' →
      Networked client labId spec s (some n) s'

/-- The volumes of some mounts are obtained, one after another. -/
inductive Obtained (client : DockerClient σ ε) (labels : Dict String) : List ManagedMount → σ → σ → Prop
  | nil {s} : Obtained client labels [] s s
  | cons {mount mounts v s s' s''} : ensureVolume client mount.source labels s = .ok v s' →
      Obtained client labels mounts s' s'' → Obtained client labels (mount :: mounts) s s''

/-- A step of `create_lab` raises, after the volumes of the mounts `done` were obtained. -/
inductive Fails (client : DockerClient σ ε) (now : ℤ) (labId : String) (spec : RuntimeSpec) (s : σ) :
    List ManagedMount → RuntimeExc ε → Prop
  | network {e s'} (wanted : spec.networkMode ≠ .deny)
      (raises : client.createNetwork (networkRequest labId spec) s = .error e s') :
      Fails client now labId spec s [] (.client e)
  | volume {n s₁ s₂ done mount rest e s₃} (networked : Networked client labId spec s n s₁)
      (obtained : Obtained client (labels labId spec.labels) done s₁ s₂)
      (next : spec.managedMounts = done ++ mount :: rest)
      (raises : ensureVolume client mount.source (labels labId spec.labels) s₂ = .error e s₃) :
      Fails client now labId spec s done (.client e)
  | environment {n s₁ s₂ e} (networked : Networked client labId spec s n s₁)
      (obtained : Obtained client (labels labId spec.labels) spec.managedMounts s₁ s₂)
      (raises : buildEnvironment now spec = .error e) :
      Fails client now labId spec s spec.managedMounts e
  | container {n s₁ s₂ environment e s₃} (networked : Networked client labId spec s n s₁)
      (obtained : Obtained client (labels labId spec.labels) spec.managedMounts s₁ s₂)
      (built : (buildEnvironment now spec : Except (RuntimeExc ε) (Dict String)) = .ok environment)
      (raises : client.createContainer (containerRequest labId spec environment) s₂ = .error e s₃) :
      Fails client now labId spec s spec.managedMounts (.client e)

/-- From `s` to `s'` a network and some volumes were made or obtained, and nothing else. -/
structure Acquired (client : DockerClient σ ε) (s : σ) (n : Option String) (vs : List String)
    (s' : σ) : Prop where
  fresh : ∀ id, n = some id → id ∉ client.networks s
  networks : client.networks s' = client.networks s ∪ {id | n = some id}
  volumes : client.volumes s' = client.volumes s ∪ {v | v ∈ vs}
  containers : client.containers s' = client.containers s

/-! ### What the block makes -/

section Block

variable {s s' : σ} {created : Created} {n : Option String} {vs : List String} {mounts : List ManagedMount}
  {labels : Dict String}

theorem calling_eq_ok {α : Type} {x : EStateM ε σ α} {a : α} {p : σ × Created} :
    calling x (s, created) = .ok a p ↔ x s = .ok a p.1 ∧ p.2 = created := by
  unfold calling
  rw [onPart_eq_ok]
  constructor
  · rintro ⟨t, h, rfl⟩
    exact ⟨adaptExcept_eq_ok.mp h, rfl⟩
  · rintro ⟨h, rfl⟩
    exact ⟨p.1, adaptExcept_eq_ok.mpr h, rfl⟩

theorem calling_eq_error {α : Type} {x : EStateM ε σ α} {e : RuntimeExc ε} {p : σ × Created} :
    calling x (s, created) = .error e p ↔ ∃ e', x s = .error e' p.1 ∧ p.2 = created ∧ e = .client e' := by
  unfold calling
  rw [onPart_eq_error]
  constructor
  · rintro ⟨t, h, rfl⟩
    obtain ⟨e', hraises, rfl⟩ := adaptExcept_eq_error.mp h
    exact ⟨e', hraises, rfl, rfl⟩
  · rintro ⟨e', h, rfl, rfl⟩
    exact ⟨p.1, adaptExcept_eq_error.mpr ⟨e', h, rfl⟩, rfl⟩

theorem Acquired.refl (s : σ) : Acquired client s none [] s where
  fresh _ h := nomatch h
  networks := by simp
  volumes := by simp
  containers := rfl

theorem Acquired.of_unchanged {s'' : σ} (h : Acquired client s n vs s') (hsame : client.Unchanged s' s'') :
    Acquired client s n vs s'' where
  fresh := h.fresh
  networks := hsame.networks.trans h.networks
  volumes := hsame.volumes.trans h.volumes
  containers := hsame.containers.trans h.containers

theorem acquired_of_networked (hclient : client.Lawful) (h : Networked client labId spec s n s') :
    Acquired client s n [] s' := by
  cases h with
  | none => exact Acquired.refl s
  | @some id _ _ hcreate =>
    obtain ⟨hfresh, hnetworks, hvolumes, hcontainers⟩ := hclient.createNetwork_ok hcreate
    refine ⟨fun _ hid => Option.some.inj hid ▸ hfresh, ?_, by simp [hvolumes], hcontainers⟩
    rw [hnetworks, Set.insert_eq, Set.union_comm]
    congr 1
    ext x
    simp [eq_comm]

theorem acquired_of_obtained {s'' : σ} (hclient : client.Lawful) (hacquired : Acquired client s n vs s')
    (h : Obtained client labels mounts s' s'') :
    Acquired client s n (vs ++ mounts.map ManagedMount.source) s'' := by
  induction h generalizing vs with
  | nil => simpa using hacquired
  | @cons mount mounts v s₁ s₂ s₃ hcreate _ ih =>
    obtain ⟨-, hvolumes, hnetworks, hcontainers⟩ := hclient.createVolume_ok hcreate
    have hnext : Acquired client s n (vs ++ [mount.source]) s₂ := by
      refine ⟨hacquired.fresh, hnetworks.trans hacquired.networks, ?_, hcontainers.trans hacquired.containers⟩
      rw [hvolumes, hacquired.volumes]
      ext x
      simp only [Set.mem_insert_iff, Set.mem_union, Set.mem_ofPred_eq, List.mem_append, List.mem_singleton]
      tauto
    simpa using ih hnext

/-- A mount whose volume is obtained is passed in the loop over the mounts. -/
theorem provisionVolume_of_ok {mount : ManagedMount} {v : String} (hclient : client.Lawful)
    (h : ensureVolume client mount.source labels s = .ok v s') :
    provisionVolume client labels mount (s, created) =
      .ok () (s', { created with volumes := created.volumes ++ [mount.source] }) := by
  obtain ⟨rfl, -⟩ := hclient.createVolume_ok h
  unfold provisionVolume
  rw [bind_run_of_ok (calling_eq_ok (p := (s', created)).mpr ⟨h, rfl⟩)]
  rfl

/-- Obtaining the volumes of some mounts, in the block that keeps track of them. -/
theorem forM_of_obtained (hclient : client.Lawful) (h : Obtained client labels mounts s s') :
    mounts.forM (provisionVolume client labels) (s, created) =
      .ok () (s', { created with volumes := created.volumes ++ mounts.map ManagedMount.source }) := by
  induction h generalizing created with
  | nil => simp
  | cons hcreate _ ih =>
    show (provisionVolume client labels _ >>= fun _ => List.forM _ (provisionVolume client labels)) _ = _
    rw [bind_run_of_ok (provisionVolume_of_ok hclient hcreate), ih]
    simp

/-- The loop over the mounts stops at the first whose volume cannot be obtained. -/
theorem forM_error_of_obtained {mount : ManagedMount} {rest : List ManagedMount} {e : ε} {s'' : σ}
    (hclient : client.Lawful) (h : Obtained client labels mounts s s')
    (hraises : ensureVolume client mount.source labels s' = .error e s'') :
    (mounts ++ mount :: rest).forM (provisionVolume client labels) (s, created) =
      .error (.client e)
        (s'', { created with volumes := created.volumes ++ mounts.map ManagedMount.source }) := by
  induction h generalizing created with
  | nil =>
    refine bind_eq_error.mpr (.inl (bind_eq_error.mpr (.inl ?_)))
    exact calling_eq_error.mpr ⟨e, hraises, by simp, rfl⟩
  | @cons first mounts _ _ _ _ hcreate _ ih =>
    show (provisionVolume client labels first >>= fun _ =>
      (mounts ++ mount :: rest).forM (provisionVolume client labels)) _ = _
    rw [bind_run_of_ok (provisionVolume_of_ok hclient hcreate), ih hraises]
    simp

/-- When the loop over the mounts raises, a call for a volume did. -/
theorem obtained_of_forM_error {e : RuntimeExc ε} {p : σ × Created}
    (h : mounts.forM (provisionVolume client labels) (s, created) = .error e p) :
    ∃ done mount rest s₂ e' s₃, mounts = done ++ mount :: rest ∧ Obtained client labels done s s₂ ∧
      ensureVolume client mount.source labels s₂ = .error e' s₃ ∧ e = .client e' := by
  induction mounts generalizing s created with
  | nil => cases h
  | cons mount mounts ih =>
    rcases bind_eq_error.mp (show (provisionVolume client labels mount >>= fun _ =>
        mounts.forM (provisionVolume client labels)) _ = _ from h) with hhead | ⟨_, p₁, hhead, htail⟩
    · rcases bind_eq_error.mp hhead with hcall | ⟨_, _, -, hset⟩
      · obtain ⟨e', hraises, -, rfl⟩ := calling_eq_error.mp hcall
        exact ⟨[], mount, mounts, s, e', _, rfl, .nil, hraises, rfl⟩
      · exact absurd hset modify_eq_error
    · obtain ⟨v, p₂, hcall, hset⟩ := bind_eq_ok.mp hhead
      obtain ⟨hcreate, -⟩ := calling_eq_ok.mp hcall
      obtain rfl := modify_eq_ok.mp hset
      obtain ⟨done, next, rest, s₂, e', s₃, rfl, hobtained, hraises, rfl⟩ := ih htail
      exact ⟨mount :: done, next, rest, s₂, e', s₃, rfl, .cons hcreate hobtained, hraises, rfl⟩

theorem obtained_of_forM_ok {p : σ × Created}
    (h : mounts.forM (provisionVolume client labels) (s, created) = .ok () p) :
    Obtained client labels mounts s p.1 := by
  induction mounts generalizing s created with
  | nil =>
    obtain ⟨-, rfl⟩ := pure_eq_ok.mp h
    exact .nil
  | cons mount mounts ih =>
    obtain ⟨_, p₁, hhead, htail⟩ := bind_eq_ok.mp (show (provisionVolume client labels mount >>= fun _ =>
      mounts.forM (provisionVolume client labels)) _ = _ from h)
    obtain ⟨v, p₂, hcall, hset⟩ := bind_eq_ok.mp hhead
    obtain ⟨hcreate, -⟩ := calling_eq_ok.mp hcall
    obtain rfl := modify_eq_ok.mp hset
    exact .cons hcreate (ih htail)

theorem networked_of_ok {p : σ × Created} (h : provisionNetwork client labId spec (s, {}) = .ok () p) :
    ∃ n, Networked client labId spec s n p.1 ∧ p.2 = { network := n } := by
  rcases whenever_eq_ok.mp h with ⟨hwanted, h'⟩ | ⟨hdeny, rfl⟩
  · obtain ⟨n, p₁, hcall, hset⟩ := bind_eq_ok.mp h'
    obtain ⟨hcreate, hcreated⟩ := calling_eq_ok.mp hcall
    obtain rfl := modify_eq_ok.mp hset
    exact ⟨some n, .some (of_decide_eq_true hwanted) hcreate, by rw [hcreated]⟩
  · exact ⟨none, .none (by simpa using hdeny), rfl⟩

theorem ok_of_networked (h : Networked client labId spec s n s') :
    provisionNetwork client labId spec (s, {}) = .ok () (s', { network := n }) := by
  unfold provisionNetwork
  cases h with
  | none hdeny => exact whenever_eq_ok.mpr (.inr ⟨by simpa using hdeny, rfl⟩)
  | @some id _ hwanted hcreate =>
    refine whenever_eq_ok.mpr (.inl ⟨by simpa using hwanted, ?_⟩)
    rw [bind_run_of_ok (calling_eq_ok (p := (s', {})).mpr ⟨hcreate, rfl⟩)]
    rfl

/-- Where a step fails, the block raises what the step raised, with what it made before on its lists. -/
theorem provision_of_fails {done : List ManagedMount} {e : RuntimeExc ε} (hclient : client.Lawful)
    (h : Fails client now labId spec s done e) :
    ∃ n s', provision client now labId spec (s, {}) =
        .error e (s', { network := n, volumes := done.map ManagedMount.source }) ∧
      Acquired client s n (done.map ManagedMount.source) s' := by
  unfold provision
  cases h with
  | @network e s' hwanted hraises =>
    refine ⟨none, s', bind_eq_error.mpr (.inl ?_),
      (Acquired.refl s).of_unchanged (hclient.createNetwork_error hraises)⟩
    refine whenever_eq_error.mpr ⟨by simpa using hwanted, bind_eq_error.mpr (.inl ?_)⟩
    exact calling_eq_error.mpr ⟨e, hraises, rfl, rfl⟩
  | @volume n s₁ s₂ _ mount rest e s₃ hnetworked hobtained hnext hraises =>
    have hacquired := acquired_of_obtained hclient (acquired_of_networked hclient hnetworked) hobtained
    refine ⟨n, s₃, ?_, hacquired.of_unchanged (hclient.createVolume_error hraises)⟩
    rw [bind_run_of_ok (ok_of_networked hnetworked), hnext]
    exact bind_eq_error.mpr (.inl (forM_error_of_obtained hclient hobtained hraises))
  | @environment n s₁ s₂ _ hnetworked hobtained hraises =>
    have hacquired := acquired_of_obtained hclient (acquired_of_networked hclient hnetworked) hobtained
    refine ⟨n, s₂, ?_, hacquired⟩
    rw [bind_run_of_ok (ok_of_networked hnetworked), bind_run_of_ok (forM_of_obtained hclient hobtained)]
    exact bind_eq_error.mpr (.inl (fromExcept_eq_error.mpr ⟨hraises, rfl⟩))
  | @container n s₁ s₂ environment e s₃ hnetworked hobtained hbuilt hraises =>
    have hacquired := acquired_of_obtained hclient (acquired_of_networked hclient hnetworked) hobtained
    refine ⟨n, s₃, ?_, hacquired.of_unchanged (hclient.createContainer_error hraises)⟩
    rw [bind_run_of_ok (ok_of_networked hnetworked), bind_run_of_ok (forM_of_obtained hclient hobtained),
      bind_run_of_ok (fromExcept_eq_ok.mpr ⟨hbuilt, rfl⟩)]
    exact calling_eq_error.mpr ⟨e, hraises, rfl, rfl⟩

/-- When the block raises, a step of it failed. -/
theorem fails_of_provision {e : RuntimeExc ε} {p : σ × Created}
    (h : provision client now labId spec (s, {}) = .error e p) :
    ∃ done, Fails client now labId spec s done e := by
  unfold provision at h
  rcases bind_eq_error.mp h with hnetwork | ⟨_, ⟨s₁, created₁⟩, hnetwork, h₁⟩
  · obtain ⟨hwanted, hmaking⟩ := whenever_eq_error.mp hnetwork
    rcases bind_eq_error.mp hmaking with hcall | ⟨_, _, -, hset⟩
    · obtain ⟨e', hraises, -, rfl⟩ := calling_eq_error.mp hcall
      exact ⟨[], .network (of_decide_eq_true hwanted) hraises⟩
    · exact absurd hset modify_eq_error
  obtain ⟨n, hnetworked, -⟩ := networked_of_ok hnetwork
  rcases bind_eq_error.mp h₁ with hvolumes | ⟨_, ⟨s₂, created₂⟩, hvolumes, h₂⟩
  · obtain ⟨done, mount, rest, s₂, e', s₃, hnext, hobtained, hraises, rfl⟩ := obtained_of_forM_error hvolumes
    exact ⟨done, .volume hnetworked hobtained hnext hraises⟩
  have hobtained := obtained_of_forM_ok hvolumes
  rcases bind_eq_error.mp h₂ with hbuilds | ⟨environment, p₃, hbuilds, h₃⟩
  · exact ⟨_, .environment hnetworked hobtained (fromExcept_eq_error.mp hbuilds).1⟩
  · obtain ⟨hbuilt, rfl⟩ := fromExcept_eq_ok.mp hbuilds
    obtain ⟨e', hraises, -, rfl⟩ := calling_eq_error.mp h₃
    exact ⟨_, .container hnetworked hobtained hbuilt hraises⟩

end Block

/-! ### What the clean-up removes -/

section CleanUp

variable {s s' s'' : σ} {n : Option String} {vs : List String}

/-- A volume that is removed along a list was there at the start. -/
theorem present_of_removal (hclient : client.Lawful)
    (h : vs.forM (fun volume => client.removeVolume volume true) s = .ok () s') :
    ∀ v ∈ vs, v ∈ client.volumes s := by
  induction vs generalizing s with
  | nil => exact fun v hv => nomatch hv
  | cons v vs ih =>
    obtain ⟨_, s₁, hremove, hrest⟩ := bind_eq_ok.mp (show (client.removeVolume v true >>= fun _ =>
      vs.forM fun volume => client.removeVolume volume true) _ = _ from h)
    rintro w (_ | ⟨_, hw⟩)
    · exact hclient.removeVolume_missing hremove
    · have hthere := ih hrest w hw
      rw [(hclient.removeVolume_ok hremove).1] at hthere
      exact hthere.1

/-- A clean-up that removes a list of volumes found each of them there, once. -/
theorem volumes_of_removal (hclient : client.Lawful)
    (h : vs.forM (fun volume => client.removeVolume volume true) s = .ok () s') :
    vs.Nodup ∧ client.volumes s' = client.volumes s \ {v | v ∈ vs} ∧
      client.networks s' = client.networks s := by
  induction vs generalizing s with
  | nil =>
    obtain ⟨-, rfl⟩ := pure_eq_ok.mp h
    exact ⟨List.nodup_nil, by simp, rfl⟩
  | cons v vs ih =>
    obtain ⟨_, s₁, hremove, hrest⟩ := bind_eq_ok.mp (show (client.removeVolume v true >>= fun _ =>
      vs.forM fun volume => client.removeVolume volume true) _ = _ from h)
    obtain ⟨hvolumes, hnetworks, -⟩ := hclient.removeVolume_ok hremove
    obtain ⟨hnodup, hvolumes', hnetworks'⟩ := ih hrest
    refine ⟨List.nodup_cons.mpr ⟨fun hv => ?_, hnodup⟩, ?_, hnetworks'.trans hnetworks⟩
    · -- the volume is gone once it is removed, so a second removal of it would have raised
      have hthere := present_of_removal hclient hrest v hv
      rw [hvolumes] at hthere
      exact hthere.2 rfl
    · rw [hvolumes', hvolumes]
      ext x
      simp only [Set.mem_sdiff, Set.mem_singleton_iff, Set.mem_ofPred_eq, List.mem_cons]
      tauto

/-- Volumes that are there, each once, and that no container uses, can all be removed. -/
theorem removal_of_unused (hclient : client.Lawful) (hnodup : vs.Nodup)
    (hthere : ∀ v ∈ vs, v ∈ client.volumes s) (hunused : ∀ v ∈ vs, ∀ c ∈ client.containers s, v ∉ c.volumes) :
    ∃ s', vs.forM (fun volume => client.removeVolume volume true) s = .ok () s' := by
  induction vs generalizing s with
  | nil => exact ⟨s, rfl⟩
  | cons v vs ih =>
    obtain ⟨hv, hnodup⟩ := List.nodup_cons.mp hnodup
    have hremove : ∃ s₁, client.removeVolume v true s = .ok () s₁ :=
      hclient.removeVolume_unused (hthere v List.mem_cons_self) (hunused v List.mem_cons_self)
    obtain ⟨s₁, hremove⟩ := hremove
    obtain ⟨hvolumes, -, hcontainers⟩ := hclient.removeVolume_ok hremove
    have hrest : ∃ s', vs.forM (fun volume => client.removeVolume volume true) s₁ = .ok () s' := by
      refine ih hnodup (fun w hw => ?_) fun w hw => ?_
      · rw [hvolumes]
        exact ⟨hthere w (List.mem_cons_of_mem v hw), fun h => hv (h ▸ hw)⟩
      · rw [hcontainers]
        exact hunused w (List.mem_cons_of_mem v hw)
    obtain ⟨s', hrest⟩ := hrest
    refine ⟨s', ?_⟩
    show (client.removeVolume v true >>= fun _ => vs.forM fun volume => client.removeVolume volume true) s = _
    rw [bind_run_of_ok hremove, hrest]

/-- The network that was made can be removed. -/
theorem removal_of_network (hclient : client.Lawful) (h : Acquired client s n vs s') :
    ∃ s₁, removeCreatedNetwork client n s' = .ok () s₁ ∧ client.networks s₁ = client.networks s ∧
      client.volumes s₁ = client.volumes s' ∧ client.containers s₁ = client.containers s' := by
  cases n with
  | none => exact ⟨s', rfl, by simp [h.networks], rfl, rfl⟩
  | some id =>
    have hthere : id ∈ client.networks s' := by
      rw [h.networks]
      exact .inr rfl
    have hunused : ∀ c ∈ client.containers s', id ∉ c.networks := by
      intro c hc hid
      exact h.fresh id rfl (hclient.used_network (h.containers ▸ hc) hid)
    obtain ⟨s₁, hremove⟩ := hclient.removeNetwork_unused hthere hunused
    obtain ⟨hnetworks, hvolumes, hcontainers⟩ := hclient.removeNetwork_ok hremove
    refine ⟨s₁, hremove, ?_, hvolumes, hcontainers⟩
    rw [hnetworks, h.networks]
    ext x
    simp only [Set.mem_sdiff, Set.mem_union, Set.mem_ofPred_eq, Set.mem_singleton_iff, Option.some.injEq]
    constructor
    · rintro ⟨hx | rfl, hne⟩
      · exact hx
      · exact absurd rfl hne
    · intro hx
      refine ⟨.inl hx, ?_⟩
      rintro rfl
      exact h.fresh x rfl hx

/-- **A clean-up takes back exactly what was acquired** when the volumes are different and new. -/
theorem cleanUp_restores_iff (hclient : client.Lawful) (h : Acquired client s n vs s') :
    (∃ s'', cleanUp client { network := n, volumes := vs } s' = .ok () s'' ∧
      client.networks s'' = client.networks s ∧ client.volumes s'' = client.volumes s) ↔
    vs.Nodup ∧ ∀ v ∈ vs, v ∉ client.volumes s := by
  obtain ⟨s₁, hnetwork, hnetworks, hvolumes, hcontainers⟩ := removal_of_network hclient h
  have hclean : cleanUp client { network := n, volumes := vs } s' =
      vs.forM (fun volume => client.removeVolume volume true) s₁ := bind_run_of_ok hnetwork
  rw [hclean]
  constructor
  · rintro ⟨s'', hremoval, -, hrestored⟩
    obtain ⟨hnodup, hleft, -⟩ := volumes_of_removal hclient hremoval
    refine ⟨hnodup, fun v hv hbefore => ?_⟩
    -- a volume that was there before is gone
    rw [← hrestored, hleft] at hbefore
    exact hbefore.2 hv
  · rintro ⟨hnodup, hnew⟩
    have hremoval : ∃ s'', vs.forM (fun volume => client.removeVolume volume true) s₁ = .ok () s'' := by
      refine removal_of_unused hclient hnodup (fun v hv => ?_) fun v hv c hc hused => ?_
      · rw [hvolumes, h.volumes]
        exact .inr hv
      · rw [hcontainers, h.containers] at hc
        exact hnew v hv (hclient.used_volume hc hused)
    obtain ⟨s'', hremoval⟩ := hremoval
    obtain ⟨-, hleft, hsame⟩ := volumes_of_removal hclient hremoval
    refine ⟨s'', hremoval, hsame.trans hnetworks, ?_⟩
    rw [hleft, hvolumes, h.volumes]
    ext x
    simp only [Set.mem_sdiff, Set.mem_union, Set.mem_ofPred_eq]
    constructor
    · rintro ⟨hx | hx, hnot⟩
      · exact hx
      · exact absurd hx hnot
    · exact fun hx => ⟨.inl hx, fun hv => hnew x hv hx⟩

end CleanUp

/-! ### `create_lab` -/

/-- When `create_lab` raises, a step of it failed. -/
theorem fails_of_createLab {s s' : σ} {raised : Propagated ε}
    (h : createLab client now labId spec s = .error raised s') :
    ∃ done e, Fails client now labId spec s done e := by
  unfold createLab at h
  split at h
  · cases h
  · next e s₁ created hprovision =>
    obtain ⟨done, hfails⟩ := fails_of_provision hprovision
    exact ⟨done, e, hfails⟩

/-- **Docker lab creation cleans up exactly what it created when** the mounts whose volumes it obtained name
different volumes, and none that was there before: whenever `create_lab` raises, a step of it failed, and
whichever step fails, `create_lab` raises, and it raises what the step raised and leaves the networks and
the volumes as they were, exactly under this condition. -/
theorem create_lab_cleans_up_iff (client : DockerClient σ ε) (hclient : client.Lawful) (now : ℤ)
    (labId : String) (spec : RuntimeSpec) (s : σ) :
    (∀ raised s', createLab client now labId spec s = .error raised s' →
      ∃ done e, Fails client now labId spec s done e) ∧
    ∀ done e, Fails client now labId spec s done e →
      ∃ raised s', createLab client now labId spec s = .error raised s' ∧
        ((raised = .original e ∧ client.networks s' = client.networks s ∧
          client.volumes s' = client.volumes s) ↔
          (done.map ManagedMount.source).Nodup ∧ ∀ mount ∈ done, mount.source ∉ client.volumes s) := by
  refine ⟨fun raised s' h => fails_of_createLab h, fun done e hfails => ?_⟩
  obtain ⟨n, s₁, hprovision, hacquired⟩ := provision_of_fails hclient hfails
  have hrestores := cleanUp_restores_iff hclient hacquired
  rw [List.forall_mem_map] at hrestores
  unfold createLab
  rw [hprovision]
  cases hclean : cleanUp client { network := n, volumes := done.map ManagedMount.source } s₁ with
  | ok u s₂ =>
    refine ⟨.original e, s₂, by simp only [hclean], ?_⟩
    rw [← hrestores]
    constructor
    · rintro ⟨-, hnetworks, hvolumes⟩
      exact ⟨s₂, hclean, hnetworks, hvolumes⟩
    · rintro ⟨s₃, hclean', hnetworks, hvolumes⟩
      obtain ⟨-, rfl⟩ := EStateM.Result.ok.inj (hclean.symm.trans hclean')
      exact ⟨rfl, hnetworks, hvolumes⟩
  | error e' s₂ =>
    refine ⟨.cleanup e', s₂, by simp only [hclean], ?_⟩
    rw [← hrestores]
    constructor
    · rintro ⟨hraised, -⟩
      cases hraised
    · rintro ⟨s₃, hclean', -⟩
      rw [hclean] at hclean'
      cases hclean'

/-! ### A daemon that makes no container -/

/-- A daemon without containers: its networks and its volumes. -/
structure IdleDaemon where
  networks : List String
  volumes : List String

/-- Its client, whose `containers.create` raises. -/
def idleClient : DockerClient IdleDaemon String where
  networks s := {n | n ∈ s.networks}
  volumes s := {v | v ∈ s.volumes}
  containers _ := []
  createNetwork r s :=
    if r.name ∈ s.networks then .error "network exists" s
    else .ok r.name { s with networks := s.networks ++ [r.name] }
  createVolume v _ s := .ok v (if v ∈ s.volumes then s else { s with volumes := s.volumes ++ [v] })
  createContainer _ s := .error "container create failed" s
  removeNetwork n s :=
    if n ∈ s.networks then .ok () { s with networks := s.networks.filter (· ≠ n) }
    else .error "no such network" s
  removeVolume v _ s :=
    if v ∈ s.volumes then .ok () { s with volumes := s.volumes.filter (· ≠ v) } else .error "no such volume" s

theorem idleClient_lawful : idleClient.Lawful where
  used_network h := nomatch h
  used_volume h := nomatch h
  createNetwork_ok {r s n s'} h := by
    simp only [idleClient] at h
    split at h
    · cases h
    · next hnew =>
      obtain ⟨rfl, rfl⟩ := EStateM.Result.ok.inj h
      refine ⟨hnew, ?_, rfl, rfl⟩
      ext x
      simp [idleClient, or_comm]
  createNetwork_error {r s e s'} h := by
    simp only [idleClient] at h
    split at h
    · obtain ⟨-, rfl⟩ := EStateM.Result.error.inj h
      exact ⟨rfl, rfl, rfl⟩
    · cases h
  createVolume_ok {v labels s v' s'} h := by
    obtain ⟨rfl, rfl⟩ := EStateM.Result.ok.inj h
    by_cases hv : v ∈ s.volumes
    · refine ⟨rfl, ?_, by simp [hv], rfl⟩
      ext x
      simp only [idleClient, if_pos hv, Set.mem_ofPred_eq, Set.mem_insert_iff]
      exact ⟨.inr, fun hx => hx.elim (fun heq => heq ▸ hv) id⟩
    · refine ⟨rfl, ?_, by simp [idleClient, hv], rfl⟩
      ext x
      simp [idleClient, hv, or_comm]
  createVolume_error h := nomatch h
  createContainer_error {r s e s'} h := by
    obtain ⟨-, rfl⟩ := EStateM.Result.error.inj h
    exact ⟨rfl, rfl, rfl⟩
  removeNetwork_ok {n s u s'} h := by
    simp only [idleClient] at h
    split at h
    · obtain ⟨-, rfl⟩ := EStateM.Result.ok.inj h
      refine ⟨?_, rfl, rfl⟩
      ext x
      simp [idleClient]
    · cases h
  removeNetwork_unused {n s} h _ := ⟨_, if_pos h⟩
  removeVolume_ok {v force s u s'} h := by
    simp only [idleClient] at h
    split at h
    · obtain ⟨-, rfl⟩ := EStateM.Result.ok.inj h
      refine ⟨?_, rfl, rfl⟩
      ext x
      simp [idleClient]
    · cases h
  removeVolume_unused {v force s} h _ := ⟨_, if_pos h⟩
  removeVolume_missing {v force s u s'} h := by
    simp only [idleClient] at h
    split at h
    · assumption
    · cases h

/-- A lab of the profile `safe-dev` with some mounts. -/
def mountSpec (sources : List String) : RuntimeSpec where
  image := "python:3.12-slim"
  networkMode := .restricted
  persistenceMode := .ephemeral
  cpuLimit := 2
  memoryMb := 2048
  managedMounts := sources.map fun source => { source := source, target := "/workspace" }
  labels := [("labos.profile", "safe-dev")]

/-- With a new volume, all that was made is taken back. -/
theorem create_lab_cleans_up_iff_work :
    ∃ s', createLab idleClient 0 "lab-123" (mountSpec ["work"]) ⟨[], ["data"]⟩ =
        .error (.original (.client "container create failed")) s' ∧
      idleClient.networks s' = idleClient.networks ⟨[], ["data"]⟩ ∧
      idleClient.volumes s' = idleClient.volumes ⟨[], ["data"]⟩ := by
  have hfails : Fails idleClient 0 "lab-123" (mountSpec ["work"]) ⟨[], ["data"]⟩
      (mountSpec ["work"]).managedMounts (.client "container create failed") :=
    .container (.some (by decide) rfl) (.cons rfl .nil) rfl rfl
  obtain ⟨raised, s', hraised, hiff⟩ :=
    (create_lab_cleans_up_iff idleClient idleClient_lawful 0 "lab-123" (mountSpec ["work"]) ⟨[], ["data"]⟩).2
      _ _ hfails
  obtain ⟨rfl, hnetworks, hvolumes⟩ := hiff.mpr ⟨by decide, by simp [mountSpec, idleClient]⟩
  exact ⟨s', hraised, hnetworks, hvolumes⟩

/-- **A volume that was there before is removed**, and a name that is mounted twice makes the clean-up
raise. -/
theorem create_lab_removes_foreign_volume :
    createLab idleClient 0 "lab-123" (mountSpec ["data"]) ⟨[], ["data"]⟩ =
      .error (.original (.client "container create failed")) ⟨[], []⟩ ∧
    createLab idleClient 0 "lab-123" (mountSpec ["work", "work"]) ⟨[], ["data"]⟩ =
      .error (.cleanup "no such volume") ⟨[], ["data"]⟩ := ⟨rfl, rfl⟩

end LabOS
