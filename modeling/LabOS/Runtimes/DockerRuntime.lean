import LabOS.Runtimes.Base
import Mathlib.Data.Set.Basic

/-!
# The Docker runtime

`createLab` makes the network of a lab, obtains a volume for each of its mounts and makes its
container. When a step raises, what was made so far is removed and the exception goes on, unless
a removal raises another one.

The Docker client is a parameter: `DockerClient` has the calls `createLab` makes, over the
state of a daemon, and what can be seen of that state. `DockerClient.Lawful` says what is relied
on: a network is created anew, a volume is created or was there already, a call that raises
when it should create something has created nothing, and a removal succeeds on what is there
and no container uses, and raises on a volume that is not there.
-/

namespace LabOS

open Exceptional

variable {α σ ε : Type}

/-! ### The client -/

/-- The arguments of `networks.create`. -/
structure NetworkRequest where
  name : String
  internal : Bool
  checkDuplicate : Bool
  labels : Dict String

/-- How a container mounts a volume. -/
structure VolumeBinding where
  bind : String
  mode : String
  deriving DecidableEq, Repr

/-- The arguments of `containers.create`. -/
structure ContainerRequest where
  image : String
  name : String
  command : Option (List String)
  detach : Bool
  labels : Dict String
  environment : Dict String
  volumes : Dict VolumeBinding
  network : Option String
  networkDisabled : Bool
  nanoCpus : ℤ
  memLimit : String
  readOnly : Bool

/-- The networks and the volumes a container uses. -/
structure DockerContainer where
  networks : List String
  volumes : List String

/-- A Docker client: the networks by their ids, the volumes by their names and the containers of
its daemon, and the calls. -/
structure DockerClient (σ ε : Type) where
  networks : σ → Set String
  volumes : σ → Set String
  containers : σ → List DockerContainer
  createNetwork : NetworkRequest → EStateM ε σ String
  createVolume : String → Dict String → EStateM ε σ String
  createContainer : ContainerRequest → EStateM ε σ Unit
  removeNetwork : String → EStateM ε σ Unit
  /-- `volume.remove(force=...)`. -/
  removeVolume : String → Bool → EStateM ε σ Unit

namespace DockerClient

/-- The daemon has the same objects. -/
structure Unchanged (client : DockerClient σ ε) (s s' : σ) : Prop where
  networks : client.networks s' = client.networks s
  volumes : client.volumes s' = client.volumes s
  containers : client.containers s' = client.containers s

/-- What the runtime relies on. -/
structure Lawful (client : DockerClient σ ε) : Prop where
  used_network : ∀ {s c n}, c ∈ client.containers s → n ∈ c.networks → n ∈ client.networks s
  used_volume : ∀ {s c v}, c ∈ client.containers s → v ∈ c.volumes → v ∈ client.volumes s
  createNetwork_ok : ∀ {r s n s'}, client.createNetwork r s = .ok n s' → n ∉ client.networks s ∧
    client.networks s' = insert n (client.networks s) ∧ client.volumes s' = client.volumes s ∧
    client.containers s' = client.containers s
  createNetwork_error : ∀ {r s e s'}, client.createNetwork r s = .error e s' → client.Unchanged s s'
  createVolume_ok : ∀ {v labels s v' s'}, client.createVolume v labels s = .ok v' s' → v' = v ∧
    client.volumes s' = insert v (client.volumes s) ∧ client.networks s' = client.networks s ∧
    client.containers s' = client.containers s
  createVolume_error : ∀ {v labels s e s'}, client.createVolume v labels s = .error e s' →
    client.Unchanged s s'
  createContainer_error : ∀ {r s e s'}, client.createContainer r s = .error e s' → client.Unchanged s s'
  removeNetwork_ok : ∀ {n s u s'}, client.removeNetwork n s = .ok u s' →
    client.networks s' = client.networks s \ {n} ∧ client.volumes s' = client.volumes s ∧
    client.containers s' = client.containers s
  removeNetwork_unused : ∀ {n s}, n ∈ client.networks s → (∀ c ∈ client.containers s, n ∉ c.networks) →
    ∃ s', client.removeNetwork n s = .ok () s'
  removeVolume_ok : ∀ {v force s u s'}, client.removeVolume v force s = .ok u s' →
    client.volumes s' = client.volumes s \ {v} ∧ client.networks s' = client.networks s ∧
    client.containers s' = client.containers s
  removeVolume_unused : ∀ {v force s}, v ∈ client.volumes s → (∀ c ∈ client.containers s, v ∉ c.volumes) →
    ∃ s', client.removeVolume v force s = .ok () s'
  removeVolume_missing : ∀ {v force s u s'}, client.removeVolume v force s = .ok u s' → v ∈ client.volumes s

end DockerClient

/-! ### The runtime -/

/-- What raises while a lab is made: a call of the client, or the check of a lease. -/
inductive RuntimeExc (ε : Type) where
  | client (e : ε)
  | value (message : String)
  | typeError
  deriving DecidableEq, Repr

/-- What a failed `create_lab` raises: the exception it caught, or another one that its clean-up raised. -/
inductive Propagated (ε : Type) where
  | original (e : RuntimeExc ε)
  | cleanup (e : ε)
  deriving DecidableEq, Repr

/-- The local variables `created_network` and `created_volumes`. -/
structure Created where
  network : Option String := none
  volumes : List String := []

namespace DockerRuntime

def backendName : String := "docker"

def containerName (labId : String) : String := s!"labos-{labId}"

def networkName (labId : String) : String := s!"labos-net-{labId}"

def labels (labId : String) (extraLabels : Dict String) : Dict String :=
  Dict.update [("labos.managed", "true"), ("labos.lab_id", labId), ("labos.runtime", backendName)] extraLabels

/-- `_build_environment`. -/
def buildEnvironment (now : ℤ) (spec : RuntimeSpec) : Except (RuntimeExc ε) (Dict String) :=
  spec.secretLeases.foldlM (fun environment lease =>
    if lease.approved = false then .error (.value s!"secret lease {lease.name} is not approved")
    else match lease.isActive now with
      | none => .error .typeError
      | some false => .error (.value s!"secret lease {lease.name} has expired")
      | some true => .ok (environment.set lease.name lease.value)) []

/-- `_build_volumes`. -/
def buildVolumes (mounts : List ManagedMount) : Dict VolumeBinding :=
  mounts.foldl (fun volumes mount =>
    volumes.set mount.source { bind := mount.target, mode := if mount.readOnly then "ro" else "rw" }) []

/-- `_ensure_volume`. -/
def ensureVolume (client : DockerClient σ ε) (volumeName : String) (labels : Dict String) :
    EStateM ε σ String :=
  client.createVolume volumeName labels

/-- The network a lab is to have. -/
def networkRequest (labId : String) (spec : RuntimeSpec) : NetworkRequest where
  name := networkName labId
  internal := spec.networkMode = .restricted
  checkDuplicate := true
  labels := labels labId spec.labels

/-- The container a lab is to have. -/
def containerRequest (labId : String) (spec : RuntimeSpec) (environment : Dict String) :
    ContainerRequest where
  image := spec.image
  name := containerName labId
  command := spec.command
  detach := true
  labels := labels labId spec.labels
  environment := environment
  volumes := buildVolumes spec.managedMounts
  network := if spec.networkMode = .deny then none else some (networkName labId)
  networkDisabled := spec.networkMode = .deny
  nanoCpus := spec.cpuLimit * 1000000000
  memLimit := s!"{spec.memoryMb}m"
  readOnly := spec.persistenceMode = .ephemeral

/-- A call of the client, in the block that keeps track of what it made. -/
def calling (x : EStateM ε σ α) : EStateM (RuntimeExc ε) (σ × Created) α :=
  onPart Prod.fst (fun p s => (s, p.2)) (x.adaptExcept .client)

/-- Make the network, unless the lab has none. -/
def provisionNetwork (client : DockerClient σ ε) (labId : String) (spec : RuntimeSpec) :
    EStateM (RuntimeExc ε) (σ × Created) Unit :=
  whenever (spec.networkMode ≠ .deny) do
    let network ← calling (client.createNetwork (networkRequest labId spec))
    modify fun p => (p.1, { p.2 with network := some network })

/-- Obtain the volume of a mount. -/
def provisionVolume (client : DockerClient σ ε) (labels : Dict String) (mount : ManagedMount) :
    EStateM (RuntimeExc ε) (σ × Created) Unit := do
  let volume ← calling (ensureVolume client mount.source labels)
  modify fun p => (p.1, { p.2 with volumes := p.2.volumes ++ [volume] })

/-- The body of the `try` of `create_lab`. -/
def provision (client : DockerClient σ ε) (now : ℤ) (labId : String) (spec : RuntimeSpec) :
    EStateM (RuntimeExc ε) (σ × Created) Unit := do
  provisionNetwork client labId spec
  spec.managedMounts.forM (provisionVolume client (labels labId spec.labels))
  let environment ← fromExcept (buildEnvironment now spec)
  calling (client.createContainer (containerRequest labId spec environment))

/-- Remove the network, if one was made. -/
def removeCreatedNetwork (client : DockerClient σ ε) : Option String → EStateM ε σ Unit
  | some network => client.removeNetwork network
  | none => pure ()

/-- The body of its `except`, up to the `raise`. -/
def cleanUp (client : DockerClient σ ε) (created : Created) : EStateM ε σ Unit := do
  removeCreatedNetwork client created.network
  created.volumes.forM fun volume => client.removeVolume volume true

/-- What `create_lab` returns. -/
def provisioned (labId : String) (spec : RuntimeSpec) : ProvisionedLab where
  labId := labId
  backend := backendName
  containerName := containerName labId
  networkName := if spec.networkMode = .deny then none else some (networkName labId)
  volumeNames := spec.managedMounts.map ManagedMount.source

/-- `create_lab`, at a time. -/
def createLab (client : DockerClient σ ε) (now : ℤ) (labId : String) (spec : RuntimeSpec) :
    EStateM (Propagated ε) σ ProvisionedLab := fun s =>
  match provision client now labId spec (s, {}) with
  | .ok _ (s', _) => .ok (provisioned labId spec) s'
  | .error e (s', created) =>
    match cleanUp client created s' with
    | .ok _ s'' => .error (.original e) s''
    | .error e' s'' => .error (.cleanup e') s''

end DockerRuntime

end LabOS
