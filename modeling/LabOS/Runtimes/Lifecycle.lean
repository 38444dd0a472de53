import LabOS.Runtimes.Inventory

/-!
# The life of a lab's container

`startLab`, `stopLab`, `execRun`, `getLogs` and `inspectLab` get the container of a lab by its name and
call it; `destroyLab` removes it, and after it the network of the lab and, where it is asked to, the volumes
the container mounts. A removal of the network or of a volume that raises is passed over.

The calls are parameters again: `DockerContainers` has the calls of a container and the lookups by name, and
`DockerContainers.Lawful` says what is relied on. A container is known by its name. Only `remove` of a
container takes one away, and a call that raises has taken none.
-/

namespace LabOS

open Exceptional

variable {α σ ε : Type}

/-! ### The calls -/

/-- A container that a client got, and what the runtime reads of its `attrs`. -/
structure ContainerHandle where
  name : String
  /-- The `Name` of each of the `Mounts`, where it has one. -/
  mounts : List (Option String) := []
  /-- The `Status` of the `State`. -/
  status : Option String := none

/-- What `exec_run` of a container returns. -/
structure ExecResult where
  exitCode : ℤ
  output : ByteArray

/-- The calls of containers, and the lookups by name. -/
structure DockerContainers (client : DockerClient σ ε) where
  getContainer : String → EStateM ε σ ContainerHandle
  /-- `container.reload()`: the container as it is now. -/
  reload : ContainerHandle → EStateM ε σ ContainerHandle
  start : ContainerHandle → EStateM ε σ Unit
  /-- `container.stop(timeout=...)`. -/
  stop : ContainerHandle → ℤ → EStateM ε σ Unit
  execRun : ContainerHandle → String → EStateM ε σ ExecResult
  /-- `container.logs(tail=...)`. -/
  logs : ContainerHandle → String → EStateM ε σ ByteArray
  /-- `container.remove(force=...)`. -/
  removeContainer : ContainerHandle → Bool → EStateM ε σ Unit
  getNetwork : String → EStateM ε σ String
  getVolume : String → EStateM ε σ String

/-- What `exec_run` of the runtime returns. -/
structure RunExecutionResult where
  exitCode : ℤ
  stdout : String
  stderr : String

/-- What raises while a lab is used: a call of the client, or the decoding of what it returned. -/
inductive ContainerExc (ε : Type) where
  | client (e : ε)
  /-- `UnicodeDecodeError`. -/
  | unicodeDecode

/-! ### The runtime -/

namespace DockerRuntime

variable {client : DockerClient σ ε} (containers : DockerContainers client)

/-- `_get_container`. -/
def getContainer (labId : String) : EStateM ε σ ContainerHandle :=
  containers.getContainer (containerName labId)

def startLab (labId : String) : EStateM ε σ Unit := do
  let container ← getContainer containers labId
  containers.start container

def stopLab (labId : String) (timeout : ℤ) : EStateM ε σ Unit := do
  let container ← getContainer containers labId
  containers.stop container timeout

/-- `_extract_volume_names`. -/
def extractVolumeNames (container : ContainerHandle) : List String :=
  container.mounts.filterMap fun name => name.filter (· ≠ "")

/-- `try: ... except Exception: pass`. -/
def passing (x : EStateM ε σ Unit) : EStateM ε σ Unit := fun s =>
  match x s with
  | .ok _ s' => .ok () s'
  | .error _ s' => .ok () s'

/-- Remove the network of a lab, as far as possible. -/
def removeLabNetwork (labId : String) : EStateM ε σ Unit :=
  passing do
    let network ← containers.getNetwork (networkName labId)
    client.removeNetwork network

/-- Remove a volume, as far as possible. -/
def removeMountedVolume (volumeName : String) : EStateM ε σ Unit :=
  passing do
    let volume ← containers.getVolume volumeName
    client.removeVolume volume true

def destroyLab (labId : String) (removePersistentVolume : Bool) : EStateM ε σ Unit := do
  let container ← getContainer containers labId
  let mounts := extractVolumeNames container
  containers.removeContainer container true
  removeLabNetwork containers labId
  whenever removePersistentVolume (mounts.forM (removeMountedVolume containers))

/-- `bytes.decode("utf-8")`. -/
def decode (output : ByteArray) : EStateM (ContainerExc ε) σ String :=
  orRaise (String.fromUTF8? output) .unicodeDecode

def execRun (labId command : String) : EStateM (ContainerExc ε) σ RunExecutionResult := do
  let container ← (getContainer containers labId).adaptExcept .client
  let result ← (containers.execRun container command).adaptExcept .client
  let stdout ← decode result.output
  return { exitCode := result.exitCode, stdout := stdout, stderr := "" }

def getLogs (labId tail : String) : EStateM (ContainerExc ε) σ String := do
  let container ← (getContainer containers labId).adaptExcept .client
  let output ← (containers.logs container tail).adaptExcept .client
  decode output

def inspectLab (labId : String) : EStateM ε σ LabInspection := do
  let container ← getContainer containers labId
  let container ← containers.reload container
  return {
    labId := labId
    backend := backendName
    containerName := containerName labId
    status := container.status.getD "unknown"
    labels := labels labId []
  }

end DockerRuntime

/-! ### What is relied on -/

namespace DockerListing

variable {client : DockerClient σ ε} (listing : DockerListing client)

/-- The containers of a daemon by their names and labels, whatever their statuses. -/
def contained (s : σ) : List (String × Dict String) :=
  (listing.listed s).map fun container => (container.name, container.labels)

/-- The daemon has the same containers, up to their statuses. -/
def Same (s s' : σ) : Prop := (listing.contained s').Perm (listing.contained s)

/-- The frame of calls that take no container away and make none. -/
def sparing : Frame σ where
  rel := listing.Same
  refl _ := .refl _
  trans h h' := h'.trans h

/-- A call takes no container away and makes none, whether it returns or raises. -/
def Spares (x : EStateM ε σ α) : Prop := ∀ s, Within listing.sparing x s

end DockerListing

/-- What the runtime relies on. -/
structure DockerContainers.Lawful {client : DockerClient σ ε} (containers : DockerContainers client)
    (listing : DockerListing client) : Prop where
  /-- The names of containers are unique. -/
  names : ∀ s, ((listing.contained s).map Prod.fst).Nodup
  list : ∀ all label, listing.Spares (listing.list all label)
  createNetwork : ∀ request, listing.Spares (client.createNetwork request)
  createVolume : ∀ name labels, listing.Spares (client.createVolume name labels)
  createContainer_error : ∀ {r s e s'}, client.createContainer r s = .error e s' → listing.Same s s'
  removeNetwork : ∀ network, listing.Spares (client.removeNetwork network)
  removeVolume : ∀ volume force, listing.Spares (client.removeVolume volume force)
  getContainer : ∀ name, listing.Spares (containers.getContainer name)
  getContainer_ok : ∀ {name s container s'}, containers.getContainer name s = .ok container s' →
    container.name = name
  reload : ∀ container, listing.Spares (containers.reload container)
  reload_ok : ∀ {container s container' s'}, containers.reload container s = .ok container' s' →
    ∃ there ∈ listing.listed s', there.name = container.name ∧ container'.status = some there.status
  start : ∀ container, listing.Spares (containers.start container)
  stop : ∀ container timeout, listing.Spares (containers.stop container timeout)
  execRun : ∀ container command, listing.Spares (containers.execRun container command)
  logs : ∀ container tail, listing.Spares (containers.logs container tail)
  getNetwork : ∀ name, listing.Spares (containers.getNetwork name)
  getVolume : ∀ name, listing.Spares (containers.getVolume name)
  removeContainer_ok : ∀ {container force s u s'}, containers.removeContainer container force s = .ok u s' →
    (listing.contained s').Perm ((listing.contained s).filter fun entry => entry.1 ≠ container.name)
  removeContainer_error : ∀ {container force s e s'},
    containers.removeContainer container force s = .error e s' → listing.Same s s'

end LabOS
