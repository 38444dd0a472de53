import LabOS.Runtimes.DockerRuntime
import LabOS.Workers.Reconciler

/-!
# The inventory of the Docker runtime

`listManagedLabs` asks the daemon for all containers with the label of a managed lab and reads of
each the lab it is of. What a daemon lists is, like its other calls, a parameter: `DockerListing`
is the call of a client that lists containers, and `DockerListing.Lawful` says what is relied on. The names
of containers are unique, a container that is created has the labels it was asked for, beside those of
its image, and a filter on a label selects the containers that have it with that value.
-/

namespace LabOS

open Exceptional

variable {σ ε : Type}

/-- A container as the daemon lists it. -/
structure ListedContainer where
  name : String
  status : String
  labels : Dict String

/-- The containers a daemon has, running or not, and the call that lists them. -/
structure DockerListing (client : DockerClient σ ε) where
  listed : σ → List ListedContainer
  /-- `containers.list(all=..., filters={"label": ...})`. -/
  list : Bool → String → EStateM ε σ (List ListedContainer)

/-- What the runtime relies on. -/
structure DockerListing.Lawful {client : DockerClient σ ε} (listing : DockerListing client) : Prop where
  createNetwork_ok : ∀ {r s n s'}, client.createNetwork r s = .ok n s' → listing.listed s' = listing.listed s
  createVolume_ok : ∀ {v labels s v' s'}, client.createVolume v labels s = .ok v' s' →
    listing.listed s' = listing.listed s
  createContainer_ok : ∀ {r s u s'}, client.createContainer r s = .ok u s' →
    (∀ container ∈ listing.listed s, container.name ≠ r.name) ∧
    ∃ container, container.name = r.name ∧
      (∀ key value, r.labels.get? key = some value → container.labels.get? key = some value) ∧
      (listing.listed s').Perm (container :: listing.listed s)
  list_ok : ∀ {s} key value, '=' ∉ key.toList → ∃ containers,
    listing.list true s!"{key}={value}" s = .ok containers s ∧
    containers.Perm ((listing.listed s).filter fun container => container.labels.get? key = some value)

namespace DockerRuntime

/-- What `list_managed_labs` makes of a container: nothing where no lab is named. -/
def inspection? (container : ListedContainer) : Option LabInspection :=
  (container.labels.get? "labos.lab_id").map fun labId => {
    labId := labId
    backend := backendName
    containerName := container.name
    status := container.status
    labels := container.labels
  }

def listManagedLabs {client : DockerClient σ ε} (listing : DockerListing client) :
    EStateM ε σ (List LabInspection) := do
  let containers ← listing.list true "labos.managed=true"
  return (containers.filterMap inspection?).insertionSort fun a b => a.labId ≤ b.labId

end DockerRuntime

end LabOS
