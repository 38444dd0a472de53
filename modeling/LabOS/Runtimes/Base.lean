import LabOS.Security.SecretBroker

/-!
# What a runtime is given

The specification of a lab's container, and what a runtime answers when it has made one.
-/

namespace LabOS

/-- A dictionary, its items in the order in which their keys came. -/
abbrev Dict (α : Type) := List (String × α)

namespace Dict

variable {α : Type}

/-- `d[key] = value`. -/
def set (d : Dict α) (key : String) (value : α) : Dict α :=
  if d.any fun item => item.1 = key then d.map fun item => if item.1 = key then (key, value) else item
  else d ++ [(key, value)]

/-- `d.update(other)`. -/
def update (d other : Dict α) : Dict α := other.foldl (fun d item => d.set item.1 item.2) d

/-- `d.get(key)`, where of several items of one key the last counts. -/
def get? : Dict α → String → Option α
  | [], _ => none
  | item :: d, key => (get? d key).or (if item.1 = key then some item.2 else none)

/-- Every key came once. -/
def Unique (d : Dict α) : Prop := (d.map Prod.fst).Nodup

section

variable {d other : Dict α} {k key : String} {v : α}

theorem mem_of_get? (h : d.get? key = some v) : (key, v) ∈ d := by
  induction d with
  | nil => cases h
  | cons item d ih =>
    rw [get?] at h
    cases hrest : get? d key with
    | some w =>
      rw [hrest] at h
      exact List.mem_cons_of_mem _ (ih (hrest.trans h))
    | none =>
      rw [hrest] at h
      by_cases hk : item.1 = key
      · simp only [hk, if_true, Option.none_or, Option.some.injEq] at h
        obtain rfl := hk
        obtain rfl := h
        exact List.mem_cons_self
      · simp [hk] at h

theorem exists_get?_of_mem (h : (key, v) ∈ d) : ∃ w, d.get? key = some w := by
  induction d with
  | nil => cases h
  | cons item d ih =>
    rw [get?]
    rcases List.mem_cons.mp h with rfl | h
    · cases get? d key with
      | some w => exact ⟨w, rfl⟩
      | none => exact ⟨v, by simp⟩
    · obtain ⟨w, hw⟩ := ih h
      exact ⟨w, by rw [hw]; rfl⟩

theorem get?_eq_none (h : ∀ item ∈ d, item.1 ≠ key) : d.get? key = none := by
  cases hget : d.get? key with
  | none => rfl
  | some v => exact absurd rfl (h _ (mem_of_get? hget))

/-- Where every key came once, the items are what is found. -/
theorem mem_iff_get? (hd : d.Unique) : (key, v) ∈ d ↔ d.get? key = some v := by
  refine ⟨fun h => ?_, mem_of_get?⟩
  obtain ⟨w, hw⟩ := exists_get?_of_mem h
  have hsame : (key, w) = (key, v) := List.inj_on_of_nodup_map hd (mem_of_get? hw) h rfl
  rw [hw, (Prod.mk.inj hsame).2]

theorem get?_append : (d ++ other).get? key = (other.get? key).or (d.get? key) := by
  induction d with
  | nil => simp [get?]
  | cons item d ih => rw [List.cons_append, get?, ih, get?, Option.or_assoc]

/-- **What is found after an item is stored.** -/
theorem get?_set : (d.set k v).get? key = if key = k then some v else d.get? key := by
  unfold set
  split
  · next hany =>
    by_cases hk : key = k
    · subst hk
      rw [if_pos rfl]
      induction d with
      | nil => cases hany
      | cons item d ih =>
        rw [List.map_cons, get?]
        cases hrest : d.any (fun item => item.1 = key) with
        | true => rw [ih hrest]; rfl
        | false =>
          have hitem : item.1 = key := by simpa [hrest] using hany
          have hnone : get? (d.map fun item => if item.1 = key then (key, v) else item) key = none := by
            refine get?_eq_none fun x hx => ?_
            obtain ⟨y, hy, rfl⟩ := List.mem_map.mp hx
            have hne : y.1 ≠ key := by simpa using List.any_eq_false.mp hrest y hy
            rwa [if_neg hne]
          rw [hnone, if_pos hitem]
          simp
    · rw [if_neg hk]
      clear hany
      induction d with
      | nil => rfl
      | cons item d ih =>
        rw [List.map_cons, get?, ih, get?]
        by_cases hitem : item.1 = k
        · simp [hitem, Ne.symm hk]
        · rw [if_neg hitem]
  · rw [get?_append, get?, get?, Option.none_or]
    by_cases hk : key = k
    · simp [hk]
    · simp [hk, Ne.symm hk]

/-- **What is found after an update.** -/
theorem get?_update : (d.update other).get? key = (other.get? key).or (d.get? key) := by
  unfold update
  induction other generalizing d with
  | nil => rfl
  | cons item other ih =>
    rw [List.foldl_cons, ih, get?_set, get?]
    by_cases hk : item.1 = key
    · simp [hk]
    · simp [hk, Ne.symm hk]

theorem unique_set (hd : d.Unique) : (d.set k v).Unique := by
  unfold Unique set at *
  split
  · have hkeys : (d.map fun item => if item.1 = k then (k, v) else item).map Prod.fst = d.map Prod.fst := by
      rw [List.map_map]
      refine List.map_congr_left fun item _ => ?_
      by_cases hitem : item.1 = k <;> simp [hitem]
    rw [hkeys]
    exact hd
  · next hnone =>
    rw [List.map_append]
    refine hd.append (List.nodup_singleton _) (List.disjoint_singleton.mpr ?_)
    simpa using hnone

theorem unique_update (hd : d.Unique) : (d.update other).Unique := by
  unfold update
  induction other generalizing d with
  | nil => exact hd
  | cons item other ih => exact ih (unique_set hd)

end

end Dict

structure ManagedMount where
  source : String
  target : String
  readOnly : Bool := false
  deriving DecidableEq, Repr

structure RuntimeSpec where
  image : String
  networkMode : NetworkMode
  persistenceMode : PersistenceMode
  cpuLimit : ℤ
  memoryMb : ℤ
  managedMounts : List ManagedMount := []
  secretLeases : List SecretLease := []
  labels : Dict String := []
  command : Option (List String) := none

structure ProvisionedLab where
  labId : String
  backend : String
  containerName : String
  networkName : Option String
  volumeNames : List String
  deriving DecidableEq, Repr

/-- A container as the runtime reports it. -/
structure LabInspection where
  labId : String
  backend : String
  containerName : String
  status : String
  labels : Dict String

/-- `is_active` at a time; nothing where `expires_at` has no offset to compare it by. -/
def SecretLease.isActive (lease : SecretLease) (now : ℤ) : Option Bool :=
  lease.expiresAt.offset.map fun _ => now < lease.expiresAt.instant

end LabOS
