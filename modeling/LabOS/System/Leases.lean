import LabOS.System.Invariants
import LabOS.System.Symbolic

/-!
# Secret leases over time

A lease is active until it is revoked or its time has come. Issuing, revoking, the pass
that revokes what has expired and the query for a runtime each decide that on their own;
here they agree: a pass changes nothing a runtime could still be given, and what has ended
is never given again. The state of the lab plays no part in it.

## What is proved

* `leases_of_run` — what every lease of a reachable state is for, what a runtime is given,
  that what has ended stays so, and that a pass is not seen by any later call.
* `leases_outlive_labs` — a lab whatever its state is given nothing exactly when all its
  leases have ended, and no request that ends a lab ends a lease; `destroyed_lab_leased` is
  a destroyed lab that is given a secret.
-/

namespace LabOS

open Exceptional SecretLeaseService

variable {β : Type} [Content β] {env : Environment β}

/-! ### What a runtime is given -/

instance : Std.Total before := ⟨fun a b => by
  rcases lt_trichotomy a.createdAt.wall b.createdAt.wall with h | h | h
  · exact .inl (.inl h)
  · exact (le_total a.id b.id).imp (fun hid => .inr ⟨h, hid⟩) fun hid => .inr ⟨h.symm, hid⟩
  · exact .inr (.inl h)⟩

instance : IsTrans SecretLeaseRow before := ⟨fun a b c hab hbc => by
  rcases hab with hab | ⟨hab, hid⟩ <;> rcases hbc with hbc | ⟨hbc, hid'⟩
  · exact .inl (hab.trans hbc)
  · exact .inl (hab.trans_eq hbc)
  · exact .inl (hab.trans_lt hbc)
  · exact .inr ⟨hab.trans hbc, hid.trans hid'⟩⟩

/-- The lease of a row, where the broker has its secret. -/
def leaseOf (env : Environment β) (row : SecretLeaseRow) : SecretLease where
  name := row.secretName
  value := (env.secrets row.secretName).getD ""
  approved := row.approved
  expiresAt := row.expiresAt.normalize

/-- A broker that has every secret gives a runtime one lease for each row. -/
theorem materialize_of_broker {env : Environment β} (hbroker : ∀ name, (env.secrets name).isSome = true)
    (s : Session β) (now : ℤ) (labId : String) : materializeRuntimeLeases env now labId s =
      .ok ((liveLeases s.store now labId).map (leaseOf env)) s := by
  have hrows : ∀ rows : List SecretLeaseRow, (rows.mapM fun row => (do
      let value ← resolve env row.secretName
      return { name := row.secretName, value := value, approved := row.approved,
               expiresAt := row.expiresAt.normalize } : SessionM β SecretLease)) s =
                 .ok (rows.map (leaseOf env)) s := by
    intro rows
    induction rows with
    | nil => rfl
    | cons row rows ih =>
      obtain ⟨value, hvalue⟩ := Option.isSome_iff_exists.mp (hbroker row.secretName)
      rw [List.mapM_cons, bind_eq_ok]
      refine ⟨leaseOf env row, s, ?_, ?_⟩
      · simp [resolve, hvalue, leaseOf]
      · rw [bind_eq_ok]
        exact ⟨_, s, ih, rfl⟩
  unfold materializeRuntimeLeases
  rw [bind_eq_ok]
  exact ⟨s, s, rfl, hrows _⟩

/-- A runtime is given nothing exactly when the query finds nothing. -/
theorem materialize_eq_nil_iff (s : Session β) (now : ℤ) (labId : String) :
    (∃ s', materializeRuntimeLeases env now labId s = .ok [] s') ↔ liveLeases s.store now labId = [] := by
  unfold materializeRuntimeLeases
  simp only [bind_eq_ok, get_eq_ok]
  constructor
  · rintro ⟨s', _, _, ⟨rfl, rfl⟩, h⟩
    cases hrows : liveLeases s.store now labId with
    | nil => rfl
    | cons row rows =>
      rw [hrows, List.mapM_cons] at h
      obtain ⟨lease, _, -, h⟩ := bind_eq_ok.mp h
      obtain ⟨leases, _, -, h⟩ := bind_eq_ok.mp h
      exact absurd (pure_eq_ok.mp h).1 (by simp)
  · intro h
    refine ⟨s, s, s, ⟨rfl, rfl⟩, ?_⟩
    rw [h]
    rfl

/-! ### Rows -/

/-- A lease of a reachable state: it is for a secret that the profile of its lab allows. -/
structure LeaseRow (env : Environment β) (st : Store) (lease : SecretLeaseRow) : Prop where
  allowed : ∃ lab profile, st.labs.get? lease.labId = some lab ∧
    PolicyEngine.profile? env.profiles lab.profileName = some profile ∧
      lease.secretName ∈ profile.allowedSecretNames
  approved : lease.approved = true
  column : lease.expiresAt.offset = none

/-- A lease before and after: it is as it was, or has been revoked. -/
def LeaseMove (lease lease' : SecretLeaseRow) : Prop :=
  lease' = lease ∨ lease.revokedAt = none ∧ ∃ at', lease' = { lease with revokedAt := some at' }

theorem LeaseMove.trans {a b c : SecretLeaseRow} (h : LeaseMove a b) (h' : LeaseMove b c) :
    LeaseMove a c := by
  rcases h with rfl | ⟨hnone, at', rfl⟩
  · exact h'
  · rcases h' with rfl | ⟨hnone', -⟩
    · exact .inr ⟨hnone, at', rfl⟩
    · cases hnone'

theorem leaseMove_of_sweep {now : DateTime} {st st' : Store} {id : String} {lease : SecretLeaseRow}
    (h : Sweep now st st') (hlease : st.secretLeases.get? id = some lease) :
    ∃ lease', st'.secretLeases.get? id = some lease' ∧ LeaseMove lease lease' := by
  cases h with
  | leaseRevoked h unrevoked =>
    exact Table.exists_move_of_put (R := LeaseMove) (fun _ => .inl rfl) h rfl
      (.inr ⟨unrevoked, _, rfl⟩) hlease
  | _ => exact ⟨lease, hlease, .inl rfl⟩

theorem leaseMove_of_sweeps {now : DateTime} {st st' : Store} {id : String} {lease : SecretLeaseRow}
    (h : Sweeps now st st') (hlease : st.secretLeases.get? id = some lease) :
    ∃ lease', st'.secretLeases.get? id = some lease' ∧ LeaseMove lease lease' := by
  induction h with
  | refl => exact ⟨lease, hlease, .inl rfl⟩
  | tail _ hsweep ih =>
    obtain ⟨lease₁, h₁, hmove⟩ := ih
    obtain ⟨lease₂, h₂, hmove'⟩ := leaseMove_of_sweep hsweep h₁
    exact ⟨lease₂, h₂, hmove.trans hmove'⟩

section Effects

variable {now : ℤ} {r : Request β} {m m' : ℕ} {st st' : Store}

/-- A lease stays, as it was or revoked. -/
theorem leaseMove_of_effect {id : String} {lease : SecretLeaseRow} (h : Effect env now r m m' st st')
    (hlease : st.secretLeases.get? id = some lease) :
    ∃ lease', st'.secretLeases.get? id = some lease' ∧ LeaseMove lease lease' := by
  cases h with
  | leaseIssued new => exact ⟨lease, Table.get?_put_of_fresh new.fresh hlease, .inl rfl⟩
  | leaseRevoked h unrevoked =>
    have hid := Table.key_of_get? h
    exact Table.exists_move_of_put (R := LeaseMove) (fun _ => .inl rfl) h hid
      (.inr ⟨unrevoked, _, rfl⟩) hlease
  | reconciled sweeps => exact leaseMove_of_sweeps sweeps hlease
  | _ => exact ⟨lease, hlease, .inl rfl⟩

theorem leaseRows_of_effect (h : Effect env now r m m' st st')
    (hst : ∀ id lease, st.secretLeases.get? id = some lease → LeaseRow env st lease) :
    ∀ id lease, st'.secretLeases.get? id = some lease → LeaseRow env st' lease := by
  intro id lease' hlease'
  -- a lab keeps its profile, so what its leases are for stays allowed
  have hkept : ∀ labId secretName,
      (∃ lab profile, st.labs.get? labId = some lab ∧
        PolicyEngine.profile? env.profiles lab.profileName = some profile ∧
        secretName ∈ profile.allowedSecretNames) →
      ∃ lab profile, st'.labs.get? labId = some lab ∧
        PolicyEngine.profile? env.profiles lab.profileName = some profile ∧
        secretName ∈ profile.allowedSecretNames := by
    rintro labId secretName ⟨lab, profile, hlab, hprofile, hallowed⟩
    obtain ⟨lab', hlab', hmove⟩ := labMove_of_effect h hlab
    have hname : lab'.profileName = lab.profileName := by
      cases hmove with
      | swept _ swept => exact swept.profile
      | _ => rfl
    exact ⟨lab', profile, hlab', by rw [hname]; exact hprofile, hallowed⟩
  have hold : (∃ lease, st.secretLeases.get? id = some lease) → LeaseRow env st' lease' := by
    rintro ⟨lease, hlease⟩
    obtain ⟨lease₁, hlease₁, hmove⟩ := leaseMove_of_effect h hlease
    obtain rfl := Option.some.inj (hlease₁.symm.trans hlease')
    obtain ⟨hallowed, happroved, hcolumn⟩ := hst id lease hlease
    rcases hmove with rfl | ⟨-, at', rfl⟩
    · exact ⟨hkept _ _ hallowed, happroved, hcolumn⟩
    · exact ⟨hkept _ _ hallowed, happroved, hcolumn⟩
  cases h with
  | leaseIssued new =>
    rcases Table.eq_or_of_get?_put hlease' with ⟨-, rfl⟩ | ⟨-, hlease⟩
    · obtain ⟨lab, profile, hlab, hprofile, hallowed⟩ := new.allowed
      rw [← new.labId] at hlab
      rw [← new.secretName] at hallowed
      refine ⟨⟨lab, profile, hlab, hprofile, hallowed⟩, new.active.1, ?_⟩
      rw [new.expiresAt]
      rfl
    · exact hold ⟨_, hlease⟩
  | leaseRevoked hlease =>
    have hid := Table.key_of_get? hlease
    exact hold (Table.exists_of_get?_put hlease' hlease hid)
  | reconciled sweeps => exact hold ((addsNone_of_sweeps sweeps).secretLeases hlease')
  | _ => exact hold ⟨_, hlease'⟩

/-- Only a request for a lease, a revocation and a pass change leases. -/
theorem secretLeases_of_effect (h : Effect env now r m m' st st') : st'.secretLeases = st.secretLeases ∨
    (∃ labId secretName requester ttlMinutes, r = .createSecretLease labId secretName requester ttlMinutes) ∨
    (∃ leaseId actor reason, r = .revokeSecretLease leaseId actor reason) ∨
      ∃ at', IsPass r at' ∧ Sweeps at' st st' := by
  cases h with
  | leaseIssued => exact .inr (.inl ⟨_, _, _, _, rfl⟩)
  | leaseRevoked => exact .inr (.inr (.inl ⟨_, _, _, rfl⟩))
  | reconciled sweeps => exact .inr (.inr (.inr ⟨_, ⟨_, _, _, _, rfl, rfl⟩, sweeps⟩))
  | _ => exact .inl rfl

end Effects

/-! ### Passes -/

/-- The times of the leases are as a column gives them. -/
def Columns (st : Store) : Prop :=
  ∀ id lease, st.secretLeases.get? id = some lease → lease.expiresAt.offset = none

theorem columns_of_sweep {now : DateTime} {st st' : Store} (h : Sweep now st st') (hst : Columns st) :
    Columns st' := by
  intro id lease' hlease'
  obtain ⟨lease, hlease⟩ := (addsNone_of_sweep h).secretLeases hlease'
  obtain ⟨lease₁, hlease₁, hmove⟩ := leaseMove_of_sweep h hlease
  obtain rfl := Option.some.inj (hlease₁.symm.trans hlease')
  have hcolumn := hst id lease hlease
  rcases hmove with rfl | ⟨-, at', rfl⟩
  · exact hcolumn
  · exact hcolumn

/-- A lease that a pass revokes is not one that any call from then on would give a runtime. -/
theorem liveLeases_of_sweep {now : DateTime} {st st' : Store} {t : ℤ} (h : Sweep now st st')
    (hst : Columns st) (ht : now.instant ≤ t) (labId : String) :
    liveLeases st' t labId = liveLeases st t labId := by
  cases h with
  | @leaseRevoked lease _ hlease unrevoked stale =>
    refine Table.select_put_of_not hlease ?_ (by simp [isLive])
    have hcolumn := hst _ _ hlease
    have hwall : lease.expiresAt.wall ≤ now.instant := by simpa [DateTime.instant, DateTime.normalize,
      hcolumn] using stale
    have hended := not_lt.mpr (hwall.trans ht)
    simp [isLive, hended]
  | _ => rfl

theorem liveLeases_of_sweeps {now : DateTime} {st st' : Store} {t : ℤ} (h : Sweeps now st st')
    (hst : Columns st) (ht : now.instant ≤ t) (labId : String) :
    Columns st' ∧ liveLeases st' t labId = liveLeases st t labId := by
  induction h with
  | refl => exact ⟨hst, rfl⟩
  | tail _ hsweep ih =>
    exact ⟨columns_of_sweep hsweep ih.1, (liveLeases_of_sweep hsweep ih.1 ht labId).trans ih.2⟩

/-! ### Runs -/

/-- Every lease of a reachable state is for what the profile of its lab allows. -/
theorem leaseRows_of_run {s₀ : State β} (h₀ : Initial env s₀) (actions : List (Action β)) :
    ∀ id lease, (runFrom env s₀ actions).store.secretLeases.get? id = some lease →
      LeaseRow env (runFrom env s₀ actions).store lease :=
  rows_kept (I := fun st => ∀ id lease, st.secretLeases.get? id = some lease → LeaseRow env st lease)
    leaseRows_of_effect (h₀.store ▸ fun _ _ h => by cases h)

/-- In any run a lease stays, as it was or revoked. -/
theorem leaseMove_of_run (env : Environment β) {s : State β} {id : String} {lease : SecretLeaseRow}
    (actions : List (Action β)) (hlease : s.store.secretLeases.get? id = some lease) :
    ∃ lease', (runFrom env s actions).store.secretLeases.get? id = some lease' ∧ LeaseMove lease lease' := by
  refine rows_kept (I := fun st => ∃ lease', st.secretLeases.get? id = some lease' ∧
    LeaseMove lease lease') ?_
    ⟨lease, hlease, .inl rfl⟩
  rintro now r m m' st st' h ⟨lease₁, h₁, hmove⟩
  obtain ⟨lease₂, h₂, hmove'⟩ := leaseMove_of_effect h h₁
  exact ⟨lease₂, h₂, hmove.trans hmove'⟩

/-- What the query for a runtime selects in a reachable state. -/
theorem mem_liveLeases {st : Store} (hst : Columns st) {t : ℤ} {labId : String} {lease : SecretLeaseRow} :
    lease ∈ liveLeases st t labId ↔ lease ∈ st.secretLeases.rows ∧ lease.labId = labId ∧
      lease.approved = true ∧
      lease.revokedAt = none ∧ t < lease.expiresAt.instant := by
  rw [liveLeases, Table.mem_select]
  apply and_congr_right
  intro hlease
  have hinstant : lease.expiresAt.instant = lease.expiresAt.wall := by
    simp [DateTime.instant, hst lease.id lease (Table.get?_of_mem hlease)]
  simp [isLive, hinstant, and_assoc]

/-- A lease that has ended is not selected later, whatever happens in between. -/
theorem ended_of_run {s : State β} {future : List (Action β)}
    (hs' : Columns (runFrom env s future).store) {lease row : SecretLeaseRow} {t t' : ℤ} {labId : String}
    (hlease : lease ∈ s.store.secretLeases.rows)
    (hended : lease.revokedAt ≠ none ∨ lease.expiresAt.instant ≤ t) (ht : t ≤ t')
    (hrow : row ∈ liveLeases (runFrom env s future).store t' labId) : row.id ≠ lease.id := by
  intro hid
  obtain ⟨hmem, -, -, hunrevoked, hactive⟩ := (mem_liveLeases hs').mp hrow
  obtain ⟨lease', hlease', hmove⟩ := leaseMove_of_run env future (Table.get?_of_mem hlease)
  obtain rfl : lease' = row := Option.some.inj (hlease'.symm.trans (hid ▸ Table.get?_of_mem hmem))
  rcases hmove with rfl | ⟨-, at', rfl⟩
  · rcases hended with hrevoked | hexpired
    · exact hrevoked hunrevoked
    · omega
  · cases hunrevoked

/-- **Leases over time**, for a broker that has every secret. In every reachable state every lease is for a
secret that the profile of its lab allows; a runtime is given exactly the lab's approved and unrevoked
leases whose time has not come, in the order of their rows; a lease that was revoked, or whose time has
come, is not among what any later call selects; and a pass changes what no call from its time on returns. -/
theorem leases_of_run (env : Environment β)
    (hbroker : ∀ name, (env.secrets name).isSome = true) (s₀ : State β) (h₀ : Initial env s₀)
    (actions : List (Action β)) : (∀ lease ∈ (runFrom env s₀ actions).store.secretLeases.rows,
      ∃ lab profile, (runFrom env s₀ actions).store.labs.get? lease.labId = some lab ∧
        PolicyEngine.profile? env.profiles lab.profileName = some profile ∧
        lease.secretName ∈ profile.allowedSecretNames) ∧
    (∀ t labId fates,
      materializeRuntimeLeases env t labId ((runFrom env s₀ actions).session fates) =
        .ok ((liveLeases (runFrom env s₀ actions).store t labId).map (leaseOf env))
          ((runFrom env s₀ actions).session fates) ∧
      (liveLeases (runFrom env s₀ actions).store t labId).Nodup ∧
      (liveLeases (runFrom env s₀ actions).store t labId).Pairwise before ∧
      ∀ lease, lease ∈ liveLeases (runFrom env s₀ actions).store t labId ↔
        lease ∈ (runFrom env s₀ actions).store.secretLeases.rows ∧ lease.labId = labId ∧
          lease.approved = true ∧
          lease.revokedAt = none ∧ t < lease.expiresAt.instant) ∧
    (∀ lease ∈ (runFrom env s₀ actions).store.secretLeases.rows, ∀ t,
      (lease.revokedAt ≠ none ∨ lease.expiresAt.instant ≤ t) → ∀ future t', t ≤ t' → ∀ labId,
        ∀ row ∈ liveLeases (runFrom env s₀ (actions ++ future)).store t' labId, row.id ≠ lease.id) ∧
    ∀ inventory destroys maxDestroyAttempts at' now fates t labId fates', at'.instant ≤ t →
      ∃ leases s₁ s₂,
        materializeRuntimeLeases env t labId ((runFrom env s₀ actions).session fates') = .ok leases s₁ ∧
        materializeRuntimeLeases env t labId ((step env (runFrom env s₀ actions)
          (.request (.reconcile inventory destroys maxDestroyAttempts at') now fates)).session fates') =
            .ok leases s₂ := by
  have hcolumns : ∀ actions, Columns (runFrom env s₀ actions).store :=
    fun actions id lease hlease => (leaseRows_of_run h₀ actions id lease hlease).column
  refine ⟨fun lease hlease => ?_, fun t labId fates => ⟨?_, ?_, ?_, fun lease => ?_⟩,
    fun lease hlease t hended future t' ht labId row hrow => ?_, ?_⟩
  · exact (leaseRows_of_run h₀ actions lease.id lease (Table.get?_of_mem hlease)).allowed
  · exact materialize_of_broker hbroker _ t labId
  · exact (Table.nodup_select _ _ _).of_map
  · exact Table.pairwise_select _ _ _
  · exact mem_liveLeases (hcolumns actions)
  · have happend : runFrom env s₀ (actions ++ future) = runFrom env (runFrom env s₀ actions) future :=
      Runs.after_append _ _ _
    have hlater := hcolumns (actions ++ future)
    rw [happend] at hlater hrow
    exact ended_of_run hlater hlease hended ht hrow
  · intro inventory destroys maxDestroyAttempts at' now fates t labId fates' ht
    have hsame : liveLeases (step env (runFrom env s₀ actions)
        (.request (.reconcile inventory destroys maxDestroyAttempts at') now fates)).store t labId =
          liveLeases (runFrom env s₀ actions).store t labId := by
      rcases secretLeases_of_effect (effect_of_answer env (runFrom env s₀ actions)
        (.reconcile inventory destroys maxDestroyAttempts at') now fates) with
          hsame | ⟨_, _, _, _, h⟩ | ⟨_, _, _, h⟩ | ⟨now', ⟨_, _, _, _, h, rfl⟩, sweeps⟩
      · exact congrArg (fun t' => Table.select t' (isLive t labId) before) hsame
      · cases h
      · cases h
      · cases h
        exact (liveLeases_of_sweeps sweeps (hcolumns actions) ht labId).2
    refine ⟨_, _, (step env (runFrom env s₀ actions)
      (.request (.reconcile inventory destroys maxDestroyAttempts at') now fates)).session fates',
      materialize_of_broker hbroker _ t labId, ?_⟩
    rw [materialize_of_broker hbroker]
    exact congrArg (fun rows => EStateM.Result.ok (List.map (leaseOf env) rows) _) hsame

/-- A profile that allows a secret. -/
def leasing : Profile := { safeDev with name := "leasing", allowedSecretNames := ["API_TOKEN"], valid := by decide }

/-- A lab with a lease, which is deleted before the time of the lease has come. -/
def leaseRun : List (Action Blob) :=
  [.request (.createLab "leasing" .human) 0 [], .request (.createSecretLease "a" "API_TOKEN" .human 30) 1 [],
   .request (.destroyLab "a") 2 []]

theorem leases_of_run_leaseRun :
    (∀ lease ∈ (runFrom (symbolic [("leasing", leasing)]) emptyState leaseRun).store.secretLeases.rows,
      ∃ lab profile,
        (runFrom (symbolic [("leasing", leasing)]) emptyState leaseRun).store.labs.get?
          lease.labId = some lab ∧
        PolicyEngine.profile? [("leasing", leasing)] lab.profileName = some profile ∧
        lease.secretName ∈ profile.allowedSecretNames) ∧
    (runFrom (symbolic [("leasing", leasing)]) emptyState leaseRun).store.secretLeases.rows ≠ [] :=
  ⟨(leases_of_run (symbolic [("leasing", leasing)]) (fun _ => rfl) emptyState
    (initial_emptyState _) leaseRun).1,
    by decide +kernel⟩

/-! ### Labs that have ended -/

/-- **What a lab is given does not depend on its state.** In every reachable state a lab, destroyed or
failed as it may be, is given nothing exactly when each of its leases was revoked or its time has come.
Destroying a lab and deciding its approval, and every other request that neither issues nor revokes a lease,
leave what it is given as it is; a pass, which may fail a lab or destroy it, does from its time on. -/
theorem leases_outlive_labs (env : Environment β) (s₀ : State β) (h₀ : Initial env s₀)
    (actions : List (Action β)) : (∀ t labId fates,
      (∃ s', materializeRuntimeLeases env t labId ((runFrom env s₀ actions).session fates) = .ok [] s') ↔
        ∀ lease ∈ (runFrom env s₀ actions).store.secretLeases.rows, lease.labId = labId →
          lease.revokedAt ≠ none ∨ lease.expiresAt.instant ≤ t) ∧
    ∀ r now fates t labId,
      (∀ labId secretName requester ttlMinutes,
        r ≠ .createSecretLease labId secretName requester ttlMinutes) →
      (∀ leaseId actor reason, r ≠ .revokeSecretLease leaseId actor reason) →
      (∀ at', IsPass r at' → at'.instant ≤ t) →
      liveLeases (step env (runFrom env s₀ actions) (.request r now fates)).store t labId =
        liveLeases (runFrom env s₀ actions).store t labId := by
  have hrows := leaseRows_of_run h₀ actions
  have hcolumns : Columns (runFrom env s₀ actions).store :=
    fun id lease hlease => (hrows id lease hlease).column
  refine ⟨fun t labId fates => ?_, fun r now fates t labId hissue hrevoke hpass => ?_⟩
  · rw [materialize_eq_nil_iff]
    constructor
    · intro hnil lease hlease hlab
      by_contra hactive
      obtain ⟨hunrevoked, htime⟩ := not_or.mp hactive
      have happroved := (hrows lease.id lease (Table.get?_of_mem hlease)).approved
      have hmem : lease ∈ liveLeases (runFrom env s₀ actions).store t labId :=
        (mem_liveLeases hcolumns).mpr ⟨hlease, hlab, happroved, not_not.mp hunrevoked, not_le.mp htime⟩
      exact List.not_mem_nil (hnil ▸ hmem)
    · intro hended
      apply List.eq_nil_iff_forall_not_mem.mpr
      intro lease hlease
      obtain ⟨hmem, hlab, -, hunrevoked, htime⟩ := (mem_liveLeases hcolumns).mp hlease
      rcases hended lease hmem hlab with hrevoked | hexpired
      · exact hrevoked hunrevoked
      · omega
  · rcases secretLeases_of_effect (effect_of_answer env (runFrom env s₀ actions) r now fates) with
        hsame | ⟨_, _, _, _, h⟩ | ⟨_, _, _, h⟩ | ⟨at', h, sweeps⟩
    · exact congrArg (fun t' => Table.select t' (isLive t labId) before) hsame
    · exact absurd h (hissue _ _ _ _)
    · exact absurd h (hrevoke _ _ _)
    · exact (liveLeases_of_sweeps sweeps hcolumns (hpass at' h) labId).2

theorem leases_outlive_labs_leaseRun :
    (∃ lease ∈ (runFrom (symbolic [("leasing", leasing)]) emptyState leaseRun).store.secretLeases.rows,
      lease.labId = "a") ∧
    ∃ s', materializeRuntimeLeases (symbolic [("leasing", leasing)]) (31 * 60000000) "a"
      ((runFrom (symbolic [("leasing", leasing)]) emptyState leaseRun).session []) = .ok [] s' := by
  refine ⟨by decide +kernel,
    ((leases_outlive_labs (symbolic [("leasing", leasing)]) emptyState (initial_emptyState _)
    leaseRun).1 _ _ _).mpr ?_⟩
  decide +kernel

/-- **A destroyed lab is given a secret**: it was deleted while a lease of it was active. -/
theorem destroyed_lab_leased :
    ((runFrom (symbolic [("leasing", leasing)]) emptyState leaseRun).store.labs.get? "a").any
      (fun lab => lab.state = .destroyed) = true ∧
    ∃ lease s', materializeRuntimeLeases (symbolic [("leasing", leasing)]) 3 "a"
      ((runFrom (symbolic [("leasing", leasing)]) emptyState leaseRun).session []) = .ok [lease] s' := by
  have hlive : (liveLeases (runFrom (symbolic [("leasing", leasing)]) emptyState leaseRun).store 3
      "a").length = 1 := by
    decide +kernel
  obtain ⟨row, hrow⟩ := List.length_eq_one_iff.mp hlive
  have hbroker : ∀ name, ((symbolic [("leasing", leasing)]).secrets name).isSome = true := fun _ => rfl
  have hgiven := materialize_of_broker hbroker
    ((runFrom (symbolic [("leasing", leasing)]) emptyState leaseRun).session []) 3 "a"
  refine ⟨by decide +kernel, leaseOf (symbolic [("leasing", leasing)]) row,
    (runFrom (symbolic [("leasing", leasing)]) emptyState leaseRun).session [], hgiven.trans ?_⟩
  exact congrArg (fun rows =>
    EStateM.Result.ok (List.map (leaseOf (symbolic [("leasing", leasing)])) rows) _) hrow

end LabOS
