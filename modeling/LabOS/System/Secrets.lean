import LabOS.Runtimes.DockerRuntime
import LabOS.System.Leases

/-!
# Where the values of secrets go

The broker resolves a secret when a lease is issued, and again when a runtime is given the leases of its lab.
The first time only that it has a value counts: the application with other values answers every request with
the same response and writes the same rows and the same files. The second time the value goes into the
environment of the container, which `_build_environment` fills from the leases; at the time of the query it
refuses none of them.

## What is proved

* `secret_flow` — **the values go into the environment of the container, and nowhere else**.
-/

namespace LabOS

open Exceptional

variable {β : Type} [Content β] {env : Environment β} {secrets : String → Option String}

/-! ### The application with other values -/

/-- The application with other values of its secrets. -/
def Environment.withSecrets (env : Environment β) (secrets : String → Option String) : Environment β :=
  { env with secrets := secrets }

/-- The same secrets have a value. -/
def SameNames (env : Environment β) (secrets : String → Option String) : Prop :=
  ∀ name, (secrets name).isSome = (env.secrets name).isSome

theorem resolve_withSecrets {α : Type} (h : SameNames env secrets) (secretName : String) (f : SessionM β α) :
    (SecretLeaseService.resolve (env.withSecrets secrets) secretName >>= fun _ => f) =
      SecretLeaseService.resolve env secretName >>= fun _ => f := by
  have hname := h secretName
  unfold SecretLeaseService.resolve Environment.withSecrets
  dsimp only
  cases hvalue : env.secrets secretName with
  | none =>
    have hnone : secrets secretName = none := by simpa [hvalue] using hname
    rw [hnone]
  | some value =>
    obtain ⟨value', hvalue'⟩ : ∃ value', secrets secretName = some value' := by
      simpa [hvalue, Option.isSome_iff_exists] using hname
    rw [hvalue']
    rfl

/-- A lease is issued alike: the value is not kept. -/
theorem issueLease_withSecrets (h : SameNames env secrets) (now : ℤ) (labId secretName : String)
    (ttlMinutes : ℤ) : SecretLeaseService.issueLease
    (env.withSecrets secrets) now labId secretName ttlMinutes =
      SecretLeaseService.issueLease env now labId secretName ttlMinutes :=
  bind_congr fun _ => bind_congr fun _ => bind_congr fun _ => bind_congr fun _ => resolve_withSecrets h _ _

/-- **Every request is answered alike.** -/
theorem respond_withSecrets (h : SameNames env secrets) (now : ℤ) (r : Request β) :
    respond (env.withSecrets secrets) now r = respond env now r := by
  cases r with
  | createSecretLease labId secretName requester ttlMinutes =>
    have hhandler : App.createSecretLease
        (env.withSecrets secrets) now labId secretName requester ttlMinutes =
        App.createSecretLease env now labId secretName requester ttlMinutes := by
      unfold App.createSecretLease
      rw [issueLease_withSecrets h]
    rw [respond, respond, hhandler]
  | _ => rfl

theorem answer_withSecrets (h : SameNames env secrets) (s : State β) (r : Request β) (now : ℤ)
    (fates : List Fate) : answer (env.withSecrets secrets) s r now fates = answer env s r now fates :=
  congrFun (respond_withSecrets h now r) (s.session fates)

theorem runFrom_withSecrets (h : SameNames env secrets) (s : State β) (actions : List (Action β)) :
    runFrom (env.withSecrets secrets) s actions = runFrom env s actions := by
  have hstep : step (env.withSecrets secrets) = step env := by
    funext s a
    cases a with
    | request r now fates =>
      show (endState (answer (env.withSecrets secrets) s r now fates)).state = _
      rw [answer_withSecrets h]
      rfl
    | guest labId entries => rfl
  unfold runFrom
  rw [hstep]

/-! ### The leases a runtime is given -/

namespace SecretLeaseService

/-- The lease of a row, as the query gives it to a runtime. -/
def resolved (env : Environment β) (row : SecretLeaseRow) : SessionM β SecretLease := do
  let value ← resolve env row.secretName
  return { name := row.secretName, value := value, approved := row.approved, expiresAt := row.expiresAt.normalize }

/-- The query raises for the first lease whose secret has no value any more. -/
theorem materialize_of_missing {s : Session β} {t : ℤ} {labId : String} {row : SecretLeaseRow}
    (h : (liveLeases s.store t labId).find? (fun row => (env.secrets row.secretName).isNone) = some row) :
    materializeRuntimeLeases env t labId s = .error (.secretNotFound row.secretName) s := by
  have hrows : ∀ rows : List SecretLeaseRow,
      rows.find? (fun row => (env.secrets row.secretName).isNone) = some row →
      (rows.mapM (resolved env)) s = .error (.secretNotFound row.secretName) s := by
    intro rows hfind
    induction rows with
    | nil => cases hfind
    | cons first rows ih =>
      rw [List.mapM_cons, bind_eq_error]
      rw [List.find?_cons] at hfind
      split at hfind
      · next hmissing =>
        obtain rfl := Option.some.inj hfind
        refine .inl (bind_eq_error.mpr (.inl (orRaise_eq_error.mpr ?_)))
        exact ⟨Option.isNone_iff_eq_none.mp hmissing, rfl, rfl⟩
      · next hthere =>
        obtain ⟨value, hvalue⟩ :=
          Option.isSome_iff_exists.mp (show (env.secrets first.secretName).isSome = true
          by simpa using hthere)
        refine .inr ⟨_, s, bind_eq_ok.mpr ⟨value, s, orRaise_eq_ok.mpr ⟨hvalue, rfl⟩, rfl⟩, ?_⟩
        exact bind_eq_error.mpr (.inl (ih hfind))
  unfold materializeRuntimeLeases
  exact bind_eq_error.mpr (.inr ⟨s, s, rfl, hrows _ h⟩)

theorem materialize_of_there {s : Session β} {t : ℤ} {labId : String}
    (h : ∀ row ∈ liveLeases s.store t labId, (env.secrets row.secretName).isSome = true) :
    materializeRuntimeLeases env t labId s = .ok ((liveLeases s.store t labId).map (leaseOf env)) s := by
  have hrows : ∀ rows : List SecretLeaseRow, (∀ row ∈ rows, (env.secrets row.secretName).isSome = true) →
      (rows.mapM (resolved env)) s = .ok (rows.map (leaseOf env)) s := by
    intro rows hrows
    induction rows with
    | nil => rfl
    | cons row rows ih =>
      obtain ⟨value, hvalue⟩ := Option.isSome_iff_exists.mp (hrows row List.mem_cons_self)
      rw [List.mapM_cons, bind_eq_ok]
      refine ⟨leaseOf env row, s, ?_, bind_eq_ok.mpr ⟨_, s, ih fun row hrow =>
        hrows row (List.mem_cons_of_mem _ hrow), rfl⟩⟩
      simp [resolved, resolve, hvalue, leaseOf]
  unfold materializeRuntimeLeases
  exact bind_eq_ok.mpr ⟨s, s, rfl, hrows _ h⟩

end SecretLeaseService

/-! ### The environment of the container -/

open SecretLeaseService

namespace DockerRuntime

theorem foldlM_eq_ok {ε δ γ : Type} {f : δ → γ → Except ε δ} {g : δ → γ → δ} {l : List γ}
    (h : ∀ x ∈ l, ∀ d, f d x = .ok (g d x)) (d : δ) : l.foldlM f d = .ok (l.foldl g d) := by
  induction l generalizing d with
  | nil => rfl
  | cons x l ih =>
    rw [List.foldlM_cons, h x List.mem_cons_self d]
    exact ih (fun y hy => h y (List.mem_cons_of_mem _ hy)) _

/-- The values of the leases by their names. -/
def environmentOf (leases : List SecretLease) : Dict String :=
  leases.foldl (fun environment lease => environment.set lease.name lease.value) []

/-- Leases that are active are accepted. -/
theorem buildEnvironment_of_active {ε : Type} {t : ℤ} {spec : RuntimeSpec}
    (h : ∀ lease ∈ spec.secretLeases, lease.approved = true ∧ lease.isActive t = some true) :
    buildEnvironment t spec =
      (.ok (environmentOf spec.secretLeases) : Except (RuntimeExc ε) (Dict String)) := by
  refine foldlM_eq_ok (fun lease hlease environment => ?_) []
  obtain ⟨happroved, hactive⟩ := h lease hlease
  rw [if_neg (by simp [happroved]), hactive]

/-- Leases of one name have one value, the broker's. -/
theorem get?_environmentOf (rows : List SecretLeaseRow)
    (h : ∀ row ∈ rows, (env.secrets row.secretName).isSome = true) (name value : String) :
    (environmentOf (rows.map (leaseOf env))).get? name = some value ↔
      env.secrets name = some value ∧ ∃ row ∈ rows, row.secretName = name := by
  unfold environmentOf
  induction rows using List.reverseRecOn with
  | nil => simp [Dict.get?]
  | append_singleton rows row ih =>
    have hrow : (env.secrets row.secretName).isSome = true := h row (by simp)
    obtain ⟨value', hvalue'⟩ := Option.isSome_iff_exists.mp hrow
    have hset : (leaseOf env row).name = row.secretName ∧ (leaseOf env row).value = value' := by
      simp [leaseOf, hvalue']
    rw [List.map_append, List.foldl_append, List.map_singleton, List.foldl_cons,
      List.foldl_nil, Dict.get?_set,
      hset.1, hset.2]
    by_cases hname : name = row.secretName
    · subst hname
      rw [if_pos rfl, hvalue']
      exact ⟨fun hv => ⟨hv, row, by simp, rfl⟩, fun hv => hv.1⟩
    · rw [if_neg hname, ih fun row hrow => h row (by simp [hrow])]
      refine and_congr_right fun _ => ⟨?_, ?_⟩
      · rintro ⟨row', hrow', hsecret⟩
        exact ⟨row', by simp [hrow'], hsecret⟩
      · rintro ⟨row', hrow', hsecret⟩
        rcases List.mem_append.mp hrow' with hrow' | hrow'
        · exact ⟨row', hrow', hsecret⟩
        · obtain rfl := List.mem_singleton.mp hrow'
          exact absurd hsecret.symm hname

end DockerRuntime

/-- **The values of the secrets go into the environment of the container, and nowhere else.** In every run the
application with other values of the same secrets reaches the same state and gives the same answers. The query
for a runtime, whatever the secrets are by then, raises for the first lease whose secret has no value any more;
where all have one, `_build_environment` accepts what it is given, and the environment holds exactly the values of
the secrets that a lease of the lab is active for. -/
theorem secret_flow (env : Environment β) (s₀ : State β) (h₀ : Initial env s₀) (actions : List (Action β)) :
    (∀ secrets, SameNames env secrets →
      runFrom (env.withSecrets secrets) s₀ actions = runFrom env s₀ actions ∧
      ∀ r now fates, answer (env.withSecrets secrets) (runFrom env s₀ actions) r now fates =
        answer env (runFrom env s₀ actions) r now fates) ∧
    ∀ secrets t labId fates,
      (∀ row, (liveLeases (runFrom env s₀ actions).store t labId).find?
          (fun row => (secrets row.secretName).isNone) = some row →
        materializeRuntimeLeases (env.withSecrets secrets) t labId ((runFrom env s₀ actions).session fates) =
          .error (.secretNotFound row.secretName) ((runFrom env s₀ actions).session fates)) ∧
      ((∀ row ∈ liveLeases (runFrom env s₀ actions).store t labId, (secrets row.secretName).isSome = true) →
        ∃ leases,
          materializeRuntimeLeases (env.withSecrets secrets) t labId
            ((runFrom env s₀ actions).session fates) =
            .ok leases ((runFrom env s₀ actions).session fates) ∧
          ∀ (ε : Type) (spec : RuntimeSpec), ∃ environment,
            DockerRuntime.buildEnvironment t { spec with secretLeases := leases } =
              (.ok environment : Except (RuntimeExc ε) (Dict String)) ∧
            ∀ name value, environment.get? name = some value ↔ secrets name = some value ∧
              ∃ lease ∈ (runFrom env s₀ actions).store.secretLeases.rows, lease.secretName = name ∧
                lease.labId = labId ∧ lease.revokedAt = none ∧ t < lease.expiresAt.instant) := by
  have hrows := leaseRows_of_run h₀ actions
  have hcolumns : Columns (runFrom env s₀ actions).store :=
    fun id lease hlease => (hrows id lease hlease).column
  refine ⟨fun secrets hsame => ⟨runFrom_withSecrets hsame s₀ actions, answer_withSecrets hsame _⟩,
    fun secrets t labId fates => ⟨fun row hrow => materialize_of_missing hrow, fun hthere => ?_⟩⟩
  refine ⟨_, materialize_of_there hthere, fun ε spec => ⟨_, DockerRuntime.buildEnvironment_of_active ?_, ?_⟩⟩
  · intro lease hlease
    obtain ⟨row, hrow, rfl⟩ := List.mem_map.mp hlease
    obtain ⟨-, -, happroved, -, hactive⟩ := (mem_liveLeases hcolumns).mp hrow
    refine ⟨happroved, congrArg some (decide_eq_true ?_)⟩
    simpa [leaseOf, DateTime.normalize, DateTime.instant] using hactive
  · intro name value
    refine (DockerRuntime.get?_environmentOf _ hthere name value).trans
      (and_congr_right fun _ => ⟨?_, ?_⟩)
    · rintro ⟨row, hrow, hname⟩
      obtain ⟨hmem, hlab, -, hunrevoked, hactive⟩ := (mem_liveLeases hcolumns).mp hrow
      exact ⟨row, hmem, hname, hlab, hunrevoked, hactive⟩
    · rintro ⟨row, hmem, hname, hlab, hunrevoked, hactive⟩
      have happroved := (hrows row.id row (Table.get?_of_mem hmem)).approved
      exact ⟨row, (mem_liveLeases hcolumns).mpr ⟨hmem, hlab, happroved, hunrevoked, hactive⟩, hname⟩

/-- A run that issues a lease is not told from the same run with another value; and once the secret is gone, no
runtime is given the lease. -/
theorem secret_flow_leaseRun :
    runFrom ((symbolic [("leasing", leasing)]).withSecrets fun _ => some "hunter2") emptyState leaseRun =
      runFrom (symbolic [("leasing", leasing)]) emptyState leaseRun ∧
    ∃ row ∈ liveLeases (runFrom (symbolic [("leasing", leasing)]) emptyState leaseRun).store 1 "a",
      materializeRuntimeLeases ((symbolic [("leasing", leasing)]).withSecrets fun _ => none) 1 "a"
          ((runFrom (symbolic [("leasing", leasing)]) emptyState leaseRun).session []) =
        .error (.secretNotFound row.secretName)
          ((runFrom (symbolic [("leasing", leasing)]) emptyState leaseRun).session []) := by
  obtain ⟨hsame, hquery⟩ :=
    secret_flow (symbolic [("leasing", leasing)]) emptyState (initial_emptyState _) leaseRun
  have hlive : ((liveLeases (runFrom (symbolic [("leasing", leasing)]) emptyState leaseRun).store 1 "a").find?
      fun _ => true).isSome = true := by
    decide +kernel
  obtain ⟨row, hrow⟩ := Option.isSome_iff_exists.mp hlive
  exact ⟨(hsame (fun _ => some "hunter2") fun _ => rfl).1, row, List.mem_of_find?_eq_some hrow,
    (hquery (fun _ => none) 1 "a" []).1 row hrow⟩

end LabOS
