import Mathlib.Data.List.Perm.Basic
import Mathlib.Data.List.Nodup
import MethodLowering.Batch
import MethodLowering.Proofs.LoweringOutcome

/-!
# Reports of batches

A report is made from outcomes that arrive in some order, each with the place of its job. The order does not matter: as
long as each job has arrived once, the report is that of lowering the callables one after the other.

* `Scope.lowerEach` -- the report of lowering callables one after the other;
* `Batch.arrange_of_perm` -- arrivals end up at their places, whatever their order;
* `Batch.report_of_perm` -- **the report of arrivals in any order is that of the jobs in order**;
* `SourceModule.lower_eq_join` -- the report of a module, part by part.
-/

namespace MethodLowering

/-! ## 1. Reports one after the other -/

namespace Report

instance : Append Report where
  append first second :=
    { records := first.records ++ second.records, failures := first.failures ++ second.failures }

@[simp] theorem records_append (first second : Report) : (first ++ second).records = first.records ++ second.records :=
  rfl

@[simp] theorem failures_append (first second : Report) :
    (first ++ second).failures = first.failures ++ second.failures :=
  rfl

theorem append_empty (report : Report) : report ++ {} = report := by
  cases report
  exact congrArg₂ Report.mk (List.append_nil _) (List.append_nil _)

/-- Reports one after the other. -/
def join (reports : List Report) : Report :=
  reports.foldr (· ++ ·) {}

/-- The number of callables that a report speaks of. -/
def size (report : Report) : Nat :=
  report.records.length + report.failures.length

theorem size_append (first second : Report) : (first ++ second).size = first.size + second.size := by
  simp only [size, records_append, failures_append, List.length_append]
  omega

end Report

/-- The failure of a callable in a scope, if it has one. -/
def Callable.failure? (callable : Callable) (scope : Scope) (target : Target) : Option Failure :=
  match callable.lower scope target with
  | .ok _ => none
  | .error error => some { qualifiedName := callable.qualifiedName scope, error }

/-- The report of callables that are lowered one after the other in a scope. -/
def Scope.lowerEach (scope : Scope) (target : Target) (callables : List Callable) : Report :=
  { records := callables.filterMap fun callable => (callable.lower scope target).toOption
    failures := callables.filterMap (·.failure? scope target) }

/-! ## 2. Arrivals in any order -/

namespace Batch

variable {target : Target} {jobs : List Job} {arrivals : List (Nat × Outcome)} {place : Nat} {outcome : Outcome}

theorem places_inOrder (target : Target) (jobs : List Job) :
    (inOrder target jobs).map Prod.fst = List.range jobs.length := by
  have hplace : (Prod.fst ∘ fun (entry : Job × Nat) => (entry.2, entry.1.run target)) = Prod.snd := rfl
  rw [inOrder, List.map_map, hplace, List.zipIdx_map_snd, List.range_eq_range']

theorem mem_inOrder :
    (place, outcome) ∈ inOrder target jobs ↔ ∃ job, jobs[place]? = some job ∧ outcome = job.run target := by
  simp only [inOrder, List.mem_map, Prod.exists, List.mk_mem_zipIdx_iff_getElem?, Prod.mk.injEq]
  constructor
  · intro h
    obtain ⟨job, index, hjob, hplace, houtcome⟩ := h
    subst hplace
    exact ⟨job, hjob, houtcome.symm⟩
  · intro h
    obtain ⟨job, hjob, houtcome⟩ := h
    exact ⟨job, place, hjob, rfl, houtcome.symm⟩

theorem store_cons (outcomes : Array (Option Outcome)) (arrival : Nat × Outcome) :
    store outcomes (arrival :: arrivals) = store (outcomes.setIfInBounds arrival.1 (some arrival.2)) arrivals :=
  rfl

@[simp] theorem size_store (outcomes : Array (Option Outcome)) : (store outcomes arrivals).size = outcomes.size := by
  induction arrivals generalizing outcomes with
  | nil => rfl
  | cons arrival rest ih => rw [store_cons, ih, Array.size_setIfInBounds]

theorem store_of_notMem (outcomes : Array (Option Outcome)) (h : place ∉ arrivals.map Prod.fst) :
    (store outcomes arrivals)[place]? = outcomes[place]? := by
  induction arrivals generalizing outcomes with
  | nil => rfl
  | cons arrival rest ih =>
    rw [List.map_cons, List.mem_cons, not_or] at h
    rw [store_cons, ih _ h.2, Array.getElem?_setIfInBounds_ne (Ne.symm h.1)]

/-- An arrival stays at its place if no other has this place. -/
theorem store_of_mem (outcomes : Array (Option Outcome)) (hnodup : (arrivals.map Prod.fst).Nodup)
    (h : (place, outcome) ∈ arrivals) (hplace : place < outcomes.size) :
    (store outcomes arrivals)[place]? = some (some outcome) := by
  induction arrivals generalizing outcomes with
  | nil => exact absurd h List.not_mem_nil
  | cons arrival rest ih =>
    rw [List.map_cons, List.nodup_cons] at hnodup
    rw [store_cons]
    rcases List.mem_cons.mp h with hhead | hrest
    · subst hhead
      rw [store_of_notMem _ hnodup.1, Array.getElem?_setIfInBounds_self_of_lt hplace]
    · exact ih _ hnodup.2 hrest (by rwa [Array.size_setIfInBounds])

/-- **Arrivals end up at their places, whatever their order.** -/
theorem arrange_of_perm (h : arrivals.Perm (inOrder target jobs)) :
    (arrange jobs.length arrivals).toList = jobs.map fun job => some (job.run target) := by
  have hnodup : (arrivals.map Prod.fst).Nodup := by
    rw [(h.map Prod.fst).nodup_iff, places_inOrder]
    exact List.nodup_range
  have hsize : (arrange jobs.length arrivals).size = jobs.length := by
    rw [arrange, size_store, Array.size_replicate]
  refine List.ext_getElem? fun place => ?_
  rw [Array.getElem?_toList, List.getElem?_map]
  by_cases hplace : place < jobs.length
  · have hmem : (place, jobs[place].run target) ∈ arrivals :=
      h.mem_iff.mpr (mem_inOrder.mpr ⟨jobs[place], List.getElem?_eq_getElem hplace, rfl⟩)
    rw [arrange, store_of_mem _ hnodup hmem (by rwa [Array.size_replicate]), List.getElem?_eq_getElem hplace,
      Option.map_some]
  · have hend : jobs.length ≤ place := Nat.le_of_not_lt hplace
    rw [List.getElem?_eq_none hend, Array.getElem?_eq_none (by rwa [hsize]), Option.map_none]

/-- The report of jobs that have all arrived, job by job. -/
theorem report_eq_filterMap (h : arrivals.Perm (inOrder target jobs)) :
    report jobs arrivals =
      { records := jobs.filterMap fun job => (job.run target).toOption
        failures := jobs.filterMap fun job => job.callable.failure? job.scope target } := by
  have hrecord : ∀ job : Job, record? (some (job.run target)) = (job.run target).toOption := by
    intro job
    cases job.run target with
    | ok method => rfl
    | error error => rfl
  have hfailure : ∀ job : Job, failure? job (some (job.run target)) = job.callable.failure? job.scope target := by
    intro job
    rw [Callable.failure?, Job.run]
    cases job.callable.lower job.scope target with
    | ok method => rfl
    | error error => rfl
  simp only [report, arrange_of_perm h, ← List.map_prod_left_eq_zip, List.filterMap_map, Function.comp_def, hrecord,
    hfailure]

/-- **The report of arrivals in any order is that of the jobs in order.** -/
theorem report_of_perm (h : arrivals.Perm (inOrder target jobs)) : report jobs arrivals = run target jobs := by
  rw [run, report_eq_filterMap h, report_eq_filterMap (List.Perm.refl _)]

/-! ## 3. Reports part by part -/

theorem run_eq_filterMap (target : Target) (jobs : List Job) :
    run target jobs =
      { records := jobs.filterMap fun job => (job.run target).toOption
        failures := jobs.filterMap fun job => job.callable.failure? job.scope target } :=
  report_eq_filterMap (List.Perm.refl _)

theorem run_append (target : Target) (first second : List Job) :
    run target (first ++ second) = run target first ++ run target second := by
  simp only [run_eq_filterMap, List.filterMap_append]
  rfl

theorem run_flatMap {Part : Type} (target : Target) (jobs : Part → List Job) (parts : List Part) :
    run target (parts.flatMap jobs) = Report.join (parts.map fun part => run target (jobs part)) := by
  induction parts with
  | nil => rfl
  | cons part rest ih =>
    rw [List.flatMap_cons, run_append, ih]
    rfl

theorem run_map (target : Target) (scope : Scope) (callables : List Callable) :
    run target (callables.map fun callable => { scope, callable }) = scope.lowerEach target callables := by
  rw [run_eq_filterMap, List.filterMap_map, List.filterMap_map]
  rfl

theorem size_run_singleton (target : Target) (job : Job) : (run target [job]).size = 1 := by
  simp only [Report.size, run_eq_filterMap, List.filterMap_cons, Callable.failure?, Job.run]
  cases job.callable.lower job.scope target with
  | ok method => rfl
  | error error => rfl

/-- Each job is in the report once. -/
theorem size_run (target : Target) (jobs : List Job) : (run target jobs).size = jobs.length := by
  induction jobs with
  | nil => rfl
  | cons job rest ih =>
    rw [← List.singleton_append, run_append, Report.size_append, size_run_singleton, ih, List.length_append,
      List.length_singleton]

/-- No failure stands for a job that was not run. -/
theorem error_ne_unfinished {failure : Failure} (h : failure ∈ (run target jobs).failures) :
    failure.error ≠ .internal .unfinished := by
  rw [run_eq_filterMap] at h
  obtain ⟨job, -, hfailure⟩ := List.mem_filterMap.mp h
  rw [Callable.failure?] at hfailure
  rcases job.callable.lower_cases job.scope target with
    ⟨-, hlower⟩ | ⟨-, -, hlower⟩ | ⟨-, -, index, slot, -, hlower⟩ | ⟨-, -, -, hlower⟩ <;> rw [hlower] at hfailure
  all_goals cases hfailure
  all_goals exact LoweringError.noConfusion

end Batch

/-- **The report of a class is that of its callables one after the other.** -/
theorem SourceClass.lower_eq_lowerEach (source : SourceClass) (target : Target) :
    source.lower target = source.scope.lowerEach target source.callables :=
  Batch.run_map target _ _

/-- **The report of a module is that of its own callables, then of those of each class.** -/
theorem SourceModule.lower_eq_join (source : SourceModule) (target : Target) :
    source.lower target =
      Report.join (({ moduleName := source.name } : Scope).lowerEach target source.callables ::
        source.classes.map fun sourceClass => sourceClass.lower target) := by
  rw [SourceModule.lower, SourceModule.jobs, Batch.run_append, Batch.run_flatMap, Batch.run_map]
  rfl

theorem SourceModule.length_jobs (source : SourceModule) :
    source.jobs.length =
      source.callables.length + (source.classes.flatMap fun sourceClass => sourceClass.callables).length := by
  have hclasses : (source.classes.flatMap (·.jobs)).length =
      (source.classes.flatMap fun sourceClass => sourceClass.callables).length := by
    induction source.classes with
    | nil => rfl
    | cons sourceClass rest ih =>
      rw [List.flatMap_cons, List.flatMap_cons, List.length_append, List.length_append, ih, SourceClass.jobs,
        List.length_map]
  rw [SourceModule.jobs, List.length_append, List.length_map, hclasses]

end MethodLowering
