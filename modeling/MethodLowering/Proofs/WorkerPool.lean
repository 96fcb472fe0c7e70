import Mathlib.Logic.Relation
import MethodLowering.Proofs.BatchReport

/-!
# Workers that share a batch

Workers lower the callables of a batch side by side. Each takes a job from a queue, lowers its callable and sends the
outcome with the place of the job to a collector. Nothing is known of the order: a worker may take any job of the queue,
messages may come in any order, and the steps of workers and collector interleave as they like. Whatever happens, the
collector ends with each outcome once, so the report is that of lowering the callables one after the other.

* `Pool.Step` -- one step of a worker or of the collector;
* `Pool.Step.outcomes_perm`, `Pool.Step.measure_lt` -- no step loses or repeats an outcome, and each uses up work;
* `Pool.exists_complete` -- from everywhere, a run comes to its end;
* `Pool.report_of_reaches` -- **the report of any jobs does not depend on the schedule**;
* `SourceModule.report_of_schedule`, `SourceClass.report_of_workers` -- so it is for a module and for a class.
-/

namespace MethodLowering

/-! ## 1. The pool and its steps -/

/-- What a worker is at. -/
inductive Worker where
  | idle
  /-- Lowers the callable of a job. -/
  | busy (place : Nat) (job : Job)
  /-- Has an outcome to send. -/
  | done (place : Nat) (outcome : Outcome)
  /-- Has found the queue empty. -/
  | stopped

/-- Workers between a queue of jobs and a channel, and what has arrived at the other end. -/
structure Pool where
  queue : List (Nat × Job)
  workers : List Worker
  channel : List (Nat × Outcome) := []
  arrivals : List (Nat × Outcome) := []

namespace Pool

/-- One step of one worker, or of the collector. -/
inductive Step (target : Target) : Pool → Pool → Prop
  | take (before after : List (Nat × Job)) (left right : List Worker) (place : Nat) (job : Job)
      (channel arrivals : List (Nat × Outcome)) :
      Step target ⟨before ++ (place, job) :: after, left ++ .idle :: right, channel, arrivals⟩
        ⟨before ++ after, left ++ .busy place job :: right, channel, arrivals⟩
  | finish (queue : List (Nat × Job)) (left right : List Worker) (place : Nat) (job : Job)
      (channel arrivals : List (Nat × Outcome)) :
      Step target ⟨queue, left ++ .busy place job :: right, channel, arrivals⟩
        ⟨queue, left ++ .done place (job.run target) :: right, channel, arrivals⟩
  | send (queue : List (Nat × Job)) (left right : List Worker) (place : Nat) (outcome : Outcome)
      (channel arrivals : List (Nat × Outcome)) :
      Step target ⟨queue, left ++ .done place outcome :: right, channel, arrivals⟩
        ⟨queue, left ++ .idle :: right, channel ++ [(place, outcome)], arrivals⟩
  | stop (left right : List Worker) (channel arrivals : List (Nat × Outcome)) :
      Step target ⟨[], left ++ .idle :: right, channel, arrivals⟩ ⟨[], left ++ .stopped :: right, channel, arrivals⟩
  | receive (queue : List (Nat × Job)) (workers : List Worker) (before after : List (Nat × Outcome))
      (message : Nat × Outcome) (arrivals : List (Nat × Outcome)) :
      Step target ⟨queue, workers, before ++ message :: after, arrivals⟩
        ⟨queue, workers, before ++ after, arrivals ++ [message]⟩

/-- Any number of steps, interleaved in any way. -/
abbrev Reaches (target : Target) : Pool → Pool → Prop :=
  Relation.ReflTransGen (Step target)

/-- All jobs are in the queue, and all workers are idle. -/
def start (workers : Nat) (jobs : List Job) : Pool :=
  { queue := jobs.zipIdx.map fun (job, place) => (place, job), workers := List.replicate workers .idle }

/-- All workers have stopped, and all messages have arrived. -/
structure Complete (pool : Pool) : Prop where
  stopped : ∀ worker ∈ pool.workers, worker = .stopped
  drained : pool.channel = []

end Pool

/-! ## 2. Every run comes to its end -/

/-- The steps that a worker leads to if it takes no more jobs, one of them to receive its message. -/
def Worker.work : Worker → Nat
  | idle => 1
  | busy _ _ => 4
  | done _ _ => 3
  | stopped => 0

/-- The steps that workers lead to. -/
def Worker.totalWork : List Worker → Nat
  | [] => 0
  | worker :: rest => worker.work + totalWork rest

theorem Worker.totalWork_append (left right : List Worker) :
    totalWork (left ++ right) = totalWork left + totalWork right := by
  induction left with
  | nil => exact (Nat.zero_add _).symm
  | cons worker rest ih => rw [List.cons_append, totalWork, totalWork, ih, Nat.add_assoc]

namespace Pool

variable {target : Target} {pool next : Pool}

/-- The steps that are left. -/
def measure (pool : Pool) : Nat :=
  4 * pool.queue.length + Worker.totalWork pool.workers + pool.channel.length

/-- Each step uses up work. -/
theorem Step.measure_lt (h : Step target pool next) : next.measure < pool.measure := by
  cases h <;> simp only [measure, List.length_append, List.length_cons, List.length_nil, Worker.totalWork_append,
    Worker.totalWork, Worker.work] <;> omega

/-- A pool that is not complete can take a step: nobody waits for another. -/
theorem exists_step (target : Target) (h : ¬pool.Complete) : ∃ next, Step target pool next := by
  obtain ⟨queue, workers, channel, arrivals⟩ := pool
  rcases channel with _ | ⟨message, rest⟩
  · have hworker : ∃ worker ∈ workers, worker ≠ .stopped := by
      by_contra hall
      refine h ⟨fun worker hmem => ?_, rfl⟩
      by_contra hne
      exact hall ⟨worker, hmem, hne⟩
    obtain ⟨worker, hmem, hne⟩ := hworker
    obtain ⟨left, right, rfl⟩ := List.append_of_mem hmem
    cases worker with
    | idle =>
      rcases queue with _ | ⟨⟨place, job⟩, rest⟩
      · exact ⟨_, .stop left right [] arrivals⟩
      · exact ⟨_, .take [] rest left right place job [] arrivals⟩
    | busy place job => exact ⟨_, .finish queue left right place job [] arrivals⟩
    | done place outcome => exact ⟨_, .send queue left right place outcome [] arrivals⟩
    | stopped => exact absurd rfl hne
  · exact ⟨_, .receive queue workers [] rest message arrivals⟩

/-- From every pool, a run comes to its end. -/
theorem exists_complete (target : Target) (pool : Pool) : ∃ last, Reaches target pool last ∧ last.Complete := by
  by_cases h : pool.Complete
  · exact ⟨pool, .refl, h⟩
  · obtain ⟨next, hstep⟩ := exists_step target h
    obtain ⟨last, hreach, hlast⟩ := exists_complete target next
    exact ⟨last, .head hstep hreach, hlast⟩
termination_by pool.measure
decreasing_by exact hstep.measure_lt

end Pool

/-! ## 3. No outcome is lost or repeated -/

/-- The outcome that a worker has or is about to have. -/
def Worker.outcomes (target : Target) : Worker → List (Nat × Outcome)
  | idle | stopped => []
  | busy place job => [(place, job.run target)]
  | done place outcome => [(place, outcome)]

namespace Pool

variable {target : Target} {jobs : List Job} {crew : Nat} {pool next : Pool}

/-- The outcomes of all jobs, wherever they are. -/
def outcomes (target : Target) (pool : Pool) : List (Nat × Outcome) :=
  pool.queue.map (fun (place, job) => (place, job.run target))
    ++ (pool.workers.flatMap (·.outcomes target) ++ (pool.channel ++ pool.arrivals))

/-- A step moves an outcome along, and neither loses nor repeats one. -/
theorem Step.outcomes_perm (h : Step target pool next) : (next.outcomes target).Perm (pool.outcomes target) := by
  cases h with
  | take before after left right place job channel arrivals =>
    simp only [outcomes, List.map_append, List.map_cons, List.flatMap_append, List.flatMap_cons, Worker.outcomes,
      List.nil_append, List.append_assoc, List.cons_append]
    grind [List.perm_middle]
  | finish queue left right place job channel arrivals =>
    simp only [outcomes, List.flatMap_append, List.flatMap_cons, Worker.outcomes]
    exact List.Perm.refl _
  | send queue left right place outcome channel arrivals =>
    simp only [outcomes, List.flatMap_append, List.flatMap_cons, Worker.outcomes, List.nil_append, List.append_assoc,
      List.cons_append]
    grind [List.perm_middle]
  | stop left right channel arrivals =>
    simp only [outcomes, List.flatMap_append, List.flatMap_cons, Worker.outcomes]
    exact List.Perm.refl _
  | receive queue workers before after message arrivals =>
    simp only [outcomes, List.append_assoc, List.cons_append]
    grind [List.perm_middle]

/-- What holds of a pool all along its run. -/
structure Inv (target : Target) (jobs : List Job) (crew : Nat) (pool : Pool) : Prop where
  outcomes : (pool.outcomes target).Perm (Batch.inOrder target jobs)
  crew : pool.workers.length = crew
  stopped : .stopped ∈ pool.workers → pool.queue = []

theorem inv_start (target : Target) (jobs : List Job) (crew : Nat) : (start crew jobs).Inv target jobs crew where
  outcomes := by
    have hidle : (List.replicate crew Worker.idle).flatMap (·.outcomes target) = [] :=
      List.flatMap_eq_nil_iff.mpr fun worker hmem => by rw [List.eq_of_mem_replicate hmem, Worker.outcomes]
    simp only [Pool.outcomes, start, hidle, List.append_nil, List.map_map]
    exact List.Perm.refl _
  crew := List.length_replicate
  stopped h := absurd (List.eq_of_mem_replicate h) Worker.noConfusion

/-- A worker only stops once the queue is empty, and nothing is put into the queue again. -/
theorem Step.stopped (h : Step target pool next) (hstopped : .stopped ∈ pool.workers → pool.queue = []) :
    .stopped ∈ next.workers → next.queue = [] := by
  cases h with
  | take before after left right place job channel arrivals =>
    intro hmem
    have hbefore : Worker.stopped ∈ left ++ .idle :: right := by simpa using hmem
    exact absurd (hstopped hbefore) (by simp)
  | finish queue left right place job channel arrivals => simpa using hstopped
  | send queue left right place outcome channel arrivals => simpa using hstopped
  | stop left right channel arrivals => exact fun _ => rfl
  | receive queue workers before after message arrivals => exact hstopped

theorem Step.length_workers (h : Step target pool next) : next.workers.length = pool.workers.length := by
  cases h <;> simp only [List.length_append, List.length_cons]

theorem Inv.step (hinv : pool.Inv target jobs crew) (h : Step target pool next) : next.Inv target jobs crew where
  outcomes := h.outcomes_perm.trans hinv.outcomes
  crew := h.length_workers.trans hinv.crew
  stopped := h.stopped hinv.stopped

/-- The invariant holds along every run. -/
theorem inv_of_reaches (h : Reaches target (start crew jobs) pool) : pool.Inv target jobs crew := by
  induction h with
  | refl => exact inv_start target jobs crew
  | tail _ hstep ih => exact ih.step hstep

/-- What has arrived belongs to a job. -/
theorem Inv.place_lt (hinv : pool.Inv target jobs crew) {arrival : Nat × Outcome} (h : arrival ∈ pool.arrivals) :
    arrival.1 < jobs.length := by
  have hmem : arrival ∈ Batch.inOrder target jobs := by
    refine hinv.outcomes.subset ?_
    simp only [Pool.outcomes, List.mem_append]
    exact Or.inr (Or.inr (Or.inr h))
  have hplace : arrival.1 ∈ (Batch.inOrder target jobs).map Prod.fst := List.mem_map_of_mem hmem
  rw [Batch.places_inOrder] at hplace
  exact List.mem_range.mp hplace

/-- At the end of a run, each job has arrived once. -/
theorem Inv.arrivals_perm (hinv : pool.Inv target jobs crew) (hcrew : 0 < crew) (hcomplete : pool.Complete) :
    pool.arrivals.Perm (Batch.inOrder target jobs) := by
  obtain ⟨worker, hworker⟩ : ∃ worker, worker ∈ pool.workers :=
    List.exists_mem_of_length_pos (hinv.crew.symm ▸ hcrew)
  -- With no worker at all, the run would be over while jobs are still in the queue.
  have hqueue : pool.queue = [] := hinv.stopped (hcomplete.stopped worker hworker ▸ hworker)
  have hworkers : pool.workers.flatMap (·.outcomes target) = [] :=
    List.flatMap_eq_nil_iff.mpr fun worker hmem => by rw [hcomplete.stopped worker hmem, Worker.outcomes]
  have houtcomes := hinv.outcomes
  rwa [Pool.outcomes, hqueue, hworkers, hcomplete.drained] at houtcomes

end Pool

/-! ## 4. The report of any jobs -/

/-- There is at least one worker, also if none is chosen. -/
theorem Target.workerCount_pos (target : Target) (processors jobs : Nat) : 0 < target.workerCount processors jobs :=
  Nat.lt_of_lt_of_le Nat.zero_lt_one (Nat.le_max_right _ _)

/-- **The report of jobs does not depend on the schedule.** Every run of their workers can be brought to an end, what
arrives belongs to a job, and the report at the end is that of the jobs in order. -/
theorem Pool.report_of_reaches {target : Target} {processors : Nat} {jobs : List Job} {pool : Pool}
    (h : Pool.Reaches target (Pool.start (target.workerCount processors jobs.length) jobs) pool) :
    (∃ last, Pool.Reaches target pool last ∧ last.Complete) ∧
    (∀ arrival ∈ pool.arrivals, arrival.1 < jobs.length) ∧
    (pool.Complete → Batch.report jobs pool.arrivals = Batch.run target jobs) := by
  have hinv := Pool.inv_of_reaches h
  refine ⟨Pool.exists_complete target pool, fun arrival => hinv.place_lt, fun hcomplete => ?_⟩
  have harrivals := hinv.arrivals_perm (target.workerCount_pos processors _) hcomplete
  exact Batch.report_of_perm harrivals

/-! ## 5. The reports of classes and modules -/

/-- **The report of a class does not depend on the schedule.** -/
theorem SourceClass.report_of_workers (source : SourceClass) (target : Target) (processors : Nat) (pool : Pool)
    (h : Pool.Reaches target (Pool.start (target.workerCount processors source.jobs.length) source.jobs) pool) :
    (∃ last, Pool.Reaches target pool last ∧ last.Complete) ∧
    (∀ arrival ∈ pool.arrivals, arrival.1 < source.jobs.length) ∧
    (pool.Complete →
      Batch.report source.jobs pool.arrivals = source.lower target ∧
      Batch.report source.jobs pool.arrivals = source.scope.lowerEach target source.callables) := by
  obtain ⟨hend, hplaces, hreport⟩ := Pool.report_of_reaches h
  refine ⟨hend, hplaces, fun hcomplete => ?_⟩
  have hlower : Batch.report source.jobs pool.arrivals = source.lower target := hreport hcomplete
  exact ⟨hlower, hlower.trans (source.lower_eq_lowerEach target)⟩

/-- A report has the callables of a module in the order of declaration, each once and with what it comes to alone. -/
structure Report.Follows (report : Report) (source : SourceModule) (target : Target) : Prop where
  in_order : report =
    Report.join (({ moduleName := source.name } : Scope).lowerEach target source.callables ::
      source.classes.map fun sourceClass => sourceClass.scope.lowerEach target sourceClass.callables)
  size_eq : report.records.length + report.failures.length =
    source.callables.length + (source.classes.flatMap fun sourceClass => sourceClass.callables).length
  finished : ∀ failure ∈ report.failures, failure.error ≠ .internal .unfinished
  by_part : report =
    Report.join (({ source with classes := [] } : SourceModule).lower target ::
      source.classes.map fun sourceClass => sourceClass.lower target)

theorem SourceModule.follows_lower (source : SourceModule) (target : Target) :
    (source.lower target).Follows source target where
  in_order := by
    rw [source.lower_eq_join]
    simp only [SourceClass.lower_eq_lowerEach]
  size_eq := by
    rw [← source.length_jobs]
    exact Batch.size_run target source.jobs
  finished failure h := Batch.error_ne_unfinished h
  by_part := by
    have hown : ({ source with classes := [] } : SourceModule).lower target =
        ({ moduleName := source.name } : Scope).lowerEach target source.callables := by
      rw [SourceModule.lower_eq_join]
      exact Report.append_empty _
    rw [source.lower_eq_join, hown]

/-- **The report of a module does not depend on the schedule.** Every run of its workers can be brought to an end, what
arrives belongs to a job, and the report at the end is that of lowering the callables one after the other. -/
theorem SourceModule.report_of_schedule (source : SourceModule) (target : Target) (processors : Nat) (pool : Pool)
    (h : Pool.Reaches target (Pool.start (target.workerCount processors source.jobs.length) source.jobs) pool) :
    (∃ last, Pool.Reaches target pool last ∧ last.Complete) ∧
    (∀ arrival ∈ pool.arrivals, arrival.1 < source.jobs.length) ∧
    (pool.Complete →
      Batch.report source.jobs pool.arrivals = source.lower target ∧
      (Batch.report source.jobs pool.arrivals).Follows source target) := by
  obtain ⟨hend, hplaces, hreport⟩ := Pool.report_of_reaches h
  refine ⟨hend, hplaces, fun hcomplete => ?_⟩
  have hlower : Batch.report source.jobs pool.arrivals = source.lower target := hreport hcomplete
  exact ⟨hlower, hlower ▸ source.follows_lower target⟩

/-- The later of two jobs may arrive first. -/
theorem Pool.reaches_overtaking (target : Target) (first second : Job) :
    Pool.Reaches target (Pool.start 2 [first, second])
      ⟨[], [.stopped, .stopped], [], [(1, second.run target), (0, first.run target)]⟩ :=
  .head (.take [] [(1, second)] [] [.idle] 0 first [] []) <|
  .head (.take [] [] [.busy 0 first] [] 1 second [] []) <|
  .head (.finish [] [.busy 0 first] [] 1 second [] []) <|
  .head (.send [] [.busy 0 first] [] 1 (second.run target) [] []) <|
  .head (.stop [.busy 0 first] [] _ []) <|
  .head (.receive [] [.busy 0 first, .stopped] [] [] (1, second.run target) []) <|
  .head (.finish [] [] [.stopped] 0 first [] _) <|
  .head (.send [] [] [.stopped] 0 (first.run target) [] _) <|
  .head (.stop [] [.stopped] _ _) <|
  .single (.receive [] [.stopped, .stopped] [] [] (0, first.run target) [(1, second.run target)])

/-- A module with an entry point that uses a local out of its frame, and one in a class that does not. -/
def twoEntryPoints : SourceModule :=
  SourceModule.addClass { name := "app", callables := [.entryPoint { instructions := [.pushInt 1, .storeLocal 9] }] }
    "Main" none [.entryPoint {}]

/-- Of five workers two have a job, and the second is the first to arrive. -/
theorem SourceModule.report_of_schedule_twoEntryPoints :
    ∃ pool, Pool.Reaches { workers := some 5 }
        (Pool.start (Target.workerCount { workers := some 5 } 1 twoEntryPoints.jobs.length) twoEntryPoints.jobs) pool ∧
      pool.Complete ∧ pool.arrivals.map Prod.fst = [1, 0] ∧
      (Batch.report twoEntryPoints.jobs pool.arrivals).Follows twoEntryPoints { workers := some 5 } := by
  have hreach := Pool.reaches_overtaking { workers := some 5 }
    ⟨{ moduleName := "app" }, .entryPoint { instructions := [.pushInt 1, .storeLocal 9] }⟩
    ⟨{ moduleName := "app", className := some "Main" }, .entryPoint {}⟩
  have hcomplete (arrivals : List (Nat × Outcome)) : Pool.Complete ⟨[], [.stopped, .stopped], [], arrivals⟩ :=
    ⟨by simp, rfl⟩
  exact ⟨_, hreach, hcomplete _, rfl,
    ((twoEntryPoints.report_of_schedule { workers := some 5 } 1 _ hreach).2.2 (hcomplete _)).2⟩

end MethodLowering
