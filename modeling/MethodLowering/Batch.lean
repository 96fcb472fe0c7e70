import MethodLowering.Callable.Basic

/-!
# Batches

All callables of a module or a class are lowered one by one. Callables share nothing, so their results may arrive in any
order; the report has them in the order of declaration. A callable without method does not keep others from theirs.

* `SourceModule`, `SourceClass` -- callables by where they belong;
* `Job` -- a callable with the scope in which it is lowered; its place is that in the list of jobs;
* `Batch.inOrder` -- the outcomes of jobs, each with the place of its job;
* `Batch.arrange`, `Batch.report` -- arrivals at their places, and the report of them;
* `SourceModule.lower`, `SourceClass.lower` -- the report of a module and of a class.
-/

namespace MethodLowering

/-- A class with its callables, and the name of the module that it was declared in. -/
structure SourceClass where
  moduleName : String
  name : String
  superclass : Option String := none
  callables : List Callable := []
  deriving DecidableEq, Repr

/-- A module with its own callables and its classes. -/
structure SourceModule where
  name : String
  callables : List Callable := []
  classes : List SourceClass := []
  deriving DecidableEq, Repr

/-- Declares a class in a module, behind the classes that are there. -/
def SourceModule.addClass (source : SourceModule) (name : String) (superclass : Option String)
    (callables : List Callable) : SourceModule :=
  { source with classes := source.classes ++ [{ moduleName := source.name, name, superclass, callables }] }

/-- What lowering a callable gives. -/
abbrev Outcome : Type :=
  Except LoweringError MethodRecord

/-- A callable to be lowered in a scope. -/
structure Job where
  scope : Scope
  callable : Callable
  deriving DecidableEq, Repr

/-- A callable without method, by its full name. -/
structure Failure where
  qualifiedName : String
  error : LoweringError
  deriving DecidableEq, Repr

/-- The methods and the failures of a batch, each in the order of declaration. -/
structure Report where
  records : List MethodRecord := []
  failures : List Failure := []
  deriving DecidableEq, Repr

namespace Report

/-- Whether all callables have methods. -/
def isSuccess (report : Report) : Bool :=
  report.failures.isEmpty

/-- The position of the first method with a name. -/
def position? (report : Report) (name : String) : Option Nat :=
  report.records.findIdx? (·.name == name)

/-- The first method with a name. -/
def record? (report : Report) (name : String) : Option MethodRecord :=
  report.records.find? (·.name == name)

end Report

/-! ## 1. Jobs -/

namespace Job

/-- The full name of the callable. -/
def qualifiedName (job : Job) : String :=
  job.callable.qualifiedName job.scope

/-- Lowers the callable. -/
def run (target : Target) (job : Job) : Outcome :=
  job.callable.lower job.scope target

end Job

/-- The scope of a class. -/
def SourceClass.scope (source : SourceClass) : Scope :=
  { moduleName := source.moduleName, className := some source.name, superclass := source.superclass }

/-- The jobs of a class. -/
def SourceClass.jobs (source : SourceClass) : List Job :=
  source.callables.map fun callable => { scope := source.scope, callable }

/-- The jobs of a module: its own callables, then class by class. -/
def SourceModule.jobs (source : SourceModule) : List Job :=
  source.callables.map (fun callable => { scope := { moduleName := source.name }, callable })
    ++ source.classes.flatMap (·.jobs)

/-! ## 2. Reports -/

namespace Batch

/-- The outcomes of jobs in order, each with its place. -/
def inOrder (target : Target) (jobs : List Job) : List (Nat × Outcome) :=
  jobs.zipIdx.map fun (job, place) => (place, job.run target)

/-- Stores arrivals at their places, one after the other. -/
def store (outcomes : Array (Option Outcome)) (arrivals : List (Nat × Outcome)) : Array (Option Outcome) :=
  arrivals.foldl (fun outcomes (place, outcome) => outcomes.setIfInBounds place (some outcome)) outcomes

/-- The outcomes by place, from arrivals in any order, each with its place. -/
def arrange (total : Nat) (arrivals : List (Nat × Outcome)) : Array (Option Outcome) :=
  store (Array.replicate total none) arrivals

/-- The failure of a job, if its outcome is one. A job without outcome has failed too. -/
def failure? (job : Job) : Option Outcome → Option Failure
  | some (.ok _) => none
  | some (.error error) => some { qualifiedName := job.qualifiedName, error }
  | none => some { qualifiedName := job.qualifiedName, error := .internal .unfinished }

/-- The method of a job, if its outcome is one. -/
def record? : Option Outcome → Option MethodRecord
  | some (.ok method) => some method
  | some (.error _) | none => none

/-- The report of jobs from the arrivals of their outcomes. -/
def report (jobs : List Job) (arrivals : List (Nat × Outcome)) : Report :=
  let outcomes := jobs.zip (arrange jobs.length arrivals).toList
  { records := outcomes.filterMap fun (_, outcome) => record? outcome
    failures := outcomes.filterMap fun (job, outcome) => failure? job outcome }

/-- **The report of jobs**, which are run in order. -/
def run (target : Target) (jobs : List Job) : Report :=
  report jobs (inOrder target jobs)

end Batch

/-- The report of a class. -/
def SourceClass.lower (source : SourceClass) (target : Target) : Report :=
  Batch.run target source.jobs

/-- The report of a module. -/
def SourceModule.lower (source : SourceModule) (target : Target) : Report :=
  Batch.run target source.jobs

end MethodLowering
