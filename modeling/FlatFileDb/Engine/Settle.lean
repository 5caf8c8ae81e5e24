import FlatFileDb.Engine.Execute

/-!
# Settling the queue

The jobs that wait are run in order, and those that come up meanwhile go to the end. That is the same
as running generation after generation: all jobs that wait, then all that came up, and so on. A job
that comes up has a smaller budget than the one that it comes from, so the generations come to an
end.
-/

namespace FlatFileDb

/-- The nesting that is left for what a job executes. -/
def Job.budget : Job → Nat
  | runTrigger _ _ budget => budget
  | _ => 0

namespace Engine

/-- Runs all jobs that wait, once. Those that come up wait for the next generation. -/
def runGeneration : Action Engine Unit := do
  let jobs := (← Action.get).jobs
  Action.modify fun engine => { engine with latestJobs := [] }
  jobs.forM fun job => Action.attempt (job.run executeWithin)

/-- Runs the given number of generations, or fewer if no job is left. -/
def runGenerations : Nat → Action Engine Unit
  | 0 => pure ()
  | count + 1 => do
    if (← Action.get).latestJobs.isEmpty then return
    runGeneration
    runGenerations count

/-- How many generations the jobs that wait can have. -/
def generations (engine : Engine) : Nat :=
  (engine.latestJobs.map fun job => job.budget + 1).foldl max 0

/-- Runs the queue until it is empty. -/
def settle : Action Engine Unit := do
  runGenerations (generations (← Action.get))

end Engine

end FlatFileDb
