import EvidenceFlow.Fault
import EvidenceFlow.Text.Quoted

/-!
# Executors

An executor takes over jobs, each of which does the work of an engine for one flow. It may hold them
until it is told to run them, run them as they come, or refuse them. Jobs that are run apart from the
caller do not pass on that they broke off.
-/

namespace EvidenceFlow

open Text

/-- A pool of threads. -/
structure Pool where
  /-- The name. -/
  name : String
  /-- Whether it takes no more jobs. -/
  isShutDown : Bool := false
deriving Repr, DecidableEq

namespace Pool

/-- The pool of all engines that do not bring one. It is never shut down. -/
def default : Pool := { name := "pipeline-lazy" }

/-- Whether the pool takes a job, or why it does not. -/
def accept (pool : Pool) : Except Fault Unit :=
  if pool.isShutDown then .error (.executor s!"executor '{pool.name}' has been shut down") else .ok ()

/-- Whether the pool takes a number of jobs, or why it does not. Nothing is asked of it for no job. -/
def acceptAll (pool : Pool) : Nat → Except Fault Unit
  | 0 => .ok ()
  | jobs + 1 => do
    pool.accept
    pool.acceptAll jobs

/-- A pool that takes one job takes any number of them. -/
theorem acceptAll_succ (pool : Pool) (jobs : Nat) : pool.acceptAll (jobs + 1) = pool.accept := by
  cases h : pool.accept with
  | error fault => simp [acceptAll, h, bind, Except.bind]
  | ok _ =>
    induction jobs with
    | zero => simp [acceptAll, h, bind, Except.bind]
    | succ jobs ih =>
      rw [acceptAll, h]
      exact ih

/-- The pool after it has been shut down. -/
def shutDown (pool : Pool) : Pool := { pool with isShutDown := true }

/-- How the pool is shown. -/
def shown (pool : Pool) : String :=
  shownRecord "TokioExecutor"
    [("name", quoted pool.name), ("shutdown", shownBool pool.isShutDown)]

end Pool

/-- What takes over the jobs of an engine. -/
inductive Executor where
  /-- The pool of all engines that do not bring one. -/
  | default
  /-- A pool of the engine's own, by its name. -/
  | pool (name : String)
  /-- One thread for each job, shared by the engines that use it. -/
  | threads
  /-- A queue that is run when told to, shared by the engines that use it. -/
  | manual
  /-- The caller itself. -/
  | inline
  /-- Nobody: every job is refused. -/
  | rejecting (fault : Fault)

/-- The threads that are started one for each job. -/
structure Threads where
  /-- Jobs taken over. -/
  spawned : Nat := 0
  /-- Times that it was shut down. -/
  shutdowns : Nat := 0
deriving Repr, DecidableEq

namespace Threads

/-- Takes a job, unless it has been shut down. -/
def accept (threads : Threads) : Except Fault Threads :=
  if threads.shutdowns = 0 then .ok { threads with spawned := threads.spawned + 1 }
  else .error (.executor "thread-per-job executor is shut down")

/-- The threads after being shut down once more. -/
def shutDown (threads : Threads) : Threads := { threads with shutdowns := threads.shutdowns + 1 }

end Threads

end EvidenceFlow
