import PackageDepot.Clock.Instant
import PackageDepot.Config

/-!
# Deadlines of tasks on the machine's clock

Each task is carried out in a context with the deadline of the call, narrowed to the time that a task may
take from the instant at which it begins.
-/

namespace PackageDepot

/-- The time that each task may take. -/
def Config.taskDuration (c : Config) : Option Duration := c.taskTimeout.map .ofSeconds

namespace Pipeline

/-- The deadline of a task that begins now, in a call with a deadline. -/
def taskDeadline (config : Config) (deadline : Option Instant) (now : Instant) :
    Except Overflow (Option Instant) :=
  match config.taskDuration with
  | some d => (now.narrow deadline d).map some
  | none => .ok deadline

/-- The deadlines of tasks that begin at these instants. -/
def taskDeadlines (config : Config) (deadline : Option Instant) (begins : List Instant) :
    Except Overflow (List (Option Instant)) := begins.mapM (taskDeadline config deadline)

end Pipeline

end PackageDepot
