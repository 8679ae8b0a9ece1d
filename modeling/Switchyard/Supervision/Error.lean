/-!
How work goes wrong, and what the supervisor refuses or reports.
-/
namespace Switchyard

/-- `canceled` is returned by work that stopped because it was asked to; it never counts as a failure. -/
inductive TaskError where
  | fail (reason : String)
  | panicked (reason : String)
  | canceled
  deriving DecidableEq, Repr, Inhabited

namespace TaskError

def message : TaskError → String
  | fail reason => reason
  | panicked reason => "panicked: " ++ reason
  | canceled => "canceled"

def isCanceled (e : TaskError) : Bool := e = canceled

end TaskError

/-- What work returns; `none` is success. -/
abbrev Outcome := Option TaskError

/-- The error with which a task ended for good. -/
structure Failure where
  task : String
  error : TaskError
  deriving DecidableEq, Repr

def Failure.message (f : Failure) : String := f.task ++ ": " ++ f.error.message

inductive SupervisorError where
  | duplicateName (name : String)
  | unsatisfiable (task : String) (missing : List String)
  deriving DecidableEq, Repr

def SupervisorError.message : SupervisorError → String
  | duplicateName name => "task already supervised: " ++ name
  | unsatisfiable task missing =>
    "task " ++ task ++ " requires unregistered task(s): " ++ ", ".intercalate missing

end Switchyard
