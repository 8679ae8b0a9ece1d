import Switchyard.Text.Quoted

/-!
Workers: a task under a name, with what it requires and how it is treated.
-/
namespace Switchyard

/-- When a running task counts as ready: as soon as it runs, or when it says so. -/
inductive Readiness where
  | onStart
  | explicit
  deriving DecidableEq, Repr, Inhabited

def Readiness.text : Readiness → String
  | .onStart => "OnStart"
  | .explicit => "Explicit"

/-- `scripts` holds what each attempt does, the last one standing for all that follow. -/
structure Worker (α : Type) where
  name : String
  task : String
  requires : List String := []
  retries : Bool := false
  readiness : Readiness := .onStart
  scripts : List (List α) := []
  deriving Repr, Inhabited

namespace Worker

variable {α : Type}

/-- A worker named after its task. -/
def ofTask (task : String) (scripts : List (List α)) : Worker α := { name := task, task, scripts }

def named (w : Worker α) (name : String) : Worker α := { w with name }

/-- Adds to what was required before. -/
def requiring (w : Worker α) (names : List String) : Worker α := { w with requires := w.requires ++ names }

def retrying (w : Worker α) (retries : Bool) : Worker α := { w with retries }

def explicitReady (w : Worker α) : Worker α := { w with readiness := .explicit }

/-- The script of attempt `n`, counted from zero. -/
def script (w : Worker α) (n : Nat) : List α :=
  match w.scripts[n]? with
  | some s => s
  | none => w.scripts.getLast?.getD []

def description (w : Worker α) : String :=
  "Worker \x7b name: " ++ Text.quoted w.name ++ ", requires: " ++ Text.listed (w.requires.map Text.quoted) ++
    ", retry: " ++ toString w.retries ++ ", ready: " ++ w.readiness.text ++ " \x7d"

end Worker

end Switchyard
