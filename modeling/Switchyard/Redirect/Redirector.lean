import Switchyard.Dictionary
import Switchyard.Redirect.Command

/-!
The redirector keeps a table of redirected addresses and issues the packet filter commands for it. A command that
fails changes nothing: the table says what was asked for.
-/
namespace Switchyard

/-- Ports by address. -/
abbrev Mappings := Dictionary Address UInt16

/-- A call on the redirector. -/
inductive Operation where
  | enable
  | disable
  | forward (dest : Address) (port : UInt16)
  | clear (dest : Address)
  deriving DecidableEq, Repr

/-- The parts of a call. Another party may come between two of them. -/
inductive Effect where
  | issue (c : Command)
  | forget (dest : Address)
  | record (dest : Address) (port : UInt16)
  | forgetAll
  deriving DecidableEq, Repr

/-- What a call does, in order, given the table at its start. -/
def Operation.effects (m : Mappings) : Operation → List Effect
  | .enable => [.issue (.unhook .output), .issue (.unhook .prerouting), .issue .create, .issue .empty,
      .issue (.hook .output), .issue (.hook .prerouting), .issue .exempt]
  | .disable => [.issue (.unhook .output), .issue (.unhook .prerouting), .issue .empty, .issue .destroy, .forgetAll]
  | .clear dest => removal dest
  | .forward dest port => removal dest ++ [.issue (.append dest port), .record dest port]
where
  removal (dest : Address) : List Effect :=
    match m.find? dest with
    | some port => [.forget dest, .issue (.remove dest port)]
    | none => []

structure Redirector where
  chain : String
  mappings : Mappings := .empty
  /-- Newest first, each with the verdict of the packet filter. -/
  issued : List (Command × Bool) := []
  /-- Whether the packet filter refuses commands at present. -/
  refusing : Bool := false
  deriving Inhabited

namespace Redirector

def apply (t : Redirector) : Effect → Redirector
  | .issue c => { t with issued := (c, !t.refusing) :: t.issued }
  | .forget dest => { t with mappings := t.mappings.erase dest }
  | .record dest port => { t with mappings := t.mappings.insert dest port }
  | .forgetAll => { t with mappings := .empty }

/-- A whole call with nobody in between. -/
def perform (t : Redirector) (op : Operation) : Redirector := (op.effects t.mappings).foldl apply t

def performAll (t : Redirector) (ops : List Operation) : Redirector := ops.foldl perform t

end Redirector

end Switchyard
