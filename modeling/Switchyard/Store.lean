import Switchyard.Dictionary
import Switchyard.Route.Json

/-!
The route tables by name, the search path, and a generation that counts their changes.
-/
namespace Switchyard

structure Store where
  tables : Dictionary String Table := .empty
  search : SearchPath := {}
  /-- Without a bound: 2 ^ 64 changes are out of reach. -/
  generation : Nat := 0
  /-- How often the resolver's cache was told to forget. -/
  flushes : Nat := 0
  deriving Inhabited

/-- What a caller may ask to have changed. -/
inductive StoreChange where
  | put (table : Table)
  | remove (name : String)
  | setSearch (path : SearchPath)
  deriving DecidableEq, Repr

namespace Store

def table (s : Store) (name : String) : Option Table := s.tables.find? name

/-- By name, ascending. -/
def allTables (s : Store) : List Table := s.tables.values

/-- The first half of a change: the data. Nobody is told yet. -/
def write (s : Store) : StoreChange → Store
  | .put t => { s with tables := s.tables.insert t.name t }
  | .remove name => { s with tables := s.tables.erase name }
  | .setSearch p => { s with search := p }

/-- The second half: those who watch the generation learn of the change. -/
def bump (s : Store) : Store := { s with generation := s.generation + 1 }

def flush (s : Store) : Store := { s with flushes := s.flushes + 1 }

/-- Replaces the table of that name. -/
def update (s : Store) (t : Table) : Store := (s.write (.put t)).bump.flush

/-- Says whether there was a table of that name. Without one nothing happens. -/
def delete (s : Store) (name : String) : Bool × Store :=
  if s.tables.contains name then (true, (s.write (.remove name)).bump.flush) else (false, s)

/-- A search path is no table, so no cache is flushed. -/
def setSearch (s : Store) (p : SearchPath) : Store := (s.write (.setSearch p)).bump

/-- Candidates decide first, then table names, then places in a table. -/
def resolve (s : Store) (name : String) : Option Route :=
  (s.search.candidates name).findSome? fun c => s.allTables.findSome? (·.lookup c)

def routeByIp (s : Store) (ip : String) : Option Route := s.allTables.findSome? (·.lookupIp ip)

def redirects (s : Store) : List Route := s.allTables.flatMap (·.redirects)

def render (s : Store) (name : String) : Option String := (s.table name).map (·.toJson.pretty)

end Store

end Switchyard
