import Switchyard.Proofs.Json.Reading
import Switchyard.Store

/-!
Main statement: routes, tables and search paths are read back from both of their written forms, and so is what the
store renders.
-/
namespace Switchyard

namespace Json

variable {σ : Type} {fields : List (Field σ)} {seen : List String} {s s' : σ} {k v : String}
  {fs : List (String × Json)} {set : σ → String → σ}

/-- A text that is left out where it is empty. -/
theorem Fills.given (known : fields.find? (·.name = k) = some (.of k readText set)) (new : k ∉ seen)
    (blank : v = "" → set s v = s) (more : Fills fields (k :: seen) (set s v) fs s') :
    Fills fields seen s ((if v = "" then [] else [(k, .text v)]) ++ fs) s' := by
  by_cases empty : v = ""
  · rw [if_pos empty, List.nil_append]
    exact blank empty ▸ more.mono (List.subset_cons_self k seen)
  · rw [if_neg empty]
    exact .field known new (reads_field k set (reads_text v) s) more

theorem reads_protocol (p : Protocol) : Reads readProtocol p.toJson p := by
  cases p with
  | tcp => exact reads_choice rfl
  | udp => exact reads_choice rfl

theorem reads_action (a : RouteAction) : Reads readAction a.toJson a := by
  cases a with
  | redirect => exact reads_choice rfl
  | dontRedirect => exact reads_choice rfl

theorem reads_route (r : Route) : Reads readRoute r.toJson r := by
  let text (k v : String) : List (String × Json) := if v = "" then [] else [(k, .text v)]
  have nested : r.toJson = .object (text "name" r.name ++ ("proto", r.proto.toJson) :: (text "ip" r.ip ++
      (text "port" r.port ++ (text "target" r.target ++ [("action", r.action.toJson)])))) := by
    simp [Route.toJson, text]
  have filled : Fills routeFields [] {} (text "name" r.name ++ ("proto", r.proto.toJson) :: (text "ip" r.ip ++
      (text "port" r.port ++ (text "target" r.target ++ [("action", r.action.toJson)])))) r := by
    refine .given rfl (by decide) (fun blank => by rw [blank]) ?_
    refine .field rfl (by decide) (reads_field _ _ (reads_protocol r.proto) _) ?_
    refine .given rfl (by decide) (fun blank => by rw [blank]) ?_
    refine .given rfl (by decide) (fun blank => by rw [blank]) ?_
    refine .given rfl (by decide) (fun blank => by rw [blank]) ?_
    exact .field rfl (by decide) (reads_field _ _ (reads_action r.action) _) .done
  rw [nested]
  exact filled.reads rfl

theorem reads_table (t : Table) : Reads readTable t.toJson t := by
  have filled : Fills tableFields [] {} [("name", .text t.name), ("routes", .list (t.routes.map Route.toJson))]
      { name := some t.name, routes := t.routes } := by
    refine .field rfl (by decide) (reads_field _ _ (reads_text t.name) _) ?_
    exact .field rfl (by decide) (reads_field _ _ (reads_list reads_route t.routes) _) .done
  have draft : Reads
      (readRecord tableFields (fun t => if t.name.isSome then .ok () else .error .mismatched) {}) t.toJson
      { name := some t.name, routes := t.routes } := filled.reads rfl
  exact draft.map fun t => Table.mk (t.name.getD "") t.routes

theorem reads_tables (ts : List Table) : Reads readTables (Table.listToJson ts) ts := reads_list reads_table ts

theorem reads_searchPath (p : SearchPath) : Reads readSearchPath p.toJson p :=
  (reads_list reads_text p.suffixes).map SearchPath.mk

/-- Of every value both written forms are read back as that value, and so is the text of every table in a store. -/
theorem decode_toJson :
    (∀ p : Protocol, decode readProtocol p.toJson.compact = .ok p ∧ decode readProtocol p.toJson.pretty = .ok p) ∧
    (∀ a : RouteAction, decode readAction a.toJson.compact = .ok a ∧ decode readAction a.toJson.pretty = .ok a) ∧
    (∀ r : Route, decode readRoute r.toJson.compact = .ok r ∧ decode readRoute r.toJson.pretty = .ok r) ∧
    (∀ t : Table, decode readTable t.toJson.compact = .ok t ∧ decode readTable t.toJson.pretty = .ok t) ∧
    (∀ ts : List Table, decode readTables (Table.listToJson ts).compact = .ok ts ∧
      decode readTables (Table.listToJson ts).pretty = .ok ts) ∧
    (∀ p : SearchPath, decode readSearchPath p.toJson.compact = .ok p ∧
      decode readSearchPath p.toJson.pretty = .ok p) ∧
    ∀ (s : Store) name, (s.render name).map (decode readTable) = (s.table name).map .ok := by
  refine ⟨fun p => (reads_protocol p).decode, fun a => (reads_action a).decode, fun r => (reads_route r).decode,
    fun t => (reads_table t).decode, fun ts => (reads_tables ts).decode, fun p => (reads_searchPath p).decode,
    fun s name => ?_⟩
  rw [Store.render, Option.map_map]
  refine congrArg (Option.map · (s.table name)) (funext fun t => ?_)
  exact (reads_table t).decode.2

end Json

end Switchyard
