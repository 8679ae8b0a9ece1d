import Switchyard.Proofs.Http.Percent
import Switchyard.Proofs.Http.Rejection
import Switchyard.Proofs.Json.RoundTrip
import Switchyard.Proofs.Store.Calls

/-!
Tables sent and asked for. Main statement: what has been posted as a list is served under its names, one table at a
time and all together, and a removal takes away the table of one name.
-/
namespace Switchyard

namespace Http

/-- The request posts a JSON list of these tables, to the tables or to one of any name. -/
structure Request.PostsList (r : Request) (ts : List Table) : Prop where
  post : r.method = "POST"
  json : r.contentType = some "application/json"
  body : ∃ text, Json.decode Json.readTables text = .ok ts ∧ r.body = text.toUTF8.toList
  short : r.body.length ≤ bodyLimit
  target : r.target = "/api/tables" ∨
    ∃ segment name, name ≠ "" ∧ Encodes segment name ∧ r.target = tablePath segment

variable {r : Request} {ts : List Table} {segment name : String}

theorem ofTarget?_tables : Resource.ofTarget? "/api/tables" = some .tables := by decide +kernel

theorem Request.PostsList.postsTables (posts : r.PostsList ts) : r.PostsTables := by
  refine ⟨posts.post, ?_⟩
  rcases posts.target with tables | ⟨segment, name, named, encodes, table⟩
  · exact .inl (tables ▸ ofTarget?_tables)
  · exact .inr ⟨segment, name, table ▸ encodes.ofTarget? named, encodes.decodeSegment⟩

theorem Request.PostsList.readBody (posts : r.PostsList ts) : r.readBody Json.readTables = .ok ts := by
  obtain ⟨text, decoded, body⟩ := posts.body
  have isJson : r.isJson = true := by
    rw [Request.isJson, posts.json]
    decide +kernel
  have short : ¬bodyLimit < r.body.length := Nat.not_lt.2 posts.short
  have whole : Json.readWhole Json.readTables (Text.decodeBytes r.body) = .ok ts := by
    rw [body, Text.decodeBytes_toUTF8]
    exact decoded
  rw [Request.readBody, isJson, whole, if_neg short]
  rfl

end Http

namespace Json

/-- A table is written in braces. -/
theorem getLast?_table (t : Table) : t.toJson.pretty.toList.getLast? = some '\x7d' := by
  have braces := written_object_cons (some 0) ("name", .text t.name) [("routes", .list (t.routes.map Route.toJson))]
  have pretty : t.toJson.pretty.toList = written (some 0) t.toJson := String.toList_ofList
  rw [pretty, Table.toJson, braces, ← List.append_assoc, ← List.append_assoc, ← List.cons_append]
  exact List.getLast?_concat

end Json

namespace System

open Http

variable {s : System} {r : Request} {ts : List Table} {segment name : String}

theorem http_of_posts (s : System) (posts : r.PostsList ts) (named : ∀ t ∈ ts, t.name ≠ "") :
    s.http r = (.empty, { s with store := ts.foldl Store.update s.store }) := by
  have updated := s.store_updateTables ts
  have all : ts.all (·.name ≠ "") = true := List.all_eq_true.2 fun t ht => decide_eq_true (named t ht)
  have put : s.store.changes (ts.map .put) = ts.foldl Store.update s.store := List.foldl_map
  rw [if_pos all, put] at updated
  rw [http_of_postsTables s posts.postsTables, postTables, posts.readBody]
  simp only [bind, Except.bind, updated]
  rfl

theorem http_table (s : System) (encodes : Encodes segment name) (named : name ≠ "")
    (target : r.target = tablePath segment) (method : r.method = "GET" ∨ r.method = "DELETE") :
    s.http r = s.onTable r name := by
  have resource := target ▸ encodes.ofTarget? named
  have decoded := encodes.decodeSegment
  rw [http, resource]
  rcases method with get | delete
  · simp [Resource.methods, get, onResource, decoded]
  · simp [Resource.methods, delete, onResource, decoded]

/-- What is stored under a name is served as a text that reads back as it. -/
theorem http_get_table (s : System) (encodes : Encodes segment name) (named : name ≠ "")
    (target : r.target = tablePath segment) (get : r.method = "GET") :
    match s.store.table name with
    | some t => ∃ text, s.http r = (.json (text ++ "\n"), s) ∧ text.toList.getLast? ≠ some '\n' ∧
        Json.decode Json.readTable (text ++ "\n") = .ok t
    | none => (s.http r).1.status = 404 ∧ (s.http r).2 = s := by
  have served : s.http r = s.answer (do
      let text ← s.renderTable name
      return (.json (text ++ "\n"), s)) := by
    rw [http_table s encodes named target (.inl get), onTable, get]
    rfl
  cases stored : s.store.table name with
  | none =>
    have missing : s.renderTable name = .error (.tableNotFound name) := by
      rw [renderTable, Store.render, stored]
      rfl
    rw [served, missing]
    exact ⟨rfl, rfl⟩
  | some t =>
    have rendered : s.renderTable name = .ok t.toJson.pretty := by
      rw [renderTable, Store.render, stored]
      rfl
    have line : Json.Blank ['\n'] := by
      intro c hc
      rw [List.mem_singleton.1 hc]
      rfl
    have text : t.toJson.pretty ++ "\n" = String.ofList (Json.written (some 0) t.toJson ++ ['\n']) := by
      rw [String.ofList_append]
      rfl
    refine ⟨t.toJson.pretty, ?_, ?_, ?_⟩
    · rw [served, rendered]
      rfl
    · rw [Json.getLast?_table]
      decide
    · rw [text]
      exact (Json.reads_table t).decode_spaced (some 0) line

theorem http_get_tables (s : System) (target : r.target = "/api/tables") (get : r.method = "GET") :
    s.http r = (.json (Table.listToJson s.store.allTables).compact, s) := by
  rw [http, target, ofTarget?_tables]
  simp [Resource.methods, get, onResource]

theorem http_delete (s : System) (encodes : Encodes segment name) (named : name ≠ "")
    (target : r.target = tablePath segment) (delete : r.method = "DELETE") :
    s.http r = (.empty, { s with store := s.store.change (.remove name) }) := by
  rw [http_table s encodes named target (.inr delete), onTable, delete]
  rfl

end System

namespace System

open Http

theorem tables_round_trip {s : System} {post : Request} {ts : List Table} (keyed : s.store.Keyed)
    (posts : post.PostsList ts) (named : ∀ t ∈ ts, t.name ≠ "") :
    let stored : System := { s with store := ts.foldl Store.update s.store }
    (∀ layout, Json.decode Json.readTables (String.ofList (Json.written layout (Table.listToJson ts))) = .ok ts) ∧
    (∀ name, Encodes (percentEncode name) name) ∧
    s.http post = (.empty, stored) ∧
    (∀ name, name ≠ "" → ∀ segment, Encodes segment name → ∀ r : Request, r.target = tablePath segment →
      (r.method = "GET" →
        match (ts.reverse.find? (·.name = name)).or (s.store.table name) with
        | some t => ∃ text, stored.http r = (.json (text ++ "\n"), stored) ∧ text.toList.getLast? ≠ some '\n' ∧
            Json.decode Json.readTable (text ++ "\n") = .ok t
        | none => (stored.http r).1.status = 404 ∧ (stored.http r).2 = stored) ∧
      (r.method = "DELETE" → ∃ left, stored.http r = (.empty, { stored with store := left }) ∧
        (∀ other, left.table other = if other = name then none else stored.store.table other) ∧
        left.allTables = stored.store.allTables.filter (·.name ≠ name) ∧ left.search = stored.store.search)) ∧
    ∀ r : Request, r.target = "/api/tables" → r.method = "GET" →
      ∃ text listed, stored.http r = (.json text, stored) ∧ Json.decode Json.readTables text = .ok listed ∧
        listed.Pairwise (·.name < ·.name) ∧
        ∀ t, t ∈ listed ↔ (ts.reverse.find? (·.name = t.name)).or (s.store.table t.name) = some t := by
  intro stored
  have put : s.store.changes (ts.map .put) = stored.store := List.foldl_map
  have keyed' : stored.store.Keyed := put ▸ keyed.changes _
  refine ⟨(Json.reads_tables ts).decode_written, encodes_percentEncode, http_of_posts s posts named,
    fun name named segment encodes r target => ⟨fun get => ?_, fun delete => ?_⟩, fun r target get => ?_⟩
  · rw [← Store.table_puts, put]
    exact http_get_table stored encodes named target get
  · refine ⟨_, http_delete stored encodes named target delete, fun other => ?_,
      keyed'.allTables_remove name, Store.search_change _ _⟩
    rw [Store.table_change, StoreChange.leaves]
    by_cases same : name = other
    · rw [if_pos same, if_pos same.symm]
      rfl
    · rw [if_neg same, if_neg (Ne.symm same)]
      rfl
  · refine ⟨_, stored.store.allTables, http_get_tables stored target get, (Json.reads_tables _).decode.1,
      keyed'.ascending, fun t => ?_⟩
    rw [← Store.table_puts, put]
    exact keyed'.mem_allTables

/-- A list in which a name with a slash and a letter outside ASCII stands twice, posted under another name. -/
theorem tables_round_trip_twice :
    let s : System := { redirector := { chain := "SLIPWAY" }, store := ({} : Store).update { name := "b" } }
    let last : Table := { name := "a/ü", routes := [{ name := "x" }] }
    let ts : List Table := [{ name := "a/ü" }, last]
    let post : Request :=
      { method := "POST", target := "/api/tables/c%25", contentType := some "application/json",
        body := (Table.listToJson ts).compact.toUTF8.toList }
    let stored : System := { s with store := ts.foldl Store.update s.store }
    s.http post = (.empty, stored) ∧
    ∃ text, stored.http { method := "GET", target := "/api/tables/a%2f%c3%bc" } = (.json (text ++ "\n"), stored) ∧
      Json.decode Json.readTable (text ++ "\n") = .ok last := by
  intro s last ts post stored
  have slash : percentEncode "a/ü" = "a%2f%c3%bc" := by decide +kernel
  have percent : percentEncode "c%" = "c%25" := by decide +kernel
  have keyed : s.store.Keyed := Store.keyed_changes [.put { name := "b" }]
  have posts : post.PostsList ts :=
    { post := rfl
      json := rfl
      body := ⟨_, (Json.reads_tables ts).decode.1, rfl⟩
      short := by decide +kernel
      target := .inr ⟨"c%25", "c%", by decide, percent ▸ encodes_percentEncode "c%", by decide⟩ }
  obtain ⟨-, -, posted, each, -⟩ := tables_round_trip keyed posts (by decide)
  obtain ⟨got, -⟩ := each "a/ü" (by decide) "a%2f%c3%bc" (slash ▸ encodes_percentEncode "a/ü")
    { method := "GET", target := "/api/tables/a%2f%c3%bc" } (by decide)
  obtain ⟨text, served, -, decoded⟩ := got rfl
  exact ⟨posted, text, served, decoded⟩

/-- A table without a name can be stored, not posted; no path leads to it. -/
theorem nameless_not_served :
    let s : System := { redirector := { chain := "SLIPWAY" }, store := ({} : Store).update { name := "" } }
    let post : Request :=
      { method := "POST", target := "/api/tables", contentType := some "application/json",
        body := (Table.listToJson []).compact.toUTF8.toList }
    post.PostsList [] ∧ Encodes "" "" ∧ s.store.table "" = some { name := "" } ∧ s.http post = (.empty, s) ∧
      (s.http { method := "GET", target := tablePath "" }).1.status = 404 := by
  intro s post
  have posts : post.PostsList [] :=
    { post := rfl
      json := rfl
      body := ⟨_, (Json.reads_tables []).decode.1, rfl⟩
      short := by decide +kernel
      target := .inl rfl }
  have empty := encodes_percentEncode ""
  have nothing : percentEncode "" = "" := by decide +kernel
  rw [nothing] at empty
  exact ⟨posts, empty, by decide +kernel, http_of_posts s posts nofun, by decide +kernel⟩

end System

end Switchyard
