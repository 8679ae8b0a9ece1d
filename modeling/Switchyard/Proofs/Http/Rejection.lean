import Switchyard.Http.Api
import Switchyard.Proofs.Json.Refusal
import Switchyard.Proofs.Text.Utf8

/-!
Requests that are not carried out. Main statement: what is asked for with `GET` or refused leaves the system as it is,
and a list of tables that is faulty at any place is refused as a whole.
-/
namespace Switchyard

namespace Http

/-- The answer says that the request has been carried out. -/
def Response.IsSuccess (r : Response) : Prop := 200 ≤ r.status ∧ r.status < 300

/-- The body of the request is to be a list of tables. -/
def Request.PostsTables (r : Request) : Prop :=
  r.method = "POST" ∧ (Resource.ofTarget? r.target = some .tables ∨
    ∃ segment name, Resource.ofTarget? r.target = some (.table segment) ∧ decodeSegment segment = some name)

variable {r : Request} {α : Type} {read : Json.Reader α} {x : α}

theorem readBody_eq_ok (h : r.readBody read = .ok x) :
    r.isJson = true ∧ r.body.length ≤ bodyLimit ∧ Json.readWhole read (Text.decodeBytes r.body) = .ok x := by
  unfold Request.readBody at h
  split at h
  case isTrue => cases h
  case isFalse json =>
    split at h
    case isTrue => cases h
    case isFalse short =>
      refine ⟨by simpa using json, Nat.le_of_not_lt short, ?_⟩
      cases whole : Json.readWhole read (Text.decodeBytes r.body) with
      | error e =>
        rw [whole] at h
        cases h
      | ok x' =>
        rw [whole] at h
        cases h
        rfl

theorem readBody_eq_error {e : ApiError} (h : r.readBody read = .error e) : ∃ reason, e = .invalidRequest reason := by
  unfold Request.readBody at h
  split at h
  case isTrue =>
    cases h
    exact ⟨_, rfl⟩
  case isFalse =>
    split at h
    case isTrue =>
      cases h
      exact ⟨_, rfl⟩
    case isFalse =>
      cases whole : Json.readWhole read (Text.decodeBytes r.body) with
      | error f =>
        rw [whole] at h
        cases h
        exact ⟨_, rfl⟩
      | ok x' =>
        rw [whole] at h
        cases h

/-- A list of which more than white space has been cut off. -/
theorem readBody_cut {item : Json.Reader α} (h : Json.Local item) {more : List UInt8} {xs : List α}
    (whole : { r with body := r.body ++ more }.readBody (Json.readList item) = .ok xs)
    (cut : Json.skipSpace (Text.decodeBytes more) ≠ []) :
    ∃ e, r.readBody (Json.readList item) = .error e := by
  cases short : r.readBody (Json.readList item) with
  | error e => exact ⟨e, rfl⟩
  | ok xs' =>
    obtain ⟨-, -, whole⟩ := readBody_eq_ok whole
    obtain ⟨-, -, short⟩ := readBody_eq_ok short
    rcases Text.decodeBytes_append r.body more with apart | ⟨front, n, behind, halved, -⟩
    · dsimp only at whole
      rw [apart] at whole
      exact absurd short (Json.readWhole_cut h whole cut xs')
    · -- the list would end in half a character
      refine absurd ?_ (Json.getLast?_of_readWhole h short)
      rw [halved, List.replicate_succ', ← List.append_assoc, List.getLast?_concat]

end Http

namespace System

open Http

variable {s : System} {r : Request}

/-- What is refused leaves the system as it is. -/
def Keeps (s : System) (p : Response × System) : Prop := p.1.IsSuccess ∨ p.2 = s

theorem keeps_answer {x : Except ApiError (Response × System)} (h : ∀ p, x = .ok p → s.Keeps p) :
    s.Keeps (s.answer x) := by
  unfold answer
  split
  next p => exact h _ rfl
  next => exact .inr rfl

theorem keeps_of_ok {p : Response × System} (h : p.1.status = 200) : s.Keeps p := by
  refine .inl ?_
  rw [Response.IsSuccess, h]
  decide

theorem keeps_postTables (s : System) (r : Request) : s.Keeps (s.postTables r) := by
  refine keeps_answer fun p h => ?_
  obtain ⟨tables, -, h⟩ := of_bind_eq_ok h
  obtain ⟨s', -, h⟩ := of_bind_eq_ok h
  cases h
  exact keeps_of_ok rfl

theorem keeps_onTable (s : System) (r : Request) (name : String) : s.Keeps (s.onTable r name) := by
  unfold onTable
  split
  next => exact keeps_postTables s r
  next => exact keeps_of_ok rfl
  next =>
    refine keeps_answer fun p h => ?_
    obtain ⟨text, -, h⟩ := of_bind_eq_ok h
    cases h
    exact .inr rfl

theorem keeps_onResource (s : System) (r : Request) (resource : Resource) : s.Keeps (s.onResource r resource) := by
  cases resource with
  | tables =>
    rw [onResource]
    split
    next => exact keeps_postTables s r
    next => exact .inr rfl
  | table segment =>
    rw [onResource]
    split
    next name _ => exact keeps_onTable s r name
    next => exact .inr rfl
  | search =>
    rw [onResource]
    split
    next =>
      refine keeps_answer fun p h => ?_
      obtain ⟨path, -, h⟩ := of_bind_eq_ok h
      cases h
      exact keeps_of_ok rfl
    next => exact .inr rfl
  | shutdown => exact keeps_of_ok rfl
  | metrics => exact .inr rfl

theorem onResource_of_get (s : System) (get : r.method = "GET") {resource : Resource}
    (allowed : resource.methods.contains r.method = true) : (s.onResource r resource).2 = s := by
  cases resource with
  | tables | search => simp [onResource, get]
  | metrics => rfl
  | shutdown => simp [Resource.methods, get] at allowed
  | table segment =>
    rw [onResource]
    split
    next name _ =>
      simp only [onTable, get]
      cases text : s.renderTable name with
      | error e => rfl
      | ok text => rfl
    next => rfl

theorem http_of_postsTables (s : System) (h : r.PostsTables) : s.http r = s.postTables r := by
  obtain ⟨post, tables | ⟨segment, name, table, decoded⟩⟩ := h
  · simp [http, tables, post, Resource.methods, onResource]
  · simp [http, table, post, Resource.methods, onResource, decoded, onTable]

theorem postTables_of_readBody_error {e : ApiError} (s : System) (h : r.readBody Json.readTables = .error e) :
    s.postTables r = (.ofError e, s) := by
  rw [postTables, h]
  rfl

theorem updateTables_of_unnamed (s : System) {before after : List Table} {t : Table}
    (named : ∀ u ∈ before, u.name ≠ "") (unnamed : t.name = "") : s.updateTables (before ++ t :: after) =
      .error (.invalidRequest ("table at index " ++ toString before.length ++ " has no name")) := by
  have first : (before ++ t :: after).findIdx? (·.name = "") = some before.length := by
    rw [List.findIdx?_append, List.findIdx?_eq_none_iff.2 (by simpa using named), Option.none_or, List.findIdx?_cons,
      if_pos (decide_eq_true unnamed)]
    simp
  rw [updateTables, first]

theorem rejected_unchanged (s : System) (r : Request) :
    (¬ (s.http r).1.IsSuccess ∨ r.method = "GET" → (s.http r).2 = s) ∧
    (r.PostsTables →
      (∀ before t after, r.readBody Json.readTables = .ok (before ++ t :: after) → (∀ u ∈ before, u.name ≠ "") →
        t.name = "" →
        s.http r = (.ofError (.invalidRequest ("table at index " ++ toString before.length ++ " has no name")), s)) ∧
      (∀ e, r.readBody Json.readTables = .error e → s.http r = (.ofError e, s)) ∧
      (∀ more tables, { r with body := r.body ++ more }.readBody Json.readTables = .ok tables →
        Json.skipSpace (Text.decodeBytes more) ≠ [] →
        ∃ reason, s.http r = (.ofError (.invalidRequest reason), s)) ∧
      ∀ layout (before : List Table) wrong, Text.decodeBytes r.body =
          Json.given ('[' :: before.flatMap fun t => Json.written layout t.toJson ++ [',']) ++ wrong →
        Json.readTable wrong = .error .mismatched →
        ∃ reason, s.http r = (.ofError (.invalidRequest reason), s)) := by
  constructor
  · intro h
    rw [http] at h ⊢
    split
    next => rfl
    next resource found =>
      rw [found] at h
      split
      case isFalse => rfl
      case isTrue allowed =>
        simp only [allowed, if_true] at h
        rcases h with refused | get
        · refine (keeps_onResource s r resource).resolve_left fun success => refused ?_
          split
          · exact success
          · exact success
        · exact onResource_of_get s get allowed
  · intro posts
    rw [http_of_postsTables s posts]
    have refused {e : ApiError} (h : r.readBody Json.readTables = .error e) :
        ∃ reason, s.postTables r = (.ofError (.invalidRequest reason), s) := by
      obtain ⟨reason, rfl⟩ := readBody_eq_error h
      exact ⟨reason, postTables_of_readBody_error s h⟩
    refine ⟨fun before t after read named unnamed => ?_, fun e read => postTables_of_readBody_error s read,
      fun more tables whole cut => ?_, fun layout before wrong text mismatched => ?_⟩
    · rw [postTables, read]
      simp only [bind, Except.bind, updateTables_of_unnamed s named unnamed, answer]
    · obtain ⟨e, read⟩ := readBody_cut Json.local_readTable whole cut
      exact refused read
    · have faulty : Json.readWhole Json.readTables (Text.decodeBytes r.body) = .error .mismatched :=
        text ▸ Json.readWhole_mismatched layout before mismatched
      cases read : r.readBody Json.readTables with
      | error e => exact refused read
      | ok tables => exact nomatch faulty.symm.trans (readBody_eq_ok read).2.2

/-- A list of tables sent as JSON. -/
def posted (body : String) : Request where
  method := "POST"
  target := "/api/tables"
  contentType := some "application/json"
  body := body.toList.map fun c => UInt8.ofNat c.toNat

/-- One table stored. -/
def storing : System where
  store := ({} : Store).update { name := "t" }
  redirector := { chain := "SLIPWAY" }

/-- A table that is not there; a list whose second table has no name, the same list cut short, and one whose second
table has a number for a name. -/
theorem rejected_unchanged_posted :
    (storing.http { method := "GET", target := "/api/tables/u" }).1.status = 404 ∧
    (storing.http { method := "GET", target := "/api/tables/u" }).2 = storing ∧
    storing.http (posted "[\x7b\"name\":\"a\"\x7d,\x7b\"name\":\"\"\x7d]") =
      (.ofError (.invalidRequest "table at index 1 has no name"), storing) ∧
    (∃ reason, storing.http (posted "[\x7b\"name\":\"a\"\x7d,\x7b\"na") =
      (.ofError (.invalidRequest reason), storing)) ∧
    ∃ reason, storing.http (posted "[\x7b\"name\":\"a\",\"routes\":[]\x7d,\x7b\"name\":1\x7d]") =
      (.ofError (.invalidRequest reason), storing) := by
  have posts (body : String) : (posted body).PostsTables :=
    ⟨rfl, .inl (by decide +kernel : Resource.ofTarget? "/api/tables" = some .tables)⟩
  obtain ⟨kept, -⟩ := rejected_unchanged storing { method := "GET", target := "/api/tables/u" }
  obtain ⟨unnamed, -⟩ := (rejected_unchanged storing _).2 (posts "[\x7b\"name\":\"a\"\x7d,\x7b\"name\":\"\"\x7d]")
  obtain ⟨-, -, cut, -⟩ := (rejected_unchanged storing _).2 (posts "[\x7b\"name\":\"a\"\x7d,\x7b\"na")
  obtain ⟨-, -, -, wrong⟩ :=
    (rejected_unchanged storing _).2 (posts "[\x7b\"name\":\"a\",\"routes\":[]\x7d,\x7b\"name\":1\x7d]")
  refine ⟨by decide +kernel, kept (.inr rfl), ?_, ?_, ?_⟩
  · exact unnamed [{ name := "a" }] { name := "" } [] (by decide +kernel) (by decide) rfl
  · exact cut ("me\":\"\"\x7d]".toList.map fun c => UInt8.ofNat c.toNat) [{ name := "a" }, { name := "" }]
      (by decide +kernel) (by decide +kernel)
  · exact wrong none [{ name := "a" }] (Json.given "\x7b\"name\":1\x7d]".toList) (by decide +kernel) (by decide +kernel)

end System

end Switchyard
