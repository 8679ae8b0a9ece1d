import Switchyard.Proofs.Net.IntendedDestination
import Switchyard.Proofs.Net.Ipv4
import Switchyard.Proofs.Redirect.Passes

/-!
Traffic that a pass has redirected. Main statement: a connection headed for a redirected address is recognized for what
it is, and the store has a route for the address as it is then written.
-/
namespace Switchyard

namespace Store

variable {s : Store} {a : Address} {ip : String}

/-- The first route under this very text, in the first table that has one. -/
theorem exists_routeByIp {table : Table} {r : Route} (stored : table ∈ s.allTables) (listed : r ∈ table.routes)
    (text : r.ip = ip) : ∃ r', s.routeByIp ip = some r' ∧ r'.ip = ip := by
  have inside : (table.lookupIp ip).isSome := List.find?_isSome.2 ⟨r, listed, decide_eq_true text⟩
  have found : (s.routeByIp ip).isSome := List.findSome?_isSome_iff.2 ⟨table, stored, inside⟩
  obtain ⟨r', route⟩ := Option.isSome_iff_exists.1 found
  obtain ⟨table', _, route'⟩ := List.exists_of_findSome?_eq_some route
  have same : decide (r'.ip = ip) = true := List.find?_some (p := fun r : Route => r.ip = ip) route'
  exact ⟨r', route, of_decide_eq_true same⟩

/-- An address that is to be redirected stands in the store as it is written. -/
theorem Wants.exists_routeByIp (wants : s.Wants a) : ∃ r, s.routeByIp a.ip.text = some r ∧ r.ip = a.ip.text := by
  obtain ⟨table, stored, r, listed, _, _, read⟩ := wants
  exact s.exists_routeByIp stored listed (Ipv4.ofText?_eq_some_iff.1 read)

end Store

namespace Redirector

open IntendedDestination

variable {t t' : Redirector} {s : Store} {port sent : UInt16} {a : Address} {bytes : Vector UInt8 16}

/-- Whatever the table held before and whichever commands are refused: what the kernel says of a connection to a
redirected address is understood, and names an address for which there is a route. -/
theorem forwarding_route (h : t.Converges s port t') (kept : a ∈ t'.mappings.keys)
    (carried : IntendedDestination.Carries bytes a.ip sent) :
    ∃ d r, ofBytes bytes = .ok d ∧ d.ip = a.ip ∧ d.port = sent ∧ s.routeByIp d.ip.text = some r ∧
      r.ip = d.ip.text := by
  rw [h.mappings, ← Dictionary.contains_iff_mem_keys, Store.contains_wanted] at kept
  obtain ⟨r, route, text⟩ := kept.exists_routeByIp
  exact ⟨⟨a.ip, sent⟩, r, ofBytes_eq_ok_iff.2 carried, rfl, rfl, route, text⟩

/-- A stale mapping is taken away; of two routes to the address that stays, the first is one that is not redirected. -/
theorem forwarding_route_shared : ∃ (t t' : Redirector) (s : Store) (a : Address) (bytes : Vector UInt8 16),
    t.Converges s 15000 t' ∧ t.mappings.keys = [⟨.udp, ⟨10, 0, 0, 9⟩⟩] ∧ a ∈ t'.mappings.keys ∧
    IntendedDestination.Carries bytes a.ip 8080 ∧
    ∃ d r, ofBytes bytes = .ok d ∧ d.ip = a.ip ∧ d.port = 8080 ∧ s.routeByIp d.ip.text = some r ∧
      r.ip = d.ip.text := by
  let t : Redirector := { chain := "SLIPWAY", mappings := Dictionary.ofList [(⟨.udp, ⟨10, 0, 0, 9⟩⟩, 15000)] }
  let s : Store := ({} : Store).update
    { name := "t", routes := [{ ip := "10.0.0.1", action := .dontRedirect }, { ip := "10.0.0.1" }] }
  let bytes : Vector UInt8 16 := #v[2, 0, 31, 144, 10, 0, 0, 1, 1, 2, 3, 4, 5, 6, 7, 8]
  have pass : t.Converges s 15000 (t.converge s 15000).2 := converges_converge t s 15000
  have kept : (⟨.tcp, ⟨10, 0, 0, 1⟩⟩ : Address) ∈ (t.converge s 15000).2.mappings.keys := by decide +kernel
  have carried : IntendedDestination.Carries bytes ⟨10, 0, 0, 1⟩ 8080 := ⟨⟨rfl, rfl⟩, rfl, rfl, rfl⟩
  exact ⟨t, _, s, _, bytes, pass, rfl, kept, carried, forwarding_route pass kept carried⟩

end Redirector

end Switchyard
