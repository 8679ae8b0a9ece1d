/-!
Finite maps kept in ascending order of their keys, so that listing one needs no sort.
-/
namespace Switchyard

/-- An order in which no two keys share a place. -/
class KeyOrder (κ : Type) [LT κ] : Prop where
  trans : ∀ {a b c : κ}, a < b → b < c → a < c
  irrefl : ∀ a : κ, ¬ a < a
  connected : ∀ {a b : κ}, ¬ a < b → ¬ b < a → a = b

instance stringOrder : KeyOrder String where
  trans := String.lt_trans
  irrefl := String.lt_irrefl
  connected h h' := String.le_antisymm (String.not_lt.1 h') (String.not_lt.1 h)

/-- Each key once, smallest first. -/
structure Dictionary (κ β : Type) [LT κ] where
  entries : List (κ × β)
  ascending : entries.Pairwise fun a b => a.1 < b.1

namespace Dictionary

variable {κ β : Type} [LT κ] [DecidableEq κ]

def empty : Dictionary κ β := ⟨[], .nil⟩

instance : Inhabited (Dictionary κ β) := ⟨empty⟩

def keys (d : Dictionary κ β) : List κ := d.entries.map (·.1)

def values (d : Dictionary κ β) : List β := d.entries.map (·.2)

def size (d : Dictionary κ β) : Nat := d.entries.length

def find? (d : Dictionary κ β) (k : κ) : Option β :=
  (d.entries.find? (·.1 = k)).map (·.2)

def contains (d : Dictionary κ β) (k : κ) : Bool := (d.find? k).isSome

def erase (d : Dictionary κ β) (k : κ) : Dictionary κ β :=
  ⟨d.entries.filter (·.1 ≠ k), d.ascending.filter _⟩

/-- Replaces what stood under `k`. -/
def insert [DecidableLT κ] [KeyOrder κ] (d : Dictionary κ β) (k : κ) (v : β) : Dictionary κ β where
  entries := d.entries.filter (·.1 < k) ++ (k, v) :: d.entries.filter (k < ·.1)
  ascending := by
    refine List.pairwise_append.2 ⟨d.ascending.filter _, List.pairwise_cons.2
      ⟨by simp, d.ascending.filter _⟩, fun a ha b hb => ?_⟩
    have ha : a.1 < k := by simpa using (List.mem_filter.1 ha).2
    rcases List.mem_cons.1 hb with rfl | hb
    · exact ha
    · exact KeyOrder.trans ha (by simpa using (List.mem_filter.1 hb).2 : k < b.1)

/-- Later pairs win. -/
def ofList [DecidableLT κ] [KeyOrder κ] (l : List (κ × β)) : Dictionary κ β :=
  l.foldl (fun d p => d.insert p.1 p.2) empty

@[simp] theorem find?_empty (k : κ) : (empty : Dictionary κ β).find? k = none := rfl

theorem find?_erase_self (d : Dictionary κ β) (k : κ) : (d.erase k).find? k = none := by
  simp [find?, erase]

theorem find?_erase_of_ne (d : Dictionary κ β) {k k' : κ} (h : k' ≠ k) :
    (d.erase k).find? k' = d.find? k' := by
  simp only [find?, erase, List.find?_filter]
  congr 2
  funext p
  by_cases hp : p.1 = k' <;> simp [hp, h]

omit [LT κ] in
theorem find?_filter_key {P : κ → Prop} [DecidablePred P] {k : κ} (h : P k) (l : List (κ × β)) :
    (l.filter fun p => P p.1).find? (·.1 = k) = l.find? (·.1 = k) := by
  rw [List.find?_filter]
  congr 1
  funext p
  by_cases hp : p.1 = k <;> simp [hp, h]

omit [LT κ] in
theorem find?_filter_not_key {P : κ → Prop} [DecidablePred P] {k : κ} (h : ¬ P k) (l : List (κ × β)) :
    (l.filter fun p => P p.1).find? (·.1 = k) = none := by
  simp only [List.find?_eq_none, List.mem_filter, decide_eq_true_eq, and_imp]
  exact fun p _ hp e => h (e ▸ hp)

variable [DecidableLT κ] [KeyOrder κ]

theorem find?_insert_self (d : Dictionary κ β) (k : κ) (v : β) :
    (d.insert k v).find? k = some v := by
  simp [find?, insert, List.find?_append, find?_filter_not_key (P := (· < k)) (KeyOrder.irrefl k)]

theorem find?_insert_of_ne (d : Dictionary κ β) {k k' : κ} (v : β) (h : k' ≠ k) :
    (d.insert k v).find? k' = d.find? k' := by
  have asymm : ∀ {a b : κ}, a < b → ¬ b < a := fun hab hba => KeyOrder.irrefl _ (KeyOrder.trans hab hba)
  have hk : decide (k = k') = false := by simpa using fun e => h e.symm
  by_cases h1 : k' < k
  · simp [find?, insert, List.find?_append, hk, find?_filter_key (P := (· < k)) h1,
      find?_filter_not_key (P := (k < ·)) (asymm h1)]
  · have h2 : k < k' := by
      by_cases h2 : k < k'
      · exact h2
      · exact absurd (KeyOrder.connected h1 h2) h
    simp [find?, insert, List.find?_append, hk, find?_filter_not_key (P := (· < k)) h1,
      find?_filter_key (P := (k < ·)) h2]

end Dictionary

end Switchyard
