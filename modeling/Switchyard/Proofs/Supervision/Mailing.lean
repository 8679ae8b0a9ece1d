import Switchyard.Proofs.Execution

/-!
What comes to a listener whose mailbox never was full. Main statement: of everything that has been told, it has
received the older part and will receive the rest, in the order in which it was told.
-/
namespace Switchyard

namespace Mailbox

variable {m m' : Mailbox} {ps : List Published}

/-- One event after the other. -/
def offers (m : Mailbox) (ps : List Published) : Mailbox := ps.foldl offer m

theorem offers_append (m : Mailbox) (ps qs : List Published) : m.offers (ps ++ qs) = (m.offers ps).offers qs :=
  List.foldl_append

/-- For how many events there is room. -/
def room (m : Mailbox) : Nat := m.capacity - m.queue.length

theorem offers_of_room (fits : ps.length ≤ m.room) : m.offers ps = { m with queue := m.queue ++ ps } := by
  induction ps generalizing m with
  | nil => rw [offers, List.foldl_nil, List.append_nil]
  | cons p ps ih =>
    rw [List.length_cons, room] at fits
    have space : m.isFull = false := by
      rw [isFull, decide_eq_false_iff_not]
      omega
    have first : m.offer p = { m with queue := m.queue ++ [p] } := by
      rw [offer, space, if_neg Bool.false_ne_true]
    have left : ps.length ≤ ({ m with queue := m.queue ++ [p] } : Mailbox).room := by
      simp only [room, List.length_append, List.length_singleton]
      omega
    rw [offers, List.foldl_cons, first, ← offers, ih left]
    simp only [List.append_assoc, List.singleton_append]

/-- What has been received and what still waits, oldest first. -/
def all (m : Mailbox) : List Published := m.received.reverse ++ m.queue

theorem all_deliver (h : m.deliver = some m') : m'.all = m.all := by
  rw [deliver] at h
  split at h
  next => cases h
  next p rest queue =>
    cases h
    simp [all, queue]

end Mailbox

namespace Supervisor

variable {s s' r : Supervisor} {i : TaskId} {t : Task} {es : List Event} {past past' : List Supervisor}
  {box : Nat}

/-! ### What a move puts into the mailboxes -/

theorem mailboxes_amend (s : Supervisor) (i : TaskId) (t : Task) (es : List Event) :
    (s.amend i t es).mailboxes = s.mailboxes.map (·.offers ((s.entries i es).map (·.published))) := by
  suffices h : ∀ r : Supervisor, (es.foldl (·.publish (some i)) r).mailboxes =
      r.mailboxes.map (·.offers ((r.entries i es).map (·.published))) from h _
  induction es with
  | nil => exact fun r => (List.map_id _).symm
  | cons e es ih =>
    intro r
    rw [List.foldl_cons, ih, entries_cons, publish, List.map_map]
    rfl

/-- Whatever is told from one supervisor to the next is numbered and offered to every mailbox. -/
def Mailed (s s' : Supervisor) : Prop :=
  ∃ new : List Logged, s'.history = new.reverse ++ s.history ∧ s'.nextSeq = s.nextSeq + new.length ∧
    s'.mailboxes = s.mailboxes.map (·.offers (new.map (·.published)))

theorem Mailed.refl (s : Supervisor) : Mailed s s := ⟨[], rfl, rfl, (List.map_id _).symm⟩

theorem Mailed.trans (h : Mailed s r) (h' : Mailed r s') : Mailed s s' := by
  obtain ⟨new, history, seq, boxes⟩ := h
  obtain ⟨new', history', seq', boxes'⟩ := h'
  refine ⟨new ++ new', ?_, ?_, ?_⟩
  · rw [history', history, List.reverse_append, List.append_assoc]
  · rw [seq', seq, List.length_append, Nat.add_assoc]
  · rw [boxes', boxes, List.map_map, List.map_append]
    exact List.map_congr_left fun m _ => (Mailbox.offers_append m _ _).symm

theorem Mailed.nextSeq_le (h : Mailed s s') : s.nextSeq ≤ s'.nextSeq := by
  obtain ⟨new, _, seq, _⟩ := h
  exact seq ▸ Nat.le_add_right _ _

theorem mailed_amend (s : Supervisor) (i : TaskId) (t : Task) (es : List Event) : Mailed s (s.amend i t es) := by
  refine ⟨s.entries i es, history_amend s i t es, ?_, mailboxes_amend s i t es⟩
  rw [nextSeq_amend, entries, List.length_map, List.length_zipIdx]

theorem Plain.mailed (p : Plain s s') : Mailed s s' := by
  cases p with
  | goes => exact mailed_amend ..
  | ends =>
    obtain ⟨new, told⟩ := mailed_amend s ..
    exact ⟨new, told⟩
  | @supervise w _ h =>
    unfold Supervisor.supervise at h
    split at h
    next => cases h
    next =>
      cases h
      exact ⟨[_], rfl, rfl, rfl⟩
  | shutdown down =>
    rw [shutdown_eq down]
    exact ⟨[_], rfl, rfl, rfl⟩
  | clock => exact .refl s

theorem Advances.mailed (h : Advances s s') : Mailed s s' := by
  induction h with
  | refl => exact .refl s
  | tail _ m ih =>
    obtain ⟨a, notMail, m⟩ := m
    exact ih.trans (act_plain m notMail).mailed

/-! ### A mailbox with room -/

/-- Whatever is told on the way from `s` to `s'` finds room in this mailbox. -/
def HasRoom (box : Nat) (s s' : Supervisor) : Prop :=
  ∀ m ∈ s.mailboxes[box]?, s'.nextSeq - s.nextSeq ≤ m.room

instance : Decidable (HasRoom box s s') := inferInstanceAs (Decidable (∀ m ∈ s.mailboxes[box]?, _))

theorem HasRoom.first (room : HasRoom box s s') (h' : Mailed r s') : HasRoom box s r := by
  intro m hm
  have whole := room m hm
  have later := h'.nextSeq_le
  omega

theorem Mailed.getElem? (h : Mailed s s') (room : HasRoom box s s') {m : Mailbox} (hm : s.mailboxes[box]? = some m) :
    ∃ new : List Logged, s'.history = new.reverse ++ s.history ∧ s'.nextSeq = s.nextSeq + new.length ∧
      s'.mailboxes[box]? = some { m with queue := m.queue ++ new.map (·.published) } := by
  obtain ⟨new, history, seq, boxes⟩ := h
  have fits : (new.map (·.published)).length ≤ m.room := by
    have whole := room m hm
    rw [List.length_map]
    omega
  refine ⟨new, history, seq, ?_⟩
  rw [boxes, List.getElem?_map, hm, Option.map_some, Mailbox.offers_of_room fits]

theorem HasRoom.rest (room : HasRoom box s s') (h : Mailed s r) (h' : Mailed r s') : HasRoom box r s' := by
  intro m hm
  cases before : s.mailboxes[box]? with
  | none =>
    obtain ⟨_, _, _, boxes⟩ := h
    rw [boxes, List.getElem?_map, before] at hm
    cases hm
  | some m' =>
    obtain ⟨new, _, seq, there⟩ := h.getElem? (room.first h') before
    cases there.symm.trans hm
    have whole := room m' before
    have later := h'.nextSeq_le
    simp only [Mailbox.room, List.length_append, List.length_map] at whole ⊢
    omega

/-- A run in which this mailbox is there from the start and has room for everything that is told. Mailboxes are
emptied one event at a time. -/
inductive Heard (box : Nat) : Supervisor → List Supervisor → Prop
  | start (backoff : Backoff) (now : Nat) {mailboxes : List Mailbox} {capacity : Nat}
      (h : mailboxes[box]? = some (.ofCapacity capacity)) : Heard box { backoff, now, mailboxes } []
  | move {s s' : Supervisor} {past : List Supervisor} {a : Act} (h : Heard box s past) (m : s.act a = some s')
      (notMail : a.isMail = false) (room : HasRoom box s s') : Heard box s' (s :: past)
  | deliver {s : Supervisor} {past : List Supervisor} {k : Nat} {m m' : Mailbox} (h : Heard box s past)
      (there : s.mailboxes[k]? = some m) (taken : m.deliver = some m') :
      Heard box { s with mailboxes := s.mailboxes.set k m' } (s :: past)

theorem Heard.run (h : Heard box s past) : Run s past := by
  induction h with
  | start backoff now => exact .start backoff now _
  | move _ m _ _ ih => exact ih.move m
  | deliver _ _ _ ih => exact ih.move (a := .mail _) rfl

/-- Nothing that has been told is lost or out of order. -/
theorem Heard.all (h : Heard box s past) :
    ∃ m, s.mailboxes[box]? = some m ∧ m.all = s.history.reverse.map (·.published) := by
  induction h with
  | start _ _ there => exact ⟨_, there, rfl⟩
  | move _ m notMail room ih =>
    obtain ⟨b, there, complete⟩ := ih
    obtain ⟨new, history, _, after⟩ := (act_plain m notMail).mailed.getElem? room there
    refine ⟨_, after, ?_⟩
    rw [Mailbox.all, ← List.append_assoc, history, List.reverse_append, List.reverse_reverse, List.map_append,
      ← complete]
    rfl
  | @deliver s past k m m' h there taken ih =>
    obtain ⟨b, found, complete⟩ := ih
    by_cases same : k = box
    · subst same
      cases there.symm.trans found
      obtain ⟨inside, _⟩ := List.getElem?_eq_some_iff.1 there
      exact ⟨m', List.getElem?_set_self inside, (Mailbox.all_deliver taken).trans complete⟩
    · exact ⟨b, (List.getElem?_set_ne same).trans found, complete⟩

/-- What happens in such a run: a move, or a mailbox gives out its next event. -/
def hear (box : Nat) : Supervisor × List Supervisor → Act ⊕ Nat → Option (Supervisor × List Supervisor)
  | (s, past), .inl a =>
    ((s.act a).filter fun s' => a.isMail = false ∧ HasRoom box s s').map (·, s :: past)
  | (s, past), .inr k =>
    (s.mailboxes[k]?).bind fun m => m.deliver.map fun m' =>
      ({ s with mailboxes := s.mailboxes.set k m' }, s :: past)

theorem Heard.hears (heard : Heard box s past) {doings : List (Act ⊕ Nat)}
    (h : doings.foldlM (hear box) (s, past) = some (s', past')) : Heard box s' past' := by
  refine kept_of_foldlM (P := fun x => Heard box x.1 x.2) (fun {x _ doing} first heard => ?_) h heard
  obtain ⟨s, past⟩ := x
  cases doing with
  | inl a =>
    obtain ⟨r, moved, made⟩ := Option.map_eq_some_iff.1 first
    cases made
    obtain ⟨m, fair⟩ := Option.filter_eq_some_iff.1 moved
    obtain ⟨notMail, room⟩ := of_decide_eq_true fair
    exact heard.move m notMail room
  | inr k =>
    obtain ⟨m, there, first⟩ := Option.bind_eq_some_iff.1 first
    obtain ⟨m', taken, made⟩ := Option.map_eq_some_iff.1 first
    cases made
    exact heard.deliver there taken

/-- A run that is heard, found by running it. -/
theorem exists_heard {P : Supervisor × List Supervisor → Bool} {mailboxes : List Mailbox} {capacity : Nat}
    (there : mailboxes[box]? = some (.ofCapacity capacity)) (doings : List (Act ⊕ Nat))
    (h : (doings.foldlM (hear box) ({ mailboxes }, [])).any P = true) :
    ∃ s past, Heard box s past ∧ P (s, past) = true := by
  obtain ⟨⟨s, past⟩, hs, p⟩ := (Option.any_eq_true _ _).1 h
  exact ⟨s, past, (Heard.start .standard 0 there).hears hs, p⟩

/-! ### Systems -/

theorem Heard.advances (heard : Heard box s past) (h : Advances s s') (room : HasRoom box s s') :
    ∃ new, Heard box s' (new ++ past) := by
  induction h with
  | refl => exact ⟨[], heard⟩
  | @tail r s' before m ih =>
    obtain ⟨a, notMail, m⟩ := m
    have told := (act_plain m notMail).mailed
    obtain ⟨new, heard⟩ := ih (room.first told)
    exact ⟨r :: new, heard.move m notMail (room.rest (Advances.mailed before) told)⟩

end Supervisor

namespace System

open Supervisor

variable {s s' : System} {past : List Supervisor} {box : Nat}

/-- A step of a system loses nothing for a listener that has room. -/
theorem step_heard {l : Label} (heard : Heard box s.supervisor past) (h : s.step l = some s')
    (room : HasRoom box s.supervisor s'.supervisor) : ∃ new, Heard box s'.supervisor (new ++ past) := by
  cases step_cases h with
  | actor turns => exact heard.advances (.single ⟨.actor _ _, rfl, turns⟩) room
  | unit turns => exact heard.advances (unitStep_advances turns) room
  | watch turns => exact heard.advances (.single ⟨.watch _ _, rfl, turns⟩) room
  | deliver there taken => exact ⟨[s.supervisor], heard.deliver there taken⟩
  | reconciler => exact ⟨[], heard⟩

/-- The systems that come about while this mailbox has room for everything that is told. -/
inductive Attended (box : Nat) : System → Prop
  | start {s : System} {backoff : Backoff} {now : Nat} {mailboxes : List Mailbox} {capacity : Nat}
      (h : s.supervisor = { backoff, now, mailboxes }) (there : mailboxes[box]? = some (.ofCapacity capacity)) :
      Attended box s
  | step {s s' : System} {l : Label} (h : Attended box s) (m : s.step l = some s')
      (room : HasRoom box s.supervisor s'.supervisor) : Attended box s'
  | clock {s : System} {time : Nat} (h : Attended box s) (later : s.supervisor.now ≤ time) :
      Attended box (s.setClock time)
  | call {s s' : System} (h : Attended box s) (m : Requests s.supervisor s'.supervisor)
      (room : HasRoom box s.supervisor s'.supervisor) : Attended box s'

theorem Attended.heard (h : Attended box s) : ∃ past, Heard box s.supervisor past := by
  induction h with
  | start fresh there =>
    rw [fresh]
    exact ⟨[], .start _ _ there⟩
  | step _ m room ih =>
    obtain ⟨past, heard⟩ := ih
    obtain ⟨new, heard⟩ := step_heard heard m room
    exact ⟨_, heard⟩
  | @clock s time _ later ih =>
    obtain ⟨past, heard⟩ := ih
    have moved : s.supervisor.act (.clock time) = some (s.setClock time).supervisor := if_pos later
    have room : HasRoom box s.supervisor (s.setClock time).supervisor := by
      intro m _
      exact Nat.sub_self _ ▸ Nat.zero_le _
    exact ⟨_, heard.move moved rfl room⟩
  | call _ m room ih =>
    obtain ⟨past, heard⟩ := ih
    obtain ⟨new, heard⟩ := heard.advances m.advances room
    exact ⟨_, heard⟩

end System

end Switchyard
