import Switchyard.Proofs.Supervision.Nesting
import Switchyard.Proofs.Supervision.Running

/-!
Work with a cleanup behind it. Main statement: the cleanup begins once, when the work has returned or has been given up
because the attempt is cancelled, and the attempt is not over before; a bracket is left in another way only by a panic,
or together with the work of a bracket around it that is given up.
-/
namespace Switchyard

/-- A bracket that a unit has entered: in which attempt, inside of what, and what its cleanup is. -/
structure Bracket where
  unit : UnitId
  attempt : Nat
  around : List Frame
  cleanup : Script

namespace Bracket

variable {b : Bracket} {s s' : System} {past : List System} {worked : Outcome} {v : Work}

/-- The unit is running, and has this to do in the place of the bracket. -/
def Holds (b : Bracket) (s : System) (w : Work) : Prop :=
  s.supervisor.Stands b.unit b.attempt (.running (.within b.around w))

/-- The work goes on. -/
def Working (b : Bracket) (s : System) : Prop := ∃ v, b.Holds s (.bracket v b.cleanup)

/-- The cleanup goes on, after work that has come to `worked`. -/
def Cleaning (b : Bracket) (worked : Outcome) (s : System) : Prop := ∃ v, b.Holds s (.cleanup worked v)

/-- All of the cleanup is still to be done. -/
def Begins (b : Bracket) (worked : Outcome) (s : System) : Prop := b.Holds s (.cleanup worked (.script b.cleanup))

/-- From one moment to the next the work is over, and has come to an outcome: it has returned, or it has been given up
because the attempt is cancelled, which is no error. -/
inductive WorkEnds (b : Bracket) (s s' : System) : Outcome → Prop
  | returned {v : Work} {r : Reaction} {o : Outcome} (here : b.Holds s (.bracket v b.cleanup))
      (reacts : s.Reacts b.unit v.next r) (ended : v.resume r = .ended (.returned o)) : WorkEnds b s s' o
  | dropped {depth : Nat} (m : s.step (.unit b.unit (.abandon depth)) = some s')
      (cancelled : s.supervisor.attemptCancelled b.unit.task = true) : WorkEnds b s s' none

/-- From one moment to the next the cleanup has returned. The unit goes on as if a script in the place of the bracket
had come to the error of the work if there is one, and else to what the cleanup has come to. -/
inductive Returns (b : Bracket) (worked : Outcome) (s s' : System) : Prop
  | intro {v : Work} {r : Reaction} {cleaned : Outcome} (here : b.Holds s (.cleanup worked v))
      (reacts : s.Reacts b.unit v.next r) (ended : v.resume r = .ended (.returned cleaned))
      (result : s'.supervisor.Stands b.unit b.attempt
        ((Work.within b.around (.script [])).resume (.finish (worked <|> cleaned)))) : Returns b worked s s'

/-- From one moment to the next the bracket is gone without having returned: the attempt is cancelled and the work of a
bracket around it has been given up, whose cleanup begins, or the unit has panicked. -/
inductive Cut (b : Bracket) (s s' : System) : Prop
  | dropped {depth : Nat} {outer inner : List Frame} {c : Script}
      (m : s.step (.unit b.unit (.abandon depth)) = some s')
      (cancelled : s.supervisor.attemptCancelled b.unit.task = true)
      (inside : b.around = outer ++ .bracket c :: inner)
      (begins : Begins { b with around := outer, cleanup := c } none s') : Cut b s s'
  | panicked {reason : String} (ended : s'.supervisor.Stands b.unit b.attempt (.ended (.panicked reason))) : Cut b s s'

/-! ### From one moment to the next -/

/-- What becomes of whatever stands in the place of the bracket. -/
inductive Becomes (b : Bracket) (s s' : System) (v : Work) : Prop
  | rests (holds : b.Holds s' v)
  | goesOn {r : Reaction} {v' : Work} (reacts : s.Reacts b.unit v.next r) (running : v.resume r = .running v')
      (holds : b.Holds s' v')
  | ends {r : Reaction} {o : Outcome} (reacts : s.Reacts b.unit v.next r) (ended : v.resume r = .ended (.returned o))
      (result : s'.supervisor.Stands b.unit b.attempt
        ((Work.within b.around (.script [])).resume (.finish o)))
  | givesUp {depth inside : Nat} {v' : Work} (m : s.step (.unit b.unit (.abandon depth)) = some s')
      (cancelled : s.supervisor.attemptCancelled b.unit.task = true) (given : v.abandon inside = some v')
      (holds : b.Holds s' v')
  | isCut (cut : b.Cut s s')

theorem Holds.becomes (h : b.Holds s v) (reached : s.Reached) (m : s.Next s') : b.Becomes s s' v := by
  rcases m.stands reached h with same | ⟨turn, m⟩
  · exact .rests same
  · rcases System.unitStep_stands h m with ⟨r, reacts, stands⟩ | ⟨depth, w', rfl, given, cancelled, stands⟩
    · rw [Work.next_within] at reacts
      cases resumed : v.resume r with
      | running v' =>
        rw [Work.resume_within_running resumed] at stands
        exact .goesOn reacts resumed stands
      | ended e =>
        rw [Work.resume_within_ended resumed] at stands
        cases e with
        | returned o => exact .ends reacts resumed stands
        | panicked reason =>
          rw [Ending.reaction, Work.resume_panic] at stands
          exact .isCut (.panicked stands)
    · rcases Work.abandon_within given with ⟨inside, v', inner, rfl⟩ | ⟨outer, c, inner, inside, rfl⟩
      · exact .givesUp m cancelled inner stands
      · exact .isCut (.dropped m cancelled inside stands)

theorem Working.next (h : b.Working s) (reached : s.Reached) (m : s.Next s') :
    b.Working s' ∨ (∃ o, b.WorkEnds s s' o ∧ b.Begins o s') ∨ b.Cut s s' := by
  obtain ⟨v, h⟩ := h
  cases h.becomes reached m with
  | rests holds => exact .inl ⟨v, holds⟩
  | @goesOn r v' reacts running holds =>
    rw [Work.resume] at running
    split at running
    next resumed =>
      cases running
      exact .inl ⟨_, holds⟩
    next o ended =>
      cases running
      exact .inr (.inl ⟨o, .returned h reacts ended, holds⟩)
    next => cases running
  | ends reacts ended =>
    rw [Work.resume] at ended
    split at ended <;> cases ended
  | @givesUp depth inside v' m cancelled given holds =>
    cases inside with
    | zero =>
      cases given
      exact .inr (.inl ⟨none, .dropped m cancelled, holds⟩)
    | succ inside =>
      obtain ⟨v', _, rfl⟩ := Option.map_eq_some_iff.1 given
      exact .inl ⟨v', holds⟩
  | isCut cut => exact .inr (.inr cut)

theorem Cleaning.next (h : b.Cleaning worked s) (reached : s.Reached) (m : s.Next s') :
    b.Cleaning worked s' ∨ b.Returns worked s s' ∨ b.Cut s s' := by
  obtain ⟨v, h⟩ := h
  cases h.becomes reached m with
  | rests holds => exact .inl ⟨v, holds⟩
  | goesOn reacts running holds =>
    rw [Work.resume] at running
    split at running
    next =>
      cases running
      exact .inl ⟨_, holds⟩
    next => cases running
    next => cases running
  | ends reacts ended result =>
    rw [Work.resume] at ended
    split at ended
    next => cases ended
    next cleaned returned =>
      cases ended
      exact .inr (.inl ⟨h, reacts, returned, result⟩)
    next => cases ended
  | givesUp m cancelled given holds =>
    obtain ⟨v', _, rfl⟩ := Option.map_eq_some_iff.1 given
    exact .inl ⟨v', holds⟩
  | isCut cut => exact .inr (.inr cut)

/-! ### From the beginning on -/

/-- The unit has entered the bracket at the oldest of the moments `s :: past`, newest first. -/
inductive Entered (b : Bracket) : System → List System → Prop
  | enter {s s' : System} {w : Work} {work : Script} (reached : s.Reached)
      (here : s.supervisor.Stands b.unit b.attempt (.running w)) (around : w.enclosing = b.around)
      (next : w.next = .bracket work b.cleanup) (m : s.step (.unit b.unit .proceed) = some s') : Entered b s' []
  | later {s s' : System} {past : List System} (h : Entered b s past) (m : s.Next s') : Entered b s' (s :: past)

theorem Entered.reached (h : b.Entered s past) : ∀ x ∈ s :: past, x.Reached := by
  induction h with
  | enter reached _ _ _ m =>
    intro x hx
    rw [List.mem_singleton.1 hx]
    exact reached.step m
  | @later s s' past _ m ih =>
    intro x hx
    rcases List.mem_cons.1 hx with rfl | hx
    · exact (ih s List.mem_cons_self).next m
    · exact ih x hx

/-- What the moments since a unit has entered a bracket are, newest first: in the oldest the work goes on, then the
cleanup, and then the bracket is gone. -/
structure Life (b : Bracket) (worked : Outcome) (after cleaning working : List System) : Prop where
  works : ∀ s ∈ working, b.Working s
  begins : ∀ s' ∈ cleaning.getLast?, ∀ s ∈ working.head?, b.WorkEnds s s' worked ∧ b.Begins worked s'
  cleans : ∀ s ∈ cleaning, b.Cleaning worked s
  leaves : ∀ s' ∈ after.getLast?, ∀ s ∈ cleaning.head?, b.Returns worked s s' ∨ b.Cut s s'
  skips : cleaning = [] → ∀ s' ∈ after.getLast?, ∀ s ∈ working.head?, b.Cut s s'

theorem working_of_enter {w : Work} {work : Script} (here : s.supervisor.Stands b.unit b.attempt (.running w))
    (around : w.enclosing = b.around) (next : w.next = .bracket work b.cleanup)
    (m : s.step (.unit b.unit .proceed) = some s') : b.Working s' := by
  have placed : w.resume (.bracket work b.cleanup) =
      .running (.within b.around (.bracket (.script work) b.cleanup)) := by
    have script : (Work.script w.current).resume (.bracket work b.cleanup) =
      .running (.bracket (.script work) b.cleanup) := rfl
    rw [← Work.resume_within_running script b.around, ← around, Work.within_enclosing]
  rcases System.unitStep_stands here m with ⟨r, reacts, stands⟩ | ⟨_, _, proceeds, _⟩
  · rw [next] at reacts
    cases reacts with
    | performs performed =>
      cases performed
      rw [placed] at stands
      exact ⟨_, stands⟩
    | cancels opens => cases opens
  · cases proceeds

theorem Entered.life (h : b.Entered s past) : ∃ worked after cleaning working,
    s :: past = after ++ (cleaning ++ working) ∧ working ≠ [] ∧ b.Life worked after cleaning working := by
  induction h with
  | @enter s s' w work _ here around next m =>
    refine ⟨none, [], [], [s'], rfl, List.cons_ne_nil _ _, ?_, nofun, nofun, nofun, fun _ => nofun⟩
    intro x hx
    rw [List.mem_singleton.1 hx]
    exact working_of_enter here around next m
  | @later s s' past h m ih =>
    obtain ⟨worked, after, cleaning, working, moments, begun, life⟩ := ih
    have reached := h.reached s List.mem_cons_self
    cases after with
    | cons x after =>
      refine ⟨worked, s' :: x :: after, cleaning, working, congrArg (s' :: ·) moments, begun, life.works, life.begins,
        life.cleans, ?_, ?_⟩
      · rw [List.getLast?_cons_cons]
        exact life.leaves
      · rw [List.getLast?_cons_cons]
        exact life.skips
    | nil =>
      cases cleaning with
      | cons x cleaning =>
        obtain ⟨rfl, rest⟩ := List.cons.inj moments
        have moments : s' :: s :: past = s' :: s :: (cleaning ++ working) := congrArg (s' :: s :: ·) rest
        rcases (life.cleans s List.mem_cons_self).next reached m with cleans | left
        · refine ⟨worked, [], s' :: s :: cleaning, working, moments, begun, life.works, ?_, ?_, nofun, nofun⟩
          · rw [List.getLast?_cons_cons]
            exact life.begins
          · exact List.forall_mem_cons.2 ⟨cleans, life.cleans⟩
        · refine ⟨worked, [s'], s :: cleaning, working, moments, begun, life.works, life.begins, life.cleans, ?_, nofun⟩
          rintro _ ⟨⟩ _ ⟨⟩
          exact left
      | nil =>
        cases working with
        | nil => exact absurd rfl begun
        | cons x working =>
          obtain ⟨rfl, rest⟩ := List.cons.inj moments
          have moments : s' :: s :: past = s' :: s :: working := congrArg (s' :: s :: ·) rest
          rcases (life.works s List.mem_cons_self).next reached m with works | ⟨o, ends, begins⟩ | cut
          · refine ⟨worked, [], [], s' :: s :: working, moments, List.cons_ne_nil _ _, ?_, nofun, nofun, nofun,
              fun _ => nofun⟩
            exact List.forall_mem_cons.2 ⟨works, life.works⟩
          · refine ⟨o, [], [s'], s :: working, moments, begun, life.works, ?_, ?_, nofun, nofun⟩
            · rintro _ ⟨⟩ _ ⟨⟩
              exact ⟨ends, begins⟩
            · intro y hy
              rw [List.mem_singleton.1 hy]
              exact ⟨_, begins⟩
          · refine ⟨worked, [s'], [], s :: working, moments, begun, life.works, nofun, nofun, nofun, ?_⟩
            rintro _ _ ⟨⟩ _ ⟨⟩
            exact cut

/-! ### Brackets entered in a run, found by running it -/

/-- The bracket that a unit is about to enter. -/
def ahead (s : System) (u : UnitId) : Option Bracket := do
  let t ← s.supervisor.task? u.task
  match ← t.unit? u.sub with
  | .ended _ => none
  | .running w =>
    match w.next with
    | .bracket _ cleanup => some { unit := u, attempt := t.attempt, around := w.enclosing, cleanup }
    | _ => none

theorem entered_of_ahead {u : UnitId} (reached : s.Reached) (h : ahead s u = some b)
    (m : s.step (.unit u .proceed) = some s') : b.Entered s' [] := by
  obtain ⟨t, ht, h⟩ := Option.bind_eq_some_iff.1 h
  obtain ⟨p, hp, h⟩ := Option.bind_eq_some_iff.1 h
  cases p with
  | ended e => cases h
  | running w =>
    dsimp only at h
    split at h
    next next =>
      cases h
      exact .enter reached ⟨t, ht, rfl, hp⟩ rfl next m
    next => cases h

/-- A step, with the moments that have led to it. -/
def onward (moments : System × List System) (l : System.Label) : Option (System × List System) :=
  (moments.1.step l).map (·, moments.1 :: moments.2)

/-- Workers are registered, steps are taken, the unit enters a bracket, and more steps are taken. -/
def enters (workers : List (Worker Action)) (before : List System.Label) (u : UnitId) (since : List System.Label) :
    Option (Bracket × System × List System) := do
  let s ← System.launch workers before
  let b ← ahead s u
  let s ← s.step (.unit u .proceed)
  let moments ← since.foldlM onward (s, [])
  some (b, moments)

theorem exists_entered {P : Bracket × System × List System → Bool} (workers : List (Worker Action))
    (before : List System.Label) (u : UnitId) (since : List System.Label)
    (h : (enters workers before u since).any P = true) : ∃ b s past, Entered b s past ∧ P (b, s, past) = true := by
  obtain ⟨⟨b, moments⟩, h, p⟩ := (Option.any_eq_true _ _).1 h
  obtain ⟨s, begun, h⟩ := Option.bind_eq_some_iff.1 h
  obtain ⟨b, next, h⟩ := Option.bind_eq_some_iff.1 h
  obtain ⟨s', m, h⟩ := Option.bind_eq_some_iff.1 h
  obtain ⟨moments, led, h⟩ := Option.bind_eq_some_iff.1 h
  cases h
  have entered : b.Entered s' [] := entered_of_ahead (System.reached_of_launch begun) next m
  refine ⟨b, moments.1, moments.2, ?_, p⟩
  refine kept_of_foldlM (P := fun x => b.Entered x.1 x.2) (fun stepped before => ?_) led entered
  obtain ⟨r, m, made⟩ := Option.map_eq_some_iff.1 stepped
  cases made
  exact before.later (.step m)

/-! ### The cleanup -/

/-- Since a unit has entered a bracket, in the work of a task or in a sub-unit, inside of others or not, the moments are
these: first the work goes on; then the cleanup, which begins when the work has returned or has been given up; then the
bracket is gone, with the error of the work or else what the cleanup has come to. It skips the cleanup, or is gone in
the middle of it, only by a panic, or when the attempt is cancelled and the work of a bracket around it is given up.
Until it is gone the attempt is not over, and as soon as that is cancelled the work can be given up for the cleanup. -/
theorem cleanup_begins_once (h : b.Entered s past) : ∃ worked after cleaning working,
    s :: past = after ++ (cleaning ++ working) ∧ working ≠ [] ∧ b.Life worked after cleaning working ∧
    (∀ x ∈ cleaning ++ working, ∃ t, x.supervisor.task? b.unit.task = some t ∧ t.attempt = b.attempt ∧
      t.phase.inAttempt = true) ∧
    ∀ x ∈ working, x.supervisor.attemptCancelled b.unit.task = true →
      ∃ depth x', x.step (.unit b.unit (.abandon depth)) = some x' ∧ b.Begins none x' := by
  obtain ⟨worked, after, cleaning, working, moments, begun, life⟩ := h.life
  refine ⟨worked, after, cleaning, working, moments, begun, life, fun x hx => ?_, fun x hx cancelled => ?_⟩
  · have stands : ∃ w, x.supervisor.Stands b.unit b.attempt (.running w) := by
      rcases List.mem_append.1 hx with cleans | works
      · obtain ⟨_, holds⟩ := life.cleans x cleans
        exact ⟨_, holds⟩
      · obtain ⟨_, holds⟩ := life.works x works
        exact ⟨_, holds⟩
    obtain ⟨w, stands⟩ := stands
    have since : x ∈ s :: past := moments ▸ List.mem_append_right after hx
    obtain ⟨past', run⟩ := (h.reached x since).run
    exact stands.inAttempt run
  · obtain ⟨v, holds⟩ := life.works x hx
    obtain ⟨depth, given⟩ := Work.exists_abandon b.around v b.cleanup
    have opens : x.step (.unit b.unit (.abandon depth)) = some ((x.release b.unit).onSupervisor fun sup =>
        sup.setProgress b.unit (.running (.within b.around (.cleanup none (.script b.cleanup))))) := by
      rw [System.step, System.unitStep, holds.progress?]
      simp [given, cancelled]
    exact ⟨depth, _, opens, holds.setProgress _⟩

/-- A sub-unit has a bracket inside of another one when its task is asked to stop. It gives up the inner work, and both
cleanups run. -/
theorem cleanup_begins_once_nested : ∃ b s past, Entered b s past ∧ b.unit.sub = some 0 ∧ b.around.length = 1 ∧
    s.supervisor.isTerminated b.unit.task = true ∧
    s.notes.map (·.text) = ["outer shutting_down=true", "inner shutting_down=true"] ∧
    ∃ worked after cleaning working, s :: past = after ++ (cleaning ++ working) ∧ working ≠ [] ∧
      b.Life worked after cleaning working ∧
      (∀ x ∈ cleaning ++ working, ∃ t, x.supervisor.task? b.unit.task = some t ∧ t.attempt = b.attempt ∧
        t.phase.inAttempt = true) ∧
      ∀ x ∈ working, x.supervisor.attemptCancelled b.unit.task = true →
        ∃ depth x', x.step (.unit b.unit (.abandon depth)) = some x' ∧ b.Begins none x' := by
  obtain ⟨b, s, past, entered, h⟩ := exists_entered
    (P := fun (b, s, _) => b.unit.sub = some 0 ∧ b.around.length = 1 ∧
      s.supervisor.isTerminated b.unit.task = true ∧
      s.notes.map (·.text) = ["outer shutting_down=true", "inner shutting_down=true"])
    [{ name := "a", task := "a",
       scripts := [[.spawn [.bracket [.bracket [.forever] [.note "inner"]] [.note "outer"]], .stop "a"]] }]
    [.actor 0 .proceed, .actor 0 .proceed, .unit ⟨0, none⟩ .proceed, .watch 0 0, .unit ⟨0, some 0⟩ .proceed]
    ⟨0, some 0⟩
    [.unit ⟨0, none⟩ .proceed, .actor 0 .cancel, .unit ⟨0, some 0⟩ (.abandon 1), .unit ⟨0, some 0⟩ .proceed,
      .unit ⟨0, some 0⟩ .proceed, .unit ⟨0, some 0⟩ .proceed, .unit ⟨0, some 0⟩ .proceed,
      .unit ⟨0, none⟩ .proceed, .actor 0 .proceed, .watch 0 0, .actor 0 .proceed] (by decide +kernel)
  obtain ⟨sub, inside, gone, notes⟩ := of_decide_eq_true h
  exact ⟨b, s, past, entered, sub, inside, gone, notes, cleanup_begins_once entered⟩

/-! ### Cleanups that never begin -/

/-- What stands in the place of a bracket, read off the work of its unit. -/
def inside? : List Frame → Work → Option Work
  | [], w => some w
  | .bracket _ :: frames, .bracket w _ => inside? frames w
  | .cleanup _ :: frames, .cleanup _ w => inside? frames w
  | _ :: _, _ => none

theorem inside?_within (frames : List Frame) (w : Work) : inside? frames (Work.within frames w) = some w := by
  induction frames with
  | nil => rfl
  | cons f frames ih => cases f <;> exact ih

def isCleaning (b : Bracket) (s : System) : Bool :=
  match s.supervisor.progress? b.unit with
  | some (.running w) => (inside? b.around w).any fun | .cleanup _ _ => true | _ => false
  | _ => false

theorem isCleaning_of_cleaning (h : b.Cleaning worked s) : b.isCleaning s = true := by
  obtain ⟨v, h⟩ := h
  rw [isCleaning, h.progress?]
  simp [inside?_within]

/-- A cleanup may be left out: that of a bracket whose work is given up together with the work of the one around it, and
that of work which panics. -/
theorem cleanup_never_begins :
    (∃ b s past, Entered b s past ∧ b.around.length = 1 ∧ s.supervisor.isTerminated b.unit.task = true ∧
      s.notes.map (·.text) = ["outer shutting_down=true"] ∧ ∀ x ∈ s :: past, ∀ worked, ¬b.Cleaning worked x) ∧
    ∃ b s past, Entered b s past ∧ b.around = [] ∧ s.supervisor.isTerminated b.unit.task = true ∧
      s.notes = [] ∧ ∀ x ∈ s :: past, ∀ worked, ¬b.Cleaning worked x := by
  have never {b : Bracket} {moments : List System} (h : moments.all (!b.isCleaning ·) = true) :
      ∀ x ∈ moments, ∀ worked, ¬b.Cleaning worked x := by
    intro x hx worked cleans
    have idle := List.all_eq_true.1 h x hx
    rw [isCleaning_of_cleaning cleans] at idle
    cases idle
  constructor
  · obtain ⟨b, s, past, entered, h⟩ := exists_entered
      (P := fun (b, s, past) => b.around.length = 1 ∧ s.supervisor.isTerminated b.unit.task = true ∧
        s.notes.map (·.text) = ["outer shutting_down=true"] ∧ (s :: past).all (!b.isCleaning ·) = true)
      [{ name := "a", task := "a", scripts := [[.bracket [.bracket [.forever] [.note "inner"]] [.note "outer"]]] },
        { name := "b", task := "b", scripts := [[.stop "a"]] }]
      [.actor 0 .proceed, .actor 0 .proceed, .unit ⟨0, none⟩ .proceed]
      ⟨0, none⟩
      [.actor 1 .proceed, .actor 1 .proceed, .unit ⟨1, none⟩ .proceed, .actor 0 .cancel,
        .unit ⟨0, none⟩ (.abandon 0), .unit ⟨0, none⟩ .proceed, .unit ⟨0, none⟩ .proceed, .actor 0 .proceed,
        .actor 0 .proceed] (by decide +kernel)
    obtain ⟨inside, gone, notes, idle⟩ := of_decide_eq_true h
    exact ⟨b, s, past, entered, inside, gone, notes, never idle⟩
  · obtain ⟨b, s, past, entered, h⟩ := exists_entered
      (P := fun (b, s, past) => b.around.length = 0 ∧ s.supervisor.isTerminated b.unit.task = true ∧
        s.notes = [] ∧ (s :: past).all (!b.isCleaning ·) = true)
      [{ name := "a", task := "a", scripts := [[.bracket [.panic "p"] [.note "cleaned"]]] }]
      [.actor 0 .proceed, .actor 0 .proceed] ⟨0, none⟩
      [.unit ⟨0, none⟩ .proceed, .actor 0 .proceed, .actor 0 .proceed] (by decide +kernel)
    obtain ⟨alone, gone, notes, idle⟩ := of_decide_eq_true h
    exact ⟨b, s, past, entered, List.length_eq_zero_iff.1 alone, gone, notes, never idle⟩

end Bracket

end Switchyard
