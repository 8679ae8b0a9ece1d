import Switchyard.Supervision.Action

/-!
Brackets within brackets. Main statements: what goes on inside leaves alone what stands around it, until it ends; and
the work of a bracket can be given up from inside or together with the work of a bracket around it.
-/
namespace Switchyard

/-- What can stand directly around work still to do. -/
inductive Frame where
  | bracket (cleanup : Script)
  | cleanup (worked : Outcome)

def Frame.around : Frame → Work → Work
  | .bracket c, w => .bracket w c
  | .cleanup o, w => .cleanup o w

/-- The action that comes to the same end. -/
def Ending.reaction : Ending → Reaction
  | .returned o => .finish o
  | .panicked reason => .panic reason

namespace Work

variable {w w' v v' : Work} {r : Reaction} {e : Ending} {frames : List Frame} {depth : Nat}

/-- Work with these frames around it, the outermost first. -/
def within (frames : List Frame) (w : Work) : Work := frames.foldr Frame.around w

/-- What stands around the script that comes next. -/
def enclosing : Work → List Frame
  | .script _ => []
  | .bracket w c => .bracket c :: w.enclosing
  | .cleanup o w => .cleanup o :: w.enclosing

def current : Work → Script
  | .script todo => todo
  | .bracket w _ => w.current
  | .cleanup _ w => w.current

theorem within_enclosing (w : Work) : within w.enclosing (.script w.current) = w := by
  induction w with
  | script todo => rfl
  | bracket w c ih => exact congrArg (Work.bracket · c) ih
  | cleanup o w ih => exact congrArg (Work.cleanup o) ih

theorem next_within (frames : List Frame) (w : Work) : (within frames w).next = w.next := by
  induction frames with
  | nil => rfl
  | cons f frames ih => cases f <;> exact ih

theorem resume_within_running (h : w.resume r = .running w') (frames : List Frame) :
    (within frames w).resume r = .running (within frames w') := by
  induction frames with
  | nil => exact h
  | cons f frames ih =>
    change (f.around (within frames w)).resume r = .running (f.around (within frames w'))
    cases f <;> rw [Frame.around, resume, ih] <;> rfl

/-- What has ended makes no more difference to what stands around it than a script that ends like it. -/
theorem resume_within_ended (h : w.resume r = .ended e) (frames : List Frame) :
    (within frames w).resume r = (within frames (.script [])).resume e.reaction := by
  induction frames with
  | nil => rw [within, List.foldr_nil, h]; cases e <;> rfl
  | cons f frames ih =>
    change (f.around (within frames w)).resume r = (f.around (within frames (.script []))).resume e.reaction
    cases f <;> rw [Frame.around, Frame.around, resume, resume, ih]

/-- A panic passes over everything. -/
theorem resume_panic (w : Work) (reason : String) : w.resume (.panic reason) = .ended (.panicked reason) := by
  induction w with
  | script todo => rfl
  | bracket w c ih => rw [resume, ih]
  | cleanup o w ih => rw [resume, ih]

theorem abandon_within (h : (within frames w).abandon depth = some w') :
    (∃ inside v, w.abandon inside = some v ∧ w' = within frames v) ∨
      ∃ outer c inner, frames = outer ++ .bracket c :: inner ∧ w' = within outer (.cleanup none (.script c)) := by
  induction frames generalizing depth w' with
  | nil => exact .inl ⟨depth, w', h, rfl⟩
  | cons f frames ih =>
    change (f.around (within frames w)).abandon depth = some w' at h
    -- one frame more around what has been given up
    have wrap {depth : Nat} {v : Work} (h : (within frames w).abandon depth = some v) :
        (∃ inside v', w.abandon inside = some v' ∧ f.around v = within (f :: frames) v') ∨
          ∃ outer c inner, f :: frames = outer ++ .bracket c :: inner ∧
            f.around v = within outer (.cleanup none (.script c)) := by
      rcases ih h with ⟨inside, v', abandoned, rfl⟩ | ⟨outer, c, inner, rfl, rfl⟩
      · exact .inl ⟨inside, v', abandoned, rfl⟩
      · exact .inr ⟨f :: outer, c, inner, rfl, rfl⟩
    cases f with
    | bracket c =>
      cases depth with
      | zero =>
        cases h
        exact .inr ⟨[], c, frames, rfl, rfl⟩
      | succ depth =>
        obtain ⟨v, abandoned, rfl⟩ := Option.map_eq_some_iff.1 h
        exact wrap abandoned
    | cleanup o =>
      obtain ⟨v, abandoned, rfl⟩ := Option.map_eq_some_iff.1 h
      exact wrap abandoned

/-- Any bracket can be given up. -/
theorem exists_abandon (frames : List Frame) (w : Work) (c : Script) :
    ∃ depth, (within frames (.bracket w c)).abandon depth = some (within frames (.cleanup none (.script c))) := by
  induction frames with
  | nil => exact ⟨0, rfl⟩
  | cons f frames ih =>
    obtain ⟨depth, ih⟩ := ih
    cases f with
    | bracket c' => exact ⟨depth + 1, congrArg (Option.map (Work.bracket · c')) ih⟩
    | cleanup o => exact ⟨depth, congrArg (Option.map (Work.cleanup o)) ih⟩

end Work

end Switchyard
