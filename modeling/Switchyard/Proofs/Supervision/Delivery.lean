import Switchyard.Proofs.Supervision.Listening
import Switchyard.Proofs.Supervision.Mailing

/-!
What comes to listeners with mailboxes of any size, however the telling of events and the taking of them interleave.
Main statement: a listener gets what found room in its mailbox when it was told, in order and once, and no other
listener makes a difference to it.
-/
namespace Switchyard

/-- An event is told to everybody, or somebody takes the oldest event from a mailbox. -/
inductive Post where
  | tell (p : Published)
  | take (box : Nat)

namespace Post

variable {capacity box : Nat} {posts after before : List Post} {p : Published}

/-- Whether it can make a difference to a mailbox. -/
def reaches (box : Nat) : Post → Bool
  | .tell _ => true
  | .take k => k = box

/-! What became of a mailbox is reckoned from the posts alone, newest first. -/

/-- How many events wait to be taken: one more for each that was told while there was room, one less for each taken. -/
def waiting (capacity box : Nat) : List Post → Nat
  | [] => 0
  | .tell _ :: before => min capacity (waiting capacity box before + 1)
  | .take k :: before => if k = box then waiting capacity box before - 1 else waiting capacity box before

/-- The events that were told while there was room, newest first. -/
def admitted (capacity box : Nat) : List Post → List Published
  | [] => []
  | .tell p :: before =>
    if waiting capacity box before < capacity then p :: admitted capacity box before else admitted capacity box before
  | .take _ :: before => admitted capacity box before

/-- Everything told, newest first. -/
def told : List Post → List Published
  | [] => []
  | .tell p :: before => p :: told before
  | .take _ :: before => told before

theorem waiting_le (capacity box : Nat) (posts : List Post) : waiting capacity box posts ≤ capacity := by
  induction posts with
  | nil => exact Nat.zero_le _
  | cons post before ih =>
    cases post with
    | tell p => exact Nat.min_le_left _ _
    | take k =>
      rw [waiting]
      split
      · exact Nat.le_trans (Nat.sub_le _ _) ih
      · exact ih

theorem admitted_sublist (capacity box : Nat) (posts : List Post) :
    (admitted capacity box posts).Sublist (told posts) := by
  induction posts with
  | nil => exact .slnil
  | cons post before ih =>
    cases post with
    | tell p =>
      rw [admitted]
      split
      · exact ih.cons_cons p
      · exact ih.cons p
    | take k => exact ih

/-- What does not reach a mailbox makes no difference to it. -/
theorem waiting_filter (capacity box : Nat) (posts : List Post) :
    waiting capacity box (posts.filter (·.reaches box)) = waiting capacity box posts := by
  induction posts with
  | nil => rfl
  | cons post before ih =>
    cases post with
    | tell p => rw [List.filter_cons_of_pos rfl, waiting, waiting, ih]
    | take k =>
      by_cases own : k = box
      · rw [List.filter_cons_of_pos (by simpa [reaches] using own), waiting, waiting, ih]
      · rw [List.filter_cons_of_neg (by simpa [reaches] using own), waiting, if_neg own, ih]

theorem admitted_filter (capacity box : Nat) (posts : List Post) :
    admitted capacity box (posts.filter (·.reaches box)) = admitted capacity box posts := by
  induction posts with
  | nil => rfl
  | cons post before ih =>
    cases post with
    | tell p => rw [List.filter_cons_of_pos rfl, admitted, admitted, ih, waiting_filter]
    | take k =>
      by_cases own : k = box
      · rw [List.filter_cons_of_pos (by simpa [reaches] using own)]
        exact ih
      · rw [List.filter_cons_of_neg (by simpa [reaches] using own)]
        exact ih

theorem told_append (after before : List Post) : told (after ++ before) = told after ++ told before := by
  induction after with
  | nil => rfl
  | cons post after ih =>
    cases post with
    | tell p => exact congrArg (p :: ·) ih
    | take k => exact ih

/-- Later posts take nothing back of what was admitted, and admit only what they tell themselves. -/
theorem mem_admitted_append (h : p ∉ told after) :
    p ∈ admitted capacity box (after ++ before) ↔ p ∈ admitted capacity box before := by
  induction after with
  | nil => rfl
  | cons post after ih =>
    cases post with
    | tell q =>
      have rest := ih (List.not_mem_of_not_mem_cons h)
      rw [List.cons_append, admitted]
      split
      · rw [List.mem_cons, rest]
        exact or_iff_right (List.ne_of_not_mem_cons h)
      · exact rest
    | take k => exact ih h

/-- An event told once was admitted just if there was room for it. -/
theorem mem_admitted_iff (once : (told (after ++ .tell p :: before)).Nodup) :
    p ∈ admitted capacity box (after ++ .tell p :: before) ↔ waiting capacity box before < capacity := by
  rw [told_append] at once
  obtain ⟨_, rest, apart⟩ := List.nodup_append.1 once
  have later : p ∉ told after := fun inside => apart p inside p (List.mem_cons_self ..) rfl
  have earlier : p ∉ admitted capacity box before :=
    fun inside => (List.nodup_cons.1 rest).1 ((admitted_sublist capacity box before).subset inside)
  rw [mem_admitted_append later, admitted]
  split
  next room => exact iff_of_true (List.mem_cons_self ..) room
  next full => exact iff_of_false earlier full

end Post

namespace Mailbox

open Post

variable {m m' : Mailbox} {capacity box k : Nat} {posts : List Post} {p : Published}

/-- What a mailbox holds, and has held, is what the posts admit to it. -/
structure Follows (capacity box : Nat) (posts : List Post) (m : Mailbox) : Prop where
  capacity_eq : m.capacity = capacity
  length_queue : m.queue.length = waiting capacity box posts
  all_eq : m.all = (admitted capacity box posts).reverse

theorem Follows.isFull_eq_false (f : m.Follows capacity box posts) :
    m.isFull = false ↔ waiting capacity box posts < capacity := by
  rw [isFull, f.capacity_eq, f.length_queue, decide_eq_false_iff_not, Nat.not_le]

theorem Follows.offer (f : m.Follows capacity box posts) (p : Published) :
    (m.offer p).Follows capacity box (.tell p :: posts) := by
  rw [Mailbox.offer]
  cases full : m.isFull with
  | false =>
    have room := f.isFull_eq_false.1 full
    rw [if_neg Bool.false_ne_true]
    refine ⟨f.capacity_eq, ?_, ?_⟩
    · rw [List.length_append, f.length_queue, waiting, Nat.min_eq_right room]
      rfl
    · rw [admitted, if_pos room, List.reverse_cons, ← f.all_eq, all, all, List.append_assoc]
  | true =>
    have crowded : ¬waiting capacity box posts < capacity := by
      rw [← f.isFull_eq_false, full]
      exact Bool.true_eq_false ▸ not_false
    rw [if_pos rfl]
    refine ⟨f.capacity_eq, ?_, ?_⟩
    · have most := waiting_le capacity box posts
      rw [f.length_queue, waiting]
      omega
    · rw [admitted, if_neg crowded, f.all_eq]

theorem Follows.deliver (f : m.Follows capacity box posts) (h : m.deliver = some m') :
    m'.Follows capacity box (.take box :: posts) := by
  have same := all_deliver h
  rw [Mailbox.deliver] at h
  split at h
  next => cases h
  next p rest queue =>
    cases h
    refine ⟨f.capacity_eq, ?_, same.trans f.all_eq⟩
    rw [waiting, if_pos rfl, ← f.length_queue, queue, List.length_cons, Nat.add_sub_cancel]

theorem Follows.pass (f : m.Follows capacity box posts) (other : k ≠ box) :
    m.Follows capacity box (.take k :: posts) :=
  ⟨f.capacity_eq, by rw [waiting, if_neg other, f.length_queue], f.all_eq⟩

/-- Nothing else about a mailbox is left open. -/
theorem Follows.unique {posts' : List Post} (f : m.Follows capacity box posts) (f' : m'.Follows capacity box posts')
    (same : posts'.filter (·.reaches box) = posts.filter (·.reaches box)) : m' = m := by
  have length : m'.queue.length = m.queue.length := by
    rw [f'.length_queue, f.length_queue, ← waiting_filter _ _ posts', same, waiting_filter]
  have everything : m'.received.reverse ++ m'.queue = m.received.reverse ++ m.queue := by
    change m'.all = m.all
    rw [f'.all_eq, f.all_eq, ← admitted_filter _ _ posts', same, admitted_filter]
  obtain ⟨received, queue⟩ := List.append_inj' everything length
  cases m
  cases m'
  rw [mk.injEq]
  exact ⟨f'.capacity_eq.trans f.capacity_eq.symm, queue, List.reverse_inj.1 received⟩

end Mailbox

namespace Supervisor

open Post

variable {s s' r : Supervisor} {capacities : List Nat} {posts after before : List Post} {box c : Nat} {p : Published}

/-- How a supervisor with listeners of these capacities comes to stand where it does, as far as it concerns them:
`posts` is what has come to the mailboxes, newest first. Telling and taking may follow each other in any order. -/
inductive Posted (capacities : List Nat) : Supervisor → List Post → Prop
  | start {s : Supervisor} (boxes : s.mailboxes = capacities.map .ofCapacity) (history : s.history = [])
      (seq : s.nextSeq = 0) : Posted capacities s []
  | tell {s : Supervisor} {posts : List Post} (h : Posted capacities s posts) (source : Option TaskId) (e : Event) :
      Posted capacities (s.publish source e) (.tell ⟨s.nextSeq, s.now, e⟩ :: posts)
  | take {s : Supervisor} {posts : List Post} {k : Nat} {m m' : Mailbox} (h : Posted capacities s posts)
      (there : s.mailboxes[k]? = some m) (taken : m.deliver = some m') :
      Posted capacities { s with mailboxes := s.mailboxes.set k m' } (.take k :: posts)
  | aside {s s' : Supervisor} {posts : List Post} (h : Posted capacities s posts)
      (boxes : s'.mailboxes = s.mailboxes) (history : s'.history = s.history) (seq : s'.nextSeq = s.nextSeq) :
      Posted capacities s' posts

/-- The history is what has been told. -/
theorem Posted.told_eq (h : Posted capacities s posts) : Post.told posts = s.history.map (·.published) := by
  induction h with
  | start _ history => rw [history]; rfl
  | tell _ source e ih => exact congrArg (_ :: ·) ih
  | take _ _ _ ih => exact ih
  | aside _ _ history _ ih => rw [history, ih]

/-- Every event has a number of its own, higher than those of all before it. -/
theorem Posted.descending (h : Posted capacities s posts) :
    (Post.told posts).Pairwise (·.seq > ·.seq) ∧ ∀ p ∈ Post.told posts, p.seq < s.nextSeq := by
  induction h with
  | start => exact ⟨.nil, fun _ inside => nomatch inside⟩
  | tell _ source e ih =>
    refine ⟨.cons (fun p inside => ih.2 p inside) ih.1, fun p inside => ?_⟩
    rcases List.mem_cons.1 inside with rfl | inside
    · exact Nat.lt_succ_self _
    · exact Nat.lt_succ_of_lt (ih.2 p inside)
  | take _ _ _ ih => exact ih
  | aside _ _ _ seq ih => exact ⟨ih.1, fun p inside => seq ▸ ih.2 p inside⟩

theorem Posted.nodup (h : Posted capacities s posts) : (Post.told posts).Nodup :=
  h.descending.1.imp fun later same => Nat.ne_of_gt later (congrArg Published.seq same)

theorem Posted.follows (h : Posted capacities s posts) (there : capacities[box]? = some c) :
    ∃ m, s.mailboxes[box]? = some m ∧ m.Follows (max c 1) box posts := by
  induction h with
  | start boxes =>
    refine ⟨.ofCapacity c, ?_, rfl, rfl, rfl⟩
    rw [boxes, List.getElem?_map, there, Option.map_some]
  | tell _ source e ih =>
    obtain ⟨m, found, f⟩ := ih
    refine ⟨_, ?_, f.offer _⟩
    rw [publish, List.getElem?_map, found]
    rfl
  | @take s posts k m m' _ source taken ih =>
    obtain ⟨b, found, f⟩ := ih
    by_cases same : k = box
    · subst same
      cases source.symm.trans found
      obtain ⟨inside, _⟩ := List.getElem?_eq_some_iff.1 source
      exact ⟨m', List.getElem?_set_self inside, f.deliver taken⟩
    · exact ⟨b, (List.getElem?_set_ne same).trans found, f.pass same⟩
  | aside _ boxes _ _ ih => rw [boxes]; exact ih

/-- A run comes through the moment at which an event is told. -/
theorem Posted.moment (h : Posted capacities s posts) (split : posts = after ++ .tell p :: before) :
    ∃ r, Posted capacities r before ∧ p.seq = r.nextSeq ∧ p.time = r.now := by
  induction h generalizing after with
  | start => cases after <;> cases split
  | tell h _ _ ih =>
    cases after with
    | nil =>
      cases split
      exact ⟨_, h, rfl, rfl⟩
    | cons post after => exact ih (List.cons.inj split).2
  | take _ _ _ ih =>
    cases after with
    | nil => cases split
    | cons post after => exact ih (List.cons.inj split).2
  | aside _ _ _ _ ih => exact ih split

/-! ### Whatever a supervisor does comes to its mailboxes in this way -/

theorem Posted.tells {i : TaskId} (h : Posted capacities s posts) (es : List Event) :
    ∃ new, Posted capacities (es.foldl (·.publish (some i)) s) (new ++ posts) := by
  induction es generalizing s posts with
  | nil => exact ⟨[], h⟩
  | cons e es ih =>
    obtain ⟨new, h⟩ := ih (h.tell (some i) e)
    exact ⟨new ++ [_], by rwa [List.append_assoc]⟩

theorem Posted.amend (h : Posted capacities s posts) (i : TaskId) (t : Task) (es : List Event) :
    ∃ new, Posted capacities (s.amend i t es) (new ++ posts) :=
  Posted.tells (s := { s with tasks := s.tasks.set i t }) (h.aside rfl rfl rfl) es

theorem Posted.plain (h : Posted capacities s posts) (p : Plain s s') : ∃ new, Posted capacities s' (new ++ posts) := by
  cases p with
  | goes => exact h.amend _ _ _
  | ends =>
    obtain ⟨new, h⟩ := h.amend _ _ _
    exact ⟨new, h.aside rfl rfl rfl⟩
  | @supervise w _ registered =>
    unfold Supervisor.supervise at registered
    split at registered
    next => cases registered
    next =>
      cases registered
      exact ⟨[_], ((h.aside rfl rfl rfl).tell _ _).aside rfl rfl rfl⟩
  | shutdown down =>
    rw [shutdown_eq down]
    exact ⟨[_], (h.tell _ _).aside rfl rfl rfl⟩
  | clock => exact ⟨[], h.aside rfl rfl rfl⟩

theorem Posted.advances (h : Posted capacities s posts) (further : Advances s s') :
    ∃ new, Posted capacities s' (new ++ posts) := by
  induction further with
  | refl => exact ⟨[], h⟩
  | tail _ m ih =>
    obtain ⟨a, notMail, m⟩ := m
    obtain ⟨new, h⟩ := ih
    obtain ⟨newer, h⟩ := h.plain (act_plain m notMail)
    exact ⟨newer ++ new, by rwa [List.append_assoc]⟩

end Supervisor

namespace System

open Supervisor

variable {s s' : System} {capacities : List Nat} {posts : List Post}

theorem step_posted {l : Label} (h : Posted capacities s.supervisor posts) (m : s.step l = some s') :
    ∃ new, Posted capacities s'.supervisor (new ++ posts) := by
  cases step_cases m with
  | actor turns => exact h.advances (.single ⟨.actor _ _, rfl, turns⟩)
  | unit turns => exact h.advances (unitStep_advances turns)
  | watch turns => exact h.advances (.single ⟨.watch _ _, rfl, turns⟩)
  | @deliver box _ _ there taken => exact ⟨[.take box], h.take there taken⟩
  | reconciler => exact ⟨[], h⟩

theorem steps_posted {ls : List Label} (h : Posted capacities s.supervisor posts) (m : ls.foldlM step s = some s') :
    ∃ new, Posted capacities s'.supervisor (new ++ posts) := by
  refine kept_of_foldlM (P := fun s => ∃ new, Posted capacities s.supervisor (new ++ posts)) (fun first before => ?_) m
    ⟨[], h⟩
  obtain ⟨new, h⟩ := before
  obtain ⟨newer, h⟩ := step_posted h first
  exact ⟨newer ++ new, by rwa [List.append_assoc]⟩

end System

namespace Supervisor

open Post

variable {s : Supervisor} {capacities : List Nat} {posts : List Post} {box c : Nat}

/-- What the listener with mailbox `m` may rely on, at a moment to which `posts` have led. -/
structure Delivered (capacities : List Nat) (s : Supervisor) (posts : List Post) (box capacity : Nat) (m : Mailbox) :
    Prop where
  capacity_eq : m.capacity = capacity
  bounded : m.queue.length ≤ m.capacity
  complete : m.received.reverse ++ m.queue = (admitted capacity box posts).reverse
  ordered : (m.received.reverse ++ m.queue).Sublist (s.history.reverse.map (·.published))
  unrepeated : (m.received.reverse ++ m.queue).Pairwise (·.seq < ·.seq)
  /-- An event is missing just if the queue was full at the moment when it was told. -/
  missing : ∀ after p before, posts = after ++ .tell p :: before →
    ∃ r b, Posted capacities r before ∧ p.seq = r.nextSeq ∧ p.time = r.now ∧ r.mailboxes[box]? = some b ∧
      (p ∈ m.received.reverse ++ m.queue ↔ b.queue.length < b.capacity)
  /-- Other listeners, of any number, with mailboxes of any size and emptied at any moment, make no difference. -/
  independent : ∀ others s' posts', Posted others s' posts' → others[box]? = capacities[box]? →
    posts'.filter (·.reaches box) = posts.filter (·.reaches box) → s'.mailboxes[box]? = some m

theorem Posted.delivered (h : Posted capacities s posts) (there : capacities[box]? = some c) :
    ∃ m, s.mailboxes[box]? = some m ∧ Delivered capacities s posts box (max c 1) m := by
  obtain ⟨m, found, f⟩ := h.follows there
  have all : m.received.reverse ++ m.queue = (admitted (max c 1) box posts).reverse := f.all_eq
  have part : (m.received.reverse ++ m.queue).Sublist (Post.told posts).reverse :=
    all ▸ (admitted_sublist _ box posts).reverse
  refine ⟨m, found, f.capacity_eq, ?_, all, ?_, ?_, ?_, ?_⟩
  · rw [f.length_queue, f.capacity_eq]
    exact waiting_le _ _ _
  · rwa [List.map_reverse, ← h.told_eq]
  · exact (List.pairwise_reverse.2 h.descending.1).sublist part
  · intro after p before split
    obtain ⟨r, earlier, seq, time⟩ := h.moment split
    obtain ⟨b, found', f'⟩ := earlier.follows there
    refine ⟨r, b, earlier, seq, time, found', ?_⟩
    subst split
    rw [all, List.mem_reverse, mem_admitted_iff h.nodup, f'.length_queue, f'.capacity_eq]
  · intro others s' posts' h' same reaching
    obtain ⟨m', found', f'⟩ := h'.follows (same.trans there)
    rw [found', f.unique f' reaching]

/-- Everything told is in the history, and every listener has received, or still has in its queue, those of it that
found room there when they were told. Whatever a system does from here keeps this so, and apart from the mailboxes
it would do the same with other listeners. -/
theorem Posted.delivery (h : Posted capacities s posts) (there : capacities[box]? = some c) :
    Post.told posts = s.history.map (·.published) ∧
    (∃ m, s.mailboxes[box]? = some m ∧ Delivered capacities s posts box (max c 1) m) ∧
    (∀ s', Advances s s' → ∃ new, Posted capacities s' (new ++ posts)) ∧
    ∀ (x x' : System) (ls : List System.Label), x.supervisor = s → ls.foldlM System.step x = some x' →
      (∃ new, Posted capacities x'.supervisor (new ++ posts)) ∧
      ∀ y : System, y.hush = x.hush →
        ∃ y', (ls.filter (!·.isDelivery)).foldlM System.step y = some y' ∧ System.hush y' = x'.hush := by
  refine ⟨h.told_eq, h.delivered there, fun s' further => h.advances further, ?_⟩
  intro x x' ls same steps
  subst same
  exact ⟨System.steps_posted h steps, fun y other => System.steps_of_hush_eq steps other⟩

/-- Two listeners, of whom one has the smallest mailbox there is and takes nothing before the second event is told: it
misses that one. -/
theorem Posted.delivery_smallest : ∃ s posts m, Posted [0, 2] s posts ∧ [0, 2][0]? = some 0 ∧
    s.mailboxes[0]? = some m ∧ Delivered [0, 2] s posts 0 1 m ∧ (Post.told posts).map (·.seq) = [2, 1, 0] ∧
    m.received.map (·.seq) = [0] ∧ m.queue.map (·.seq) = [2] := by
  have start : Posted [0, 2] { mailboxes := [.ofCapacity 0, .ofCapacity 2] } [] := .start rfl rfl rfl
  have crowded := (start.tell none { kind := .shutdownRequested }).tell (some 0) { kind := .taskAdded }
  have run := (crowded.take (k := 0) rfl rfl).tell (some 0) { kind := .taskBlocked }
  have first : ([0, 2] : List Nat)[0]? = some 0 := rfl
  obtain ⟨_, ⟨m, found, delivered⟩, _, _⟩ := run.delivery first
  cases found
  exact ⟨_, _, _, run, rfl, rfl, delivered, rfl, rfl, rfl⟩

end Supervisor

end Switchyard
