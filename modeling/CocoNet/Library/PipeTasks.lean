import CocoNet.Library.BytePipe
import CocoNet.Library.Scheduler

/-!
# Tasks at the two ends of a pipe

A part of some tasks may be a pipe: one of the tasks writes to it, one reads
from it, and the moves of the others do not concern it.  The chunks that are
written then come out as the reads, whatever the order of the tasks, if and
only if every move of the writer finds the pipe empty.
-/

universe u v w

namespace Scheduler

variable {State : Type u} {Task : Type v} {Item : Type w}

/-- Whenever `writer` moves, the pipe it writes to is empty. -/
def FindsEmpty (tasks : Scheduler State Task) (start : State) (writer : Task)
    (pipe : State → List Item) : List Task → Prop :=
  StepMachine.EachStep fun earlier task =>
    task = writer →
      tasks.step (tasks.run start earlier) task ≠ none →
        pipe (tasks.run start earlier) = []

namespace Part

/-- A part of the state that is a pipe, and what has been read from it. -/
abbrev OfPipe (State : Type u) (Task : Type v) (Item : Type w) :=
  Part State Task (Pipe Item) Turn (List Item)

variable {part : OfPipe State Task Item} {tasks : Scheduler State Task}
variable {capacity readSize : Nat} {chunks : List (List Item)}

/-- What it takes for a part to follow the pipe. -/
theorem follows_pipe
    (silent : ∀ state task next, tasks.step state task = some next →
      part.event task = none →
        part.view next = part.view state ∧ part.shown next = part.shown state)
    (writes : ∀ state task next, tasks.step state task = some next →
      part.event task = some .writer →
        part.view next = (part.view state).write capacity ∧
          part.shown next = part.shown state)
    (reads : ∀ state task next, tasks.step state task = some next →
      part.event task = some .reader →
        part.view next = ((part.view state).read readSize).1 ∧
          part.shown next = part.shown state ++
            ((part.view state).read readSize).2)
    (chunks : List (List Item)) :
    part.Follows tasks (Pipe.machine capacity readSize chunks) := by
  intro state task next moves
  cases isTurn : part.event task with
  | none =>
      rcases silent state task next moves isTurn with ⟨viewed, shows⟩
      exact ⟨viewed, shows.trans (List.append_nil _).symm⟩
  | some turn =>
      cases turn with
      | writer =>
          rcases writes state task next moves isTurn with ⟨viewed, shows⟩
          exact ⟨viewed, shows.trans (List.append_nil _).symm⟩
      | reader =>
          rcases reads state task next moves isTurn with ⟨viewed, shows⟩
          refine ⟨viewed, shows.trans ?_⟩
          simp [StepMachine.runFrom, Pipe.machine]

/-- In every schedule the chunks come out whole if and only if every write
finds the pipe empty. -/
theorem whole_iff_findsEmpty {start : State} {writer : Task}
    {pipe : State → List Item}
    (follows : part.Follows tasks (Pipe.machine capacity readSize chunks))
    (initial : part.view start = ⟨chunks, []⟩)
    (nothing : part.shown start = [])
    (isWriter : ∀ task, part.event task = some .writer ↔ task = writer)
    (isPipe : ∀ state, (part.view state).buffer = pipe state)
    (writes : ∀ state, tasks.step state writer ≠ none →
      (part.view state).unwritten ≠ [])
    (sizes : ∀ chunk, chunk ∈ chunks → chunk ≠ [] ∧ chunk.length < capacity)
    (large : capacity ≤ readSize) (schedule : List Task) :
    Pipe.Whole chunks (part.view (tasks.run start schedule))
        (part.shown (tasks.run start schedule)) ↔
      tasks.FindsEmpty start writer pipe schedule := by
  rcases follows.run initial schedule with ⟨viewed, shows⟩
  have atEach : ∀ earlier,
      (Pipe.machine capacity readSize chunks).stateAfter
          (part.eventsOf tasks start earlier) =
        part.view (tasks.run start earlier) :=
    fun earlier => (follows.run initial earlier).1.symm
  rw [viewed, shows, nothing, List.nil_append, Pipe.whole_iff sizes large,
    Pipe.WritesWhenEmpty, eachStep_eventsOf_iff]
  constructor
  · intro each earlier task later shape isTask moves
    rcases Option.ne_none_iff_exists'.1 moves with ⟨next, moves⟩
    have condition := each earlier task later shape next moves .writer
      ((isWriter task).2 isTask) rfl
    rw [atEach, isPipe] at condition
    apply condition
    apply writes
    rw [← isTask]
    exact Option.ne_none_iff_exists'.2 ⟨next, moves⟩
  · intro finds earlier task later shape next moves event isEvent isTurn _
    rw [isTurn] at isEvent
    rw [atEach, isPipe]
    apply finds earlier task later shape ((isWriter task).1 isEvent)
    exact Option.ne_none_iff_exists'.2 ⟨next, moves⟩

end Part

end Scheduler
