import CocoNet.Library.StepMachine

/-!
# Tasks that take turns

Several tasks share a state.  A scheduler gives them turns in any order; a task
that cannot move gives its turn away.  The tasks are stuck when none of them
can move.

When every move decreases a measure, any schedule makes finitely many moves,
and a schedule that gives every task a turn often enough ends with the tasks
stuck.  What remains to be shown of a system is then that it is not stuck
before its work is done.

A part of the state may behave as a machine of its own: each move is a step of
the machine or does not touch the part.  Then every schedule is a run of the
machine, namely that of the moves which concern it.
-/

universe u u' v w w'

structure Scheduler (State : Type u) (Task : Type v) where
  step : State → Task → Option State

namespace Scheduler

variable {State : Type u} {Task : Type v} (tasks : Scheduler State Task)

def turn (state : State) (task : Task) : State :=
  (tasks.step state task).getD state

def run (state : State) (schedule : List Task) : State :=
  schedule.foldl tasks.turn state

def Stuck (state : State) : Prop :=
  ∀ task, tasks.step state task = none

/-- A part of a schedule in which every task has a turn. -/
def FairRound (round : List Task) : Prop :=
  ∀ task, task ∈ round

@[simp]
theorem run_nil (state : State) : tasks.run state [] = state :=
  rfl

@[simp]
theorem run_cons (state : State) (task : Task) (rest : List Task) :
    tasks.run state (task :: rest) = tasks.run (tasks.turn state task) rest :=
  rfl

theorem run_append (state : State) (first second : List Task) :
    tasks.run state (first ++ second) =
      tasks.run (tasks.run state first) second :=
  List.foldl_append

variable {tasks}

theorem turn_of_none {state : State} {task : Task}
    (idle : tasks.step state task = none) : tasks.turn state task = state := by
  rw [turn, idle]
  rfl

theorem turn_of_some {state next : State} {task : Task}
    (moves : tasks.step state task = some next) :
    tasks.turn state task = next := by
  rw [turn, moves]
  rfl

theorem run_of_stuck {state : State} (stuck : tasks.Stuck state)
    (schedule : List Task) : tasks.run state schedule = state := by
  induction schedule with
  | nil =>
      rfl
  | cons task rest inductionHypothesis =>
      rw [run_cons, turn_of_none (stuck task), inductionHypothesis]

/-- What every move keeps, every schedule keeps. -/
theorem run_invariant {holds : State → Prop}
    (kept : ∀ state task next, holds state →
      tasks.step state task = some next → holds next)
    {state : State} (initial : holds state) (schedule : List Task) :
    holds (tasks.run state schedule) := by
  induction schedule generalizing state with
  | nil =>
      exact initial
  | cons task rest inductionHypothesis =>
      rw [run_cons]
      apply inductionHypothesis
      cases moves : tasks.step state task with
      | none =>
          rw [turn_of_none moves]
          exact initial
      | some next =>
          rw [turn_of_some moves]
          exact kept state task next initial moves

variable (tasks) in
/-- The tasks of a part, the others standing still. -/
def only (part : Task → Prop) : Scheduler State {task // part task} where
  step state task := tasks.step state task

theorem run_only (part : Task → Prop) (state : State)
    (schedule : List {task // part task}) :
    (tasks.only part).run state schedule =
      tasks.run state (schedule.map Subtype.val) := by
  induction schedule generalizing state with
  | nil =>
      rfl
  | cons task rest inductionHypothesis =>
      exact inductionHypothesis _

section Measured

variable {measure : State → Nat}
variable (decreases : ∀ state task next,
  tasks.step state task = some next → measure next < measure state)
include decreases

/-- Over a schedule nothing moves at all, or the measure decreases. -/
theorem idle_or_decreases (state : State) (schedule : List Task) :
    (tasks.run state schedule = state ∧
        ∀ task, task ∈ schedule → tasks.step state task = none) ∨
      measure (tasks.run state schedule) < measure state := by
  induction schedule generalizing state with
  | nil =>
      exact Or.inl ⟨rfl, by simp⟩
  | cons task rest inductionHypothesis =>
      rw [run_cons]
      cases moves : tasks.step state task with
      | none =>
          rw [turn_of_none moves]
          rcases inductionHypothesis state with ⟨same, idle⟩ | less
          · refine Or.inl ⟨same, ?_⟩
            intro other member
            rcases List.mem_cons.1 member with isFirst | inRest
            · rw [isFirst]
              exact moves
            · exact idle other inRest
          · exact Or.inr less
      | some next =>
          have less := decreases state task next moves
          rw [turn_of_some moves]
          rcases inductionHypothesis next with ⟨same, _⟩ | lessStill
          · rw [same]
            exact Or.inr less
          · exact Or.inr (Nat.lt_trans lessStill less)

/-- As many fair rounds as the measure counts leave the tasks stuck. -/
theorem stuck_of_fairRounds {rounds : List (List Task)} {state : State}
    (fair : ∀ round, round ∈ rounds → FairRound round)
    (enough : measure state ≤ rounds.length) :
    tasks.Stuck (tasks.run state rounds.flatten) := by
  induction rounds generalizing state with
  | nil =>
      intro task
      rw [List.flatten_nil, run_nil]
      cases moves : tasks.step state task with
      | none =>
          rfl
      | some next =>
          have less := decreases state task next moves
          have none : measure state ≤ 0 := enough
          omega
  | cons round rest inductionHypothesis =>
      rw [List.flatten_cons, run_append]
      have fairRest : ∀ other, other ∈ rest → FairRound other :=
        fun other member => fair other (List.mem_cons_of_mem round member)
      rcases idle_or_decreases decreases state round with ⟨same, idle⟩ | less
      · have stuck : tasks.Stuck state := fun task =>
          idle task (fair round List.mem_cons_self task)
        rw [same, run_of_stuck stuck]
        exact stuck
      · apply inductionHypothesis fairRest
        rw [List.length_cons] at enough
        omega

end Measured

/-! ## A part of the tasks -/

section Part

variable (tasks) in
/-- The tasks that move, in the order of their moves. -/
def moved (state : State) : List Task → List Task
  | [] => []
  | task :: rest =>
      match tasks.step state task with
      | some next => task :: moved next rest
      | none => moved state rest

theorem moved_append (state : State) (first second : List Task) :
    tasks.moved state (first ++ second) =
      tasks.moved state first ++
        tasks.moved (tasks.run state first) second := by
  induction first generalizing state with
  | nil =>
      rfl
  | cons task rest inductionHypothesis =>
      rw [List.cons_append, run_cons, moved, moved]
      cases moves : tasks.step state task with
      | none =>
          rw [turn_of_none moves]
          exact inductionHypothesis state
      | some next =>
          rw [turn_of_some moves]
          exact congrArg (task :: ·) (inductionHypothesis next)

theorem moved_snoc_of_none {state : State} {schedule : List Task}
    {task : Task}
    (idle : tasks.step (tasks.run state schedule) task = none) :
    tasks.moved state (schedule ++ [task]) = tasks.moved state schedule := by
  rw [moved_append, moved, idle]
  exact List.append_nil _

theorem moved_snoc_of_some {state next : State} {schedule : List Task}
    {task : Task}
    (moves : tasks.step (tasks.run state schedule) task = some next) :
    tasks.moved state (schedule ++ [task]) =
      tasks.moved state schedule ++ [task] := by
  rw [moved_append, moved, moves]
  rfl

theorem run_snoc (state : State) (schedule : List Task) (task : Task) :
    tasks.run state (schedule ++ [task]) =
      tasks.turn (tasks.run state schedule) task :=
  tasks.run_append state schedule [task]

variable {Seen : Type u'} {Event : Type w} {Output : Type w'}

/-- A part of the state as a machine: the state and the outputs that the part
has, and the event that a move of a task is for it, if any. -/
structure Part (State : Type u) (Task : Type v) (Seen : Type u')
    (Event : Type w) (Output : Type w') where
  view : State → Seen
  shown : State → List Output
  event : Task → Option Event

namespace Part

variable (part : Part State Task Seen Event Output)

/-- A move does to the part what its event does to the machine, and nothing
without one. -/
def Follows (tasks : Scheduler State Task)
    (machine : StepMachine Seen Event Output) : Prop :=
  ∀ state task next, tasks.step state task = some next →
    part.view next =
        (machine.runFrom (part.view state) (part.event task).toList).1 ∧
      part.shown next = part.shown state ++
        (machine.runFrom (part.view state) (part.event task).toList).2

/-- The events that a schedule is for the part. -/
def eventsOf (tasks : Scheduler State Task) (state : State)
    (schedule : List Task) : List Event :=
  (tasks.moved state schedule).filterMap part.event

variable {part} {machine : StepMachine Seen Event Output}

theorem eventsOf_snoc_of_none {state : State} {schedule : List Task}
    {task : Task}
    (idle : tasks.step (tasks.run state schedule) task = none) :
    part.eventsOf tasks state (schedule ++ [task]) =
      part.eventsOf tasks state schedule := by
  rw [eventsOf, moved_snoc_of_none idle]
  rfl

theorem eventsOf_snoc_of_some {state next : State} {schedule : List Task}
    {task : Task}
    (moves : tasks.step (tasks.run state schedule) task = some next) :
    part.eventsOf tasks state (schedule ++ [task]) =
      part.eventsOf tasks state schedule ++ (part.event task).toList := by
  rw [eventsOf, moved_snoc_of_some moves, List.filterMap_append]
  cases isEvent : part.event task <;> simp [isEvent, eventsOf]

/-- Whatever the schedule, the part makes the run of its events. -/
theorem Follows.run (follows : part.Follows tasks machine) {state : State}
    (initial : part.view state = machine.start) (schedule : List Task) :
    part.view (tasks.run state schedule) =
        machine.stateAfter (part.eventsOf tasks state schedule) ∧
      part.shown (tasks.run state schedule) =
        part.shown state ++
          machine.outputsOf (part.eventsOf tasks state schedule) := by
  induction schedule using List.reverseRecOn with
  | nil =>
      exact ⟨initial, by simp [eventsOf, moved]⟩
  | append_singleton earlier task inductionHypothesis =>
      rw [run_snoc]
      cases moves : tasks.step (tasks.run state earlier) task with
      | none =>
          rw [turn_of_none moves, eventsOf_snoc_of_none moves]
          exact inductionHypothesis
      | some next =>
          rcases inductionHypothesis with ⟨sameState, sameOutputs⟩
          rcases follows _ task next moves with ⟨viewed, shows⟩
          rw [turn_of_some moves, eventsOf_snoc_of_some moves,
            StepMachine.stateAfter_append, StepMachine.outputsOf_append,
            ← sameState, ← List.append_assoc, ← sameOutputs]
          exact ⟨viewed, shows⟩

/-- A condition on the events of the part, as one on the moves. -/
theorem eachStep_eventsOf_iff (condition : List Event → Event → Prop)
    (state : State) (schedule : List Task) :
    StepMachine.EachStep condition (part.eventsOf tasks state schedule) ↔
      StepMachine.EachStep
        (fun earlier task =>
          ∀ next, tasks.step (tasks.run state earlier) task = some next →
            ∀ event, part.event task = some event →
              condition (part.eventsOf tasks state earlier) event)
        schedule := by
  induction schedule using List.reverseRecOn with
  | nil =>
      exact ⟨fun _ => StepMachine.eachStep_nil _,
        fun _ => StepMachine.eachStep_nil _⟩
  | append_singleton earlier task inductionHypothesis =>
      rw [StepMachine.eachStep_snoc_iff, ← inductionHypothesis]
      cases moves : tasks.step (tasks.run state earlier) task with
      | none =>
          rw [eventsOf_snoc_of_none moves]
          simp
      | some next =>
          rw [eventsOf_snoc_of_some moves]
          cases isEvent : part.event task with
          | none =>
              simp
          | some event =>
              simp [StepMachine.eachStep_snoc_iff]

end Part

end Part

end Scheduler
