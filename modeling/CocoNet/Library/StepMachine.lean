import Mathlib.Data.List.Infix

/-!
# Deterministic machines and their runs

A step machine answers each event with a new state and a list of outputs.  A
run is a list of events; the state it reaches and the outputs it produced are
functions of that list, so a statement about a reachable state is a statement
about the list of events that led to it.

Conditions on the steps of a run are conditions on the events before the step
and on the event itself.  The invariant rule carries the whole history along,
because most invariants of interest relate the state to what happened.
-/

universe u v w

/-- A deterministic machine that answers each event with a list of outputs. -/
structure StepMachine (State : Type u) (Event : Type v) (Output : Type w) where
  start : State
  step : State → Event → State × List Output

namespace StepMachine

variable {State : Type u} {Event : Type v} {Output : Type w}

/-- An event of a run that ends with `last` is the last one or was there
before it. -/
theorem snoc_split {events earlier later : List Event} {last event : Event}
    (shape : events ++ [last] = earlier ++ event :: later) :
    (events = earlier ∧ last = event) ∨
      ∃ middle, events = earlier ++ event :: middle := by
  rcases List.eq_nil_or_concat later with rfl | ⟨middle, final, rfl⟩
  · rcases List.append_inj' shape rfl with ⟨same, sameLast⟩
    exact Or.inl ⟨same, by simpa using sameLast⟩
  · have split :
        events ++ [last] = (earlier ++ event :: middle) ++ [final] := by
      simpa using shape
    exact Or.inr ⟨middle, (List.append_inj' split rfl).1⟩

/-! ## Runs -/

section Runs

variable (machine : StepMachine State Event Output)

def runFrom (state : State) : List Event → State × List Output
  | [] => (state, [])
  | event :: rest =>
      let stepped := machine.step state event
      let finished := runFrom stepped.1 rest
      (finished.1, stepped.2 ++ finished.2)

def stateAfter (events : List Event) : State :=
  (machine.runFrom machine.start events).1

def outputsOf (events : List Event) : List Output :=
  (machine.runFrom machine.start events).2

theorem runFrom_append (state : State) (first second : List Event) :
    machine.runFrom state (first ++ second) =
      let middle := machine.runFrom state first
      let finished := machine.runFrom middle.1 second
      (finished.1, middle.2 ++ finished.2) := by
  induction first generalizing state with
  | nil =>
      simp [runFrom]
  | cons event rest inductionHypothesis =>
      simp only [List.cons_append, runFrom, inductionHypothesis,
        List.append_assoc]

@[simp]
theorem stateAfter_nil : machine.stateAfter [] = machine.start :=
  rfl

@[simp]
theorem outputsOf_nil : machine.outputsOf [] = [] :=
  rfl

@[simp]
theorem stateAfter_snoc (events : List Event) (event : Event) :
    machine.stateAfter (events ++ [event]) =
      (machine.step (machine.stateAfter events) event).1 := by
  simp [stateAfter, runFrom_append, runFrom]

@[simp]
theorem outputsOf_snoc (events : List Event) (event : Event) :
    machine.outputsOf (events ++ [event]) =
      machine.outputsOf events ++
        (machine.step (machine.stateAfter events) event).2 := by
  simp [stateAfter, outputsOf, runFrom_append, runFrom]

theorem stateAfter_append (first second : List Event) :
    machine.stateAfter (first ++ second) =
      (machine.runFrom (machine.stateAfter first) second).1 := by
  simp only [stateAfter, runFrom_append]

theorem outputsOf_append (first second : List Event) :
    machine.outputsOf (first ++ second) =
      machine.outputsOf first ++
        (machine.runFrom (machine.stateAfter first) second).2 := by
  simp only [stateAfter, outputsOf, runFrom_append]

/-- What a run put out was put out at one of its steps. -/
theorem mem_outputsOf_iff (events : List Event) (output : Output) :
    output ∈ machine.outputsOf events ↔
      ∃ earlier event later, events = earlier ++ event :: later ∧
        output ∈ (machine.step (machine.stateAfter earlier) event).2 := by
  induction events using List.reverseRecOn with
  | nil =>
      simp
  | append_singleton before last inductionHypothesis =>
      rw [outputsOf_snoc, List.mem_append, inductionHypothesis]
      constructor
      · intro found
        rcases found with ⟨earlier, event, later, shape, member⟩ | member
        · exact ⟨earlier, event, later ++ [last], by simp [shape], member⟩
        · exact ⟨before, last, [], rfl, member⟩
      · intro ⟨earlier, event, later, shape, member⟩
        rcases snoc_split shape with ⟨same, sameLast⟩ | ⟨middle, split⟩
        · subst same
          subst sameLast
          exact Or.inr member
        · exact Or.inl ⟨earlier, event, middle, split, member⟩

end Runs

/-! ## Observations -/

section Observing

variable {Observation : Type w}

/-- The machine with its outputs replaced by what an observer notes of each
step, who sees the state before it, the event and the outputs. -/
def observe (machine : StepMachine State Event Output)
    (note : State → Event → List Output → List Observation) :
    StepMachine State Event Observation where
  start := machine.start
  step state event :=
    ((machine.step state event).1, note state event (machine.step state event).2)

@[simp]
theorem stateAfter_observe (machine : StepMachine State Event Output)
    (note : State → Event → List Output → List Observation)
    (events : List Event) :
    (machine.observe note).stateAfter events = machine.stateAfter events := by
  induction events using List.reverseRecOn with
  | nil =>
      rfl
  | append_singleton before event inductionHypothesis =>
      rw [stateAfter_snoc, stateAfter_snoc, inductionHypothesis]
      rfl

theorem outputsOf_observe_snoc (machine : StepMachine State Event Output)
    (note : State → Event → List Output → List Observation)
    (events : List Event) (event : Event) :
    (machine.observe note).outputsOf (events ++ [event]) =
      (machine.observe note).outputsOf events ++
        note (machine.stateAfter events) event
          (machine.step (machine.stateAfter events) event).2 := by
  rw [outputsOf_snoc, stateAfter_observe]
  rfl

/-- What an observer noted in a run was noted at one of its steps. -/
theorem mem_outputsOf_observe_iff (machine : StepMachine State Event Output)
    (note : State → Event → List Output → List Observation)
    (events : List Event) (observation : Observation) :
    observation ∈ (machine.observe note).outputsOf events ↔
      ∃ earlier event later, events = earlier ++ event :: later ∧
        observation ∈ note (machine.stateAfter earlier) event
          (machine.step (machine.stateAfter earlier) event).2 := by
  rw [mem_outputsOf_iff]
  simp only [stateAfter_observe]
  rfl

/-- The machine that remembers all events, and notes something of each given
the events before it. -/
def history (note : List Event → Event → List Observation) :
    StepMachine (List Event) Event Observation where
  start := []
  step earlier event := (earlier ++ [event], note earlier event)

theorem stateAfter_history
    (note : List Event → Event → List Observation) (events : List Event) :
    (history note).stateAfter events = events := by
  induction events using List.reverseRecOn with
  | nil =>
      rfl
  | append_singleton before event inductionHypothesis =>
      rw [stateAfter_snoc, inductionHypothesis]
      rfl

theorem outputsOf_history_snoc
    (note : List Event → Event → List Observation) (events : List Event)
    (event : Event) :
    (history note).outputsOf (events ++ [event]) =
      (history note).outputsOf events ++ note events event := by
  rw [outputsOf_snoc, stateAfter_history]
  rfl

end Observing

/-! ## Conditions along a run -/

/-- Every event of the run meets `condition`, given the events before it. -/
def EachStep (condition : List Event → Event → Prop)
    (events : List Event) : Prop :=
  ∀ earlier event later,
    events = earlier ++ event :: later → condition earlier event

def EachPrefix (property : List Event → Prop) (events : List Event) : Prop :=
  ∀ earlier later, events = earlier ++ later → property earlier

theorem eachStep_nil (condition : List Event → Event → Prop) :
    EachStep condition [] := by
  intro earlier event later shape
  simp at shape

theorem EachStep.of_append
    {condition : List Event → Event → Prop} {first second : List Event}
    (whole : EachStep condition (first ++ second)) :
    EachStep condition first := by
  intro earlier event later shape
  exact whole earlier event (later ++ second) (by simp [shape])

theorem eachStep_snoc_iff
    (condition : List Event → Event → Prop)
    (events : List Event) (event : Event) :
    EachStep condition (events ++ [event]) ↔
      EachStep condition events ∧ condition events event := by
  constructor
  · intro whole
    exact ⟨whole.of_append, whole events event [] rfl⟩
  · intro ⟨before, last⟩ earlier found later shape
    rcases snoc_split shape with ⟨same, sameLast⟩ | ⟨middle, split⟩
    · subst same
      subst sameLast
      exact last
    · exact before earlier found middle split

theorem eachStep_cons_iff
    (condition : List Event → Event → Prop)
    (event : Event) (events : List Event) :
    EachStep condition (event :: events) ↔
      condition [] event ∧
        EachStep (fun earlier => condition (event :: earlier)) events := by
  constructor
  · intro whole
    refine ⟨whole [] event events rfl, ?_⟩
    intro earlier found later shape
    exact whole (event :: earlier) found later (by rw [shape]; rfl)
  · intro ⟨first, others⟩ earlier found later shape
    cases earlier with
    | nil =>
        rcases List.cons.inj shape with ⟨same, _⟩
        subst same
        exact first
    | cons head tail =>
        rcases List.cons.inj shape with ⟨same, rest⟩
        subst same
        exact others tail found later rest

/-- Invariants by induction on the run: what holds at the start and survives
every admissible step holds after every run of admissible steps. -/
theorem invariant
    (machine : StepMachine State Event Output)
    (admissible : List Event → Event → Prop)
    (holds : List Event → State → List Output → Prop)
    (initial : holds [] machine.start [])
    (preserved : ∀ events event,
      holds events (machine.stateAfter events) (machine.outputsOf events) →
      admissible events event →
      holds (events ++ [event])
        (machine.step (machine.stateAfter events) event).1
        (machine.outputsOf events ++
          (machine.step (machine.stateAfter events) event).2))
    {events : List Event} (each : EachStep admissible events) :
    holds events (machine.stateAfter events) (machine.outputsOf events) := by
  induction events using List.reverseRecOn with
  | nil =>
      exact initial
  | append_singleton before event inductionHypothesis =>
      obtain ⟨stepsBefore, lastAdmissible⟩ :=
        (eachStep_snoc_iff admissible before event).1 each
      rw [stateAfter_snoc, outputsOf_snoc]
      exact preserved before event
        (inductionHypothesis stepsBefore) lastAdmissible

end StepMachine
