import Mathlib.Data.List.Forall2
import Mathlib.Logic.Function.Basic
import CocoNet.Library.StepMachine

/-!
# One machine seen through another

A machine refines a simpler one when each of its steps is a run of the simpler
machine, once its states, events and outputs are read as those of the latter.
Which events a step stands for may depend on the state it starts from, and
most events may stand for none.  Then whole runs correspond.

A family of machines that take turns refines each of its members, so what
holds of every run of one member holds of it in company too.  Two runs of one
machine stay alike if alike states answer alike events alike.
-/

universe u u' v w

namespace StepMachine

/-- A reading of a machine's states, events and outputs as those of another. -/
structure Reading (State : Type u) (Event : Type v) (Output : Type w)
    (SimpleState : Type u') (SimpleEvent SimpleOutput : Type w) where
  state : State → SimpleState
  events : State → Event → List SimpleEvent
  output : Output → Option SimpleOutput

namespace Reading

variable {State : Type u} {SimpleState : Type u'} {Event : Type v}
variable {Output SimpleEvent SimpleOutput : Type w}
variable (reading : Reading State Event Output SimpleState SimpleEvent
  SimpleOutput)

/-- The start reads as the start, and every step as a run. -/
structure Refines (machine : StepMachine State Event Output)
    (simple : StepMachine SimpleState SimpleEvent SimpleOutput) : Prop where
  start : reading.state machine.start = simple.start
  step : ∀ state event,
    simple.runFrom (reading.state state) (reading.events state event) =
      (reading.state (machine.step state event).1,
        (machine.step state event).2.filterMap reading.output)

/-- The events of the simpler machine that a run stands for. -/
def eventsOf (machine : StepMachine State Event Output)
    (run : List Event) : List SimpleEvent :=
  (machine.observe fun state event _ => reading.events state event).outputsOf
    run

@[simp]
theorem eventsOf_nil (machine : StepMachine State Event Output) :
    reading.eventsOf machine [] = [] :=
  rfl

@[simp]
theorem eventsOf_snoc (machine : StepMachine State Event Output)
    (run : List Event) (event : Event) :
    reading.eventsOf machine (run ++ [event]) =
      reading.eventsOf machine run ++
        reading.events (machine.stateAfter run) event :=
  outputsOf_observe_snoc machine _ run event

/-- The events a run stands for, when they do not depend on the states. -/
theorem eventsOf_eq_flatMap {machine : StepMachine State Event Output}
    {stands : Event → List SimpleEvent}
    (constant : ∀ state event, reading.events state event = stands event)
    (run : List Event) :
    reading.eventsOf machine run = run.flatMap stands := by
  induction run using List.reverseRecOn with
  | nil =>
      simp
  | append_singleton before event inductionHypothesis =>
      rw [eventsOf_snoc, inductionHypothesis, constant]
      simp

/-- A machine that stands for nothing once it has stopped, and does not start
again: its run stands for a first part of what its events would stand for, and
for all of it if the machine still runs. -/
theorem eventsOf_while {machine : StepMachine State Event Output}
    {runs : State → Prop} [DecidablePred runs]
    {stands : Event → List SimpleEvent}
    (reads : ∀ state event,
      reading.events state event = if runs state then stands event else [])
    (stays : ∀ state event, runs (machine.step state event).1 → runs state)
    (run : List Event) :
    reading.eventsOf machine run <+: run.flatMap stands ∧
      (runs (machine.stateAfter run) →
        reading.eventsOf machine run = run.flatMap stands) := by
  induction run using List.reverseRecOn with
  | nil =>
      exact ⟨List.prefix_rfl, fun _ => rfl⟩
  | append_singleton before event inductionHypothesis =>
      obtain ⟨isFirst, isAll⟩ := inductionHypothesis
      rw [eventsOf_snoc, reads, stateAfter_snoc, List.flatMap_append,
        List.flatMap_singleton]
      by_cases running : runs (machine.stateAfter before)
      · rw [if_pos running, isAll running]
        exact ⟨List.prefix_rfl, fun _ => rfl⟩
      · rw [if_neg running, List.append_nil]
        exact ⟨isFirst.trans (List.prefix_append _ _),
          fun runsOn => absurd (stays _ event runsOn) running⟩

variable {reading}

/-- Whole runs correspond when steps do. -/
theorem Refines.run {machine : StepMachine State Event Output}
    {simple : StepMachine SimpleState SimpleEvent SimpleOutput}
    (refines : reading.Refines machine simple) (run : List Event) :
    reading.state (machine.stateAfter run) =
        simple.stateAfter (reading.eventsOf machine run) ∧
      (machine.outputsOf run).filterMap reading.output =
        simple.outputsOf (reading.eventsOf machine run) := by
  induction run using List.reverseRecOn with
  | nil =>
      exact ⟨refines.start, by simp⟩
  | append_singleton before event inductionHypothesis =>
      rcases inductionHypothesis with ⟨sameState, sameOutputs⟩
      have stepped := refines.step (machine.stateAfter before) event
      rw [sameState] at stepped
      rw [stateAfter_snoc, outputsOf_snoc, eventsOf_snoc, stateAfter_append,
        outputsOf_append, stepped, List.filterMap_append, sameOutputs]
      exact ⟨rfl, rfl⟩

end Reading

/-! ## Families -/

section Family

variable {Node Event Output : Type w} [DecidableEq Node]
variable {State : Type u} {Tagged : Type v}
variable (machines : Node → StepMachine State Event Output)
variable (owner : Tagged → Node) (event : Tagged → Event)

/-- The machines side by side: an event steps the machine that owns it, and
every output carries the name of the machine it comes from. -/
def family : StepMachine (Node → State) Tagged (Node × Output) where
  start node := (machines node).start
  step states tagged :=
    let stepped :=
      (machines (owner tagged)).step (states (owner tagged)) (event tagged)
    (Function.update states (owner tagged) stepped.1,
      stepped.2.map fun output => (owner tagged, output))

/-- The events of one member. -/
def eventsAt (node : Node) (run : List Tagged) : List Event :=
  (run.filter fun tagged => owner tagged = node).map event

/-- The outputs of one member. -/
def outputsAt (node : Node) (outputs : List (Node × Output)) : List Output :=
  (outputs.filter fun output => output.1 = node).map Prod.snd

@[simp]
theorem eventsAt_nil (node : Node) : eventsAt owner event node [] = [] :=
  rfl

theorem eventsAt_append (node : Node) (first second : List Tagged) :
    eventsAt owner event node (first ++ second) =
      eventsAt owner event node first ++ eventsAt owner event node second := by
  simp [eventsAt]

theorem eventsAt_singleton (node : Node) (tagged : Tagged) :
    eventsAt owner event node [tagged] =
      if owner tagged = node then [event tagged] else [] := by
  by_cases owned : owner tagged = node <;> simp [eventsAt, owned]

theorem eventsAt_snoc_own (run : List Tagged) (tagged : Tagged) :
    eventsAt owner event (owner tagged) (run ++ [tagged]) =
      eventsAt owner event (owner tagged) run ++ [event tagged] := by
  rw [eventsAt_append, eventsAt_singleton, if_pos rfl]

theorem eventsAt_snoc_other {node : Node} {tagged : Tagged}
    (other : owner tagged ≠ node) (run : List Tagged) :
    eventsAt owner event node (run ++ [tagged]) =
      eventsAt owner event node run := by
  rw [eventsAt_append, eventsAt_singleton, if_neg other, List.append_nil]

/-- What a run reads as to one of the members. -/
def memberReading (node : Node) :
    Reading (Node → State) Tagged (Node × Output) State Event Output where
  state states := states node
  events _ tagged := if owner tagged = node then [event tagged] else []
  output output := if output.1 = node then some output.2 else none

theorem memberReading_refines (node : Node) :
    Reading.Refines (memberReading owner event node)
      (family machines owner event) (machines node) where
  start := rfl
  step states tagged := by
    by_cases owned : owner tagged = node
    · subst owned
      simp [memberReading, family, runFrom, List.filterMap_map]
    · simp [memberReading, family, runFrom, List.filterMap_map, owned,
        Function.update_of_ne (Ne.symm owned)]

theorem outputsAt_eq_filterMap (node : Node) (outputs : List (Node × Output)) :
    outputsAt node outputs =
      outputs.filterMap fun output =>
        if output.1 = node then some output.2 else none := by
  induction outputs with
  | nil =>
      rfl
  | cons output rest inductionHypothesis =>
      by_cases same : output.1 = node <;>
        simp_all [outputsAt]

theorem eventsAt_eq_flatMap (node : Node) (run : List Tagged) :
    eventsAt owner event node run =
      run.flatMap fun tagged =>
        if owner tagged = node then [event tagged] else [] := by
  induction run with
  | nil =>
      rfl
  | cons tagged rest inductionHypothesis =>
      by_cases owned : owner tagged = node <;>
        simp_all [eventsAt]

/-- In a run of the family every member makes the run of its own events. -/
theorem family_run (node : Node) (run : List Tagged) :
    (family machines owner event).stateAfter run node =
        (machines node).stateAfter (eventsAt owner event node run) ∧
      outputsAt node ((family machines owner event).outputsOf run) =
        (machines node).outputsOf (eventsAt owner event node run) := by
  have corresponds :=
    (memberReading_refines machines owner event node).run run
  rw [Reading.eventsOf_eq_flatMap _ (fun _ _ => rfl),
    ← eventsAt_eq_flatMap] at corresponds
  rw [outputsAt_eq_filterMap]
  exact corresponds

end Family

/-! ## Two runs side by side -/

section SideBySide

variable {State : Type u} {Event : Type v} {Output : Type w}
variable (machine : StepMachine State Event Output)
variable {alike : State → State → Prop}
variable {alikeEvents : Event → Event → Prop}
variable {alikeOutputs : Output → Output → Prop}

/-- If alike states answer alike events alike, alike runs stay alike. -/
theorem runFrom_alike
    (step : ∀ first second event other, alike first second →
      alikeEvents event other →
        alike (machine.step first event).1 (machine.step second other).1 ∧
          List.Forall₂ alikeOutputs (machine.step first event).2
            (machine.step second other).2)
    {first second : State} (states : alike first second)
    {events others : List Event}
    (sameEvents : List.Forall₂ alikeEvents events others) :
    alike (machine.runFrom first events).1 (machine.runFrom second others).1 ∧
      List.Forall₂ alikeOutputs (machine.runFrom first events).2
        (machine.runFrom second others).2 := by
  induction sameEvents generalizing first second with
  | nil =>
      exact ⟨states, List.Forall₂.nil⟩
  | cons sameEvent _ inductionHypothesis =>
      obtain ⟨stepped, outputs⟩ := step _ _ _ _ states sameEvent
      obtain ⟨finished, rest⟩ := inductionHypothesis stepped
      exact ⟨finished, List.rel_append outputs rest⟩

end SideBySide

end StepMachine
