import CocoNet.Library.Cooldown

/-!
# Duplicate caches

A node that floods messages gives each an id and keeps the ids of what it has
seen for a period.  A message that arrives or is published while its id is
kept is dropped as a duplicate of the one that put the id there.
-/

universe u v

namespace DuplicateCache

open Cooldown

variable {Message : Type u} {Id : Type v}

/-- What became of a published message: sent, dropped as a duplicate, or
refused for another reason. -/
inductive Verdict where
  | taken
  | duplicate
  | refused
  deriving DecidableEq, Repr

inductive Event (Message : Type u) where
  | receive (now : Nat) (message : Message)
  | publish (now : Nat) (message : Message) (takes : Bool)

structure Publication (Message : Type u) where
  time : Nat
  message : Message
  verdict : Verdict
  deriving DecidableEq, Repr

/-- The cache.  A message that is no duplicate is taken or refused, and only a
message that is taken has its id kept. -/
def cache [DecidableEq Id] (period : Nat) (idOf : Message → Id) :
    StepMachine (List (Stamped Id)) (Event Message) (Publication Message) where
  start := []
  step kept
    | .receive now message =>
        if Recent period kept now (idOf message) then (kept, [])
        else (kept ++ [⟨now, idOf message⟩], [])
    | .publish now message takes =>
        if Recent period kept now (idOf message) then
          (kept, [⟨now, message, .duplicate⟩])
        else if takes then
          (kept ++ [⟨now, idOf message⟩], [⟨now, message, .taken⟩])
        else (kept, [⟨now, message, .refused⟩])

/-- The second message was dropped because of the first. -/
def DuplicateOf (idOf : Message → Id) (first second : Publication Message) :
    Prop :=
  first.verdict = .taken ∧ idOf first.message = idOf second.message ∧
    second.verdict = .duplicate

section Runs

variable [DecidableEq Id] {period : Nat} {idOf : Message → Id}

/-- What one step puts out and keeps: nothing is forgotten, and what was taken
is kept. -/
theorem cache_step_cases (kept : List (Stamped Id)) (event : Event Message) :
    (((cache period idOf).step kept event).2 = [] ∧
        ∃ added, ((cache period idOf).step kept event).1 = kept ++ added) ∨
      ∃ now message takes verdict, event = .publish now message takes ∧
        ((cache period idOf).step kept event).2 = [⟨now, message, verdict⟩] ∧
        (Recent period kept now (idOf message) → verdict = .duplicate) ∧
        ∃ added, ((cache period idOf).step kept event).1 = kept ++ added ∧
          (verdict = .taken → added = [⟨now, idOf message⟩]) := by
  cases event with
  | receive now message =>
      refine Or.inl ?_
      by_cases recent : Recent period kept now (idOf message)
      · simp [cache, recent]
      · simp [cache, recent]
  | publish now message takes =>
      refine Or.inr ⟨now, message, takes, ?_⟩
      by_cases recent : Recent period kept now (idOf message)
      · simp [cache, recent]
      · cases takes with
        | true =>
            simp [cache, recent]
        | false =>
            simp [cache, recent]

/-- The id of what was taken is still in the cache. -/
theorem kept_of_taken {events : List (Event Message)}
    {publication : Publication Message}
    (member : publication ∈ (cache period idOf).outputsOf events)
    (taken : publication.verdict = .taken) :
    ⟨publication.time, idOf publication.message⟩ ∈
      (cache period idOf).stateAfter events := by
  induction events using List.reverseRecOn with
  | nil =>
      cases member
  | append_singleton before event inductionHypothesis =>
      rw [StepMachine.outputsOf_snoc, List.mem_append] at member
      rw [StepMachine.stateAfter_snoc]
      rcases cache_step_cases ((cache period idOf).stateAfter before) event with
        ⟨silent, added, state⟩ |
        ⟨now, message, takes, verdict, _, outputs, _, added, state, isTaken⟩
      · rw [silent] at member
        rcases member with earlier | none
        · rw [state]
          exact List.mem_append_left added (inductionHypothesis earlier)
        · cases none
      · rw [outputs] at member
        rw [state]
        rcases member with earlier | isLast
        · exact List.mem_append_left added (inductionHypothesis earlier)
        · rw [List.mem_singleton.1 isLast] at taken ⊢
          rw [isTaken taken]
          exact List.mem_append_right _ (List.mem_singleton.2 rfl)

/-- A message that is published less than a period after one with the same id
was taken is a duplicate. -/
theorem duplicate_of_taken {events : List (Event Message)}
    {earlier later : List (Publication Message)}
    {first second : Publication Message}
    (shape : (cache period idOf).outputsOf events =
      earlier ++ second :: later)
    (member : first ∈ earlier) (taken : first.verdict = .taken)
    (sameId : idOf first.message = idOf second.message)
    (within : second.time < first.time + period) :
    second.verdict = .duplicate := by
  induction events using List.reverseRecOn generalizing later with
  | nil =>
      simp at shape
  | append_singleton before event inductionHypothesis =>
      rw [StepMachine.outputsOf_snoc] at shape
      rcases cache_step_cases ((cache period idOf).stateAfter before) event with
        ⟨silent, _⟩ |
        ⟨now, message, takes, verdict, _, outputs, isDuplicate, _⟩
      · rw [silent, List.append_nil] at shape
        exact inductionHypothesis shape
      · rw [outputs] at shape
        rcases StepMachine.snoc_split shape with
          ⟨same, isSecond⟩ | ⟨middle, split⟩
        · subst isSecond
          apply isDuplicate
          rw [← same] at member
          exact ⟨_, kept_of_taken member taken, sameId, within⟩
        · exact inductionHypothesis split

/-- What was published comes from an event that published it. -/
theorem exists_publish_of_mem {events : List (Event Message)}
    {publication : Publication Message}
    (member : publication ∈ (cache period idOf).outputsOf events) :
    ∃ takes,
      .publish publication.time publication.message takes ∈ events := by
  obtain ⟨earlier, event, later, shape, output⟩ :=
    (StepMachine.mem_outputsOf_iff _ _ _).1 member
  rcases cache_step_cases ((cache period idOf).stateAfter earlier) event with
    ⟨silent, _⟩ | ⟨now, message, takes, verdict, isPublish, outputs, _⟩
  · rw [silent] at output
    cases output
  · rw [outputs] at output
    rw [List.mem_singleton.1 output, shape]
    exact ⟨takes, by simp [isPublish]⟩

/-! ## The cache as a cooldown of ids -/

/-- What an event would add to the cache if its id were not kept. -/
def Event.attempt (idOf : Message → Id) : Event Message → List (Stamped Id)
  | .receive now message => [⟨now, idOf message⟩]
  | .publish now message takes =>
      if takes then [⟨now, idOf message⟩] else []

/-- The cache is the log of a cooldown: it keeps the ids that the discipline
admits, whether their messages arrived or were published. -/
theorem cache_stateAfter (events : List (Event Message)) :
    (cache period idOf).stateAfter events =
      (discipline period).outputsOf (events.flatMap (Event.attempt idOf)) := by
  induction events using List.reverseRecOn with
  | nil =>
      rfl
  | append_singleton before event inductionHypothesis =>
      rw [StepMachine.stateAfter_snoc, inductionHypothesis,
        List.flatMap_append, StepMachine.outputsOf_append,
        discipline_stateAfter]
      generalize (discipline period).outputsOf
        (before.flatMap (Event.attempt idOf)) = log
      cases event with
      | receive now message =>
          by_cases recent : Recent period log now (idOf message)
          · simp [cache, Event.attempt, StepMachine.runFrom, discipline, recent]
          · simp [cache, Event.attempt, StepMachine.runFrom, discipline, recent]
      | publish now message takes =>
          cases takes with
          | false =>
              by_cases recent : Recent period log now (idOf message)
              · simp [cache, Event.attempt, StepMachine.runFrom, recent]
              · simp [cache, Event.attempt, StepMachine.runFrom, recent]
          | true =>
              by_cases recent : Recent period log now (idOf message)
              · simp [cache, Event.attempt, StepMachine.runFrom, discipline,
                  recent]
              · simp [cache, Event.attempt, StepMachine.runFrom, discipline,
                  recent]

def Publication.takenStamp (idOf : Message → Id)
    (publication : Publication Message) : Option (Stamped Id) :=
  if publication.verdict = .taken then
    some ⟨publication.time, idOf publication.message⟩
  else none

theorem takenStamps_sublist (events : List (Event Message)) :
    List.Sublist
      (((cache period idOf).outputsOf events).filterMap
        (Publication.takenStamp idOf))
      ((cache period idOf).stateAfter events) := by
  induction events using List.reverseRecOn with
  | nil =>
      exact List.Sublist.refl []
  | append_singleton before event inductionHypothesis =>
      rw [StepMachine.outputsOf_snoc, StepMachine.stateAfter_snoc,
        List.filterMap_append]
      rcases cache_step_cases ((cache period idOf).stateAfter before) event with
        ⟨silent, added, state⟩ |
        ⟨now, message, takes, verdict, _, outputs, _, added, state, isTaken⟩
      · rw [silent, state]
        exact inductionHypothesis.append (List.nil_sublist added)
      · rw [outputs, state]
        apply inductionHypothesis.append
        by_cases taken : verdict = .taken
        · simp [Publication.takenStamp, taken, isTaken taken]
        · simp [Publication.takenStamp, taken]

/-- Of two messages with one id, a node takes the second at the earliest a
period after the first. -/
theorem taken_apart (events : List (Event Message)) :
    ((cache period idOf).outputsOf events).Pairwise fun earlier later =>
      earlier.verdict = .taken → later.verdict = .taken →
        idOf earlier.message = idOf later.message →
          earlier.time + period ≤ later.time := by
  have admitted := @outputsOf_apart Id period _
    (events.flatMap (Event.attempt idOf))
  rw [← cache_stateAfter] at admitted
  have stamps := admitted.sublist (takenStamps_sublist events)
  rw [List.pairwise_filterMap] at stamps
  apply stamps.imp
  intro earlier later apart earlierTaken laterTaken sameId
  exact apart ⟨earlier.time, idOf earlier.message⟩ (if_pos earlierTaken)
    ⟨later.time, idOf later.message⟩ (if_pos laterTaken) sameId

end Runs

end DuplicateCache
