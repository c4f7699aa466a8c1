import Mathlib.Logic.Function.Basic
import CocoNet.Library.StepMachine

/-!
# Cooldowns

An attempt carries a time and a key.  The discipline admits an attempt unless
one with the same key was admitted less than a period before; its state is the
log of everything it admitted.

A program keeps less than the log: for every key at most one stamp, which it
may forget once it is a period old.  Such a record decides like the log as long
as the two agree about every moment from now on.
-/

universe u

/-- Something that happened to a key at a time. -/
structure Stamped (Key : Type u) where
  time : Nat
  key : Key
  deriving DecidableEq, Repr

namespace Cooldown

variable {Key : Type u} {period : Nat}

/-- The log has the key less than a period before `now`. -/
def Recent (period : Nat) (log : List (Stamped Key)) (now : Nat) (key : Key) :
    Prop :=
  ∃ entry, entry ∈ log ∧ entry.key = key ∧ now < entry.time + period

instance [DecidableEq Key] (period : Nat) (log : List (Stamped Key))
    (now : Nat) (key : Key) : Decidable (Recent period log now key) :=
  inferInstanceAs (Decidable (∃ entry, entry ∈ log ∧ _))

theorem recent_nil (now : Nat) (key : Key) : ¬ Recent period [] now key := by
  intro ⟨entry, member, _⟩
  cases member

theorem recent_append_iff (first second : List (Stamped Key)) (now : Nat)
    (key : Key) :
    Recent period (first ++ second) now key ↔
      Recent period first now key ∨ Recent period second now key := by
  simp only [Recent, List.mem_append, or_and_right, exists_or]

theorem recent_snoc_iff (log : List (Stamped Key)) (last : Stamped Key)
    (now : Nat) (key : Key) :
    Recent period (log ++ [last]) now key ↔
      Recent period log now key ∨
        (last.key = key ∧ now < last.time + period) := by
  rw [recent_append_iff]
  simp [Recent]

/-- Less than a period has elapsed since a stamp; a stamp from later counts as
no time at all. -/
theorem elapsed_lt_iff (positive : 0 < period) (now stamp : Nat) :
    now - stamp < period ↔ now < stamp + period := by
  omega

/-- Moments that are a period apart fit a window only so often. -/
theorem length_mul_lt_of_apart {start window : Nat} {times : List Nat}
    (positive : 0 < period)
    (apart : times.Pairwise fun earlier later => earlier + period ≤ later)
    (inWindow : ∀ time, time ∈ times → start ≤ time ∧ time < start + window) :
    times.length * period < window + period := by
  induction times generalizing start window with
  | nil =>
      simp only [List.length_nil]
      omega
  | cons first rest inductionHypothesis =>
      obtain ⟨restLater, restApart⟩ := List.pairwise_cons.1 apart
      obtain ⟨notBefore, within⟩ := inWindow first (by simp)
      -- The rest fits the window from a period after the first on.
      by_cases none : rest = []
      · subst none
        simp only [List.length_singleton]
        omega
      have someRest : ∃ time, time ∈ rest := List.exists_mem_of_ne_nil rest none
      obtain ⟨time, member⟩ := someRest
      have timeWithin := (inWindow time (List.mem_cons_of_mem first member)).2
      have room := restLater time member
      have bound := @inductionHypothesis (first + period)
        (start + window - (first + period)) restApart (by
          intro other isRest
          have otherWithin := inWindow other (List.mem_cons_of_mem first isRest)
          have otherLater := restLater other isRest
          omega)
      rw [List.length_cons, Nat.succ_mul]
      omega

/-! ## The discipline -/

section Discipline

variable [DecidableEq Key]

/-- Admit an attempt unless its key was admitted less than a period before. -/
def discipline (period : Nat) :
    StepMachine (List (Stamped Key)) (Stamped Key) (Stamped Key) where
  start := []
  step log attempt :=
    if Recent period log attempt.time attempt.key then (log, [])
    else (log ++ [attempt], [attempt])

theorem discipline_step_recent {log : List (Stamped Key)}
    {attempt : Stamped Key}
    (recent : Recent period log attempt.time attempt.key) :
    (discipline period).step log attempt = (log, []) :=
  if_pos recent

theorem discipline_step_cool {log : List (Stamped Key)}
    {attempt : Stamped Key}
    (cool : ¬ Recent period log attempt.time attempt.key) :
    (discipline period).step log attempt = (log ++ [attempt], [attempt]) :=
  if_neg cool

theorem discipline_runFrom_fst (log attempts : List (Stamped Key)) :
    ((discipline period).runFrom log attempts).1 =
      log ++ ((discipline period).runFrom log attempts).2 := by
  induction attempts generalizing log with
  | nil =>
      simp [StepMachine.runFrom]
  | cons attempt rest inductionHypothesis =>
      rw [StepMachine.runFrom]
      by_cases recent : Recent period log attempt.time attempt.key
      · rw [discipline_step_recent recent]
        exact inductionHypothesis log
      · rw [discipline_step_cool recent]
        simpa using inductionHypothesis (log ++ [attempt])

theorem discipline_stateAfter (attempts : List (Stamped Key)) :
    (discipline period).stateAfter attempts =
      (discipline period).outputsOf attempts := by
  have appended := @discipline_runFrom_fst Key period _ [] attempts
  rwa [List.nil_append] at appended

/-- Every attempt, wherever it stands, is admitted unless its key was admitted
among the attempts before it less than a period ago. -/
theorem discipline_outputsOf_split (before : List (Stamped Key))
    (attempt : Stamped Key) (after : List (Stamped Key)) :
    ∃ admittedAfter,
      (discipline period).outputsOf (before ++ attempt :: after) =
        (discipline period).outputsOf before ++
          (if Recent period ((discipline period).outputsOf before)
              attempt.time attempt.key then [] else [attempt]) ++
          admittedAfter := by
  refine ⟨((discipline period).runFrom
    ((discipline period).stateAfter (before ++ [attempt])) after).2, ?_⟩
  rw [List.append_cons, StepMachine.outputsOf_append,
    StepMachine.outputsOf_snoc, discipline_stateAfter before]
  by_cases recent : Recent period ((discipline period).outputsOf before)
      attempt.time attempt.key
  · rw [if_pos recent, discipline_step_recent recent]
  · rw [if_neg recent, discipline_step_cool recent]

/-- Where something was admitted, an attempt stood that was not recent. -/
theorem discipline_runFrom_split {log attempts before after :
      List (Stamped Key)} {admitted : Stamped Key}
    (split : ((discipline period).runFrom log attempts).2 =
      before ++ admitted :: after) :
    ∃ earlier later, attempts = earlier ++ admitted :: later ∧
      ((discipline period).runFrom log earlier).2 = before ∧
      ¬ Recent period (log ++ before) admitted.time admitted.key := by
  induction attempts generalizing log before with
  | nil =>
      simp [StepMachine.runFrom] at split
  | cons attempt rest inductionHypothesis =>
      rw [StepMachine.runFrom] at split
      by_cases recent : Recent period log attempt.time attempt.key
      · rw [discipline_step_recent recent] at split
        obtain ⟨earlier, later, shape, same, cool⟩ := inductionHypothesis split
        refine ⟨attempt :: earlier, later, by rw [shape]; rfl, ?_, cool⟩
        rw [StepMachine.runFrom, discipline_step_recent recent]
        exact same
      · rw [discipline_step_cool recent] at split
        cases before with
        | nil =>
            rcases List.cons.inj split with ⟨same, _⟩
            subst same
            exact ⟨[], rest, rfl, rfl, by simpa using recent⟩
        | cons first others =>
            rcases List.cons.inj split with ⟨same, restSplit⟩
            subst same
            obtain ⟨earlier, later, shape, same, cool⟩ :=
              inductionHypothesis restSplit
            refine ⟨attempt :: earlier, later, by rw [shape]; rfl, ?_, ?_⟩
            · rw [StepMachine.runFrom, discipline_step_cool recent]
              exact congrArg (attempt :: ·) same
            · simpa using cool

/-- An attempt that is not recent where it stands is admitted there. -/
theorem split_discipline_runFrom {log earlier : List (Stamped Key)}
    {attempt : Stamped Key} (later : List (Stamped Key))
    (cool : ¬ Recent period
      (log ++ ((discipline period).runFrom log earlier).2)
      attempt.time attempt.key) :
    ∃ after,
      ((discipline period).runFrom log (earlier ++ attempt :: later)).2 =
        ((discipline period).runFrom log earlier).2 ++ attempt :: after := by
  rw [← discipline_runFrom_fst] at cool
  rw [StepMachine.runFrom_append]
  simp only [StepMachine.runFrom, discipline_step_cool cool]
  exact ⟨_, rfl⟩

/-- After attempts at one moment, the keys less than a period old are those
that were before and those that were attempted. -/
theorem recent_runFrom_iff (positive : 0 < period)
    {attempts : List (Stamped Key)} {now : Nat}
    (atOnce : ∀ attempt, attempt ∈ attempts → attempt.time = now)
    (log : List (Stamped Key)) (key : Key) :
    Recent period (log ++ ((discipline period).runFrom log attempts).2) now
        key ↔
      Recent period log now key ∨
        ∃ attempt, attempt ∈ attempts ∧ attempt.key = key := by
  induction attempts generalizing log with
  | nil =>
      simp [StepMachine.runFrom]
  | cons attempt rest inductionHypothesis =>
      have isNow := atOnce attempt (by simp)
      have restAtOnce : ∀ other, other ∈ rest → other.time = now :=
        fun other member => atOnce other (List.mem_cons_of_mem attempt member)
      rw [StepMachine.runFrom]
      by_cases recent : Recent period log attempt.time attempt.key
      · rw [discipline_step_recent recent]
        simp only [List.nil_append, inductionHypothesis restAtOnce]
        rw [isNow] at recent
        constructor
        · intro found
          rcases found with before | ⟨other, member, same⟩
          · exact Or.inl before
          · exact Or.inr ⟨other, List.mem_cons_of_mem attempt member, same⟩
        · intro found
          rcases found with before | ⟨other, member, same⟩
          · exact Or.inl before
          · rcases List.mem_cons.mp member with isFirst | later
            · subst isFirst
              rw [same] at recent
              exact Or.inl recent
            · exact Or.inr ⟨other, later, same⟩
      · rw [discipline_step_cool recent]
        simp only [List.singleton_append]
        rw [List.append_cons, inductionHypothesis restAtOnce, recent_snoc_iff,
          isNow]
        simp [positive, or_assoc]

/-- Admitted attempts under one key are at least a period apart. -/
theorem outputsOf_apart (attempts : List (Stamped Key)) :
    ((discipline period).outputsOf attempts).Pairwise fun earlier later =>
      earlier.key = later.key → earlier.time + period ≤ later.time := by
  induction attempts using List.reverseRecOn with
  | nil =>
      exact List.Pairwise.nil
  | append_singleton before attempt inductionHypothesis =>
      rw [StepMachine.outputsOf_snoc, discipline_stateAfter]
      by_cases recent : Recent period ((discipline period).outputsOf before)
          attempt.time attempt.key
      · rw [discipline_step_recent recent, List.append_nil]
        exact inductionHypothesis
      · rw [discipline_step_cool recent, List.pairwise_append]
        refine ⟨inductionHypothesis, List.pairwise_singleton _ _, ?_⟩
        intro entry member last isLast sameKey
        rw [List.mem_singleton.1 isLast] at sameKey ⊢
        apply Nat.le_of_not_lt
        intro early
        exact recent ⟨entry, member, sameKey, early⟩

/-- Of the attempts of one moment, those are admitted whose key is not recent
before. -/
theorem mem_discipline_runFrom_iff
    {attempts : List (Stamped Key)} {now : Nat}
    (atOnce : ∀ attempt, attempt ∈ attempts → attempt.time = now)
    (log : List (Stamped Key)) (entry : Stamped Key) :
    entry ∈ ((discipline period).runFrom log attempts).2 ↔
      entry ∈ attempts ∧ ¬ Recent period log now entry.key := by
  induction attempts generalizing log with
  | nil =>
      simp [StepMachine.runFrom]
  | cons attempt rest inductionHypothesis =>
      have isNow := atOnce attempt (by simp)
      have restAtOnce : ∀ other, other ∈ rest → other.time = now :=
        fun other member => atOnce other (List.mem_cons_of_mem attempt member)
      rw [StepMachine.runFrom]
      by_cases recent : Recent period log attempt.time attempt.key
      · rw [discipline_step_recent recent]
        simp only [List.nil_append, inductionHypothesis restAtOnce,
          List.mem_cons]
        constructor
        · intro both
          obtain ⟨member, cool⟩ := both
          exact ⟨Or.inr member, cool⟩
        · intro both
          obtain ⟨member, cool⟩ := both
          rcases member with isFirst | later
          · rw [isFirst, ← isNow] at cool
            exact absurd recent cool
          · exact ⟨later, cool⟩
      · rw [discipline_step_cool recent]
        simp only [List.singleton_append, List.mem_cons,
          inductionHypothesis restAtOnce, recent_snoc_iff]
        constructor
        · intro found
          rcases found with isFirst | ⟨member, cool⟩
          · subst isFirst
            rw [isNow] at recent
            exact ⟨Or.inl rfl, recent⟩
          · exact ⟨Or.inr member, fun before => cool (Or.inl before)⟩
        · intro both
          obtain ⟨member, cool⟩ := both
          by_cases isFirst : entry = attempt
          · exact Or.inl isFirst
          rcases member with same | later
          · exact absurd same isFirst
          refine Or.inr ⟨later, ?_⟩
          intro found
          rcases found with before | ⟨sameKey, _⟩
          · exact cool before
          · have entryNow := restAtOnce entry later
            apply isFirst
            cases entry
            cases attempt
            simp_all

end Discipline

/-! ## The last stamp of a key -/

section LastStamp

variable [DecidableEq Key]

def lastStamp (log : List (Stamped Key)) (key : Key) : Option Nat :=
  ((log.filter fun entry => entry.key = key).getLast?).map Stamped.time

theorem lastStamp_append_of_notMem (log : List (Stamped Key))
    {added : List (Stamped Key)} {key : Key}
    (absent : ∀ entry, entry ∈ added → entry.key ≠ key) :
    lastStamp (log ++ added) key = lastStamp log key := by
  have none : (added.filter fun entry => entry.key = key) = [] := by
    rw [List.filter_eq_nil_iff]
    intro entry member same
    exact absent entry member (of_decide_eq_true same)
  rw [lastStamp, List.filter_append, none, List.append_nil, lastStamp]

/-- Of entries of one moment, those of the key stamp it with that moment. -/
theorem lastStamp_append_of_mem (log : List (Stamped Key))
    {added : List (Stamped Key)} {now : Nat} {key : Key}
    (atOnce : ∀ entry, entry ∈ added → entry.time = now)
    (member : ⟨now, key⟩ ∈ added) :
    lastStamp (log ++ added) key = some now := by
  have some : (added.filter fun entry => entry.key = key) ≠ [] := by
    apply List.ne_nil_of_mem
    exact List.mem_filter.2 ⟨member, decide_eq_true rfl⟩
  rw [lastStamp, List.filter_append, List.getLast?_append_of_ne_nil _ some,
    List.getLast?_eq_some_getLast some, Option.map_some]
  congr 1
  apply atOnce
  exact (List.mem_filter.1 (List.getLast_mem some)).1

end LastStamp

/-! ## Attempts at one moment -/

section OneMoment

/-- What was admitted so far stands for the keys gone through so far: the same
keys are recent for it. -/
def StandsFor (period : Nat) (log made : List (Stamped Key)) (now : Nat)
    (before : List Key) : Prop :=
  ∀ key, Recent period (log ++ made) now key ↔
    Recent period log now key ∨ key ∈ before

/-- Of the keys gone through at one moment, exactly the pending ones were
admitted, each with what stands before it. -/
structure Corresponds (period : Nat) (log admitted : List (Stamped Key))
    (now : Nat) (keys : List Key) (pending : List Key → Key → Prop) :
    Prop where
  of_admitted : ∀ made entry after, admitted = made ++ entry :: after →
    ∃ before rest, keys = before ++ entry.key :: rest ∧ entry.time = now ∧
      pending before entry.key ∧ StandsFor period log made now before
  to_admitted : ∀ before key rest, keys = before ++ key :: rest →
    pending before key →
      ∃ made after, admitted = made ++ ⟨now, key⟩ :: after ∧
        StandsFor period log made now before

/-- Entries that make at least as much recent change nothing about it. -/
theorem StandsFor.mono {log larger made : List (Stamped Key)} {now : Nat}
    {before : List Key} (standsFor : StandsFor period log made now before)
    (contains : ∀ key, Recent period log now key → Recent period larger now key) :
    StandsFor period larger made now before := by
  intro key
  have same := standsFor key
  rw [recent_append_iff] at same ⊢
  constructor
  · intro found
    rcases found with inLarger | inMade
    · exact Or.inl inLarger
    · rcases same.1 (Or.inr inMade) with inLog | inBefore
      · exact Or.inl (contains key inLog)
      · exact Or.inr inBefore
  · intro found
    rcases found with inLarger | inBefore
    · exact Or.inl inLarger
    · rcases same.2 (Or.inr inBefore) with inLog | inMade
      · exact Or.inl (contains key inLog)
      · exact Or.inr inMade

theorem Corresponds.mono {log larger admitted : List (Stamped Key)}
    {now : Nat} {keys : List Key} {pending : List Key → Key → Prop}
    (corresponds : Corresponds period log admitted now keys pending)
    (contains : ∀ key, Recent period log now key → Recent period larger now key) :
    Corresponds period larger admitted now keys pending where
  of_admitted made entry after split := by
    obtain ⟨before, rest, shape, isNow, isPending, standsFor⟩ :=
      corresponds.of_admitted made entry after split
    exact ⟨before, rest, shape, isNow, isPending, standsFor.mono contains⟩
  to_admitted before key rest shape isPending := by
    obtain ⟨made, after, split, standsFor⟩ :=
      corresponds.to_admitted before key rest shape isPending
    exact ⟨made, after, split, standsFor.mono contains⟩

theorem corresponds_nil {log : List (Stamped Key)} {now : Nat}
    {keys : List Key} {pending : List Key → Key → Prop}
    (never : ∀ before key rest, keys = before ++ key :: rest →
      ¬ pending before key) :
    Corresponds period log [] now keys pending where
  of_admitted made entry after split := by
    simp at split
  to_admitted before key rest shape isPending :=
    absurd isPending (never before key rest shape)

def stampAll (now : Nat) (keys : List Key) : List (Stamped Key) :=
  keys.map fun key => ⟨now, key⟩

theorem exists_stampAll_key_iff (now : Nat) (keys : List Key) (key : Key) :
    (∃ attempt, attempt ∈ stampAll now keys ∧ attempt.key = key) ↔
      key ∈ keys := by
  simp [stampAll]

theorem time_of_mem_stampAll {now : Nat} {keys : List Key}
    {attempt : Stamped Key} (member : attempt ∈ stampAll now keys) :
    attempt.time = now := by
  rcases List.mem_map.mp member with ⟨key, _, same⟩
  rw [← same]

theorem stampAll_split {now : Nat} {keys : List Key}
    {made after : List (Stamped Key)} {entry : Stamped Key}
    (split : stampAll now keys = made ++ entry :: after) :
    ∃ before rest, keys = before ++ entry.key :: rest ∧ entry.time = now ∧
      made = stampAll now before := by
  obtain ⟨before, others, shape, sameMade, sameRest⟩ :=
    List.map_eq_append_iff.mp split
  obtain ⟨key, rest, othersShape, same, _⟩ :=
    List.map_eq_cons_iff.mp sameRest
  subst same
  exact ⟨before, rest, by rw [shape, othersShape], rfl, sameMade.symm⟩

theorem stampAll_append_cons (now : Nat) (before : List Key) (key : Key)
    (rest : List Key) :
    stampAll now (before ++ key :: rest) =
      stampAll now before ++ ⟨now, key⟩ :: stampAll now rest := by
  simp [stampAll]

/-- Without any check, every key is admitted. -/
theorem corresponds_stampAll (positive : 0 < period)
    (log : List (Stamped Key)) (now : Nat) (keys : List Key) :
    Corresponds period log (stampAll now keys) now keys
      fun _ _ => True := by
  have standsFor : ∀ before : List Key,
      StandsFor period log (stampAll now before) now before := by
    intro before key
    rw [recent_append_iff]
    simp [Recent, stampAll, positive]
  constructor
  · intro made entry after split
    obtain ⟨before, rest, shape, isNow, sameMade⟩ := stampAll_split split
    subst sameMade
    exact ⟨before, rest, shape, isNow, trivial, standsFor before⟩
  · intro before key rest shape _
    rw [shape, stampAll_append_cons]
    exact ⟨_, _, rfl, standsFor before⟩

/-- The discipline admits the keys that are neither recent nor repeated. -/
theorem corresponds_discipline [DecidableEq Key] (positive : 0 < period)
    (log : List (Stamped Key)) (now : Nat) (keys : List Key) :
    Corresponds period log
      ((discipline period).runFrom log (stampAll now keys)).2 now keys
      fun before key => key ∉ before ∧ ¬ Recent period log now key := by
  have standsFor : ∀ before : List Key,
      StandsFor period log
        ((discipline period).runFrom log (stampAll now before)).2 now
        before := by
    intro before key
    rw [recent_runFrom_iff positive fun _ => time_of_mem_stampAll,
      exists_stampAll_key_iff]
  constructor
  · intro made entry after split
    obtain ⟨earlier, later, shape, sameMade, cool⟩ :=
      discipline_runFrom_split split
    obtain ⟨before, rest, keysShape, isNow, sameEarlier⟩ :=
      stampAll_split shape
    subst sameEarlier
    subst sameMade
    rw [isNow] at cool
    have fresh := fun found => cool ((standsFor before entry.key).2 found)
    exact ⟨before, rest, keysShape, isNow,
      ⟨fun repeated => fresh (Or.inr repeated),
        fun recent => fresh (Or.inl recent)⟩, standsFor before⟩
  · intro before key rest shape ⟨notRepeated, notRecent⟩
    have cool : ¬ Recent period
        (log ++
          ((discipline period).runFrom log (stampAll now before)).2)
        now key := by
      intro recent
      rcases (standsFor before key).1 recent with found | repeated
      · exact notRecent found
      · exact notRepeated repeated
    have admitted :=
      @split_discipline_runFrom Key period _ log (stampAll now before)
        ⟨now, key⟩ (stampAll now rest) cool
    rcases admitted with ⟨after, split⟩
    rw [shape, stampAll_append_cons]
    exact ⟨_, after, split, standsFor before⟩

end OneMoment

/-! ## Records that decide like the log -/

/-- From `now` on, the record has a stamp less than a period old for exactly
the keys that the log has. -/
structure Tracks (period now : Nat) (log : List (Stamped Key))
    (record : Key → Option Nat) : Prop where
  past : ∀ entry, entry ∈ log → entry.time ≤ now
  recent_iff : ∀ later, now ≤ later → ∀ key,
    (∃ stamp, record key = some stamp ∧ later < stamp + period) ↔
      Recent period log later key

namespace Tracks

variable {now : Nat} {log : List (Stamped Key)} {record : Key → Option Nat}

theorem start (period now : Nat) :
    Tracks period now ([] : List (Stamped Key)) fun _ => none where
  past := by simp
  recent_iff later _ key := by simp [recent_nil]

theorem later (tracks : Tracks period now log record) {next : Nat}
    (notBefore : now ≤ next) : Tracks period next log record where
  past entry member := Nat.le_trans (tracks.past entry member) notBefore
  recent_iff moment after :=
    tracks.recent_iff moment (Nat.le_trans notBefore after)

/-- Admitting a key stamps it with the present. -/
theorem stamp [DecidableEq Key] (tracks : Tracks period now log record)
    (key : Key) :
    Tracks period now (log ++ [⟨now, key⟩])
      (Function.update record key (some now)) where
  past entry member := by
    rcases List.mem_append.mp member with earlier | isLast
    · exact tracks.past entry earlier
    · rw [List.mem_singleton.mp isLast]
  recent_iff moment after other := by
    rw [recent_snoc_iff, ← tracks.recent_iff moment after]
    by_cases same : other = key
    · subst same
      rw [Function.update_self]
      constructor
      · intro ⟨stamp, isNow, within⟩
        rw [← Option.some.inj isNow] at within
        exact Or.inr ⟨rfl, within⟩
      · intro found
        rcases found with older | ⟨_, within⟩
        · -- An older entry is no later than the present one.
          rcases (tracks.recent_iff moment after other).1 older with
            ⟨entry, member, _, within⟩
          have notLater := tracks.past entry member
          exact ⟨now, rfl, by omega⟩
        · exact ⟨now, rfl, within⟩
    · rw [Function.update_of_ne same]
      constructor
      · exact Or.inl
      · intro found
        rcases found with before | ⟨sameKey, _⟩
        · exact before
        · exact absurd sameKey.symm same

/-- Forgetting stamps that are a period old changes nothing. -/
theorem prune (tracks : Tracks period now log record)
    {pruned : Key → Option Nat}
    (keeps : ∀ key stamp,
      pruned key = some stamp → record key = some stamp)
    (keepsRecent : ∀ key stamp, record key = some stamp →
      now < stamp + period → pruned key = some stamp) :
    Tracks period now log pruned where
  past := tracks.past
  recent_iff moment after key := by
    rw [← tracks.recent_iff moment after]
    constructor
    · intro ⟨stamp, stamped, within⟩
      exact ⟨stamp, keeps key stamp stamped, within⟩
    · intro ⟨stamp, stamped, within⟩
      exact ⟨stamp, keepsRecent key stamp stamped (by omega), within⟩

end Tracks

end Cooldown
