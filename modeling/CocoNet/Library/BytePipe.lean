import CocoNet.Library.StepMachine

/-!
# A bounded pipe between a writer and a reader

A writer puts chunks into a pipe of bounded capacity, each in as many steps as
the room in the pipe makes necessary.  A reader takes everything that is in the
pipe, up to the size of its own buffer.  The two take their turns in any order.

The pipe never loses, repeats or reorders items.  It does not know about
chunks: the reads of a completed run are the chunks if and only if the writer
never had a turn, with something left to write, while the pipe was not empty.
-/

universe u

inductive Turn where
  | writer
  | reader
  deriving DecidableEq, Repr

/-- What the writer has still to write, its first chunk possibly begun, and
what is in the pipe. -/
structure Pipe (Item : Type u) where
  unwritten : List (List Item)
  buffer : List Item
  deriving DecidableEq, Repr

namespace Pipe

variable {Item : Type u}

/-- Put in as much of the current chunk as there is room for. -/
def write (capacity : Nat) (pipe : Pipe Item) : Pipe Item :=
  match pipe.unwritten with
  | [] => pipe
  | chunk :: rest =>
      let room := capacity - pipe.buffer.length
      let left := chunk.drop room
      ⟨if left = [] then rest else left :: rest,
        pipe.buffer ++ chunk.take room⟩

/-- Take what is there, up to `readSize` items; an empty pipe gives nothing. -/
def read (readSize : Nat) (pipe : Pipe Item) : Pipe Item × List (List Item) :=
  if pipe.buffer = [] then (pipe, [])
  else
    (⟨pipe.unwritten, pipe.buffer.drop readSize⟩,
      [pipe.buffer.take readSize])

/-- A pipe whose writer has `chunks` to write; its outputs are the reads. -/
def machine (capacity readSize : Nat) (chunks : List (List Item)) :
    StepMachine (Pipe Item) Turn (List Item) where
  start := ⟨chunks, []⟩
  step pipe turn :=
    match turn with
    | .writer => (pipe.write capacity, [])
    | .reader => pipe.read readSize

def Drained (pipe : Pipe Item) : Prop :=
  pipe.unwritten = [] ∧ pipe.buffer = []

def WritesWhenEmpty (capacity readSize : Nat) (chunks : List (List Item)) :
    List Turn → Prop :=
  StepMachine.EachStep fun earlier turn =>
    turn = .writer →
      ((machine capacity readSize chunks).stateAfter earlier).unwritten ≠ [] →
        ((machine capacity readSize chunks).stateAfter earlier).buffer = []

/-! ## Items are conserved -/

theorem write_conserves (capacity : Nat) (pipe : Pipe Item) :
    (pipe.write capacity).buffer ++ (pipe.write capacity).unwritten.flatten =
      pipe.buffer ++ pipe.unwritten.flatten := by
  rcases pipe with ⟨unwritten, buffer⟩
  cases unwritten with
  | nil =>
      rfl
  | cons chunk rest =>
      have joined := List.take_append_drop (capacity - buffer.length) chunk
      simp only [write]
      split
      · rename_i noneLeft
        rw [noneLeft, List.append_nil] at joined
        rw [joined, List.flatten_cons, List.append_assoc]
      · rw [List.flatten_cons, List.append_assoc, ← List.append_assoc
          (List.take _ chunk), joined, List.flatten_cons]

theorem read_conserves (readSize : Nat) (pipe : Pipe Item) :
    (pipe.read readSize).2.flatten ++ (pipe.read readSize).1.buffer ++
        (pipe.read readSize).1.unwritten.flatten =
      pipe.buffer ++ pipe.unwritten.flatten := by
  rw [read]
  by_cases empty : pipe.buffer = []
  · rw [if_pos empty]
    simp
  · rw [if_neg empty]
    simp

/-- A chunk for which there is room goes in whole. -/
theorem write_of_room {capacity : Nat} {chunk buffer : List Item}
    (room : buffer.length + chunk.length ≤ capacity)
    (rest : List (List Item)) :
    write capacity ⟨chunk :: rest, buffer⟩ = ⟨rest, buffer ++ chunk⟩ := by
  have none : chunk.drop (capacity - buffer.length) = [] :=
    List.drop_of_length_le (by omega)
  have all : chunk.take (capacity - buffer.length) = chunk :=
    List.take_of_length_le (by omega)
  simp only [write, none, all, if_true]

theorem length_le_write (capacity : Nat) (pipe : Pipe Item) :
    pipe.buffer.length ≤ (pipe.write capacity).buffer.length := by
  unfold Pipe.write
  split
  · exact Nat.le_refl _
  · rw [List.length_append]
    exact Nat.le_add_right _ _

theorem length_write_le {capacity : Nat} {pipe : Pipe Item}
    (bounded : pipe.buffer.length ≤ capacity) :
    (pipe.write capacity).buffer.length ≤ capacity := by
  unfold Pipe.write
  split
  · exact bounded
  · rw [List.length_append, List.length_take]
    omega

/-- In every run, the reads, then the pipe, then what is unwritten, are the
chunks end to end. -/
theorem conserves (capacity readSize : Nat) (chunks : List (List Item))
    (turns : List Turn) :
    ((machine capacity readSize chunks).outputsOf turns).flatten ++
        ((machine capacity readSize chunks).stateAfter turns).buffer ++
        ((machine capacity readSize
          chunks).stateAfter turns).unwritten.flatten =
      chunks.flatten := by
  have each : StepMachine.EachStep (fun _ (_ : Turn) => True) turns :=
    fun _ _ _ _ => trivial
  refine (machine capacity readSize chunks).invariant (fun _ _ => True)
    (fun _ pipe reads =>
      reads.flatten ++ pipe.buffer ++ pipe.unwritten.flatten = chunks.flatten)
    (by simp [machine]) ?_ each
  intro earlier turn kept _
  rw [← kept, List.flatten_append, List.append_assoc, List.append_assoc,
    List.append_assoc]
  congr 1
  cases turn with
  | writer =>
      exact write_conserves capacity _
  | reader =>
      rw [← List.append_assoc]
      exact read_conserves readSize _

/-! ## Chunks are kept while every write finds the pipe empty -/

/-- The reads are the first chunks, the pipe holds the next one or nothing, and
the rest is unwritten. -/
def Whole (chunks : List (List Item)) (pipe : Pipe Item)
    (reads : List (List Item)) : Prop :=
  reads ++ (if pipe.buffer = [] then [] else [pipe.buffer]) ++
    pipe.unwritten = chunks

/-- Some chunk has been or will be read together with what follows it. -/
def Merged (chunks : List (List Item)) (capacity : Nat) (pipe : Pipe Item)
    (reads : List (List Item)) : Prop :=
  pipe.buffer.length ≤ capacity ∧
    ∃ before chunk after, chunks = before ++ chunk :: after ∧
      ((reads = before ∧ chunk.length < pipe.buffer.length) ∨
        ∃ longer rest, reads = before ++ longer :: rest ∧
          chunk.length < longer.length)

section Chunks

variable {capacity readSize : Nat} {chunks : List (List Item)}
variable {pipe : Pipe Item} {reads : List (List Item)}

theorem Whole.write_empty (whole : Whole chunks pipe reads)
    (sizes : ∀ chunk, chunk ∈ chunks → chunk ≠ [] ∧ chunk.length < capacity)
    (empty : pipe.unwritten ≠ [] → pipe.buffer = []) :
    Whole chunks (pipe.write capacity) reads := by
  rcases pipe with ⟨unwritten, buffer⟩
  cases unwritten with
  | nil =>
      exact whole
  | cons chunk rest =>
      obtain rfl : buffer = [] := empty (by simp)
      have shape : chunks = reads ++ chunk :: rest := by
        simpa [Whole] using whole.symm
      rcases sizes chunk (by simp [shape]) with ⟨nonempty, short⟩
      rw [write_of_room (by simpa using Nat.le_of_lt short)]
      simp [Whole, nonempty, shape]

theorem Whole.write_nonempty (whole : Whole chunks pipe reads)
    (sizes : ∀ chunk, chunk ∈ chunks → chunk ≠ [] ∧ chunk.length < capacity)
    (something : pipe.unwritten ≠ []) (occupied : pipe.buffer ≠ []) :
    Merged chunks capacity (pipe.write capacity) reads := by
  rcases pipe with ⟨unwritten, buffer⟩
  cases unwritten with
  | nil =>
      exact absurd rfl something
  | cons chunk rest =>
      have shape : chunks = reads ++ buffer :: chunk :: rest := by
        have kept := whole.symm
        rw [if_neg occupied] at kept
        simpa using kept
      rcases sizes buffer (by simp [shape]) with ⟨_, bufferShort⟩
      rcases sizes chunk (by simp [shape]) with ⟨chunkNonempty, _⟩
      have chunkPositive := List.length_pos_of_ne_nil chunkNonempty
      -- There is room for at least one item of the next chunk.
      refine ⟨?_, reads, buffer, chunk :: rest, shape, Or.inl ⟨rfl, ?_⟩⟩
      · simp only [write, List.length_append, List.length_take]
        omega
      · simp only [write, List.length_append, List.length_take]
        omega

theorem Whole.read (whole : Whole chunks pipe reads)
    (sizes : ∀ chunk, chunk ∈ chunks → chunk ≠ [] ∧ chunk.length < capacity)
    (large : capacity ≤ readSize) :
    Whole chunks (pipe.read readSize).1
      (reads ++ (pipe.read readSize).2) := by
  rw [Pipe.read]
  by_cases empty : pipe.buffer = []
  · rw [if_pos empty, List.append_nil]
    exact whole
  · have kept := whole
    rw [Whole, if_neg empty] at kept
    rcases sizes pipe.buffer (by simp [← kept]) with ⟨_, short⟩
    have all : pipe.buffer.take readSize = pipe.buffer :=
      List.take_of_length_le (by omega)
    have none : pipe.buffer.drop readSize = [] :=
      List.drop_of_length_le (by omega)
    rw [if_neg empty, Whole, all, none, if_pos rfl, List.append_nil]
    exact kept

theorem Merged.write (merged : Merged chunks capacity pipe reads) :
    Merged chunks capacity (pipe.write capacity) reads := by
  rcases merged with ⟨bounded, before, chunk, after, shape, found⟩
  have grows := length_le_write capacity pipe
  refine ⟨length_write_le bounded, before, chunk, after, shape, ?_⟩
  rcases found with ⟨same, longer⟩ | read
  · exact Or.inl ⟨same, by omega⟩
  · exact Or.inr read

theorem Merged.read (merged : Merged chunks capacity pipe reads)
    (large : capacity ≤ readSize) :
    Merged chunks capacity (pipe.read readSize).1
      (reads ++ (pipe.read readSize).2) := by
  rw [Pipe.read]
  by_cases empty : pipe.buffer = []
  · rw [if_pos empty, List.append_nil]
    exact merged
  · rcases merged with ⟨bounded, before, chunk, after, shape, found⟩
    have all : pipe.buffer.take readSize = pipe.buffer :=
      List.take_of_length_le (by omega)
    have none : pipe.buffer.drop readSize = [] :=
      List.drop_of_length_le (by omega)
    rw [if_neg empty, all, none]
    refine ⟨Nat.zero_le _, before, chunk, after, shape, Or.inr ?_⟩
    rcases found with ⟨rfl, longer⟩ | ⟨longer, rest, rfl, length⟩
    · exact ⟨pipe.buffer, [], rfl, longer⟩
    · exact ⟨longer, rest ++ [pipe.buffer], by simp, length⟩

/-- A run keeps the chunks whole as long as every write finds the pipe empty,
and has merged two of them from the first write on that does not. -/
theorem whole_or_merged
    (sizes : ∀ chunk, chunk ∈ chunks → chunk ≠ [] ∧ chunk.length < capacity)
    (large : capacity ≤ readSize) (turns : List Turn) :
    (WritesWhenEmpty capacity readSize chunks turns ∧
        Whole chunks ((machine capacity readSize chunks).stateAfter turns)
          ((machine capacity readSize chunks).outputsOf turns)) ∨
      (¬ WritesWhenEmpty capacity readSize chunks turns ∧
        Merged chunks capacity
          ((machine capacity readSize chunks).stateAfter turns)
          ((machine capacity readSize chunks).outputsOf turns)) := by
  induction turns using List.reverseRecOn with
  | nil =>
      exact Or.inl ⟨StepMachine.eachStep_nil _, by simp [Whole, machine]⟩
  | append_singleton earlier turn inductionHypothesis =>
      rw [StepMachine.stateAfter_snoc, StepMachine.outputsOf_snoc,
        WritesWhenEmpty, StepMachine.eachStep_snoc_iff]
      rcases inductionHypothesis with ⟨each, whole⟩ | ⟨broken, merged⟩
      · cases turn with
        | reader =>
            exact Or.inl ⟨⟨each, by simp⟩, whole.read sizes large⟩
        | writer =>
            by_cases empty :
                ((machine capacity readSize chunks).stateAfter
                    earlier).unwritten ≠ [] →
                  ((machine capacity readSize chunks).stateAfter
                    earlier).buffer = []
            · refine Or.inl ⟨⟨each, fun _ => empty⟩, ?_⟩
              simpa [machine] using whole.write_empty sizes empty
            · rcases Classical.not_imp.mp empty with ⟨something, occupied⟩
              refine Or.inr ⟨fun both => empty (both.2 rfl), ?_⟩
              simpa [machine] using
                whole.write_nonempty sizes something occupied
      · refine Or.inr ⟨fun both => broken both.1, ?_⟩
        cases turn with
        | reader =>
            exact merged.read large
        | writer =>
            simpa [machine] using merged.write

theorem Merged.not_whole (merged : Merged chunks capacity pipe reads) :
    ¬ Whole chunks pipe reads := by
  rcases merged with ⟨_, before, chunk, after, same, found⟩
  subst same
  intro whole
  rw [Whole] at whole
  rcases found with ⟨rfl, longer⟩ | ⟨longer, rest, rfl, length⟩
  · -- The pipe holds more than the chunk that comes next.
    have occupied := List.ne_nil_of_length_pos (Nat.zero_lt_of_lt longer)
    rw [if_neg occupied, List.append_assoc] at whole
    rcases List.cons.inj (List.append_cancel_left whole) with ⟨same, _⟩
    rw [same] at longer
    exact Nat.lt_irrefl _ longer
  · -- The read in the place of the chunk is longer than the chunk.
    rw [List.append_assoc, List.append_assoc] at whole
    rcases List.cons.inj (List.append_cancel_left whole) with ⟨same, _⟩
    rw [same] at length
    exact Nat.lt_irrefl _ length

/-- A run has kept the chunks whole if and only if every write found the pipe
empty. -/
theorem whole_iff
    (sizes : ∀ chunk, chunk ∈ chunks → chunk ≠ [] ∧ chunk.length < capacity)
    (large : capacity ≤ readSize) (turns : List Turn) :
    Whole chunks ((machine capacity readSize chunks).stateAfter turns)
        ((machine capacity readSize chunks).outputsOf turns) ↔
      WritesWhenEmpty capacity readSize chunks turns := by
  rcases whole_or_merged sizes large turns with ⟨each, whole⟩ | ⟨broken, merged⟩
  · exact ⟨fun _ => each, fun _ => whole⟩
  · exact ⟨fun whole => absurd whole merged.not_whole,
      fun each => absurd each broken⟩

theorem whole_of_drained (drained : Drained pipe) :
    Whole chunks pipe reads ↔ reads = chunks := by
  rcases drained with ⟨written, empty⟩
  rw [Whole, if_pos empty, written, List.append_nil, List.append_nil]

theorem mem_outputsOf_iff (turns : List Turn) (items : List Item) :
    items ∈ (machine capacity readSize chunks).outputsOf turns ↔
      ∃ earlier later, turns = earlier ++ .reader :: later ∧
        ((machine capacity readSize chunks).stateAfter earlier).buffer ≠ [] ∧
        items = ((machine capacity readSize
          chunks).stateAfter earlier).buffer.take readSize := by
  have reads : ∀ pipe : Pipe Item,
      items ∈ (pipe.read readSize).2 ↔
        pipe.buffer ≠ [] ∧ items = pipe.buffer.take readSize := by
    intro pipe
    rw [Pipe.read]
    split
    · rename_i empty
      simp [empty]
    · rename_i occupied
      simp [occupied]
  rw [StepMachine.mem_outputsOf_iff]
  constructor
  · intro ⟨earlier, turn, later, shape, member⟩
    cases turn with
    | writer =>
        cases member
    | reader =>
        exact ⟨earlier, later, shape, (reads _).1 member⟩
  · intro ⟨earlier, later, shape, found⟩
    exact ⟨earlier, .reader, later, shape, (reads _).2 found⟩

theorem ne_nil_of_mem_outputsOf {turns : List Turn} (positive : 0 < readSize)
    {items : List Item}
    (member : items ∈ (machine capacity readSize chunks).outputsOf turns) :
    items ≠ [] := by
  obtain ⟨earlier, later, _, occupied, rfl⟩ :=
    (mem_outputsOf_iff turns items).1 member
  apply List.ne_nil_of_length_pos
  have := List.length_pos_of_ne_nil occupied
  rw [List.length_take]
  omega

theorem length_buffer_le (turns : List Turn) :
    ((machine capacity readSize chunks).stateAfter turns).buffer.length ≤
      capacity := by
  induction turns using List.reverseRecOn with
  | nil =>
      exact Nat.zero_le capacity
  | append_singleton earlier turn inductionHypothesis =>
      rw [StepMachine.stateAfter_snoc]
      cases turn with
      | writer =>
          exact length_write_le inductionHypothesis
      | reader =>
          refine Nat.le_trans ?_ inductionHypothesis
          simp only [machine, Pipe.read]
          split
          · exact Nat.le_refl _
          · rw [List.length_drop]
            exact Nat.sub_le _ _

end Chunks

end Pipe
