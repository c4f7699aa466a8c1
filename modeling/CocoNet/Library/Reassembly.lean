import Mathlib.Algebra.Ring.Nat
import Mathlib.Data.List.Basic
import Mathlib.Data.List.Perm.Basic

/-!
# Cutting a payload into pieces and putting it together again

A piece says where it starts, whether more of the payload follows it, and what
it holds.  A receiver places arriving pieces by offset, learns the length of
the payload from a piece that nothing follows, and delivers as soon as every
position below that length is filled.

Pieces that tile a payload reassemble to it in every order of arrival.  Tiling
composes: cutting each piece of a tiling into pieces that continue its offset
and its more-flag gives a tiling again.
-/

universe u v

structure Piece (Item : Type u) where
  offset : Nat
  more : Bool
  data : List Item
  deriving DecidableEq, Repr

namespace Reassembly

variable {Item : Type u}

/-! ## Tilings -/

/-- The pieces, in this order, hold exactly the items of `rest`, which starts
at `offset` of its payload; `tail` says whether the payload continues after
`rest`. -/
def Tiles (tail : Bool) :
    Nat → List Item → List (Piece Item) → Prop
  | _, rest, [] => rest = []
  | offset, rest, piece :: others =>
      ∃ after,
        rest = piece.data ++ after ∧
          piece.data ≠ [] ∧
          piece.offset = offset ∧
          (piece.more = true ↔ after ≠ [] ∨ tail = true) ∧
          Tiles tail (offset + piece.data.length) after others

theorem Tiles.singleton (tail : Bool) (offset : Nat) {data : List Item}
    (nonempty : data ≠ []) :
    Tiles tail offset data [⟨offset, tail, data⟩] :=
  ⟨[], (List.append_nil data).symm, nonempty, rfl, by simp, rfl⟩

theorem Tiles.offset_eq {tail : Bool} {offset : Nat} {rest : List Item}
    {pieces : List (Piece Item)} (tiles : Tiles tail offset rest pieces)
    {position : Nat} (inside : position < pieces.length) :
    pieces[position].offset =
      offset +
        ((pieces.take position).map fun piece => piece.data.length).sum := by
  induction pieces generalizing offset rest position with
  | nil =>
      cases inside
  | cons piece others inductionHypothesis =>
      rcases tiles with ⟨after, _, _, start, _, othersTile⟩
      cases position with
      | zero =>
          simpa using start
      | succ position =>
          have later : position < others.length := Nat.lt_of_succ_lt_succ inside
          rw [List.getElem_cons_succ, inductionHypothesis othersTile later,
            List.take_succ_cons, List.map_cons, List.sum_cons,
            Nat.add_assoc]

theorem Tiles.more_eq {offset : Nat} {rest : List Item}
    {pieces : List (Piece Item)} (tiles : Tiles false offset rest pieces)
    {position : Nat} (inside : position < pieces.length) :
    pieces[position].more = decide (position + 1 < pieces.length) := by
  induction pieces generalizing offset rest position with
  | nil =>
      cases inside
  | cons piece others inductionHypothesis =>
      rcases tiles with ⟨after, _, _, _, more, othersTile⟩
      cases position with
      | zero =>
          have followed : after ≠ [] ↔ 0 < others.length := by
            cases others with
            | nil =>
                obtain rfl : after = [] := othersTile
                simp
            | cons next rest =>
                rcases othersTile with ⟨_, same, nonempty, _⟩
                subst same
                simp [nonempty]
          rw [List.getElem_cons_zero, Bool.eq_iff_iff, more, followed]
          simp
      | succ position =>
          have later : position < others.length := Nat.lt_of_succ_lt_succ inside
          rw [List.getElem_cons_succ, inductionHypothesis othersTile later]
          simp

theorem Tiles.data_ne_nil {tail : Bool} {offset : Nat} {rest : List Item}
    {pieces : List (Piece Item)} (tiles : Tiles tail offset rest pieces)
    {piece : Piece Item} (member : piece ∈ pieces) : piece.data ≠ [] := by
  induction pieces generalizing offset rest with
  | nil =>
      cases member
  | cons first others inductionHypothesis =>
      rcases tiles with ⟨_, _, nonempty, _, _, othersTile⟩
      rcases List.mem_cons.mp member with rfl | later
      · exact nonempty
      · exact inductionHypothesis othersTile later

theorem Tiles.more_getLast {offset : Nat} {rest : List Item}
    {pieces : List (Piece Item)} (tiles : Tiles false offset rest pieces)
    {last : Piece Item} (isLast : pieces.getLast? = some last) :
    last.more = false := by
  obtain ⟨inside, rfl⟩ :=
    List.getElem?_eq_some_iff.mp (List.getLast?_eq_getElem?.symm.trans isLast)
  rw [tiles.more_eq inside, decide_eq_false_iff_not]
  omega

theorem Tiles.append {tail : Bool} {offset : Nat}
    {before after : List Item} {first second : List (Piece Item)}
    (firstTiles :
      Tiles (!after.isEmpty || tail) offset before first)
    (secondTiles : Tiles tail (offset + before.length) after second) :
    Tiles tail offset (before ++ after) (first ++ second) := by
  induction first generalizing offset before with
  | nil =>
      obtain rfl : before = [] := firstTiles
      simpa using secondTiles
  | cons piece others inductionHypothesis =>
      rcases firstTiles with ⟨middle, same, nonempty, start, more, othersTile⟩
      subst same
      refine ⟨middle ++ after, List.append_assoc _ _ _, nonempty, start, ?_,
        inductionHypothesis othersTile ?_⟩
      · rw [more]
        cases middle <;> cases after <;> simp
      · simpa [Nat.add_assoc] using secondTiles

/-- Cutting every piece of a tiling further, each into pieces that continue
its offset and its more-flag, gives a tiling of the same payload. -/
theorem Tiles.flatMap {Source : Type v} {tail : Bool} {offset : Nat}
    {data : List Item} {sources : List Source}
    (asPiece : Source → Piece Item)
    (tiles : Tiles tail offset data (sources.map asPiece))
    (cutFurther : Source → List (Piece Item))
    (continues : ∀ source, source ∈ sources →
      Tiles (asPiece source).more (asPiece source).offset
        (asPiece source).data (cutFurther source)) :
    Tiles tail offset data (sources.flatMap cutFurther) := by
  induction sources generalizing offset data with
  | nil =>
      exact tiles
  | cons source others inductionHypothesis =>
      rcases tiles with ⟨after, same, nonempty, start, more, othersTile⟩
      subst same
      have sourceMore :
          (asPiece source).more = (!after.isEmpty || tail) := by
        rw [Bool.eq_iff_iff, more]
        cases after <;> simp
      have sourceTiles := continues source (by simp)
      rw [sourceMore, start] at sourceTiles
      rw [List.flatMap_cons]
      exact sourceTiles.append
        (inductionHypothesis othersTile
          fun other member => continues other (by simp [member]))

/-! ## Cutting -/

/-- Cut into parts of `size` items; the last part may be shorter. -/
def cut (size offset : Nat) (data : List Item) : List (Piece Item) :=
  if data = [] ∨ size = 0 then []
  else
    ⟨offset, decide (size < data.length), data.take size⟩ ::
      cut size (offset + size) (data.drop size)
termination_by data.length
decreasing_by
  simp only [not_or] at *
  rename_i nonempty
  have positive := List.length_pos_of_ne_nil nonempty.1
  rw [List.length_drop]
  omega

theorem cut_nil (size offset : Nat) :
    cut size offset ([] : List Item) = [] := by
  rw [cut, if_pos (Or.inl rfl)]

theorem drop_ne_nil_iff {size : Nat} {data : List Item} :
    data.drop size ≠ [] ↔ size < data.length := by
  rw [ne_eq, List.drop_eq_nil_iff, Nat.not_le]

theorem cut_tiles {size : Nat} (positive : 0 < size) (offset : Nat)
    (data : List Item) : Tiles false offset data (cut size offset data) := by
  fun_induction cut size offset data with
  | case1 offset data done =>
      rcases done with empty | zero
      · exact empty
      · omega
  | case2 offset data notDone inductionHypothesis =>
      rcases not_or.mp notDone with ⟨nonempty, _⟩
      have dataPositive := List.length_pos_of_ne_nil nonempty
      refine ⟨data.drop size, (List.take_append_drop size data).symm,
        ?_, rfl, ?_, ?_⟩
      · apply List.ne_nil_of_length_pos
        rw [List.length_take]
        omega
      · rw [drop_ne_nil_iff]
        simp
      · by_cases last : data.length ≤ size
        · rw [List.drop_of_length_le last] at inductionHypothesis ⊢
          rw [cut_nil]
          exact rfl
        · have full : (data.take size).length = size := by
            rw [List.length_take]
            omega
          rw [full]
          exact inductionHypothesis

/-- What every piece of a cut satisfies: it is not empty, it is full unless it
is the last, and its offset is a whole number of parts after the first. -/
theorem mem_cut {size : Nat} {offset : Nat} {data : List Item}
    {piece : Piece Item} (member : piece ∈ cut size offset data) :
    0 < piece.data.length ∧
      piece.data.length ≤ size ∧
      (piece.more = true → piece.data.length = size) ∧
      size ∣ piece.offset - offset ∧
      offset ≤ piece.offset ∧
      piece.offset + piece.data.length ≤ offset + data.length := by
  fun_induction cut size offset data with
  | case1 offset data done =>
      cases member
  | case2 offset data notDone inductionHypothesis =>
      rcases not_or.mp notDone with ⟨nonempty, nonzero⟩
      have dataPositive := List.length_pos_of_ne_nil nonempty
      rcases List.mem_cons.mp member with rfl | later
      · simp only [List.length_take, decide_eq_true_eq, Nat.sub_self]
        refine ⟨by omega, by omega, by omega, Nat.dvd_zero size,
          Nat.le_refl offset, by omega⟩
      · obtain ⟨pieceNonempty, bounded, full, aligned, after, within⟩ :=
          inductionHypothesis later
        rw [List.length_drop] at within
        have shifted :
            piece.offset - offset =
              (piece.offset - (offset + size)) + size := by
          omega
        refine ⟨pieceNonempty, bounded, full, ?_, by omega, by omega⟩
        rw [shifted]
        exact Nat.dvd_add aligned (Nat.dvd_refl size)

/-! ## Fitting and covering -/

/-- The piece is a part of the payload, at its offset, and says truthfully
whether more follows. -/
def FitsIn (payload : List Item) (piece : Piece Item) : Prop :=
  ∃ before after,
    payload = before ++ piece.data ++ after ∧
      before.length = piece.offset ∧
      (piece.more = true ↔ after ≠ [])

def CoversAt (pieces : List (Piece Item)) (position : Nat) : Prop :=
  ∃ piece, piece ∈ pieces ∧
    piece.offset ≤ position ∧ position < piece.offset + piece.data.length

theorem Tiles.fits (before : List Item) {rest : List Item}
    {pieces : List (Piece Item)}
    (tiles : Tiles false before.length rest pieces)
    {piece : Piece Item} (member : piece ∈ pieces) :
    FitsIn (before ++ rest) piece := by
  induction pieces generalizing before rest with
  | nil =>
      cases member
  | cons first others inductionHypothesis =>
      rcases tiles with ⟨after, same, _, start, more, othersTile⟩
      subst same
      rcases List.mem_cons.mp member with rfl | later
      · exact ⟨before, after, (List.append_assoc _ _ _).symm, start.symm,
          by simpa using more⟩
      · rw [← List.append_assoc]
        refine inductionHypothesis (before ++ first.data) ?_ later
        rwa [List.length_append]

theorem Tiles.covers {tail : Bool} {offset : Nat} {rest : List Item}
    {pieces : List (Piece Item)} (tiles : Tiles tail offset rest pieces)
    {position : Nat} (after : offset ≤ position)
    (inside : position < offset + rest.length) :
    CoversAt pieces position := by
  induction pieces generalizing offset rest with
  | nil =>
      obtain rfl : rest = [] := tiles
      rw [List.length_nil] at inside
      omega
  | cons first others inductionHypothesis =>
      rcases tiles with ⟨remaining, same, _, start, _, othersTile⟩
      subst same
      rw [List.length_append] at inside
      by_cases here : position < offset + first.data.length
      · exact ⟨first, by simp, by omega, by omega⟩
      · obtain ⟨piece, member, bounds⟩ :=
          inductionHypothesis othersTile (by omega) (by omega)
        exact ⟨piece, List.mem_cons_of_mem first member, bounds⟩

/-! ## Reassembly -/

/-- What a receiver has of one payload. -/
structure Assembly (Item : Type u) where
  cells : Nat → Option Item
  total : Option Nat

namespace Assembly

def empty : Assembly Item :=
  ⟨fun _ => none, none⟩

/-- Place an arriving piece; a piece that nothing follows ends the payload. -/
def insert (assembly : Assembly Item) (piece : Piece Item) :
    Assembly Item where
  cells position :=
    if piece.offset ≤ position ∧
        position < piece.offset + piece.data.length then
      piece.data[position - piece.offset]?
    else assembly.cells position
  total :=
    if piece.more then assembly.total
    else some (piece.offset + piece.data.length)

/-- The `count` items from `start` on, when all of them are there. -/
def collect (cells : Nat → Option Item) :
    Nat → Nat → Option (List Item)
  | _, 0 => some []
  | start, count + 1 =>
      match cells start, collect cells (start + 1) count with
      | some item, some rest => some (item :: rest)
      | _, _ => none

def complete (assembly : Assembly Item) : Option (List Item) :=
  match assembly.total with
  | some total => collect assembly.cells 0 total
  | none => none

/-- The receiver has nothing that differs from the payload. -/
structure Agrees (payload : List Item) (assembly : Assembly Item) : Prop where
  cells : ∀ position item,
    assembly.cells position = some item → payload[position]? = some item
  total : ∀ total, assembly.total = some total → total = payload.length

theorem agrees_empty (payload : List Item) :
    Agrees payload (empty : Assembly Item) where
  cells position item found := by cases found
  total total found := by cases found

theorem Agrees.insert {payload : List Item} {assembly : Assembly Item}
    (agrees : Agrees payload assembly) {piece : Piece Item}
    (fits : FitsIn payload piece) :
    Agrees payload (assembly.insert piece) := by
  rcases fits with ⟨before, after, same, start, more⟩
  subst same
  constructor
  · intro position item found
    simp only [Assembly.insert] at found
    split at found
    · rename_i inside
      rw [List.append_assoc, List.getElem?_append_right (by omega), start,
        List.getElem?_append_left (by omega)]
      exact found
    · exact agrees.cells position item found
  · intro total found
    simp only [Assembly.insert] at found
    split at found
    · exact agrees.total total found
    · rename_i last
      have nothingAfter : after = [] := by
        by_contra rest
        exact last (more.2 rest)
      subst nothingAfter
      obtain rfl : piece.offset + piece.data.length = total := by
        simpa using found
      simp [start]

theorem collect_agrees {payload : List Item} {cells : Nat → Option Item}
    (agrees : ∀ position item,
      cells position = some item → payload[position]? = some item)
    {start count : Nat} {items : List Item}
    (collected : collect cells start count = some items) :
    items = (payload.drop start).take count := by
  induction count generalizing start items with
  | zero =>
      obtain rfl : [] = items := by simpa [collect] using collected
      exact List.take_zero.symm
  | succ count inductionHypothesis =>
      rw [collect] at collected
      split at collected
      · rename_i item rest here others
        obtain rfl : item :: rest = items := by simpa using collected
        have found := agrees start item here
        rcases List.getElem?_eq_some_iff.mp found with ⟨inside, value⟩
        rw [List.drop_eq_getElem_cons inside, List.take_succ_cons, value,
          inductionHypothesis others]
      · cases collected

theorem collect_filled {cells : Nat → Option Item} {start count : Nat}
    (filled : ∀ position, start ≤ position → position < start + count →
      (cells position).isSome = true) :
    ∃ items, collect cells start count = some items := by
  induction count generalizing start with
  | zero =>
      exact ⟨[], rfl⟩
  | succ count inductionHypothesis =>
      obtain ⟨item, here⟩ :=
        Option.isSome_iff_exists.mp (filled start (by omega) (by omega))
      obtain ⟨rest, others⟩ :
          ∃ rest, collect cells (start + 1) count = some rest :=
        inductionHypothesis fun position after inside =>
          filled position (by omega) (by omega)
      exact ⟨item :: rest, by rw [collect, here, others]⟩

theorem Agrees.complete_eq {payload : List Item} {assembly : Assembly Item}
    (agrees : Agrees payload assembly) {delivered : List Item}
    (completed : assembly.complete = some delivered) :
    delivered = payload := by
  unfold complete at completed
  split at completed
  · rename_i total known
    have items := collect_agrees agrees.cells completed
    rw [agrees.total total known] at items
    simpa using items
  · cases completed

end Assembly

/-- Deliver at the first arrival that completes the payload. -/
def receive : Assembly Item → List (Piece Item) → Option (List Item)
  | _, [] => none
  | assembly, piece :: rest =>
      match (assembly.insert piece).complete with
      | some payload => some payload
      | none => receive (assembly.insert piece) rest

def reassemble (pieces : List (Piece Item)) : Option (List Item) :=
  receive Assembly.empty pieces

theorem receive_append {assembly : Assembly Item}
    {pieces : List (Piece Item)} {payload : List Item}
    (delivered : receive assembly pieces = some payload)
    (later : List (Piece Item)) :
    receive assembly (pieces ++ later) = some payload := by
  induction pieces generalizing assembly with
  | nil =>
      cases delivered
  | cons piece rest inductionHypothesis =>
      rw [List.cons_append, receive]
      rw [receive] at delivered
      split at delivered
      · exact delivered
      · exact inductionHypothesis delivered

/-- A receiver that agrees with the payload and is not yet complete delivers
the payload, once the arrivals fit, fill every open position and end it. -/
theorem receive_eq {payload : List Item} {assembly : Assembly Item}
    {pieces : List (Piece Item)}
    (agrees : assembly.Agrees payload) (incomplete : assembly.complete = none)
    (fits : ∀ piece, piece ∈ pieces → FitsIn payload piece)
    (filled : ∀ position, position < payload.length →
      (assembly.cells position).isSome = true ∨ CoversAt pieces position)
    (ended : assembly.total.isSome = true ∨
      ∃ piece, piece ∈ pieces ∧ piece.more = false) :
    receive assembly pieces = some payload := by
  induction pieces generalizing assembly with
  | nil =>
      -- Nothing is to come: every position is filled and the end is known.
      obtain ⟨total, known⟩ : ∃ total, assembly.total = some total := by
        rcases ended with found | ⟨piece, member, _⟩
        · exact Option.isSome_iff_exists.mp found
        · cases member
      have allFilled :
          ∀ position, 0 ≤ position → position < 0 + total →
            (assembly.cells position).isSome = true := by
        intro position _ inside
        rw [agrees.total total known] at inside
        rcases filled position (by omega) with here | ⟨piece, member, _⟩
        · exact here
        · cases member
      rcases Assembly.collect_filled allFilled with ⟨items, collected⟩
      rw [Assembly.complete, known] at incomplete
      exact absurd (collected.symm.trans incomplete) (by simp)
  | cons piece rest inductionHypothesis =>
      have nextAgrees := agrees.insert (fits piece (by simp))
      rw [receive]
      split
      · rename_i delivered completed
        rw [nextAgrees.complete_eq completed]
      · rename_i stillIncomplete
        refine inductionHypothesis nextAgrees stillIncomplete
          (fun other member => fits other (by simp [member])) ?_ ?_
        · intro position inside
          by_cases here : piece.offset ≤ position ∧
              position < piece.offset + piece.data.length
          · left
            simp only [Assembly.insert, if_pos here]
            rw [List.getElem?_eq_getElem (by omega)]
            rfl
          · rcases filled position inside with before | ⟨other, member, bounds⟩
            · left
              simpa only [Assembly.insert, if_neg here] using before
            · rcases List.mem_cons.mp member with rfl | later
              · exact absurd bounds here
              · exact Or.inr ⟨other, later, bounds⟩
        · simp only [Assembly.insert]
          by_cases last : piece.more = true
          · rw [if_pos last]
            rcases ended with known | ⟨other, member, otherLast⟩
            · exact Or.inl known
            · rcases List.mem_cons.mp member with rfl | later
              · rw [last] at otherLast
                cases otherLast
              · exact Or.inr ⟨other, later, otherLast⟩
          · rw [if_neg last]
            exact Or.inl rfl

/-- Pieces that tile a payload reassemble to it in every order of arrival. -/
theorem reassemble_of_tiles {payload : List Item} (nonempty : payload ≠ [])
    {pieces arrivals : List (Piece Item)}
    (tiles : Tiles false 0 payload pieces) (order : arrivals.Perm pieces) :
    reassemble arrivals = some payload := by
  have fits : ∀ piece, piece ∈ pieces → FitsIn payload piece := by
    intro piece member
    exact tiles.fits [] member
  have covers :
      ∀ position, position < payload.length → CoversAt pieces position := by
    intro position inside
    exact tiles.covers (Nat.zero_le position) (by omega)
  refine receive_eq (Assembly.agrees_empty payload) rfl
    (fun piece member => fits piece (order.mem_iff.mp member)) ?_ ?_
  · intro position inside
    rcases covers position inside with ⟨piece, member, bounds⟩
    exact Or.inr ⟨piece, order.mem_iff.mpr member, bounds⟩
  · -- The piece that covers the last position has nothing after it.
    have positive := List.length_pos_of_ne_nil nonempty
    obtain ⟨piece, member, _, reaches⟩ :=
      covers (payload.length - 1) (by omega)
    rcases fits piece member with ⟨before, after, shape, start, more⟩
    have nothingAfter : after = [] := by
      apply List.eq_nil_of_length_eq_zero
      have total := congrArg List.length shape
      simp only [List.length_append] at total
      omega
    refine Or.inr ⟨piece, order.mem_iff.mpr member, ?_⟩
    rw [Bool.eq_false_iff, ne_eq, more, nothingAfter]
    exact fun different => different rfl

end Reassembly
