import Mathlib.Data.Nat.Bitwise
import Mathlib.Data.List.Basic

/-!
# Computations that stop at their first fault

Indexing, slicing, bounded arithmetic and loops whose failure ends the program
return the value or the fault that ended it.  Each operation comes with the
lemma that says when it returns a value, so that a proof that no fault occurs
is a proof that every side condition holds where the operation is performed.
-/

universe u

/-- Why a computation stopped without a value. -/
inductive Fault where
  | indexOutOfRange
  | sliceOutOfRange
  | lengthMismatch
  | underflow
  | overflow
  | outOfFuel
  deriving DecidableEq, Repr

abbrev Checked (Value : Type u) := Except Fault Value

namespace Checked

variable {Item Result : Type u}

def Succeeds (computation : Checked Item) : Prop :=
  ∃ value, computation = .ok value

@[simp]
theorem ok_bind (value : Item) (next : Item → Checked Result) :
    ((.ok value : Checked Item) >>= next) = next value :=
  rfl

@[simp]
theorem error_bind (fault : Fault) (next : Item → Checked Result) :
    ((.error fault : Checked Item) >>= next) = .error fault :=
  rfl

/-- What a computation in two parts returned, its parts returned. -/
theorem bind_eq_ok {first : Checked Item} {next : Item → Checked Result}
    {result : Result} (returned : (first >>= next) = .ok result) :
    ∃ value, first = .ok value ∧ next value = .ok result := by
  cases first with
  | error fault =>
      cases returned
  | ok value =>
      exact ⟨value, rfl, returned⟩

/-! ## Computations side by side -/

/-- Both computations return related values, or both stop at the same fault. -/
inductive Related {Other : Type u} (related : Item → Other → Prop) :
    Checked Item → Checked Other → Prop where
  | ok {value : Item} {other : Other} (both : related value other) :
      Related related (.ok value) (.ok other)
  | error (fault : Fault) : Related related (.error fault) (.error fault)

theorem Related.same (computation : Checked Item) :
    Related Eq computation computation := by
  cases computation with
  | error fault =>
      exact Related.error fault
  | ok value =>
      exact Related.ok rfl

/-- Related parts make related wholes. -/
theorem Related.bind {Other OtherResult : Type u}
    {related : Item → Other → Prop}
    {relatedResults : Result → OtherResult → Prop}
    {first : Checked Item} {second : Checked Other}
    {next : Item → Checked Result} {otherNext : Other → Checked OtherResult}
    (parts : Related related first second)
    (rests : ∀ value other, related value other →
      Related relatedResults (next value) (otherNext other)) :
    Related relatedResults (first >>= next) (second >>= otherNext) := by
  cases parts with
  | error fault =>
      exact Related.error fault
  | ok both =>
      exact rests _ _ both

/-! ## Slices -/

/-- `items[position]`. -/
def index (items : List Item) (position : Nat) : Checked Item :=
  match items[position]? with
  | some item => .ok item
  | none => .error .indexOutOfRange

/-- `items[position] = value`. -/
def update (items : List Item) (position : Nat) (value : Item) :
    Checked (List Item) :=
  if position < items.length then .ok (items.set position value)
  else .error .indexOutOfRange

/-- `&items[first..last]`. -/
def slice (items : List Item) (first last : Nat) : Checked (List Item) :=
  if first ≤ last ∧ last ≤ items.length then
    .ok ((items.drop first).take (last - first))
  else .error .sliceOutOfRange

/-- `items[first..last].copy_from_slice(source)`. -/
def copyFromSlice (items : List Item) (first last : Nat)
    (source : List Item) : Checked (List Item) :=
  if first ≤ last ∧ last ≤ items.length then
    if source.length = last - first then
      .ok (items.take first ++ source ++ items.drop last)
    else .error .lengthMismatch
  else .error .sliceOutOfRange

theorem index_eq_ok {items : List Item} {position : Nat}
    (inside : position < items.length) :
    index items position = .ok items[position] := by
  simp [index, inside]

theorem index_eq_getD {items : List Item} {position : Nat} (default : Item)
    (inside : position < items.length) :
    index items position = .ok (items.getD position default) := by
  simp [index, inside]

theorem update_eq_ok {items : List Item} {position : Nat} (value : Item)
    (inside : position < items.length) :
    update items position value = .ok (items.set position value) :=
  if_pos inside

theorem slice_eq_ok {items : List Item} {first last : Nat}
    (ordered : first ≤ last) (inside : last ≤ items.length) :
    slice items first last = .ok ((items.drop first).take (last - first)) :=
  if_pos ⟨ordered, inside⟩

theorem copyFromSlice_middle (left middle right source : List Item)
    (same : source.length = middle.length) :
    copyFromSlice (left ++ middle ++ right) left.length
        (left.length + middle.length) source =
      .ok (left ++ source ++ right) := by
  have inside :
      left.length ≤ left.length + middle.length ∧
        left.length + middle.length ≤ (left ++ middle ++ right).length := by
    simp
  have before :
      (left ++ middle ++ right).take left.length = left := by
    rw [List.append_assoc, List.take_left]
  have after :
      (left ++ middle ++ right).drop (left.length + middle.length) =
        right := by
    rw [← List.length_append, List.drop_left]
  rw [copyFromSlice, if_pos inside, if_pos (by omega), before, after]

/-- A copy leaves what is outside of its range. -/
theorem getElem?_middle (left middle right source : List Item)
    (same : source.length = middle.length) {position : Nat}
    (outside :
      position < left.length ∨ left.length + middle.length ≤ position) :
    (left ++ source ++ right)[position]? =
      (left ++ middle ++ right)[position]? := by
  rcases outside with before | after
  · rw [List.append_assoc, List.append_assoc,
      List.getElem?_append_left before, List.getElem?_append_left before]
  · rw [List.getElem?_append_right (by rw [List.length_append]; omega),
      List.getElem?_append_right (by rw [List.length_append]; omega),
      List.length_append, List.length_append, same]

/-! ## Bounded arithmetic -/

/-- Addition in a type whose values are below `bound`. -/
def add (bound left right : Nat) : Checked Nat :=
  if left + right < bound then .ok (left + right) else .error .overflow

def mul (bound left right : Nat) : Checked Nat :=
  if left * right < bound then .ok (left * right) else .error .overflow

def sub (left right : Nat) : Checked Nat :=
  if right ≤ left then .ok (left - right) else .error .underflow

theorem add_eq_ok {bound left right : Nat} (fits : left + right < bound) :
    add bound left right = .ok (left + right) :=
  if_pos fits

theorem mul_eq_ok {bound left right : Nat} (fits : left * right < bound) :
    mul bound left right = .ok (left * right) :=
  if_pos fits

theorem sub_eq_ok {left right : Nat} (enough : right ≤ left) :
    sub left right = .ok (left - right) :=
  if_pos enough

theorem sub_eq_error {left right : Nat} (short : left < right) :
    sub left right = .error .underflow :=
  if_neg (Nat.not_le_of_lt short)

end Checked
