import Mathlib.Data.Nat.ModEq
import Mathlib.Algebra.BigOperators.Group.List.Basic

/-!
# Ones' complement sums

Words up to `top` are added with the carry brought round to the low end, so a
sum keeps its remainder modulo `top`.  Zero has two representations, and a sum
is zero only where every word is: among the words these two facts determine it.
A checksum is what is left to `top`, and words that include their checksum sum
to `top`.
-/

namespace OnesComplement

variable (top : Nat)

/-- Addition with end-around carry. -/
def add (left right : Nat) : Nat :=
  if left + right ≤ top then left + right else left + right - top

def sum (words : List Nat) : Nat :=
  words.foldl (add top) 0

section Addition

variable {top} {left right : Nat}

theorem add_le (leftFits : left ≤ top) (rightFits : right ≤ top) :
    add top left right ≤ top := by
  unfold add
  split <;> omega

theorem add_modEq (top left right : Nat) :
    add top left right ≡ left + right [MOD top] := by
  unfold add
  split
  · exact Nat.ModEq.refl _
  · rename_i carries
    have whole : left + right - top + top = left + right := by
      omega
    have reduced : left + right - top ≡ left + right - top + top [MOD top] :=
      (Nat.add_modEq_right).symm
    rwa [whole] at reduced

theorem add_eq_zero_iff (top left right : Nat) :
    add top left right = 0 ↔ left + right = 0 := by
  unfold add
  split <;> omega

end Addition

/-! ## Sums of words -/

section Sums

variable {top} {words : List Nat}

theorem foldl_add_le (fits : ∀ word, word ∈ words → word ≤ top) {start : Nat}
    (startFits : start ≤ top) : words.foldl (add top) start ≤ top := by
  induction words generalizing start with
  | nil =>
      exact startFits
  | cons word rest inductionHypothesis =>
      rw [List.foldl_cons]
      apply inductionHypothesis fun other member =>
        fits other (List.mem_cons_of_mem word member)
      exact add_le startFits (fits word (by simp))

theorem foldl_add_modEq (top : Nat) (words : List Nat) (start : Nat) :
    words.foldl (add top) start ≡ start + words.sum [MOD top] := by
  induction words generalizing start with
  | nil =>
      exact Nat.ModEq.refl _
  | cons word rest inductionHypothesis =>
      rw [List.foldl_cons, List.sum_cons, ← Nat.add_assoc]
      exact (inductionHypothesis _).trans
        (Nat.ModEq.add_right rest.sum (add_modEq top start word))

theorem foldl_add_eq_zero_iff (top : Nat) (words : List Nat)
    (start : Nat) :
    words.foldl (add top) start = 0 ↔ start + words.sum = 0 := by
  induction words generalizing start with
  | nil =>
      simp
  | cons word rest inductionHypothesis =>
      have first := add_eq_zero_iff top start word
      rw [List.foldl_cons, inductionHypothesis, List.sum_cons]
      omega

theorem sum_le (fits : ∀ word, word ∈ words → word ≤ top) :
    sum top words ≤ top :=
  foldl_add_le fits (Nat.zero_le top)

theorem sum_modEq (top : Nat) (words : List Nat) :
    sum top words ≡ words.sum [MOD top] := by
  have total := foldl_add_modEq top words 0
  rwa [Nat.zero_add] at total

theorem sum_eq_zero_iff (top : Nat) (words : List Nat) :
    sum top words = 0 ↔ words.sum = 0 := by
  have zero := foldl_add_eq_zero_iff top words 0
  rwa [Nat.zero_add] at zero

/-- A word is determined by its remainder and by whether it is zero. -/
theorem eq_of_modEq {left right : Nat} (leftFits : left ≤ top)
    (rightFits : right ≤ top) (same : left ≡ right [MOD top])
    (zero : left = 0 ↔ right = 0) : left = right := by
  by_cases isZero : left = 0
  · rw [isZero, zero.1 isZero]
  · have rightPositive : right ≠ 0 := fun isNone => isZero (zero.2 isNone)
    have shifted : left - 1 ≡ right - 1 [MOD top] := by
      apply Nat.ModEq.add_right_cancel' 1
      rwa [Nat.sub_add_cancel (by omega), Nat.sub_add_cancel (by omega)]
    have equal := shifted.eq_of_lt_of_lt (by omega) (by omega)
    omega

theorem sum_eq_iff (fits : ∀ word, word ∈ words → word ≤ top) {value : Nat}
    (valueFits : value ≤ top) :
    sum top words = value ↔
      value ≡ words.sum [MOD top] ∧ (value = 0 ↔ words.sum = 0) := by
  constructor
  · intro same
    rw [← same]
    exact ⟨sum_modEq top words, sum_eq_zero_iff top words⟩
  · intro ⟨congruent, zero⟩
    apply eq_of_modEq (sum_le fits) valueFits
    · exact (sum_modEq top words).trans congruent.symm
    · rw [sum_eq_zero_iff, zero]

/-- Words whose total exceeds that of `words` by their checksum sum to
`top`. -/
theorem sum_eq_top (positive : 0 < top)
    (fits : ∀ word, word ∈ words → word ≤ top) {closed : List Nat}
    (closedFits : ∀ word, word ∈ closed → word ≤ top)
    (total : closed.sum = words.sum + (top - sum top words)) :
    sum top closed = top := by
  have bounded := sum_le fits
  have none := sum_eq_zero_iff top words
  apply (sum_eq_iff closedFits (Nat.le_refl top)).2
  constructor
  · have whole : sum top words + (top - sum top words) = top := by
      omega
    have shifted :=
      Nat.ModEq.add_right (top - sum top words) (sum_modEq top words)
    rwa [whole, ← total] at shifted
  · omega

end Sums

end OnesComplement
