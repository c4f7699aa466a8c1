import Mathlib.Data.Nat.Bitwise
import Mathlib.Data.List.Basic

/-!
# Big-endian words and length-prefixed frames

A frame is a two-byte big-endian length followed by that many bytes.  The
decoder takes frames off the front of a byte string until it has taken the
number asked for or the rest does not begin with a complete frame.
-/

/-! ## Sixteen-bit words -/

namespace BigEndian

def word (high low : UInt8) : Nat :=
  high.toNat * 256 + low.toNat

/-- The two big-endian bytes of a value, truncated to sixteen bits. -/
def bytes (value : Nat) : List UInt8 :=
  [UInt8.ofNat (value / 256), UInt8.ofNat value]

@[simp]
theorem length_bytes (value : Nat) : (bytes value).length = 2 :=
  rfl

theorem word_lt (high low : UInt8) : word high low < 65536 := by
  have highBound := high.toNat_lt
  have lowBound := low.toNat_lt
  unfold word
  omega

theorem word_bytes (value : Nat) :
    word (UInt8.ofNat (value / 256)) (UInt8.ofNat value) = value % 65536 := by
  simp only [word, UInt8.toNat_ofNat']
  omega

theorem word_bytes_of_lt {value : Nat} (small : value < 65536) :
    word (UInt8.ofNat (value / 256)) (UInt8.ofNat value) = value := by
  rw [word_bytes, Nat.mod_eq_of_lt small]

theorem bytes_word (high low : UInt8) :
    bytes (word high low) = [high, low] := by
  have lowBound := low.toNat_lt
  have highByte : word high low / 256 = high.toNat := by
    unfold word
    omega
  have lowByte : UInt8.ofNat (word high low) = low := by
    apply UInt8.toNat_inj.mp
    rw [UInt8.toNat_ofNat', word]
    omega
  rw [bytes, highByte, lowByte, UInt8.ofNat_toNat]

theorem shift_or_eq_word (high low : UInt8) :
    high.toNat <<< 8 ||| low.toNat = word high low := by
  have lowBound : low.toNat < 2 ^ 8 := low.toNat_lt
  rw [← Nat.shiftLeft_add_eq_or_of_lt lowBound, Nat.shiftLeft_eq, word]

end BigEndian

/-! ## Frames -/

namespace Framing

/-- One frame: the length of the body, then the body. -/
def encodeFrame (body : List UInt8) : List UInt8 :=
  BigEndian.bytes body.length ++ body

def encodeFrames (bodies : List (List UInt8)) : List UInt8 :=
  bodies.flatMap encodeFrame

/-- Take one complete frame off the front, if there is one. -/
def takeFrame : List UInt8 → Option (List UInt8 × List UInt8)
  | high :: low :: rest =>
      if BigEndian.word high low ≤ rest.length then
        some (rest.take (BigEndian.word high low),
          rest.drop (BigEndian.word high low))
      else none
  | _ => none

/-- Take at most `count` complete frames; also return what follows them. -/
def takeFrames : Nat → List UInt8 → List (List UInt8) × List UInt8
  | 0, input => ([], input)
  | count + 1, input =>
      match takeFrame input with
      | none => ([], input)
      | some (body, rest) =>
          (body :: (takeFrames count rest).1, (takeFrames count rest).2)

@[simp]
theorem encodeFrames_nil : encodeFrames [] = [] :=
  rfl

@[simp]
theorem encodeFrames_cons (body : List UInt8) (rest : List (List UInt8)) :
    encodeFrames (body :: rest) = encodeFrame body ++ encodeFrames rest :=
  rfl

@[simp]
theorem encodeFrames_append (first second : List (List UInt8)) :
    encodeFrames (first ++ second) =
      encodeFrames first ++ encodeFrames second := by
  simp [encodeFrames]

@[simp]
theorem length_encodeFrame (body : List UInt8) :
    (encodeFrame body).length = body.length + 2 := by
  simp [encodeFrame, Nat.add_comm]

theorem takeFrame_encodeFrame
    {body : List UInt8} (small : body.length < 65536) (rest : List UInt8) :
    takeFrame (encodeFrame body ++ rest) = some (body, rest) := by
  simp only [encodeFrame, BigEndian.bytes, List.cons_append,
    List.nil_append, takeFrame, BigEndian.word_bytes_of_lt small]
  simp

theorem takeFrame_of_short {input : List UInt8} (short : input.length < 2) :
    takeFrame input = none := by
  cases input with
  | nil =>
      rfl
  | cons first others =>
      cases others with
      | nil =>
          rfl
      | cons second rest =>
          simp only [List.length_cons] at short
          omega

/-- Decoding undoes encoding and leaves exactly what followed the frames. -/
theorem takeFrames_encodeFrames
    {bodies : List (List UInt8)}
    (small : ∀ body, body ∈ bodies → body.length < 65536)
    (rest : List UInt8) :
    takeFrames bodies.length (encodeFrames bodies ++ rest) =
      (bodies, rest) := by
  induction bodies with
  | nil =>
      rfl
  | cons body others inductionHypothesis =>
      have bodySmall := small body (by simp)
      have othersSmall :
          ∀ other, other ∈ others → other.length < 65536 :=
        fun other member => small other (List.mem_cons_of_mem body member)
      simp only [List.length_cons, encodeFrames_cons, List.append_assoc,
        takeFrames, takeFrame_encodeFrame bodySmall,
        inductionHypothesis othersSmall]

/-! ## What the decoder takes -/

theorem encodeFrame_word (high low : UInt8) {body : List UInt8}
    (length : body.length = BigEndian.word high low) :
    encodeFrame body = high :: low :: body := by
  rw [encodeFrame, length, BigEndian.bytes_word]
  rfl

theorem takeFrame_eq_some_iff (input body rest : List UInt8) :
    takeFrame input = some (body, rest) ↔
      body.length < 65536 ∧ input = encodeFrame body ++ rest := by
  constructor
  · intro taken
    cases input with
    | nil =>
        cases taken
    | cons high others =>
        cases others with
        | nil =>
            cases taken
        | cons low tail =>
            rw [takeFrame] at taken
            split at taken
            · rename_i complete
              rcases Prod.mk.inj (Option.some.inj taken) with ⟨isBody, isRest⟩
              have length : body.length = BigEndian.word high low := by
                rw [← isBody, List.length_take]
                exact Nat.min_eq_left complete
              refine ⟨length ▸ BigEndian.word_lt high low, ?_⟩
              rw [encodeFrame_word high low length, ← isBody, ← isRest]
              simp
            · cases taken
  · intro ⟨small, shape⟩
    rw [shape]
    exact takeFrame_encodeFrame small rest

/-- The input does not begin with a complete frame. -/
def NoFrame (input : List UInt8) : Prop :=
  ∀ body rest, body.length < 65536 → input ≠ encodeFrame body ++ rest

theorem takeFrame_eq_none_iff (input : List UInt8) :
    takeFrame input = none ↔ NoFrame input := by
  rw [Option.eq_none_iff_forall_not_mem]
  constructor
  · intro none body rest small shape
    exact none (body, rest) ((takeFrame_eq_some_iff _ _ _).2 ⟨small, shape⟩)
  · intro none taken isTaken
    rcases (takeFrame_eq_some_iff _ _ _).1 isTaken with ⟨small, shape⟩
    exact none taken.1 taken.2 small shape

/-- The frames of `bodies` stand at the front of the input: at most `count`,
and as many as there are. -/
structure Maximal (count : Nat) (input : List UInt8)
    (bodies : List (List UInt8)) (rest : List UInt8) : Prop where
  shape : input = encodeFrames bodies ++ rest
  small : ∀ body, body ∈ bodies → body.length < 65536
  few : bodies.length ≤ count
  stops : bodies.length = count ∨ NoFrame rest

theorem takeFrames_maximal (count : Nat) (input : List UInt8) :
    Maximal count input (takeFrames count input).1
      (takeFrames count input).2 := by
  induction count generalizing input with
  | zero =>
      exact ⟨rfl, by simp [takeFrames], Nat.le_refl 0, Or.inl rfl⟩
  | succ count inductionHypothesis =>
      cases taken : takeFrame input with
      | none =>
          simp only [takeFrames, taken]
          exact ⟨rfl, by simp, Nat.zero_le _,
            Or.inr ((takeFrame_eq_none_iff input).1 taken)⟩
      | some frame =>
          rcases frame with ⟨body, rest⟩
          rcases (takeFrame_eq_some_iff _ _ _).1 taken with ⟨small, shape⟩
          have others := inductionHypothesis rest
          simp only [takeFrames, taken]
          refine ⟨?_, ?_, Nat.succ_le_succ others.few, ?_⟩
          · rw [encodeFrames_cons, List.append_assoc, ← others.shape]
            exact shape
          · intro other member
            rcases List.mem_cons.1 member with isBody | later
            · rwa [isBody]
            · exact others.small other later
          · rw [List.length_cons, Nat.add_right_cancel_iff]
            exact others.stops

/-- Only what the decoder takes is maximal. -/
theorem Maximal.eq_takeFrames {count : Nat} {input rest : List UInt8}
    {bodies : List (List UInt8)}
    (maximal : Maximal count input bodies rest) :
    takeFrames count input = (bodies, rest) := by
  induction bodies generalizing count input with
  | nil =>
      have sameInput : input = rest := by
        simpa using maximal.shape
      subst sameInput
      cases count with
      | zero =>
          rfl
      | succ count =>
          have noFrame : NoFrame input := by
            simpa using maximal.stops
          rw [takeFrames, (takeFrame_eq_none_iff input).2 noFrame]
  | cons body others inductionHypothesis =>
      cases count with
      | zero =>
          have few := maximal.few
          simp at few
      | succ count =>
          have others : Maximal count (encodeFrames others ++ rest) others
              rest := by
            refine ⟨rfl, ?_, ?_, ?_⟩
            · intro other member
              exact maximal.small other (List.mem_cons_of_mem body member)
            · exact Nat.le_of_succ_le_succ maximal.few
            · simpa using maximal.stops
          have bodySmall := maximal.small body (by simp)
          rw [maximal.shape, encodeFrames_cons, List.append_assoc]
          simp only [takeFrames, takeFrame_encodeFrame bodySmall,
            inductionHypothesis others]

/-- From the beginning of an input the decoder takes the beginning of what it
takes from the whole. -/
theorem takeFrames_append_prefix (count : Nat) (front tail : List UInt8) :
    (takeFrames count front).1 <+: (takeFrames count (front ++ tail)).1 := by
  induction count generalizing front with
  | zero =>
      exact List.nil_prefix
  | succ count inductionHypothesis =>
      cases taken : takeFrame front with
      | none =>
          simp only [takeFrames, taken]
          exact List.nil_prefix
      | some frame =>
          rcases frame with ⟨body, rest⟩
          rcases (takeFrame_eq_some_iff _ _ _).1 taken with ⟨small, shape⟩
          have sameFrame :
              takeFrame (front ++ tail) = some (body, rest ++ tail) := by
            rw [takeFrame_eq_some_iff, shape, List.append_assoc]
            exact ⟨small, rfl⟩
          simp only [takeFrames, taken, sameFrame]
          exact (List.prefix_cons_inj body).2 (inductionHypothesis rest)

/-! ## Where the bodies stand -/

/-- The first and last index of each body, when the frames start at an
index. -/
def extents (start : Nat) : List (List UInt8) → List (Nat × Nat)
  | [] => []
  | body :: rest =>
      (start + 2, start + 2 + body.length) ::
        extents (start + 2 + body.length) rest

theorem extents_bounds {start : Nat} {bodies : List (List UInt8)}
    {extent : Nat × Nat} (member : extent ∈ extents start bodies) :
    start < extent.1 ∧ extent.1 ≤ extent.2 ∧
      extent.2 ≤ start + (encodeFrames bodies).length := by
  induction bodies generalizing start with
  | nil =>
      cases member
  | cons body rest inductionHypothesis =>
      rw [encodeFrames_cons, List.length_append, length_encodeFrame]
      rcases List.mem_cons.1 member with isFirst | later
      · rw [isFirst]
        simp only
        omega
      · have bounds := inductionHypothesis later
        omega

/-- The bodies do not overlap, and stand in order. -/
theorem extents_pairwise (start : Nat) (bodies : List (List UInt8)) :
    (extents start bodies).Pairwise fun first second =>
      first.2 < second.1 := by
  induction bodies generalizing start with
  | nil =>
      exact List.Pairwise.nil
  | cons body rest inductionHypothesis =>
      refine List.Pairwise.cons ?_ (inductionHypothesis _)
      intro extent member
      exact (extents_bounds member).1

theorem map_extents (front : List UInt8) (bodies : List (List UInt8))
    (rest : List UInt8) :
    (extents front.length bodies).map (fun extent =>
        ((front ++ encodeFrames bodies ++ rest).drop extent.1).take
          (extent.2 - extent.1)) =
      bodies := by
  induction bodies generalizing front with
  | nil =>
      rfl
  | cons body others inductionHypothesis =>
      have moved := inductionHypothesis (front ++ encodeFrame body)
      have length : (front ++ encodeFrame body).length =
          front.length + 2 + body.length := by
        rw [List.length_append, length_encodeFrame]
        omega
      rw [length] at moved
      have shape : front ++ encodeFrames (body :: others) ++ rest =
          front ++ encodeFrame body ++ encodeFrames others ++ rest := by
        simp
      rw [extents, List.map_cons, shape, moved, Nat.add_sub_cancel_left]
      congr 1
      have fields : (front ++ BigEndian.bytes body.length).length =
          front.length + 2 := by
        simp
      have split : front ++ encodeFrame body ++ encodeFrames others ++ rest =
          (front ++ BigEndian.bytes body.length) ++
            (body ++ (encodeFrames others ++ rest)) := by
        simp [encodeFrame]
      rw [split, ← fields, List.drop_left, List.take_left]

end Framing
