import Mathlib.Data.List.Infix
import CocoNet.Library.Framing

/-!
# Values on a stream

A writer puts a value on a stream and a reader takes one off its front.  They
are exact for a set of values if the reader takes back what was written, leaves
what follows, and takes nothing but what the writer would have written.  Then
the reader fails on every stream that ends inside a written value.

A payload behind its length is exact if the length is.
-/

universe u v w

namespace StreamCodec

variable {Item : Type u} {Value : Type v} {Failure : Type w}

structure Exact (domain : Value → Prop) (write : Value → List Item)
    (read : List Item → Except Failure (Value × List Item)) : Prop where
  readsBack : ∀ value, domain value → ∀ suffix,
    read (write value ++ suffix) = .ok (value, suffix)
  consumes : ∀ stream value rest, read stream = .ok (value, rest) →
    domain value ∧ stream = write value ++ rest

/-- A stream that ends inside a written value yields nothing: a value read from
it would be followed by the rest of the written one. -/
theorem Exact.fails_short {domain : Value → Prop}
    {write : Value → List Item}
    {read : List Item → Except Failure (Value × List Item)}
    (exact : Exact domain write read) {value : Value}
    (inDomain : domain value) {stream : List Item}
    (isPrefix : stream <+: write value) (short : stream ≠ write value) :
    ∃ failure, read stream = .error failure := by
  cases returned : read stream with
  | error failure =>
      exact ⟨failure, rfl⟩
  | ok taken =>
      rcases taken with ⟨found, rest⟩
      obtain ⟨foundInDomain, shape⟩ := exact.consumes stream found rest returned
      obtain ⟨missing, joined⟩ := isPrefix
      have whole := exact.readsBack value inDomain []
      have again := exact.readsBack found foundInDomain (rest ++ missing)
      rw [← List.append_assoc, ← shape, joined, ← List.append_nil (write value),
        whole] at again
      obtain ⟨_, nothingLeft⟩ := Prod.mk.inj (Except.ok.inj again)
      have noneMissing : missing = [] :=
        (List.append_eq_nil_iff.1 nothingLeft.symm).2
      rw [noneMissing, List.append_nil] at joined
      exact absurd joined short

/-! ## Payloads behind their length -/

/-- Take exactly `count` items. -/
def takeExact (failure : Failure) (count : Nat) (stream : List Item) :
    Except Failure (List Item × List Item) :=
  if count ≤ stream.length then .ok (stream.take count, stream.drop count)
  else .error failure

def writePrefixed (writeLength : Nat → List Item) (payload : List Item) :
    List Item :=
  writeLength payload.length ++ payload

def readPrefixed (failure : Failure)
    (readLength : List Item → Except Failure (Nat × List Item))
    (stream : List Item) : Except Failure (List Item × List Item) := do
  let (count, rest) ← readLength stream
  takeExact failure count rest

theorem takeExact_append (failure : Failure) (payload suffix : List Item) :
    takeExact failure payload.length (payload ++ suffix) =
      .ok (payload, suffix) := by
  rw [takeExact, if_pos (by simp), List.take_left, List.drop_left]

theorem takeExact_eq_ok {failure : Failure} {count : Nat}
    {stream payload rest : List Item}
    (taken : takeExact failure count stream = .ok (payload, rest)) :
    payload.length = count ∧ stream = payload ++ rest := by
  unfold takeExact at taken
  split at taken
  · rename_i enough
    obtain ⟨isPayload, isRest⟩ := Prod.mk.inj (Except.ok.inj taken)
    rw [← isPayload, ← isRest, List.length_take, List.take_append_drop]
    exact ⟨Nat.min_eq_left enough, rfl⟩
  · cases taken

theorem Exact.prefixed {lengths : Nat → Prop}
    {writeLength : Nat → List Item}
    {readLength : List Item → Except Failure (Nat × List Item)}
    (exact : Exact lengths writeLength readLength) (failure : Failure) :
    Exact (fun payload : List Item => lengths payload.length)
      (writePrefixed writeLength) (readPrefixed failure readLength) where
  readsBack payload fits suffix := by
    have count := exact.readsBack payload.length fits (payload ++ suffix)
    rw [writePrefixed, List.append_assoc, readPrefixed, count]
    exact takeExact_append failure payload suffix
  consumes stream payload rest returned := by
    rw [readPrefixed] at returned
    cases counted : readLength stream with
    | error other =>
        rw [counted] at returned
        cases returned
    | ok taken =>
        rcases taken with ⟨count, body⟩
        rw [counted] at returned
        obtain ⟨isLength, isBody⟩ := takeExact_eq_ok returned
        obtain ⟨fits, shape⟩ := exact.consumes stream count body counted
        rw [writePrefixed, isLength, List.append_assoc, ← isBody]
        exact ⟨fits, shape⟩

end StreamCodec

/-! ## Words of four bytes -/

namespace BigEndian

def word32 (first second third fourth : UInt8) : Nat :=
  word first second * 65536 + word third fourth

/-- The four big-endian bytes of a value, truncated to 32 bits. -/
def bytes32 (value : Nat) : List UInt8 :=
  bytes (value / 65536) ++ bytes value

theorem word32_lt (first second third fourth : UInt8) :
    word32 first second third fourth < 2 ^ 32 := by
  have high := word_lt first second
  have low := word_lt third fourth
  unfold word32
  omega

/-- The two bytes of a value are those of its low sixteen bits. -/
theorem bytes_add_mul (high low : Nat) :
    bytes (high * 65536 + low) = bytes low := by
  have octet : ∀ left right : Nat, left % 256 = right % 256 →
      UInt8.ofNat left = UInt8.ofNat right := by
    intro left right same
    apply UInt8.toNat_inj.mp
    rw [UInt8.toNat_ofNat', UInt8.toNat_ofNat', same]
  rw [bytes, bytes, octet ((high * 65536 + low) / 256) (low / 256) (by omega),
    octet (high * 65536 + low) low (by omega)]

theorem bytes32_word32 (first second third fourth : UInt8) :
    bytes32 (word32 first second third fourth) =
      [first, second, third, fourth] := by
  have low := word_lt third fourth
  have highWord : word32 first second third fourth / 65536 =
      word first second := by
    unfold word32
    omega
  rw [bytes32, highWord, word32, bytes_add_mul, bytes_word, bytes_word]
  rfl

theorem word32_bytes_of_lt {value : Nat} (small : value < 2 ^ 32) :
    word32 (UInt8.ofNat (value / 65536 / 256)) (UInt8.ofNat (value / 65536))
        (UInt8.ofNat (value / 256)) (UInt8.ofNat value) =
      value := by
  rw [word32, word_bytes_of_lt (by omega), word_bytes]
  omega

end BigEndian
