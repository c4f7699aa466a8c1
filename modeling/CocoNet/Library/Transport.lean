import Mathlib.Data.List.Flatten
import Mathlib.Data.List.Infix
import Mathlib.Data.List.Sort

/-!
# A log of messages and what a receiver makes of it

A sender logs its messages, each with the items it carries.  A receiver gets
messages by their positions in the log, in whatever order and as often as the
network pleases.  What it has received then depends on the positions alone:
with no position twice no item is received more often than it was sent, and
with increasing positions the items come in order.
-/

universe u

namespace Transport

variable {Item : Type u}

/-- The items of the messages at the given positions. -/
def received (log : List (List Item)) (positions : List Nat) : List Item :=
  positions.flatMap fun position => (log[position]?).getD []

@[simp]
theorem received_nil (log : List (List Item)) : received log [] = [] :=
  rfl

theorem received_snoc {log : List (List Item)} {position : Nat}
    {items : List Item} (sent : log[position]? = some items)
    (positions : List Nat) :
    received log (positions ++ [position]) =
      received log positions ++ items := by
  simp [received, sent]

/-- What was received stays the same when the log grows. -/
theorem received_append {log : List (List Item)} {positions : List Nat}
    (sent : ∀ position, position ∈ positions → position < log.length)
    (more : List (List Item)) :
    received (log ++ more) positions = received log positions := by
  apply List.flatMap_congr
  intro position member
  rw [List.getElem?_append_left (sent position member)]

theorem mem_flatten_of_mem_received {log : List (List Item)}
    {positions : List Nat} {item : Item}
    (member : item ∈ received log positions) : item ∈ log.flatten := by
  obtain ⟨position, _, inMessage⟩ := List.mem_flatMap.1 member
  cases sent : log[position]? with
  | none =>
      simp [sent] at inMessage
  | some items =>
      rw [sent, Option.getD_some] at inMessage
      exact List.mem_flatten.2 ⟨items, List.mem_of_getElem? sent, inMessage⟩

/-- Receiving every message once, in order, is receiving the whole log. -/
theorem received_range (log : List (List Item)) :
    received log (List.range log.length) = log.flatten := by
  induction log using List.reverseRecOn with
  | nil =>
      rfl
  | append_singleton before message inductionHypothesis =>
      have atEnd : (before ++ [message])[before.length]? = some message := by
        simp
      rw [List.length_append, List.length_singleton, List.range_succ,
        received_snoc atEnd, received_append (by simp), inductionHypothesis]
      simp

section Positions

variable {log : List (List Item)} {positions : List Nat}

theorem positions_subperm_range (nodup : positions.Nodup)
    (sent : ∀ position, position ∈ positions → position < log.length) :
    positions.Subperm (List.range log.length) :=
  List.subperm_of_subset nodup fun position member =>
    List.mem_range.2 (sent position member)

theorem received_subperm (nodup : positions.Nodup)
    (sent : ∀ position, position ∈ positions → position < log.length) :
    (received log positions).Subperm log.flatten := by
  obtain ⟨arranged, order, part⟩ := positions_subperm_range nodup sent
  refine ⟨received log arranged, order.flatMap_right _, ?_⟩
  rw [← received_range log]
  exact part.flatMap _

theorem received_sublist (increasing : positions.Pairwise (· < ·))
    (sent : ∀ position, position ∈ positions → position < log.length) :
    (received log positions).Sublist log.flatten := by
  have nodup : positions.Nodup :=
    increasing.imp fun smaller => Nat.ne_of_lt smaller
  have part : positions.Sublist (List.range log.length) :=
    List.sublist_of_subperm_of_pairwise (positions_subperm_range nodup sent)
      increasing List.pairwise_lt_range
  rw [← received_range log]
  exact part.flatMap _

end Positions

end Transport
