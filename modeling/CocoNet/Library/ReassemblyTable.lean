import Mathlib.Logic.Function.Basic
import CocoNet.Library.Reassembly
import CocoNet.Library.StepMachine

/-!
# Reassembling many payloads at once

A receiver keeps one assembly for each key.  It delivers a payload as soon as
it is complete, and its key starts afresh.

What it delivers under some of the keys depends on the arrivals under these
keys alone.  Pieces that tile a payload in order deliver that payload and
nothing else, whatever earlier pieces have left behind under the key, as long
as none of them was the last of its payload.
-/

universe u v

namespace Reassembly

structure Arrival (Key : Type u) (Item : Type v) where
  key : Key
  piece : Piece Item
  deriving DecidableEq, Repr

structure Delivery (Key : Type u) (Item : Type v) where
  key : Key
  payload : List Item
  deriving DecidableEq, Repr

variable {Key : Type u} {Item : Type v} [DecidableEq Key]

def table :
    StepMachine (Key → Assembly Item) (Arrival Key Item)
      (Delivery Key Item) where
  start _ := Assembly.empty
  step assemblies arrival :=
    let filled := (assemblies arrival.key).insert arrival.piece
    match filled.complete with
    | some payload =>
        (Function.update assemblies arrival.key Assembly.empty,
          [⟨arrival.key, payload⟩])
    | none => (Function.update assemblies arrival.key filled, [])

section Steps

variable {assemblies : Key → Assembly Item} {arrival : Arrival Key Item}

theorem table_step_of_complete {payload : List Item}
    (complete : ((assemblies arrival.key).insert arrival.piece).complete =
      some payload) :
    table.step assemblies arrival =
      (Function.update assemblies arrival.key Assembly.empty,
        [⟨arrival.key, payload⟩]) := by
  simp only [table, complete]

theorem table_step_of_incomplete
    (incomplete : ((assemblies arrival.key).insert arrival.piece).complete =
      none) :
    table.step assemblies arrival =
      (Function.update assemblies arrival.key
        ((assemblies arrival.key).insert arrival.piece), []) := by
  simp only [table, incomplete]

/-- A step leaves the other keys as they are and delivers under its own. -/
theorem table_step_other (assemblies : Key → Assembly Item)
    (arrival : Arrival Key Item) :
    (∀ key, key ≠ arrival.key →
        (table.step assemblies arrival).1 key = assemblies key) ∧
      ∀ delivery, delivery ∈ (table.step assemblies arrival).2 →
        delivery.key = arrival.key := by
  cases complete :
      ((assemblies arrival.key).insert arrival.piece).complete with
  | some payload =>
      rw [table_step_of_complete complete]
      refine ⟨fun key other => Function.update_of_ne other _ _, ?_⟩
      intro delivery member
      rw [List.mem_singleton.1 member]
  | none =>
      rw [table_step_of_incomplete complete]
      refine ⟨fun key other => Function.update_of_ne other _ _, ?_⟩
      intro delivery member
      cases member

/-- A step depends on the assembly of its key alone. -/
theorem table_step_congr {assemblies others : Key → Assembly Item}
    {arrival : Arrival Key Item}
    (same : assemblies arrival.key = others arrival.key) :
    (table.step assemblies arrival).2 = (table.step others arrival).2 ∧
      (table.step assemblies arrival).1 arrival.key =
        (table.step others arrival).1 arrival.key := by
  cases complete :
      ((assemblies arrival.key).insert arrival.piece).complete with
  | some payload =>
      have alike := complete
      rw [same] at alike
      rw [table_step_of_complete complete, table_step_of_complete alike]
      simp
  | none =>
      have alike := complete
      rw [same] at alike
      rw [table_step_of_incomplete complete, table_step_of_incomplete alike]
      simp [same]

end Steps

/-! ## Keys do not disturb each other -/

/-- Of what is delivered, the part under some keys is what the arrivals under
these keys deliver by themselves. -/
theorem table_runFrom_filter (keep : Key → Bool)
    {assemblies others : Key → Assembly Item}
    (agree : ∀ key, keep key = true → assemblies key = others key)
    (arrivals : List (Arrival Key Item)) :
    ((table.runFrom assemblies arrivals).2.filter
        fun delivery => keep delivery.key) =
      (table.runFrom others
        (arrivals.filter fun arrival => keep arrival.key)).2 := by
  induction arrivals generalizing assemblies others with
  | nil =>
      rfl
  | cons arrival rest inductionHypothesis =>
      obtain ⟨elsewhere, ownKey⟩ := table_step_other assemblies arrival
      rw [StepMachine.runFrom, List.filter_append]
      by_cases kept : keep arrival.key = true
      · obtain ⟨sameOutputs, sameKey⟩ :=
          table_step_congr (agree arrival.key kept)
        have survives :
            (arrival :: rest).filter (fun arrival => keep arrival.key) =
              arrival :: rest.filter fun arrival => keep arrival.key :=
          List.filter_cons_of_pos kept
        rw [survives, StepMachine.runFrom]
        have all : (table.step assemblies arrival).2.filter
            (fun delivery => keep delivery.key) =
              (table.step assemblies arrival).2 := by
          apply List.filter_eq_self.2
          intro delivery member
          rw [ownKey delivery member, kept]
        rw [all, sameOutputs]
        congr 1
        apply inductionHypothesis
        intro key keyKept
        by_cases own : key = arrival.key
        · rw [own]
          exact sameKey
        · rw [elsewhere key own, (table_step_other others arrival).1 key own]
          exact agree key keyKept
      · have dropped :
            (arrival :: rest).filter (fun arrival => keep arrival.key) =
              rest.filter fun arrival => keep arrival.key :=
          List.filter_cons_of_neg kept
        have nothing : (table.step assemblies arrival).2.filter
            (fun delivery => keep delivery.key) = [] := by
          apply List.filter_eq_nil_iff.2
          intro delivery member
          rw [ownKey delivery member]
          exact kept
        rw [dropped, nothing, List.nil_append]
        apply inductionHypothesis
        intro key keyKept
        have other : key ≠ arrival.key := by
          intro same
          rw [same] at keyKept
          exact kept keyKept
        rw [elsewhere key other]
        exact agree key keyKept

/-! ## Pieces of one payload in order -/

theorem Tiles.eq_nil {tail : Bool} {offset : Nat}
    {pieces : List (Piece Item)} (tiles : Tiles tail offset [] pieces) :
    pieces = [] := by
  cases pieces with
  | nil =>
      rfl
  | cons piece others =>
      rcases tiles with ⟨after, same, nonempty, _⟩
      exact absurd (List.append_eq_nil_iff.1 same.symm).1 nonempty

theorem Assembly.collect_eq {cells : Nat → Option Item} {start : Nat}
    {items : List Item}
    (filled : ∀ position, position < items.length →
      cells (start + position) = items[position]?) :
    collect cells start items.length = some items := by
  induction items generalizing start with
  | nil =>
      rfl
  | cons item rest inductionHypothesis =>
      have here : cells start = some item := by
        simpa using filled 0 (by simp)
      have others : collect cells (start + 1) rest.length = some rest := by
        apply inductionHypothesis
        intro position inside
        have next := filled (position + 1) (by simpa using inside)
        rw [List.getElem?_cons_succ] at next
        rw [← next]
        congr 1
        omega
      rw [List.length_cons, collect, here, others]

/-- The cells start with these items. -/
def Assembly.StartsWith (assembly : Assembly Item) (items : List Item) :
    Prop :=
  ∀ position, position < items.length →
    assembly.cells position = items[position]?

theorem Assembly.StartsWith.insert {assembly : Assembly Item}
    {items : List Item} (starts : assembly.StartsWith items)
    {piece : Piece Item} (next : piece.offset = items.length) :
    (assembly.insert piece).StartsWith (items ++ piece.data) := by
  intro position inside
  rw [List.length_append] at inside
  simp only [Assembly.insert]
  split
  · rw [List.getElem?_append_right (by omega), next]
  · rw [List.getElem?_append_left (by omega)]
    exact starts position (by omega)

theorem Assembly.StartsWith.complete_eq {assembly : Assembly Item}
    {items : List Item} (starts : assembly.StartsWith items)
    (ends : assembly.total = some items.length) :
    assembly.complete = some items := by
  rw [Assembly.complete, ends]
  apply Assembly.collect_eq
  intro position inside
  rw [Nat.zero_add]
  exact starts position inside

theorem Assembly.complete_of_open {assembly : Assembly Item}
    (isOpen : assembly.total = none) : assembly.complete = none := by
  rw [Assembly.complete, isOpen]

variable {assemblies : Key → Assembly Item} {key : Key}

/-- The rest of a payload, in order, completes it. -/
theorem run_tiles {before rest : List Item} {pieces : List (Piece Item)}
    (isOpen : (assemblies key).total = none)
    (starts : (assemblies key).StartsWith before)
    (tiles : Tiles false before.length rest pieces) (nonempty : rest ≠ []) :
    table.runFrom assemblies (pieces.map (Arrival.mk key)) =
      (Function.update assemblies key Assembly.empty,
        [⟨key, before ++ rest⟩]) := by
  induction pieces generalizing assemblies before rest with
  | nil =>
      exact absurd tiles nonempty
  | cons piece others inductionHypothesis =>
      rcases tiles with ⟨after, same, _, start, more, othersTile⟩
      subst same
      have grown : ((assemblies key).insert piece).StartsWith
          (before ++ piece.data) := starts.insert start
      rw [List.map_cons, StepMachine.runFrom]
      by_cases last : after = []
      · subst last
        have noMore : piece.more = false := by
          rw [Bool.eq_false_iff]
          intro isMore
          simpa using more.1 isMore
        have ends : ((assemblies key).insert piece).total =
            some (before ++ piece.data).length := by
          simp [Assembly.insert, noMore, start]
        rw [table_step_of_complete (grown.complete_eq ends), othersTile.eq_nil]
        simp [StepMachine.runFrom]
      · have isMore : piece.more = true := more.2 (Or.inl last)
        have stillOpen : ((assemblies key).insert piece).total = none := by
          simp [Assembly.insert, isMore, isOpen]
        rw [table_step_of_incomplete (Assembly.complete_of_open stillOpen)]
        have follows : Tiles false (before ++ piece.data).length after others := by
          rwa [List.length_append]
        rw [inductionHypothesis (by simpa using stillOpen)
          (by simpa using grown) follows last]
        simp

/-- The pieces carry the payload, in order: they tile it, or the only piece is
empty as the payload is. -/
def Carries (payload : List Item) (pieces : List (Piece Item)) : Prop :=
  (payload = [] ∧ pieces = [⟨0, false, []⟩]) ∨
    (payload ≠ [] ∧ Tiles false 0 payload pieces)

/-- A payload that arrives in order is delivered, and its key is clear
again. -/
theorem run_carries (isOpen : (assemblies key).total = none)
    {payload : List Item} {pieces : List (Piece Item)}
    (carries : Carries payload pieces) :
    table.runFrom assemblies (pieces.map (Arrival.mk key)) =
      (Function.update assemblies key Assembly.empty, [⟨key, payload⟩]) := by
  have starts : (assemblies key).StartsWith [] := by
    intro position inside
    cases inside
  rcases carries with ⟨empty, single⟩ | ⟨nonempty, tiles⟩
  · subst empty
    subst single
    have complete :
        ((assemblies key).insert ⟨0, false, []⟩).complete = some [] := by
      apply Assembly.StartsWith.complete_eq
      · exact starts.insert rfl
      · simp [Assembly.insert]
    rw [List.map_singleton, StepMachine.runFrom,
      table_step_of_complete complete]
    rfl
  · exact run_tiles isOpen starts tiles nonempty

/-- Pieces that something follows deliver nothing, wherever they start. -/
theorem run_followed (isOpen : (assemblies key).total = none)
    {pieces : List (Piece Item)}
    (followed : ∀ piece, piece ∈ pieces → piece.more = true) :
    (table.runFrom assemblies (pieces.map (Arrival.mk key))).2 = [] ∧
      ((table.runFrom assemblies (pieces.map (Arrival.mk key))).1 key).total =
        none := by
  induction pieces generalizing assemblies with
  | nil =>
      exact ⟨rfl, isOpen⟩
  | cons piece others inductionHypothesis =>
      have isMore := followed piece (by simp)
      have stillOpen : ((assemblies key).insert piece).total = none := by
        simp [Assembly.insert, isMore, isOpen]
      rw [List.map_cons, StepMachine.runFrom,
        table_step_of_incomplete (Assembly.complete_of_open stillOpen)]
      apply inductionHypothesis
      · simpa using stillOpen
      · intro other member
        exact followed other (by simp [member])

end Reassembly
