import CocoNet.P2p.BatchBuilder

/-!
# Unpacking an inbound message

The gossipsub handler and the request-response handler unpack a message in the
same way.  A message with the batch header yields the frames after it, at most
as many as the header counts; anything else is delivered whole.

The loop keeps an index into the message.  It agrees with taking frames off the
rest of the message from that index, and it never faults: the index stays below
five plus a frame's largest size for each round.
-/

namespace CocoNet

/-- The packets a receiver sends to the TUN side, and the index at which it
stopped reading the message. -/
structure Unpacked where
  packets : List Bytes
  consumed : Nat
  deriving DecidableEq, Repr

/-- `data.len() >= 5 && &data[0..2] == b"CO" && data[2] == 0x01`. -/
def hasBatchHeader (data : Bytes) : Checked Bool :=
  if 5 ≤ data.length then do
    let start ← Checked.slice data 0 2
    if start = magic then do
      let version ← Checked.index data 2
      .ok (version == 0x01)
    else .ok false
  else .ok false

/-- `for _ in 0..count`, from the index `idx` on. -/
def unpackLoop (data : Bytes) : Nat → Nat → Checked Unpacked
  | 0, idx => .ok ⟨[], idx⟩
  | count + 1, idx => do
      let body ← Checked.add usizeBound idx 2
      if body > data.length then .ok ⟨[], idx⟩
      else do
        let high ← Checked.index data idx
        let lowIdx ← Checked.add usizeBound idx 1
        let low ← Checked.index data lowIdx
        let last ← Checked.add usizeBound body (BigEndian.word high low)
        -- The length field has been read: the index is already past it.
        if last > data.length then .ok ⟨[], body⟩
        else do
          let packet ← Checked.slice data body last
          let rest ← unpackLoop data count last
          .ok ⟨packet :: rest.packets, rest.consumed⟩

/-- Unpack one message, as both handlers do. -/
def unpackBatch (data : Bytes) : Checked Unpacked := do
  if ← hasBatchHeader data then do
    let high ← Checked.index data 3
    let low ← Checked.index data 4
    unpackLoop data (high.toNat <<< 8 ||| low.toNat) 5
  else .ok ⟨[data], data.length⟩

def unpackGossip (data : Bytes) : Checked Unpacked :=
  unpackBatch data

def unpackRequest (request : Bytes) : Checked Unpacked :=
  unpackBatch request

/-! ## The loop takes frames -/

/-- With the index inside the message and room for `count` frames of the
largest size below the bound, the loop delivers the frames that follow the
index.  If it found as many as it was asked for, it stopped where they end. -/
theorem unpackLoop_eq_takeFrames
    (data : Bytes) (count idx : Nat) (inside : idx ≤ data.length)
    (room : idx + count * 65537 < usizeBound) :
    ∃ result, unpackLoop data count idx = .ok result ∧
      result.packets = (Framing.takeFrames count (data.drop idx)).1 ∧
      (result.packets.length = count →
        result.consumed +
          (Framing.takeFrames count (data.drop idx)).2.length =
            data.length) := by
  induction count generalizing idx with
  | zero =>
      refine ⟨⟨[], idx⟩, rfl, rfl, fun _ => ?_⟩
      simp only [Framing.takeFrames, List.length_drop]
      omega
  | succ count inductionHypothesis =>
      rw [unpackLoop, Checked.add_eq_ok (by omega), Checked.ok_bind]
      by_cases short : idx + 2 > data.length
      · have noFrame : Framing.takeFrame (data.drop idx) = none := by
          apply Framing.takeFrame_of_short
          rw [List.length_drop]
          omega
        rw [if_pos short]
        exact ⟨_, rfl, by simp [Framing.takeFrames, noFrame], by simp⟩
      · rw [if_neg short, Checked.index_eq_ok (by omega), Checked.ok_bind,
          Checked.add_eq_ok (by omega), Checked.ok_bind,
          Checked.index_eq_ok (by omega), Checked.ok_bind]
        generalize highShape : data[idx] = high
        generalize lowShape : data[idx + 1] = low
        have wordBound := BigEndian.word_lt high low
        have shape :
            data.drop idx = high :: low :: data.drop (idx + 2) := by
          rw [List.drop_eq_getElem_cons (by omega),
            List.drop_eq_getElem_cons (by omega), highShape, lowShape]
        rw [Checked.add_eq_ok (by omega), Checked.ok_bind]
        by_cases truncated : idx + 2 + BigEndian.word high low > data.length
        · have noFrame : Framing.takeFrame (data.drop idx) = none := by
            rw [shape, Framing.takeFrame, if_neg]
            rw [List.length_drop]
            omega
          rw [if_pos truncated]
          exact ⟨_, rfl, by simp [Framing.takeFrames, noFrame], by simp⟩
        · rw [if_neg truncated,
            Checked.slice_eq_ok (by omega) (by omega), Checked.ok_bind]
          obtain ⟨rest, restRuns, restPackets, restEnd⟩ :=
            inductionHypothesis (idx + 2 + BigEndian.word high low)
              (by omega) (by omega)
          have frame :
              Framing.takeFrame (data.drop idx) =
                some ((data.drop (idx + 2)).take (BigEndian.word high low),
                  data.drop (idx + 2 + BigEndian.word high low)) := by
            rw [shape, Framing.takeFrame, if_pos, List.drop_drop]
            rw [List.length_drop]
            omega
          rw [restRuns, Checked.ok_bind]
          refine ⟨_, rfl, ?_, ?_⟩
          · simp only [Framing.takeFrames, frame, restPackets,
              Nat.add_sub_cancel_left]
          · intro complete
            simp only [List.length_cons, Nat.add_right_cancel_iff] at complete
            simpa only [Framing.takeFrames, frame] using restEnd complete

/-! ## Whole messages -/

def Headed (data : Bytes) : Prop :=
  ∃ high low rest, data = 0x43 :: 0x4F :: 0x01 :: high :: low :: rest

private theorem hasBatchHeader_of_headed {data : Bytes} (headed : Headed data) :
    hasBatchHeader data = .ok true := by
  rcases headed with ⟨high, low, rest, same⟩
  subst same
  have long : 5 ≤ (0x43 :: 0x4F :: 0x01 :: high :: low :: rest).length := by
    simp
  have start :
      ((0x43 :: 0x4F :: 0x01 :: high :: low :: rest).drop 0).take (2 - 0) =
        magic :=
    rfl
  rw [hasBatchHeader, if_pos long,
    Checked.slice_eq_ok (by omega) (by omega), Checked.ok_bind,
    if_pos start]
  rfl

private theorem hasBatchHeader_of_not_headed {data : Bytes}
    (raw : ¬ Headed data) : hasBatchHeader data = .ok false := by
  unfold hasBatchHeader
  split
  · rename_i long
    match data, long with
    | first :: second :: version :: high :: low :: rest, long =>
        rw [Checked.slice_eq_ok (by omega) (by omega), Checked.ok_bind]
        by_cases start : [first, second] = magic
        · obtain ⟨rfl, rfl⟩ : first = 0x43 ∧ second = 0x4F := by
            simpa [magic] using start
          have other : version ≠ 0x01 := by
            intro same
            subst same
            exact raw ⟨high, low, rest, rfl⟩
          rw [if_pos (by simpa using start),
            Checked.index_eq_ok (by omega), Checked.ok_bind]
          simp [other]
        · rw [if_neg (by simpa using start)]
  · rfl

theorem unpackBatch_of_not_headed {data : Bytes} (raw : ¬ Headed data) :
    unpackBatch data = .ok ⟨[data], data.length⟩ := by
  rw [unpackBatch, hasBatchHeader_of_not_headed raw]
  rfl

/-- A headed message yields the frames after its header, as many as the header
counts or as many as there are. -/
theorem unpackBatch_of_headed (high low : UInt8) (rest : Bytes) :
    ∃ result,
      unpackBatch (0x43 :: 0x4F :: 0x01 :: high :: low :: rest) =
          .ok result ∧
        result.packets =
          (Framing.takeFrames (BigEndian.word high low) rest).1 ∧
        (result.packets.length = BigEndian.word high low →
          result.consumed +
            (Framing.takeFrames (BigEndian.word high low) rest).2.length =
              rest.length + 5) := by
  have wordBound := BigEndian.word_lt high low
  have headed : Headed (0x43 :: 0x4F :: 0x01 :: high :: low :: rest) :=
    ⟨high, low, rest, rfl⟩
  obtain ⟨result, runs, packets, finish⟩ :=
    unpackLoop_eq_takeFrames (0x43 :: 0x4F :: 0x01 :: high :: low :: rest)
      (BigEndian.word high low) 5 (by simp) (by unfold usizeBound; omega)
  refine ⟨result, ?_, packets, finish⟩
  rw [unpackBatch, hasBatchHeader_of_headed headed, Checked.ok_bind,
    if_pos rfl, Checked.index_eq_ok (by simp), Checked.ok_bind,
    Checked.index_eq_ok (by simp), Checked.ok_bind]
  simpa only [List.getElem_cons_succ, List.getElem_cons_zero,
    BigEndian.shift_or_eq_word] using runs

theorem unpackBatch_succeeds (data : Bytes) :
    Checked.Succeeds (unpackBatch data) := by
  by_cases headed : Headed data
  · rcases headed with ⟨high, low, rest, same⟩
    subst same
    rcases unpackBatch_of_headed high low rest with ⟨result, runs, _⟩
    exact ⟨result, runs⟩
  · exact ⟨_, unpackBatch_of_not_headed headed⟩

end CocoNet
