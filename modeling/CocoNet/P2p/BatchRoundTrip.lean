import CocoNet.Library.StepMachine
import CocoNet.P2p.Unpack

/-!
# The batch builder as a queue of packets

A builder represents the list of packets added since it was last taken: its
buffer is a header with a zero count followed by their frames, and its count is
their number.  Adding appends to the list, taking empties it, and the message
taken unpacks to exactly the list.
-/

namespace CocoNet

open StepMachine

structure Represents (batch : BatchBuilder) (pending : List Bytes) : Prop where
  bytes : batch.buf.bytes = batchHeader 0 ++ Framing.encodeFrames pending
  count : batch.pktCount = pending.length

def batchMessage (pending : List Bytes) : Bytes :=
  batchHeader pending.length ++ Framing.encodeFrames pending

namespace Represents

variable {batch : BatchBuilder} {pending : List Bytes}

theorem withCapacity (cap : Nat) :
    Represents (BatchBuilder.withCapacity cap) [] where
  bytes := by simp [BatchBuilder.withCapacity]
  count := rfl

theorem length_le (represents : Represents batch pending) :
    pending.length ≤ u16Max := by
  rw [← represents.count]
  exact batch.countFits

theorem payloadSize_eq (represents : Represents batch pending) :
    batch.payloadSize = (Framing.encodeFrames pending).length := by
  rw [BatchBuilder.payloadSize, represents.bytes, List.length_append,
    length_batchHeader, Nat.add_sub_cancel_left]

theorem isEmpty_iff (represents : Represents batch pending) :
    batch.isEmpty = true ↔ pending = [] := by
  rw [BatchBuilder.isEmpty, represents.count, beq_iff_eq,
    List.length_eq_zero_iff]

theorem isEmpty_eq_false (represents : Represents batch pending)
    (nonempty : pending ≠ []) : batch.isEmpty = false := by
  apply Bool.eq_false_of_not_eq_true
  intro isEmpty
  exact nonempty (represents.isEmpty_iff.1 isEmpty)

theorem add_full (represents : Represents batch pending)
    (full : pending.length = u16Max) (pkt : Bytes) :
    batch.add pkt = (batch, false) := by
  have countFull : batch.pktCount = u16Max := by
    rw [represents.count, full]
  exact BatchBuilder.add_of_full countFull pkt

theorem add (represents : Represents batch pending)
    (room : pending.length ≠ u16Max) (pkt : Bytes) :
    (batch.add pkt).2 = true ∧
      Represents (batch.add pkt).1 (pending ++ [pkt]) := by
  have countRoom : batch.pktCount ≠ u16Max := by
    rw [represents.count]
    exact room
  obtain ⟨added, bytes, count⟩ := BatchBuilder.add_of_room countRoom pkt
  refine ⟨added, ?_, ?_⟩
  · simp only [bytes, represents.bytes, Framing.encodeFrames_append,
      Framing.encodeFrames_cons, Framing.encodeFrames_nil,
      Framing.encodeFrame, List.append_assoc, List.append_nil]
  · rw [count, represents.count, List.length_append, List.length_singleton]

private theorem take_empty (represents : Represents batch []) :
    batch.take = (batch, []) := by
  have countZero : batch.pktCount = 0 := represents.count
  rw [BatchBuilder.take, if_pos countZero]

private theorem backfill (count : Nat) (payload : Bytes) :
    ((batchHeader 0 ++ payload).set 3 (UInt8.ofNat (count >>> 8))).set 4
        (UInt8.ofNat (count &&& 0xFF)) =
      batchHeader count ++ payload := by
  have lowByte : UInt8.ofNat (count &&& 0xFF) = UInt8.ofNat count := by
    apply UInt8.toNat_inj.mp
    rw [UInt8.toNat_ofNat', UInt8.toNat_ofNat',
      Nat.and_two_pow_sub_one_eq_mod count 8, Nat.mod_mod]
  rw [lowByte, Nat.shiftRight_eq_div_pow]
  rfl

theorem take (represents : Represents batch pending)
    (nonempty : pending ≠ []) :
    batch.take.2 = batchMessage pending ∧ Represents batch.take.1 [] := by
  have countPositive : batch.pktCount ≠ 0 := by
    rw [represents.count]
    exact fun zero => nonempty (List.length_eq_zero_iff.mp zero)
  have long : 5 ≤ batch.buf.bytes.length := batch.header
  rw [BatchBuilder.take, if_neg countPositive]
  refine ⟨?_, ?_, rfl⟩
  · simp only [if_pos long, BytesMut.split, BytesMut.bytes_setByte]
    rw [represents.bytes, represents.count]
    exact backfill pending.length (Framing.encodeFrames pending)
  · simp only [BytesMut.split, bytes_putHeader, List.nil_append,
      Framing.encodeFrames_nil, List.append_nil]

end Represents

/-- A message of at most 65535 packets of at most 65535 bytes unpacks to those
packets and is read to its end. -/
theorem unpackBatch_batchMessage {pending : List Bytes}
    (few : pending.length ≤ u16Max)
    (small : ∀ pkt, pkt ∈ pending → pkt.length ≤ u16Max) :
    unpackBatch (batchMessage pending) =
      .ok ⟨pending, (batchMessage pending).length⟩ := by
  have countFits : pending.length < 65536 := Nat.lt_succ_of_le few
  have framesFit :
      Framing.takeFrames pending.length (Framing.encodeFrames pending) =
        (pending, []) := by
    have decoded :=
      Framing.takeFrames_encodeFrames
        (fun pkt member => Nat.lt_succ_of_le (small pkt member)) []
    rwa [List.append_nil] at decoded
  obtain ⟨⟨packets, consumed⟩, runs, packetsShape, finish⟩ :=
    unpackBatch_of_headed (UInt8.ofNat (pending.length / 256))
      (UInt8.ofNat pending.length) (Framing.encodeFrames pending)
  rw [BigEndian.word_bytes_of_lt countFits, framesFit] at packetsShape finish
  obtain rfl : packets = pending := packetsShape
  have whole : consumed = (batchMessage packets).length := by
    have stopped := finish rfl
    simp only [List.length_nil, Nat.add_zero] at stopped
    rw [stopped, batchMessage, List.length_append, length_batchHeader,
      hdrLen, Nat.add_comm]
  subst whole
  exact runs

/-! ## Any use of the builder -/

inductive BuilderOp where
  | add (pkt : Bytes)
  | take
  deriving DecidableEq, Repr

/-- A builder and the packets it has accepted since it was last taken. -/
structure Tracked where
  batch : BatchBuilder
  accepted : List Bytes

/-- Any sequence of calls on one builder; a take puts out its message. -/
def builderUse (cap : Nat) : StepMachine Tracked BuilderOp Bytes where
  start := ⟨BatchBuilder.withCapacity cap, []⟩
  step tracked
    | .add pkt =>
        let added := tracked.batch.add pkt
        (⟨added.1,
          if added.2 then tracked.accepted ++ [pkt] else tracked.accepted⟩, [])
    | .take =>
        let taken := tracked.batch.take
        (⟨taken.1, []⟩, [taken.2])

def BatchBuilder.Equivalent (left right : BatchBuilder) : Prop :=
  left.buf.bytes = right.buf.bytes ∧ left.pktCount = right.pktCount

/-- What a call is to answer: an add succeeds unless 65535 packets are pending,
and then changes nothing; a take gives the empty message when nothing is
pending, and otherwise one that both receivers unpack to the accepted packets
and read to its end, and leaves the builder as if new. -/
def AnswersCorrectly (cap : Nat) (tracked : Tracked) : BuilderOp → Prop
  | .add pkt =>
      (tracked.accepted.length = u16Max →
        tracked.batch.add pkt = (tracked.batch, false)) ∧
      (tracked.accepted.length ≠ u16Max →
        (tracked.batch.add pkt).2 = true)
  | .take =>
      (tracked.accepted = [] → tracked.batch.take.2 = []) ∧
      (tracked.accepted ≠ [] →
        unpackGossip tracked.batch.take.2 =
            .ok ⟨tracked.accepted, tracked.batch.take.2.length⟩ ∧
          unpackRequest tracked.batch.take.2 =
            .ok ⟨tracked.accepted, tracked.batch.take.2.length⟩) ∧
      tracked.batch.take.1.Equivalent (BatchBuilder.withCapacity cap)

def BuilderOp.Small : BuilderOp → Prop
  | .add pkt => pkt.length ≤ u16Max
  | .take => True

structure Tracked.Consistent (tracked : Tracked) : Prop where
  represents : Represents tracked.batch tracked.accepted
  small : ∀ pkt, pkt ∈ tracked.accepted → pkt.length ≤ u16Max

private theorem Represents.equivalent_withCapacity {batch : BatchBuilder}
    (represents : Represents batch []) (cap : Nat) :
    batch.Equivalent (BatchBuilder.withCapacity cap) := by
  have fresh := Represents.withCapacity cap
  exact ⟨represents.bytes.trans fresh.bytes.symm,
    represents.count.trans fresh.count.symm⟩

theorem Represents.take_fst {batch : BatchBuilder} {pending : List Bytes}
    (represents : Represents batch pending) :
    Represents batch.take.1 [] := by
  by_cases empty : pending = []
  · subst empty
    rw [represents.take_empty]
    exact represents
  · exact (represents.take empty).2

private theorem builderUse_step_consistent (cap : Nat) (tracked : Tracked)
    (op : BuilderOp) (small : op.Small) (consistent : tracked.Consistent) :
    ((builderUse cap).step tracked op).1.Consistent := by
  rcases consistent with ⟨represents, acceptedSmall⟩
  cases op with
  | add pkt =>
      by_cases full : tracked.accepted.length = u16Max
      · have refused := represents.add_full full pkt
        simpa [builderUse, refused] using
          (⟨represents, acceptedSmall⟩ : tracked.Consistent)
      · rcases represents.add full pkt with ⟨succeeded, grown⟩
        refine ⟨?_, ?_⟩
        · simpa [builderUse, succeeded] using grown
        · intro other member
          have cases : other ∈ tracked.accepted ∨ other = pkt := by
            simpa [builderUse, succeeded] using member
          rcases cases with earlier | rfl
          · exact acceptedSmall other earlier
          · exact small
  | take =>
      exact ⟨represents.take_fst, fun pkt member => by
        simp [builderUse] at member⟩

private theorem Tracked.Consistent.answersCorrectly {tracked : Tracked}
    (consistent : tracked.Consistent) (cap : Nat) (op : BuilderOp) :
    AnswersCorrectly cap tracked op := by
  rcases consistent with ⟨represents, small⟩
  cases op with
  | add pkt =>
      exact ⟨fun full => represents.add_full full pkt,
        fun room => (represents.add room pkt).1⟩
  | take =>
      refine ⟨fun empty => ?_, fun nonempty => ?_,
        represents.take_fst.equivalent_withCapacity cap⟩
      · rw [empty] at represents
        rw [represents.take_empty]
      · have unpacked :=
          unpackBatch_batchMessage represents.length_le small
        rw [(represents.take nonempty).1]
        exact ⟨unpacked, unpacked⟩

/-- Every call in every sequence of calls with packets of at most 65535 bytes
answers correctly, whatever the initial capacity. -/
theorem builder_round_trip (cap : Nat) (ops : List BuilderOp)
    (small : ∀ op, op ∈ ops → op.Small) :
    EachStep
      (fun earlier op =>
        AnswersCorrectly cap ((builderUse cap).stateAfter earlier) op)
      ops := by
  intro earlier op later shape
  have earlierSmall :
      EachStep (fun _ called => called.Small) earlier := by
    intro before called after earlierShape
    exact small called (by simp [shape, earlierShape])
  have consistent :
      ((builderUse cap).stateAfter earlier).Consistent :=
    (builderUse cap).invariant
      (fun _ called => called.Small)
      (fun _ tracked _ => tracked.Consistent)
      ⟨Represents.withCapacity cap, fun pkt member => by
        simp [builderUse] at member⟩
      (fun events called holds calledSmall =>
        builderUse_step_consistent cap _ called calledSmall holds)
      earlierSmall
  exact consistent.answersCorrectly cap op

theorem builder_round_trip_reused :
    EachStep
      (fun earlier op =>
        AnswersCorrectly 0 ((builderUse 0).stateAfter earlier) op)
      [.take, .add [0x45, 0x00], .add [], .take, .add [0x60], .take] :=
  builder_round_trip 0 _ (by simp [BuilderOp.Small, u16Max])

end CocoNet
