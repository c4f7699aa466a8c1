import Mathlib.Data.Finset.Basic
import CocoNet.Library.StepMachine
import CocoNet.P2p.Multiaddr
import CocoNet.P2p.Unpack

/-!
# The uplink branches of the event loop

Packets from the TUN side are batched.  A batch leaves when the interval ticks,
when the next packet would make it too long or too many, when a large packet
leaves on its own, and when the channel is closed, which ends the loop.

A batch goes to the direct peers by request-response when there are any, and to
everybody by gossipsub otherwise.  The direct peers are a set kept by another
branch of the loop, so every event comes with the set it finds.
-/

namespace CocoNet

/-- The gossipsub topics: `coconet/packets` and `coconet/announce`. -/
inductive Topic where
  | packets
  | announce
  deriving DecidableEq, Repr

/-- One transmission: a gossipsub publish, or one request with the same bytes
to each peer of a set. -/
inductive Outgoing where
  | publish (topic : Topic) (data : Bytes)
  | sendRequests (peers : Finset PeerId) (data : Bytes)
  deriving DecidableEq

structure UplinkConfig where
  maxBatchBytes : Nat
  maxBatchPkts : Nat
  deriving DecidableEq, Repr

def flushBatch (directPeers : Finset PeerId) (batch : BatchBuilder) :
    BatchBuilder × List Outgoing :=
  if batch.isEmpty then (batch, [])
  else
    let taken := batch.take
    let data := taken.2
    if data.isEmpty then (taken.1, [])
    else if directPeers = ∅ then (taken.1, [.publish .packets data])
    else (taken.1, [.sendRequests directPeers data])

private theorem take_data_ne_nil {batch : BatchBuilder}
    (nonempty : batch.isEmpty = false) : batch.take.2 ≠ [] := by
  have positive : batch.pktCount ≠ 0 := by
    simpa [BatchBuilder.isEmpty] using nonempty
  have header := batch.header
  apply List.ne_nil_of_length_pos
  rw [BatchBuilder.take, if_neg positive]
  have long : 5 ≤ batch.buf.bytes.length := header
  simp only [if_pos long, BytesMut.split, BytesMut.bytes_setByte,
    List.length_set]
  omega

theorem flushBatch_of_empty (directPeers : Finset PeerId)
    {batch : BatchBuilder} (empty : batch.isEmpty = true) :
    flushBatch directPeers batch = (batch, []) :=
  if_pos empty

/-- A batch with packets always has data, so it is transmitted. -/
theorem flushBatch_of_nonempty (directPeers : Finset PeerId)
    {batch : BatchBuilder} (nonempty : batch.isEmpty = false) :
    flushBatch directPeers batch =
      (batch.take.1,
        [if directPeers = ∅ then .publish .packets batch.take.2
          else .sendRequests directPeers batch.take.2]) := by
  have notEmpty : ¬ batch.isEmpty = true := by
    simp [nonempty]
  have hasData : ¬ batch.take.2.isEmpty = true := by
    rw [List.isEmpty_iff]
    exact take_data_ne_nil nonempty
  rw [flushBatch, if_neg notEmpty]
  simp only [if_neg hasData]
  split <;> rfl

inductive UplinkEvent where
  | tick
  | recv (maybePkt : Option Bytes)
  deriving DecidableEq, Repr

def uplinkStep (config : UplinkConfig) (directPeers : Finset PeerId)
    (batch : BatchBuilder) : UplinkEvent → BatchBuilder × List Outgoing
  | .tick => flushBatch directPeers batch
  | .recv (some pkt) =>
      -- A packet above half the byte limit leaves on its own.
      if pkt.length > config.maxBatchBytes / 2 then
        let flushed := flushBatch directPeers batch
        (flushed.1, flushed.2 ++ [.publish .packets pkt])
      else
        let flushed :=
          if batch.pktCount ≥ config.maxBatchPkts ∨
              batch.payloadSize + pkt.length + 2 ≥ config.maxBatchBytes then
            flushBatch directPeers batch
          else (batch, [])
        -- The loop ignores whether the packet was added.
        ((flushed.1.add pkt).1, flushed.2)
  | .recv none => flushBatch directPeers batch

structure UplinkState where
  batch : BatchBuilder
  running : Bool

/-- The uplink half of the event loop.  An event is the set of direct peers it
finds and what happened; the closed channel breaks the loop. -/
def uplink (config : UplinkConfig) :
    StepMachine UplinkState (Finset PeerId × UplinkEvent) Outgoing where
  start := ⟨BatchBuilder.withCapacity (config.maxBatchBytes + 4096), true⟩
  step state event :=
    if state.running then
      let stepped := uplinkStep config event.1 state.batch event.2
      (⟨stepped.1, event.2 != .recv none⟩, stepped.2)
    else (state, [])

theorem uplink_step_running (config : UplinkConfig) {state : UplinkState}
    (running : state.running = true) (directPeers : Finset PeerId)
    (event : UplinkEvent) :
    (uplink config).step state (directPeers, event) =
      (⟨(uplinkStep config directPeers state.batch event).1,
          event != .recv none⟩,
        (uplinkStep config directPeers state.batch event).2) :=
  if_pos running

theorem uplink_step_stopped (config : UplinkConfig) {state : UplinkState}
    (stopped : ¬ state.running = true)
    (event : Finset PeerId × UplinkEvent) :
    (uplink config).step state event = (state, []) :=
  if_neg stopped

/-- What the receiver of a transmission sends to its TUN side: gossipsub
messages of the data topic and requests are unpacked, announcements are not
data. -/
def Outgoing.received : Outgoing → Checked (List Bytes)
  | .publish .packets data => do
      let unpacked ← unpackGossip data
      .ok unpacked.packets
  | .publish .announce _ => .ok []
  | .sendRequests _ data => do
      let unpacked ← unpackRequest data
      .ok unpacked.packets

def receivedAll : List Outgoing → Checked (List Bytes)
  | [] => .ok []
  | outgoing :: rest => do
      let first ← outgoing.received
      let others ← receivedAll rest
      .ok (first ++ others)

theorem receivedAll_append {first second : List Outgoing}
    {firstPackets secondPackets : List Bytes}
    (firstRuns : receivedAll first = .ok firstPackets)
    (secondRuns : receivedAll second = .ok secondPackets) :
    receivedAll (first ++ second) = .ok (firstPackets ++ secondPackets) := by
  induction first generalizing firstPackets with
  | nil =>
      obtain rfl : [] = firstPackets := by
        simpa [receivedAll] using firstRuns
      simpa using secondRuns
  | cons outgoing rest inductionHypothesis =>
      cases received : outgoing.received with
      | error fault =>
          rw [receivedAll, received] at firstRuns
          cases firstRuns
      | ok packets =>
          rw [receivedAll, received, Checked.ok_bind] at firstRuns
          cases others : receivedAll rest with
          | error fault =>
              rw [others] at firstRuns
              cases firstRuns
          | ok otherPackets =>
              rw [others, Checked.ok_bind] at firstRuns
              obtain rfl : packets ++ otherPackets = firstPackets := by
                simpa using firstRuns
              rw [List.cons_append, receivedAll, received, Checked.ok_bind,
                inductionHypothesis others, Checked.ok_bind,
                List.append_assoc]

end CocoNet
