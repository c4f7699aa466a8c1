import CocoNet.Library.PipeTasks
import CocoNet.Routing.TunTasks

/-!
# Packets and the order of the tasks

The tasks on the TUN side keep the bytes of either direction in order, but a
packet stays a packet only if nothing else is in the stream when it is written.
Seen from one direction, every schedule is a run of the stream of that
direction: the writer has what the bridge or the pump still has to write, and
the reads are what the other side passes on.
-/

namespace CocoNet

open StepMachine

/-! ## The two directions of the tasks -/

/-- The bridge has the packet it is at to write, and then those of the device
up to an empty read. -/
def TunSide.uplink (side : TunSide) : Pipe UInt8 where
  unwritten :=
    match side.bridge with
    | .toSock left => left :: untilEmpty side.device
    | _ => untilEmpty side.device
  buffer := side.uplinkPipe

def TunTask.uplinkTurn : TunTask → Option Turn
  | .bridgeWriteSock => some .writer
  | .pump .tunToP2p => some .reader
  | _ => none

def uplinkPart : Scheduler.Part TunSide TunTask (Pipe UInt8) Turn Bytes where
  view := TunSide.uplink
  shown side := side.pumped
  event := TunTask.uplinkTurn

/-- What the bridge has read from the stream: what it has written to the
device, and what it is about to write or has not got rid of. -/
def TunSide.readByBridge (side : TunSide) : List Bytes :=
  side.written ++ side.bridge.toWrite

def TunTask.downlinkTurn : TunTask → Option Turn
  | .pump .write => some .writer
  | .bridgeReadSock => some .reader
  | _ => none

def downlinkPart (mtu : Nat) (respectDf : Bool) :
    Scheduler.Part TunSide TunTask (Pipe UInt8) Turn Bytes where
  view side := side.downlink mtu respectDf
  shown := TunSide.readByBridge
  event := TunTask.downlinkTurn

section Follows

variable {accepts : List Bytes → Bytes → Bool} {mtu : Nat} {respectDf : Bool}

private theorem uplinkPart_follows (packets : List Bytes) :
    uplinkPart.Follows (tunTasks accepts mtu respectDf) (duplex packets) := by
  apply Scheduler.Part.follows_pipe
  · intro side task next moves silent
    cases tunStep_eq_some_iff.1 moves with
    | bridgeReadDevice atSelect ready nonempty =>
        refine ⟨?_, rfl⟩
        simp [uplinkPart, TunSide.uplink, atSelect, ready, untilEmpty,
          List.length_pos_iff, nonempty]
    | bridgeReadNothing atSelect _ | bridgeReadSock atSelect _ =>
        refine ⟨?_, rfl⟩
        simp [uplinkPart, TunSide.uplink, atSelect]
    | bridgeWriteDevice isWriting _ | deviceRefuses isWriting _ =>
        refine ⟨?_, rfl⟩
        simp [uplinkPart, TunSide.uplink, isWriting]
    | pump pumps =>
        cases pumps with
        | tunToP2p _ =>
            cases silent
        | receive _ _ | write _ _ _ =>
            exact ⟨rfl, rfl⟩
    | bridgeWriteSock =>
        cases silent
  · intro side task next moves writer
    cases tunStep_eq_some_iff.1 moves with
    | @bridgeWriteSock _ wrote isWriting writes =>
        refine ⟨?_, rfl⟩
        simp only [uplinkPart, TunSide.uplink, isWriting]
        rw [write_of_writeSome writes]
        by_cases done : wrote.2 = [] <;> simp [done]
    | pump pumps =>
        cases pumps <;> cases writer
    | _ =>
        cases writer
  · intro side task next moves reader
    cases tunStep_eq_some_iff.1 moves with
    | @pump task _ pumps =>
        cases task with
        | tunToP2p =>
            exact pumps.uplink_read _
        | receive | write =>
            cases reader
    | _ =>
        cases reader

private theorem downlinkPart_follows (packets : List Bytes) :
    (downlinkPart mtu respectDf).Follows (tunTasks accepts mtu respectDf)
      (duplex packets) := by
  apply Scheduler.Part.follows_pipe
  · intro side task next moves silent
    cases tunStep_eq_some_iff.1 moves with
    | bridgeReadDevice atSelect _ _ | bridgeReadNothing atSelect _ =>
        refine ⟨rfl, ?_⟩
        simp [downlinkPart, TunSide.readByBridge, BridgeTask.toWrite, atSelect]
    | @bridgeWriteSock _ wrote isWriting _ =>
        refine ⟨rfl, ?_⟩
        by_cases done : wrote.2 = [] <;>
          simp [downlinkPart, TunSide.readByBridge, BridgeTask.toWrite,
            isWriting, done]
    | bridgeWriteDevice isWriting _ | deviceRefuses isWriting _ =>
        refine ⟨rfl, ?_⟩
        simp [downlinkPart, TunSide.readByBridge, BridgeTask.toWrite,
          isWriting]
    | @pump task _ pumps =>
        cases task with
        | tunToP2p =>
            cases pumps
            exact ⟨rfl, rfl⟩
        | receive =>
            exact ⟨pumps.downlink_receive, rfl⟩
        | write =>
            cases silent
    | bridgeReadSock =>
        cases silent
  · intro side task next moves writer
    cases tunStep_eq_some_iff.1 moves with
    | @pump task _ pumps =>
        cases task with
        | write =>
            exact ⟨pumps.downlink_write, rfl⟩
        | tunToP2p | receive =>
            cases writer
    | _ =>
        cases writer
  · intro side task next moves reader
    cases tunStep_eq_some_iff.1 moves with
    | bridgeReadSock atSelect occupied =>
        simp [downlinkPart, Pumps.downlink, TunSide.readByBridge,
          BridgeTask.toWrite, Pipe.read, atSelect, occupied]
    | pump pumps =>
        cases pumps <;> cases reader
    | _ =>
        cases reader

end Follows

/-! ## Every schedule -/

/-- The tasks at their start. -/
def TunSide.initial (packets incoming : List Bytes) : TunSide where
  device := packets
  bridge := .selecting
  uplinkPipe := []
  pumped := []
  channel := incoming
  writing := []
  downlinkPipe := []
  written := []

/-- A direction of the tasks is a run of its stream: with what has been read
from it, what it holds and what is unwritten, which together are the bytes of
all the writes. -/
structure RunsStream (writes : List Bytes) (pipe : Pipe UInt8)
    (reads : List Bytes) : Prop where
  run : ∃ turns, (duplex writes).stateAfter turns = pipe ∧
    (duplex writes).outputsOf turns = reads
  bytes : reads.flatten ++ pipe.buffer ++ pipe.unwritten.flatten =
    writes.flatten

private theorem runsStream_of_run {writes reads : List Bytes}
    {pipe : Pipe UInt8}
    {turns : List Turn} (state : pipe = (duplex writes).stateAfter turns)
    (outputs : reads = (duplex writes).outputsOf turns) :
    RunsStream writes pipe reads := by
  subst state outputs
  exact ⟨⟨turns, rfl, rfl⟩, duplex_keeps_bytes writes turns⟩

section Schedules

variable (accepts : List Bytes → Bytes → Bool) (mtu : Nat) (respectDf : Bool)
variable (packets incoming : List Bytes)

/-- Where a schedule leads from the start. -/
def tunSideAfter (schedule : List TunTask) : TunSide :=
  (tunTasks accepts mtu respectDf).run (.initial packets incoming) schedule

/-- Whenever the bridge writes to the stream, the stream is empty. -/
def UplinkFindsEmpty : List TunTask → Prop :=
  (tunTasks accepts mtu respectDf).FindsEmpty (.initial packets incoming)
    .bridgeWriteSock fun side => side.uplinkPipe

def DownlinkFindsEmpty : List TunTask → Prop :=
  (tunTasks accepts mtu respectDf).FindsEmpty (.initial packets incoming)
    (.pump .write) fun side => side.downlinkPipe

variable {packets incoming}

theorem packetSized_writes (sized : PacketSized incoming) :
    PacketSized (incoming.flatMap (writesOf mtu respectDf)) := by
  rcases pumpP2pToTun_sized mtu respectDf sized with ⟨writes, runs, writesSized⟩
  rw [pumpP2pToTun_eq] at runs
  rw [Except.ok.inj runs]
  exact writesSized

private theorem uplink_initial (sized : PacketSized packets)
    (incoming : List Bytes) :
    uplinkPart.view (.initial packets incoming) = (duplex packets).start := by
  have nonempty : ∀ packet, packet ∈ packets → packet ≠ [] :=
    fun packet member => (sized.chunks packet member).1
  simp [uplinkPart, TunSide.uplink, TunSide.initial, Pipe.machine,
    untilEmpty_eq nonempty]

private theorem downlink_initial (packets incoming : List Bytes) :
    (downlinkPart mtu respectDf).view (.initial packets incoming) =
      (duplex (incoming.flatMap (writesOf mtu respectDf))).start :=
  rfl

private theorem uplink_runsStream (incoming : List Bytes)
    (sized : PacketSized packets) (schedule : List TunTask) :
    RunsStream packets
      (tunSideAfter accepts mtu respectDf packets incoming schedule).uplink
      (tunSideAfter accepts mtu respectDf packets incoming
        schedule).pumped := by
  rcases (uplinkPart_follows packets).run (uplink_initial sized incoming)
    schedule with ⟨state, outputs⟩
  exact runsStream_of_run state outputs

private theorem downlink_runsStream (packets incoming : List Bytes)
    (schedule : List TunTask) :
    RunsStream (incoming.flatMap (writesOf mtu respectDf))
      ((tunSideAfter accepts mtu respectDf packets incoming
        schedule).downlink mtu respectDf)
      (tunSideAfter accepts mtu respectDf packets incoming
        schedule).readByBridge := by
  rcases (downlinkPart_follows _).run
    (downlink_initial mtu respectDf packets incoming) schedule with
    ⟨state, outputs⟩
  exact runsStream_of_run state outputs

theorem uplink_whole_iff (incoming : List Bytes) (sized : PacketSized packets)
    (schedule : List TunTask) :
    Pipe.Whole packets
        (tunSideAfter accepts mtu respectDf packets incoming schedule).uplink
        (tunSideAfter accepts mtu respectDf packets incoming
          schedule).pumped ↔
      UplinkFindsEmpty accepts mtu respectDf packets incoming schedule := by
  apply Scheduler.Part.whole_iff_findsEmpty (uplinkPart_follows packets)
    (uplink_initial sized incoming) rfl _ (fun _ => rfl) _ sized.chunks
    (Nat.le_refl readBufferSize)
  · intro task
    cases task with
    | pump task =>
        cases task <;> simp [uplinkPart, TunTask.uplinkTurn]
    | _ =>
        simp [uplinkPart, TunTask.uplinkTurn]
  · intro side moves
    cases isAt : side.bridge with
    | toSock left =>
        simp [uplinkPart, TunSide.uplink, isAt]
    | _ =>
        simp [tunTasks, tunStep, isAt] at moves

theorem downlink_whole_iff (packets : List Bytes)
    (sized : PacketSized incoming) (schedule : List TunTask) :
    Pipe.Whole (incoming.flatMap (writesOf mtu respectDf))
        ((tunSideAfter accepts mtu respectDf packets incoming
          schedule).downlink mtu respectDf)
        (tunSideAfter accepts mtu respectDf packets incoming
          schedule).readByBridge ↔
      DownlinkFindsEmpty accepts mtu respectDf packets incoming schedule := by
  apply Scheduler.Part.whole_iff_findsEmpty (downlinkPart_follows _)
    (downlink_initial mtu respectDf packets incoming) rfl _ (fun _ => rfl) _
    (packetSized_writes mtu respectDf sized).chunks
    (Nat.le_refl readBufferSize)
  · intro task
    cases task with
    | pump task =>
        cases task <;> simp [downlinkPart, TunTask.downlinkTurn]
    | _ =>
        simp [downlinkPart, TunTask.downlinkTurn]
  · intro side moves
    rcases Option.ne_none_iff_exists'.1 moves with ⟨next, moves⟩
    have move : TunMove accepts mtu respectDf side (.pump .write) next :=
      tunStep_eq_some_iff.1 moves
    cases move with
    | pump pumps =>
        exact ne_nil_of_write pumps

private theorem TunSide.Idle.uplink_drained {side : TunSide}
    (idle : side.Idle) :
    Pipe.Drained side.uplink := by
  simp [Pipe.Drained, TunSide.uplink, idle.bridge, idle.device,
    idle.uplinkPipe, untilEmpty]

theorem TunSide.Idle.downlink_drained {side : TunSide} (idle : side.Idle) :
    Pipe.Drained (side.downlink mtu respectDf) := by
  simp [Pipe.Drained, Pumps.downlink, idle.writing, idle.channel,
    idle.downlinkPipe]

theorem TunSide.Idle.readByBridge_eq {side : TunSide} (idle : side.Idle) :
    side.readByBridge = side.written := by
  simp [TunSide.readByBridge, BridgeTask.toWrite, idle.bridge]

/-- Once the tasks are idle, all packets have come through as packets if and
only if every write found its stream empty. -/
theorem idle_keeps_packets_iff (sized : PacketSized packets)
    (sizedIncoming : PacketSized incoming) {schedule : List TunTask}
    (idle : (tunSideAfter accepts mtu respectDf packets incoming
      schedule).Idle) :
    ((tunSideAfter accepts mtu respectDf packets incoming
            schedule).pumped = packets ↔
        UplinkFindsEmpty accepts mtu respectDf packets incoming schedule) ∧
      ((tunSideAfter accepts mtu respectDf packets incoming
            schedule).written = incoming.flatMap (writesOf mtu respectDf) ↔
        DownlinkFindsEmpty accepts mtu respectDf packets incoming
          schedule) := by
  constructor
  · rw [← uplink_whole_iff accepts mtu respectDf incoming sized,
      Pipe.whole_of_drained idle.uplink_drained]
  · rw [← downlink_whole_iff accepts mtu respectDf packets sizedIncoming,
      Pipe.whole_of_drained (idle.downlink_drained mtu respectDf),
      idle.readByBridge_eq]

/-- In whatever order the tasks run, and whatever the device answers, either
direction is a run of its stream, and what the P2P channel and the bridge have
got from it are its first packets, one by one, if and only if every write to it
found it empty; and once the tasks are idle, that is when all packets have come
through as packets. -/
theorem tun_side_keeps_packets_iff (sized : PacketSized packets)
    (sizedIncoming : PacketSized incoming) (schedule : List TunTask)
    {after : TunSide}
    (reached :
      tunSideAfter accepts mtu respectDf packets incoming schedule = after) :
    (RunsStream packets after.uplink after.pumped ∧
        RunsStream (incoming.flatMap (writesOf mtu respectDf))
          (after.downlink mtu respectDf) after.readByBridge) ∧
      (Pipe.Whole packets after.uplink after.pumped ↔
        UplinkFindsEmpty accepts mtu respectDf packets incoming schedule) ∧
      (Pipe.Whole (incoming.flatMap (writesOf mtu respectDf))
          (after.downlink mtu respectDf) after.readByBridge ↔
        DownlinkFindsEmpty accepts mtu respectDf packets incoming schedule) ∧
      (after.Idle →
        (after.pumped = packets ↔
            UplinkFindsEmpty accepts mtu respectDf packets incoming
              schedule) ∧
          (after.written = incoming.flatMap (writesOf mtu respectDf) ↔
            DownlinkFindsEmpty accepts mtu respectDf packets incoming
              schedule)) := by
  subst reached
  exact ⟨⟨uplink_runsStream accepts mtu respectDf incoming sized schedule,
      downlink_runsStream accepts mtu respectDf packets incoming schedule⟩,
    uplink_whole_iff accepts mtu respectDf incoming sized schedule,
    downlink_whole_iff accepts mtu respectDf packets sizedIncoming schedule,
    idle_keeps_packets_iff accepts mtu respectDf sized sizedIncoming⟩

end Schedules

/-- A round in which every packet is read before the next one is written. -/
def packetByPacket : List TunTask :=
  [.bridgeReadDevice, .bridgeWriteSock, .pump .tunToP2p, .pump .receive,
    .pump .write, .bridgeReadSock, .bridgeWriteDevice]

theorem twoSmallPackets_sized : PacketSized [[0x40, 1], [0x60, 2]] := by
  intro packet member
  simp only [List.mem_cons, List.not_mem_nil, or_false] at member
  rcases member with rfl | rfl <;> decide

theorem oneSmallPacket_sized : PacketSized [[0x60, 3]] := by
  intro packet member
  rw [List.mem_singleton.1 member]
  decide

/-- Two rounds keep the packets apart. -/
theorem tun_side_keeps_packets_iff_twoRounds :
    UplinkFindsEmpty (fun _ _ => true) 1400 false [[0x40, 1], [0x60, 2]]
        [[0x60, 3]] (packetByPacket ++ packetByPacket) ∧
      DownlinkFindsEmpty (fun _ _ => true) 1400 false [[0x40, 1], [0x60, 2]]
        [[0x60, 3]] (packetByPacket ++ packetByPacket) := by
  have keeps := (tun_side_keeps_packets_iff (fun _ _ => true) 1400 false
    twoSmallPackets_sized oneSmallPacket_sized
    (packetByPacket ++ packetByPacket) rfl).2.2.2
      (by constructor <;> decide +kernel)
  exact ⟨keeps.1.1 (by decide +kernel), keeps.2.1 (by decide +kernel)⟩

end CocoNet
