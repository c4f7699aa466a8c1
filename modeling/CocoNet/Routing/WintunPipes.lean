import CocoNet.Library.PipeTasks
import CocoNet.Routing.TunPipes
import CocoNet.Routing.WintunTasks

/-!
# Packets and the order of the tasks on Windows

The threads and tasks of the bridge on Windows move whole packets everywhere
but in the streams, so as elsewhere packets stay packets as long as every write
finds its stream empty.  On Windows more depends on it: packets that come one
by one never make the sending thread panic.
-/

namespace CocoNet

/-! ## The two directions of the tasks -/

def WintunSide.uplink (side : WintunSide) : Pipe UInt8 where
  unwritten := side.forwarding.toList ++ side.received ++ side.device
  buffer := side.uplinkPipe

def WintunTask.uplinkTurn : WintunTask → Option Turn
  | .writeSock => some .writer
  | .pump .tunToP2p => some .reader
  | _ => none

def wintunUplinkPart : Scheduler.Part.OfPipe WintunSide WintunTask UInt8 where
  view := WintunSide.uplink
  shown side := side.pumped
  event := WintunTask.uplinkTurn

/-- What has been read from the stream: what the sending thread is done with,
what it has been handed, and what the reading task has in hand. -/
def WintunSide.readFromSock (side : WintunSide) : List Bytes :=
  side.sent.map Prod.fst ++ side.handed ++ side.reader.bytes

def WintunTask.downlinkTurn : WintunTask → Option Turn
  | .pump .write => some .writer
  | .readSock => some .reader
  | _ => none

def wintunDownlinkPart (mtu : Nat) (respectDf : Bool) :
    Scheduler.Part.OfPipe WintunSide WintunTask UInt8 where
  view side := side.downlink mtu respectDf
  shown := WintunSide.readFromSock
  event := WintunTask.downlinkTurn

section Follows

variable {strategy : PanicStrategy} {allocates : Nat → Bool} {mtu : Nat}
variable {respectDf : Bool} {side next : WintunSide}

private theorem wintunUplinkPart_follows (packets : List Bytes) :
    wintunUplinkPart.Follows
      (wintunTasks strategy allocates mtu respectDf) (duplex packets) := by
  apply Scheduler.Part.follows_pipe
  · intro side task next moves silent
    cases wintunMove_eq_some_iff.1 (wintunMove_of_step moves) with
    | receive ready =>
        exact ⟨by simp [wintunUplinkPart, WintunSide.uplink, ready], rfl⟩
    | forward nothing ready =>
        exact ⟨by simp [wintunUplinkPart, WintunSide.uplink, nothing, ready],
          rfl⟩
    | pump pumps =>
        cases pumps with
        | tunToP2p _ =>
            cases silent
        | receive _ _ | write _ _ _ =>
            exact ⟨rfl, rfl⟩
    | writeSock =>
        cases silent
    -- The tasks of the downlink leave the uplink as it is.
    | _ =>
        exact ⟨rfl, rfl⟩
  · intro side task next moves writer
    cases wintunMove_eq_some_iff.1 (wintunMove_of_step moves) with
    | @writeSock _ wrote isWriting writes =>
        refine ⟨?_, rfl⟩
        simp only [wintunUplinkPart, WintunSide.uplink, isWriting,
          Option.toList_some, List.cons_append]
        rw [write_of_writeSome writes]
        by_cases done : wrote.2 = [] <;> simp [done]
    | pump pumps =>
        cases pumps <;> cases writer
    | _ =>
        cases writer
  · intro side task next moves reader
    cases wintunMove_eq_some_iff.1 (wintunMove_of_step moves) with
    | @pump task _ pumps =>
        cases task with
        | tunToP2p =>
            exact pumps.uplink_read _
        | receive | write =>
            cases reader
    | _ =>
        cases reader

private theorem wintunDownlinkPart_follows (packets : List Bytes) :
    (wintunDownlinkPart mtu respectDf).Follows
      (wintunTasks strategy allocates mtu respectDf) (duplex packets) := by
  apply Scheduler.Part.follows_pipe
  · intro side task next moves silent
    cases wintunMove_eq_some_iff.1 (wintunMove_of_step moves) with
    | @pump task _ pumps =>
        cases task with
        | tunToP2p =>
            cases pumps
            exact ⟨rfl, rfl⟩
        | receive =>
            exact ⟨pumps.downlink_receive, rfl⟩
        | write =>
            cases silent
    -- What has been read passes from the reading task to the sending thread
    -- and through it.
    | hand isHanding | handToNobody isHanding =>
        refine ⟨rfl, ?_⟩
        simp [wintunDownlinkPart, WintunSide.readFromSock, SockReader.bytes,
          isHanding]
    | send _ waits =>
        refine ⟨rfl, ?_⟩
        simp [wintunDownlinkPart, WintunSide.readFromSock, waits]
    | readSock =>
        cases silent
    | _ =>
        exact ⟨rfl, rfl⟩
  · intro side task next moves writer
    cases wintunMove_eq_some_iff.1 (wintunMove_of_step moves) with
    | @pump task _ pumps =>
        cases task with
        | write =>
            exact ⟨pumps.downlink_write, rfl⟩
        | tunToP2p | receive =>
            cases writer
    | _ =>
        cases writer
  · intro side task next moves reader
    cases wintunMove_eq_some_iff.1 (wintunMove_of_step moves) with
    | readSock atRead occupied =>
        simp [wintunDownlinkPart, Pumps.downlink, WintunSide.readFromSock,
          SockReader.bytes, Pipe.read, atRead, occupied]
    | pump pumps =>
        cases pumps <;> cases reader
    | _ =>
        cases reader

end Follows

/-! ## Every schedule -/

section Schedules

variable (strategy : PanicStrategy) (allocates : Nat → Bool) (mtu : Nat)
variable (respectDf : Bool)

def wintunSideAfter (packets incoming : List Bytes)
    (schedule : List WintunTask) : WintunSide :=
  (wintunTasks strategy allocates mtu respectDf).run
    (.initial packets incoming) schedule

/-- Whenever the forwarding task writes to the stream, the stream is empty. -/
def WintunUplinkFindsEmpty (packets incoming : List Bytes) :
    List WintunTask → Prop :=
  (wintunTasks strategy allocates mtu respectDf).FindsEmpty
    (.initial packets incoming) .writeSock fun side => side.uplinkPipe

def WintunDownlinkFindsEmpty (packets incoming : List Bytes) :
    List WintunTask → Prop :=
  (wintunTasks strategy allocates mtu respectDf).FindsEmpty
    (.initial packets incoming) (.pump .write) fun side => side.downlinkPipe

variable {packets incoming : List Bytes}

private theorem wintun_uplink_whole_iff (incoming : List Bytes)
    (sized : PacketSized packets) (schedule : List WintunTask) :
    Pipe.Whole packets
        (wintunSideAfter strategy allocates mtu respectDf packets incoming
          schedule).uplink
        (wintunSideAfter strategy allocates mtu respectDf packets incoming
          schedule).pumped ↔
      WintunUplinkFindsEmpty strategy allocates mtu respectDf packets incoming
        schedule := by
  apply Scheduler.Part.whole_iff_findsEmpty (wintunUplinkPart_follows packets)
    rfl rfl _ (fun _ => rfl) _ sized.chunks (Nat.le_refl readBufferSize)
  · intro task
    cases task with
    | pump task =>
        cases task <;> simp [wintunUplinkPart, WintunTask.uplinkTurn]
    | _ =>
        simp [wintunUplinkPart, WintunTask.uplinkTurn]
  · intro side steps
    rcases Option.ne_none_iff_exists'.1 steps with ⟨next, step⟩
    cases wintunMove_eq_some_iff.1 (wintunMove_of_step step) with
    | writeSock isWriting writes =>
        simp [wintunUplinkPart, WintunSide.uplink, isWriting]

private theorem wintun_downlink_whole_iff (packets : List Bytes)
    (sized : PacketSized incoming) (schedule : List WintunTask) :
    Pipe.Whole (incoming.flatMap (writesOf mtu respectDf))
        ((wintunSideAfter strategy allocates mtu respectDf packets incoming
          schedule).downlink mtu respectDf)
        (wintunSideAfter strategy allocates mtu respectDf packets incoming
          schedule).readFromSock ↔
      WintunDownlinkFindsEmpty strategy allocates mtu respectDf packets
        incoming schedule := by
  apply Scheduler.Part.whole_iff_findsEmpty (wintunDownlinkPart_follows _)
    rfl rfl _ (fun _ => rfl) _ (packetSized_writes mtu respectDf sized).chunks
    (Nat.le_refl readBufferSize)
  · intro task
    cases task with
    | pump task =>
        cases task <;> simp [wintunDownlinkPart, WintunTask.downlinkTurn]
    | _ =>
        simp [wintunDownlinkPart, WintunTask.downlinkTurn]
  · intro side steps
    rcases Option.ne_none_iff_exists'.1 steps with ⟨next, step⟩
    cases wintunMove_eq_some_iff.1 (wintunMove_of_step step) with
    | pump pumps =>
        exact ne_nil_of_write pumps

/-- What comes one by one is never too long for a packet. -/
theorem running_of_findsEmpty (sized : PacketSized incoming)
    {schedule : List WintunTask}
    (finds : WintunDownlinkFindsEmpty strategy allocates mtu respectDf packets
      incoming schedule) :
    (wintunSideAfter strategy allocates mtu respectDf packets incoming
      schedule).sender = .running := by
  have keeps : WintunKeeps allocates mtu respectDf
      (.initial packets incoming)
      (wintunSideAfter strategy allocates mtu respectDf packets incoming
        schedule) :=
    wintunTasks_keep (WintunSide.initial_sound allocates packets incoming)
      schedule
  have whole := (wintun_downlink_whole_iff strategy allocates mtu respectDf
    packets sized schedule).2 finds
  cases isSender : (wintunSideAfter strategy allocates mtu respectDf packets
      incoming schedule).sender with
  | running =>
      rfl
  | panicked =>
      rcases keeps.sound.panicked isSender with ⟨buf, rest, isHanded, long, _⟩
      have member : buf ∈ incoming.flatMap (writesOf mtu respectDf) := by
        rw [← whole]
        simp [WintunSide.readFromSock, isHanded]
      have small := (packetSized_writes mtu respectDf sized buf member).2
      exact absurd long (Nat.not_lt.2 small)

/-- In whatever order the threads and tasks run, packets of either direction
come through one by one if and only if every write to the stream of that
direction found it empty; and then the sending thread has not panicked. -/
theorem wintun_side_keeps_packets_iff (sized : PacketSized packets)
    (sizedIncoming : PacketSized incoming) (schedule : List WintunTask) :
    (Pipe.Whole packets
          (wintunSideAfter strategy allocates mtu respectDf packets incoming
            schedule).uplink
          (wintunSideAfter strategy allocates mtu respectDf packets incoming
            schedule).pumped ↔
        WintunUplinkFindsEmpty strategy allocates mtu respectDf packets
          incoming schedule) ∧
      (Pipe.Whole (incoming.flatMap (writesOf mtu respectDf))
          ((wintunSideAfter strategy allocates mtu respectDf packets incoming
            schedule).downlink mtu respectDf)
          (wintunSideAfter strategy allocates mtu respectDf packets incoming
            schedule).readFromSock ↔
        WintunDownlinkFindsEmpty strategy allocates mtu respectDf packets
          incoming schedule) ∧
      (WintunDownlinkFindsEmpty strategy allocates mtu respectDf packets
          incoming schedule →
        (wintunSideAfter strategy allocates mtu respectDf packets incoming
          schedule).sender = .running) :=
  ⟨wintun_uplink_whole_iff strategy allocates mtu respectDf incoming sized
      schedule,
    wintun_downlink_whole_iff strategy allocates mtu respectDf packets
      sizedIncoming schedule,
    running_of_findsEmpty strategy allocates mtu respectDf sizedIncoming⟩

end Schedules

/-- A schedule that lets every packet through before the next. -/
theorem wintun_side_keeps_packets_iff_inTurn :
    WintunUplinkFindsEmpty .abort (fun _ => true) 1300 false
      [[0x40, 1], [0x60, 2]] [[0x60, 3]]
      (List.replicate 2 [.receive, .forward, .writeSock,
        .pump .tunToP2p]).flatten := by
  refine (wintun_side_keeps_packets_iff .abort (fun _ => true) 1300 false
    twoSmallPackets_sized oneSmallPacket_sized _).1.1 ?_
  unfold Pipe.Whole
  decide +kernel

end CocoNet
