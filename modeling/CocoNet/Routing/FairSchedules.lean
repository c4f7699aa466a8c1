import CocoNet.Routing.TunPipes

/-!
# Fair schedules of the TUN side

A fair schedule carries everything through, but nothing in the tasks makes a
writer wait until its last packet has been read.  Whether packets stay packets
is decided by the order in which the tasks run, and fair schedules decide it
either way.
-/

namespace CocoNet

private theorem fairRound_packetByPacket :
    Scheduler.FairRound packetByPacket := by
  intro task
  cases task with
  | pump task =>
      cases task <;> decide
  | _ =>
      decide

section Fair

variable {accepts : List Bytes → Bytes → Bool} {mtu : Nat} {respectDf : Bool}
variable {packets incoming : List Bytes} {side : TunSide}

/-- The streams are empty, and every packet is at one of its ends. -/
structure AtEnds (mtu : Nat) (respectDf : Bool)
    (packets writes : List Bytes) (side : TunSide) : Prop where
  bridge : side.bridge = .selecting
  uplinkPipe : side.uplinkPipe = []
  downlinkPipe : side.downlinkPipe = []
  uplink : side.pumped ++ side.device = packets
  downlink : side.written ++
    (side.writing ++ side.channel.flatMap (writesOf mtu respectDf)) = writes

private theorem turn_of_tunMove {side next : TunSide} {task : TunTask}
    (moves : TunMove accepts mtu respectDf side task next) :
    (tunTasks accepts mtu respectDf).turn side task = next := by
  apply Scheduler.turn_of_some
  exact tunStep_eq_some_iff.2 moves

private theorem turn_bridgeReadDevice (side : TunSide) {packet : Bytes}
    {rest : List Bytes} (atSelect : side.bridge = .selecting)
    (ready : side.device = packet :: rest) (nonempty : packet ≠ []) :
    (tunTasks accepts mtu respectDf).turn side .bridgeReadDevice =
      { side with device := rest, bridge := .toSock packet } :=
  turn_of_tunMove (.bridgeReadDevice atSelect ready nonempty)

private theorem turn_bridgeWriteSock (side : TunSide) {bytes : Bytes}
    (isWriting : side.bridge = .toSock bytes) (empty : side.uplinkPipe = [])
    (fits : bytes.length ≤ duplexCapacity) :
    (tunTasks accepts mtu respectDf).turn side .bridgeWriteSock =
      { side with uplinkPipe := bytes, bridge := .selecting } := by
  apply Scheduler.turn_of_some
  simp only [tunTasks, tunStep, isWriting, empty, writeSome_nil fits,
    Option.map_some, if_true]

private theorem turn_pump (side : TunSide) {task : PumpTask} {pumps : Pumps}
    (moves : pumpStep mtu respectDf side.bridge.closed side.toPumps task =
      some pumps) :
    (tunTasks accepts mtu respectDf).turn side (.pump task) =
      { side with toPumps := pumps } :=
  turn_of_tunMove (.pump (pumpStep_eq_some_iff.1 moves))

private theorem turn_pumpTunToP2p (side : TunSide)
    (occupied : side.uplinkPipe ≠ [])
    (fits : side.uplinkPipe.length ≤ readBufferSize) :
    (tunTasks accepts mtu respectDf).turn side (.pump .tunToP2p) =
      { side with
        uplinkPipe := []
        pumped := side.pumped ++ [side.uplinkPipe] } := by
  apply turn_pump
  simp only [pumpStep, if_pos occupied, List.take_of_length_le fits,
    List.drop_of_length_le fits]

private theorem turn_pumpReceive (side : TunSide) {pkt : Bytes}
    {rest : List Bytes}
    (nothing : side.writing = []) (waiting : side.channel = pkt :: rest) :
    (tunTasks accepts mtu respectDf).turn side (.pump .receive) =
      { side with
        channel := rest
        writing := writesOf mtu respectDf pkt } := by
  apply turn_pump
  exact pumpStep_eq_some_iff.2 (.receive nothing waiting)

private theorem turn_pumpWrite (side : TunSide) {bytes : Bytes}
    {rest : List Bytes}
    (inLoop : side.bridge.closed = false)
    (isWriting : side.writing = bytes :: rest)
    (empty : side.downlinkPipe = [])
    (fits : bytes.length ≤ duplexCapacity) :
    (tunTasks accepts mtu respectDf).turn side (.pump .write) =
      { side with downlinkPipe := bytes, writing := rest } := by
  apply turn_pump
  simp only [pumpStep, isWriting, inLoop, empty, writeSome_nil fits,
    Bool.false_eq_true, false_and, if_false, Option.map_some, if_true]

private theorem turn_bridgeReadSock (side : TunSide)
    (atSelect : side.bridge = .selecting)
    (occupied : side.downlinkPipe ≠ [])
    (fits : side.downlinkPipe.length ≤ readBufferSize) :
    (tunTasks accepts mtu respectDf).turn side .bridgeReadSock =
      { side with
        bridge := .toDevice side.downlinkPipe
        downlinkPipe := [] } := by
  apply Scheduler.turn_of_some
  simp only [tunTasks, tunStep, if_pos (And.intro atSelect occupied),
    List.take_of_length_le fits, List.drop_of_length_le fits]

private theorem turn_bridgeWriteDevice
    (willing : ∀ earlier bytes, accepts earlier bytes = true)
    (side : TunSide) {bytes : Bytes}
    (isWriting : side.bridge = .toDevice bytes) :
    (tunTasks accepts mtu respectDf).turn side .bridgeWriteDevice =
      { side with
        bridge := .selecting
        written := side.written ++ [bytes] } :=
  turn_of_tunMove (.bridgeWriteDevice isWriting (willing _ _))

section Round

variable {writes : List Bytes}

private theorem AtEnds.uplink_turns
    (atEnds : AtEnds mtu respectDf packets writes side)
    (sized : PacketSized packets) :
    AtEnds mtu respectDf packets writes
      ((tunTasks accepts mtu respectDf).run side
        [.bridgeReadDevice, .bridgeWriteSock, .pump .tunToP2p]) := by
  cases ready : side.device with
  | nil =>
      have stays : (tunTasks accepts mtu respectDf).run side
          [.bridgeReadDevice, .bridgeWriteSock, .pump .tunToP2p] = side := by
        simp [Scheduler.turn, tunTasks, tunStep, pumpStep, atEnds.bridge,
          ready, atEnds.uplinkPipe]
      rw [stays]
      exact atEnds
  | cons packet rest =>
      have shape := atEnds.uplink
      rw [ready] at shape
      rcases sized packet (by simp [← shape]) with ⟨positive, small⟩
      have nonempty := List.ne_nil_of_length_pos positive
      rw [Scheduler.run_cons,
        turn_bridgeReadDevice side atEnds.bridge ready nonempty,
        Scheduler.run_cons,
        turn_bridgeWriteSock
          { side with device := rest, bridge := .toSock packet } rfl
          atEnds.uplinkPipe (by unfold duplexCapacity; omega),
        Scheduler.run_cons,
        turn_pumpTunToP2p _ nonempty (by unfold readBufferSize; simp; omega),
        Scheduler.run_nil]
      exact ⟨rfl, rfl, atEnds.downlinkPipe, by simpa using shape,
        atEnds.downlink⟩

private theorem AtEnds.pumpReceive_turn
    (atEnds : AtEnds mtu respectDf packets writes side) :
    AtEnds mtu respectDf packets writes
      ((tunTasks accepts mtu respectDf).turn side (.pump .receive)) := by
  cases moves : tunStep accepts mtu respectDf side (.pump .receive) with
  | none =>
      rw [Scheduler.turn_of_none moves]
      exact atEnds
  | some next =>
      rw [Scheduler.turn_of_some moves]
      cases tunStep_eq_some_iff.1 moves with
      | pump pumps =>
          cases pumps with
          | receive nothing waiting =>
              refine ⟨atEnds.bridge, atEnds.uplinkPipe, atEnds.downlinkPipe,
                atEnds.uplink, ?_⟩
              simpa [nothing, waiting] using atEnds.downlink

private theorem AtEnds.downlink_turns
    (willing : ∀ earlier bytes, accepts earlier bytes = true)
    (atEnds : AtEnds mtu respectDf packets writes side)
    (sized : PacketSized writes) :
    AtEnds mtu respectDf packets writes
      ((tunTasks accepts mtu respectDf).run side
        [.pump .write, .bridgeReadSock, .bridgeWriteDevice]) := by
  cases isWriting : side.writing with
  | nil =>
      have stays : (tunTasks accepts mtu respectDf).run side
          [.pump .write, .bridgeReadSock, .bridgeWriteDevice] = side := by
        simp [Scheduler.turn, tunTasks, tunStep, pumpStep, atEnds.bridge,
          isWriting, atEnds.downlinkPipe]
      rw [stays]
      exact atEnds
  | cons bytes rest =>
      have shape := atEnds.downlink
      rw [isWriting] at shape
      rcases sized bytes (by simp [← shape]) with ⟨positive, small⟩
      have nonempty := List.ne_nil_of_length_pos positive
      have inLoop : side.bridge.closed = false := by
        rw [atEnds.bridge]
        rfl
      rw [Scheduler.run_cons,
        turn_pumpWrite side inLoop isWriting atEnds.downlinkPipe
          (by unfold duplexCapacity; omega),
        Scheduler.run_cons,
        turn_bridgeReadSock
          { side with downlinkPipe := bytes, writing := rest }
          atEnds.bridge nonempty (by unfold readBufferSize; simp; omega),
        Scheduler.run_cons, turn_bridgeWriteDevice willing _ rfl,
        Scheduler.run_nil]
      exact ⟨rfl, atEnds.uplinkPipe, rfl, atEnds.uplink,
        by simpa using shape⟩

theorem AtEnds.round
    (willing : ∀ earlier bytes, accepts earlier bytes = true)
    (atEnds : AtEnds mtu respectDf packets writes side)
    (sized : PacketSized packets) (sizedWrites : PacketSized writes) :
    AtEnds mtu respectDf packets writes
      ((tunTasks accepts mtu respectDf).run side packetByPacket) :=
  (atEnds.uplink_turns sized).pumpReceive_turn.downlink_turns willing
    sizedWrites

theorem AtEnds.rounds
    (willing : ∀ earlier bytes, accepts earlier bytes = true)
    (atEnds : AtEnds mtu respectDf packets writes side)
    (sized : PacketSized packets) (sizedWrites : PacketSized writes)
    (count : Nat) :
    AtEnds mtu respectDf packets writes
      ((tunTasks accepts mtu respectDf).run side
        (List.replicate count packetByPacket).flatten) := by
  induction count generalizing side with
  | zero =>
      exact atEnds
  | succ count inductionHypothesis =>
      rw [List.replicate_succ, List.flatten_cons, Scheduler.run_append]
      exact inductionHypothesis (atEnds.round willing sized sizedWrites)

end Round

/-- As many fair rounds as there is work leave the tasks idle. -/
theorem idle_after_fairRounds
    (willing : ∀ earlier bytes, accepts earlier bytes = true)
    (sized : PacketSized packets) {rounds : List (List TunTask)}
    (fair : ∀ round, round ∈ rounds → Scheduler.FairRound round)
    (enough : (TunSide.initial packets incoming).work mtu respectDf ≤
      rounds.length) :
    (tunSideAfter accepts mtu respectDf packets incoming
      rounds.flatten).Idle := by
  have sound : (TunSide.initial packets incoming).Sound accepts :=
    ⟨⟨Nat.zero_le _, Nat.zero_le _⟩, nofun, nofun⟩
  have served : (TunSide.initial packets incoming).Served :=
    ⟨rfl, fun packet member => (sized.chunks packet member).1⟩
  have settles : TunSettles accepts mtu respectDf (.initial packets incoming)
      (tunSideAfter accepts mtu respectDf packets incoming rounds.flatten) :=
    tunTasks_settle sound fair enough
  exact (settles.inLoop (settles.served willing served)).1

/-- A round in which the bridge writes two packets before the first is read. -/
def twoUplinkWrites : List TunTask :=
  [.bridgeReadDevice, .bridgeWriteSock, .bridgeReadDevice,
    .bridgeWriteSock] ++ packetByPacket

def twoDownlinkWrites : List TunTask :=
  [.pump .receive, .pump .write, .pump .receive, .pump .write] ++
    packetByPacket

private theorem not_findsEmpty_twoUplinkWrites (sized : PacketSized packets)
    (two : 2 ≤ packets.length) (later : List TunTask) :
    ¬ UplinkFindsEmpty accepts mtu respectDf packets incoming
      (twoUplinkWrites ++ later) := by
  intro finds
  match packets, two with
  | first :: second :: rest, _ =>
      rcases sized first (by simp) with ⟨firstPositive, firstSmall⟩
      rcases sized second (by simp) with ⟨secondPositive, _⟩
      have nonempty := List.ne_nil_of_length_pos firstPositive
      have reached : tunSideAfter accepts mtu respectDf (first :: second :: rest)
          incoming [.bridgeReadDevice, .bridgeWriteSock, .bridgeReadDevice] =
            { TunSide.initial rest incoming with
              bridge := .toSock second
              uplinkPipe := first } := by
        rw [tunSideAfter, Scheduler.run_cons,
          turn_bridgeReadDevice _ rfl rfl nonempty, Scheduler.run_cons,
          turn_bridgeWriteSock _ rfl rfl
            (by unfold duplexCapacity; omega),
          Scheduler.run_cons,
          turn_bridgeReadDevice _ rfl rfl
            (List.ne_nil_of_length_pos secondPositive)]
        rfl
      have empty := finds
        [.bridgeReadDevice, .bridgeWriteSock, .bridgeReadDevice]
        .bridgeWriteSock (packetByPacket ++ later) rfl rfl
      rw [← tunSideAfter, reached] at empty
      apply nonempty
      apply empty
      have room : first.length < duplexCapacity := by
        unfold duplexCapacity
        omega
      simpa [tunTasks, tunStep] using @writeSome_ne_none first second room

/-- The pump has the next write in hand while the first is in the stream. -/
theorem after_pumpReceive_twice (sized : PacketSized incoming)
    (two : 2 ≤ (incoming.flatMap (writesOf mtu respectDf)).length) :
    ∃ first second rest,
      (tunSideAfter accepts mtu respectDf packets incoming
          [.pump .receive, .pump .write, .pump .receive]).downlinkPipe = first ∧
        (tunSideAfter accepts mtu respectDf packets incoming
          [.pump .receive, .pump .write, .pump .receive]).writing =
            second :: rest ∧
        (tunSideAfter accepts mtu respectDf packets incoming
          [.pump .receive, .pump .write, .pump .receive]).bridge =
            .selecting ∧
        1 ≤ first.length ∧ first.length ≤ 65535 := by
  match incoming, two with
  | pkt :: others, two =>
      obtain ⟨first, more, shape⟩ :=
        List.exists_cons_of_ne_nil (writesOf_ne_nil mtu respectDf pkt)
      have member : first ∈
          (pkt :: others).flatMap (writesOf mtu respectDf) := by
        simp [shape]
      rcases packetSized_writes mtu respectDf sized first member with
        ⟨positive, small⟩
      have wrote : tunSideAfter accepts mtu respectDf packets (pkt :: others)
          [.pump .receive, .pump .write] =
            { TunSide.initial packets others with
              writing := more
              downlinkPipe := first } := by
        rw [tunSideAfter, Scheduler.run_cons, turn_pumpReceive _ rfl rfl,
          shape, Scheduler.run_cons,
          turn_pumpWrite _ rfl rfl rfl (by unfold duplexCapacity; omega)]
        rfl
      have last : tunSideAfter accepts mtu respectDf packets (pkt :: others)
          [.pump .receive, .pump .write, .pump .receive] =
            (tunTasks accepts mtu respectDf).turn
              (tunSideAfter accepts mtu respectDf packets (pkt :: others)
                [.pump .receive, .pump .write]) (.pump .receive) := rfl
      rw [last, wrote]
      cases more with
      | cons second rest =>
          exact ⟨first, second, rest, rfl, rfl, rfl, positive, small⟩
      | nil =>
          cases others with
          | nil =>
              simp [shape] at two
          | cons other rest =>
              obtain ⟨second, more, otherShape⟩ :=
                List.exists_cons_of_ne_nil
                  (writesOf_ne_nil mtu respectDf other)
              rw [turn_pumpReceive _ rfl rfl]
              exact ⟨first, second, more, rfl, otherShape, rfl, positive, small⟩

private theorem not_findsEmpty_twoDownlinkWrites
    (sized : PacketSized incoming)
    (two : 2 ≤ (incoming.flatMap (writesOf mtu respectDf)).length)
    (later : List TunTask) :
    ¬ DownlinkFindsEmpty accepts mtu respectDf packets incoming
      (twoDownlinkWrites ++ later) := by
  intro finds
  obtain ⟨first, second, rest, inPipe, isWriting, atSelect, positive,
      small⟩ :=
    @after_pumpReceive_twice accepts mtu respectDf packets incoming sized two
  have empty := finds [.pump .receive, .pump .write, .pump .receive]
    (.pump .write) (packetByPacket ++ later) rfl rfl
  rw [← tunSideAfter] at empty
  simp only [inPipe] at empty
  apply List.ne_nil_of_length_pos positive
  apply empty
  have room : first.length < duplexCapacity := by
    unfold duplexCapacity
    omega
  simpa [tunTasks, tunStep, pumpStep, BridgeTask.closed, inPipe, isWriting,
    atSelect] using @writeSome_ne_none first second room

/-- Rounds that begin alike and are fair leave the tasks idle. -/
theorem exists_fair_idle
    (willing : ∀ earlier bytes, accepts earlier bytes = true)
    (sized : PacketSized packets) {round : List TunTask}
    (fair : Scheduler.FairRound round) :
    ∃ rounds : List (List TunTask),
      (∀ other, other ∈ rounds → Scheduler.FairRound other) ∧
        (tunSideAfter accepts mtu respectDf packets incoming
          rounds.flatten).Idle ∧
        ∃ count, rounds = List.replicate (count + 1) round := by
  refine ⟨List.replicate
    ((TunSide.initial packets incoming).work mtu respectDf + 1) round, ?_, ?_,
    _, rfl⟩
  · intro other member
    rw [List.eq_of_mem_replicate member]
    exact fair
  · apply idle_after_fairRounds willing sized
    · intro other member
      rw [List.eq_of_mem_replicate member]
      exact fair
    · rw [List.length_replicate]
      exact Nat.le_succ _

/-- With a device that takes every write fair schedules all carry everything
through, but only some of them as packets: one keeps all packets of both
directions apart, and as soon as two packets go one way, another merges some of
them. -/
theorem fair_schedules_differ (mtu : Nat) (respectDf : Bool)
    (willing : ∀ earlier bytes, accepts earlier bytes = true)
    (sized : PacketSized packets) (sizedIncoming : PacketSized incoming) :
    (∃ rounds : List (List TunTask),
        (∀ round, round ∈ rounds → Scheduler.FairRound round) ∧
          (tunSideAfter accepts mtu respectDf packets incoming rounds.flatten).Idle ∧
          (tunSideAfter accepts mtu respectDf packets incoming
            rounds.flatten).pumped = packets ∧
          (tunSideAfter accepts mtu respectDf packets incoming
            rounds.flatten).written =
              incoming.flatMap (writesOf mtu respectDf)) ∧
      (2 ≤ packets.length →
        ∃ rounds : List (List TunTask),
          (∀ round, round ∈ rounds → Scheduler.FairRound round) ∧
            (tunSideAfter accepts mtu respectDf packets incoming
              rounds.flatten).Idle ∧
            (tunSideAfter accepts mtu respectDf packets incoming
              rounds.flatten).pumped ≠ packets) ∧
      (2 ≤ (incoming.flatMap (writesOf mtu respectDf)).length →
        ∃ rounds : List (List TunTask),
          (∀ round, round ∈ rounds → Scheduler.FairRound round) ∧
            (tunSideAfter accepts mtu respectDf packets incoming
              rounds.flatten).Idle ∧
            (tunSideAfter accepts mtu respectDf packets incoming
              rounds.flatten).written ≠
                incoming.flatMap (writesOf mtu respectDf)) := by
  refine ⟨?_, ?_, ?_⟩
  · obtain ⟨rounds, fair, idle, count, shape⟩ :=
      @exists_fair_idle accepts mtu respectDf packets incoming willing
        sized _ fairRound_packetByPacket
    refine ⟨rounds, fair, idle, ?_⟩
    have start : AtEnds mtu respectDf packets
        (incoming.flatMap (writesOf mtu respectDf))
        (.initial packets incoming) :=
      ⟨rfl, rfl, rfl, rfl, rfl⟩
    have atEnds : AtEnds mtu respectDf packets
        (incoming.flatMap (writesOf mtu respectDf))
        (tunSideAfter accepts mtu respectDf packets incoming rounds.flatten) := by
      rw [shape]
      exact start.rounds willing sized
        (packetSized_writes mtu respectDf sizedIncoming) _
    have uplink := atEnds.uplink
    have downlink := atEnds.downlink
    rw [idle.device, List.append_nil] at uplink
    rw [idle.writing, idle.channel] at downlink
    exact ⟨uplink, by simpa using downlink⟩
  · intro two
    have fair : Scheduler.FairRound twoUplinkWrites := fun task =>
      List.mem_append_right _ (fairRound_packetByPacket task)
    obtain ⟨rounds, fair, idle, count, shape⟩ :=
      @exists_fair_idle accepts mtu respectDf packets incoming willing
        sized _ fair
    refine ⟨rounds, fair, idle, ?_⟩
    intro same
    have finds :=
      (idle_keeps_packets_iff accepts mtu respectDf sized sizedIncoming idle).1.1 same
    rw [shape, List.replicate_succ, List.flatten_cons] at finds
    exact not_findsEmpty_twoUplinkWrites sized two _ finds
  · intro two
    have fair : Scheduler.FairRound twoDownlinkWrites := fun task =>
      List.mem_append_right _ (fairRound_packetByPacket task)
    obtain ⟨rounds, fair, idle, count, shape⟩ :=
      @exists_fair_idle accepts mtu respectDf packets incoming willing
        sized _ fair
    refine ⟨rounds, fair, idle, ?_⟩
    intro same
    have finds :=
      (idle_keeps_packets_iff accepts mtu respectDf sized sizedIncoming idle).2.1 same
    rw [shape, List.replicate_succ, List.flatten_cons] at finds
    exact not_findsEmpty_twoDownlinkWrites sizedIncoming two _ finds

end Fair

theorem fair_schedules_differ_small :
    ∃ rounds : List (List TunTask),
      (∀ round, round ∈ rounds → Scheduler.FairRound round) ∧
        (tunSideAfter (fun _ _ => true) 1400 false [[0x40, 1], [0x60, 2]]
          [[0x60, 3]] rounds.flatten).Idle ∧
        (tunSideAfter (fun _ _ => true) 1400 false [[0x40, 1], [0x60, 2]]
          [[0x60, 3]] rounds.flatten).pumped ≠ [[0x40, 1], [0x60, 2]] :=
  (fair_schedules_differ 1400 false (fun _ _ => rfl) twoSmallPackets_sized
    oneSmallPacket_sized).2.1 (Nat.le_refl 2)

end CocoNet
