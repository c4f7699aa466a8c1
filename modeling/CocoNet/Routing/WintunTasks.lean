import CocoNet.Routing.Pumps

/-!
# The tasks on the TUN side on Windows

On Windows a thread and a task serve each direction of the bridge.  One thread
receives from the session and hands on to a task that writes to the stream; a
task reads from the stream and hands on, through a bounded channel, to the
thread that sends to the session.  The pumps are those of every platform.  A
session that fails to receive ends the receiving thread, for which nothing else
waits; a session without room for a packet to send loses it.

The sending thread panics at a read that is longer than a packet can be, if the
session has room for it.  The downlink then stands still for good, and where a
panic aborts the process, as in a release build, so does the uplink.  Until
then the tasks carry everything through.
-/

namespace CocoNet

/-! ## The tasks -/

/-- The task that reads the stream: waiting for bytes, handing on what it has
read, or past its loop, with what it could not hand on. -/
inductive SockReader where
  | reading
  | handing (bytes : Bytes)
  | ended (bytes : Bytes)
  deriving DecidableEq, Repr

def SockReader.bytes : SockReader → List Bytes
  | .reading => []
  | .handing bytes => [bytes]
  | .ended bytes => [bytes]

inductive SendThread where
  | running
  | panicked
  deriving DecidableEq, Repr

/-- What a panic of a thread ends: the thread, or with `panic = "abort"` in the
profile of the build, the process. -/
inductive PanicStrategy where
  | unwind
  | abort
  deriving DecidableEq, Repr

structure WintunSide extends Pumps where
  /-- The packets that the session has to give. -/
  device : List Bytes
  /-- The channel from the receiving thread. -/
  received : List Bytes
  /-- What is left to write to the stream of the packet taken from it. -/
  forwarding : Option Bytes
  reader : SockReader
  /-- What the sending thread has been handed and has not sent. -/
  handed : List Bytes
  sender : SendThread
  /-- The buffers that the sending thread is done with, and whether the session
  had room for each. -/
  sent : List (Bytes × Bool)
  deriving DecidableEq, Repr

inductive WintunTask where
  | receive
  | forward
  | writeSock
  | pump (task : PumpTask)
  | readSock
  | hand
  | send
  deriving DecidableEq, Repr

/-- The bound of `sync_channel`. -/
def sendQueueCapacity : Nat := 1024

/-- The next move of a task, if it can make one and the process runs.
`allocates` says for each buffer in turn whether the session has room for a
packet. -/
def wintunMove (allocates : Nat → Bool) (mtu : Nat) (respectDf : Bool)
    (side : WintunSide) : WintunTask → Option WintunSide
  | .receive =>
      match side.device with
      | packet :: rest =>
          some { side with
            device := rest
            received := side.received ++ [packet] }
      | [] => none
  | .forward =>
      match side.forwarding, side.received with
      | none, packet :: rest =>
          some { side with received := rest, forwarding := some packet }
      | _, _ => none
  | .writeSock =>
      match side.forwarding with
      | some bytes =>
          (writeSome side.uplinkPipe bytes).map fun wrote =>
            { side with
              uplinkPipe := wrote.1
              forwarding := if wrote.2 = [] then none else some wrote.2 }
      | none => none
  | .pump task =>
      -- The stream stays open as long as the forwarding task holds its half.
      (pumpStep mtu respectDf false side.toPumps task).map fun pumps =>
        { side with toPumps := pumps }
  | .readSock =>
      if side.reader = .reading ∧ side.downlinkPipe ≠ [] then
        some { side with
          reader := .handing (side.downlinkPipe.take readBufferSize)
          downlinkPipe := side.downlinkPipe.drop readBufferSize }
      else none
  | .hand =>
      match side.reader, side.sender with
      | .handing bytes, .panicked => some { side with reader := .ended bytes }
      | .handing bytes, .running =>
          if side.handed.length < sendQueueCapacity then
            some { side with
              reader := .reading
              handed := side.handed ++ [bytes] }
          else none
      | _, _ => none
  | .send =>
      match side.sender, side.handed with
      | .running, buf :: rest =>
          if allocates side.sent.length then
            match sendToWintun buf with
            | .ok _ =>
                some { side with
                  handed := rest
                  sent := side.sent ++ [(buf, true)] }
            -- `copy_from_slice` panics in the thread, whose end of the channel
            -- goes with it.
            | .error _ => some { side with sender := .panicked }
          else
            some { side with
              handed := rest
              sent := side.sent ++ [(buf, false)] }
      | _, _ => none

section Relation

variable {allocates : Nat → Bool} {mtu : Nat} {respectDf : Bool}
variable {side next : WintunSide}

/-- What the sending thread does with a buffer. -/
theorem wintunMove_send {buf : Bytes} {rest : List Bytes}
    (isRunning : side.sender = .running) (waits : side.handed = buf :: rest) :
    wintunMove allocates mtu respectDf side .send =
      if allocates side.sent.length = true ∧ u16Max < buf.length then
        some { side with sender := .panicked }
      else
        some { side with
          handed := rest
          sent := side.sent ++ [(buf, allocates side.sent.length)] } := by
  simp only [wintunMove, isRunning, waits, sendToWintun_eq]
  by_cases allocated : allocates side.sent.length = true
  · by_cases small : buf.length ≤ u16Max
    · simp [allocated, small]
    · simp [allocated, small, Nat.lt_of_not_le small]
  · simp [allocated]

/-- The moves of the tasks one by one, with what each of them needs. -/
inductive WintunMove (allocates : Nat → Bool) (mtu : Nat) (respectDf : Bool)
    (side : WintunSide) : WintunTask → WintunSide → Prop where
  | receive {packet : Bytes} {rest : List Bytes}
      (ready : side.device = packet :: rest) :
      WintunMove allocates mtu respectDf side .receive { side with
        device := rest
        received := side.received ++ [packet] }
  | forward {packet : Bytes} {rest : List Bytes}
      (nothing : side.forwarding = none)
      (ready : side.received = packet :: rest) :
      WintunMove allocates mtu respectDf side .forward { side with
        received := rest
        forwarding := some packet }
  | writeSock {bytes : Bytes} {wrote : Bytes × Bytes}
      (isWriting : side.forwarding = some bytes)
      (writes : writeSome side.uplinkPipe bytes = some wrote) :
      WintunMove allocates mtu respectDf side .writeSock { side with
        uplinkPipe := wrote.1
        forwarding := if wrote.2 = [] then none else some wrote.2 }
  | pump {task : PumpTask} {pumps : Pumps}
      (moves : PumpMove mtu respectDf false side.toPumps task pumps) :
      WintunMove allocates mtu respectDf side (.pump task)
        { side with toPumps := pumps }
  | readSock (atRead : side.reader = .reading)
      (occupied : side.downlinkPipe ≠ []) :
      WintunMove allocates mtu respectDf side .readSock { side with
        reader := .handing (side.downlinkPipe.take readBufferSize)
        downlinkPipe := side.downlinkPipe.drop readBufferSize }
  | hand {bytes : Bytes} (isHanding : side.reader = .handing bytes)
      (isRunning : side.sender = .running)
      (room : side.handed.length < sendQueueCapacity) :
      WintunMove allocates mtu respectDf side .hand { side with
        reader := .reading
        handed := side.handed ++ [bytes] }
  | handToNobody {bytes : Bytes} (isHanding : side.reader = .handing bytes)
      (isPanicked : side.sender = .panicked) :
      WintunMove allocates mtu respectDf side .hand { side with
        reader := .ended bytes }
  | send {buf : Bytes} {rest : List Bytes}
      (isRunning : side.sender = .running)
      (waits : side.handed = buf :: rest)
      (fits : ¬(allocates side.sent.length = true ∧ u16Max < buf.length)) :
      WintunMove allocates mtu respectDf side .send { side with
        handed := rest
        sent := side.sent ++ [(buf, allocates side.sent.length)] }
  | panic {buf : Bytes} {rest : List Bytes}
      (isRunning : side.sender = .running)
      (waits : side.handed = buf :: rest)
      (long : allocates side.sent.length = true ∧ u16Max < buf.length) :
      WintunMove allocates mtu respectDf side .send { side with
        sender := .panicked }

theorem wintunMove_eq_some_iff {task : WintunTask} :
    wintunMove allocates mtu respectDf side task = some next ↔
      WintunMove allocates mtu respectDf side task next := by
  constructor
  · intro moves
    cases task with
    | receive =>
        simp only [wintunMove] at moves
        split at moves
        · rename_i ready
          cases moves
          exact .receive ready
        · cases moves
    | forward =>
        simp only [wintunMove] at moves
        split at moves
        · rename_i nothing ready
          cases moves
          exact .forward nothing ready
        · cases moves
    | writeSock =>
        simp only [wintunMove] at moves
        split at moves
        · rename_i isWriting
          rcases Option.map_eq_some_iff.1 moves with ⟨wrote, writes, same⟩
          subst same
          exact .writeSock isWriting writes
        · cases moves
    | pump task =>
        simp only [wintunMove] at moves
        rcases Option.map_eq_some_iff.1 moves with ⟨pumps, pumped, same⟩
        subst same
        exact .pump (pumpStep_eq_some_iff.1 pumped)
    | readSock =>
        simp only [wintunMove] at moves
        split at moves
        · rename_i ready
          cases moves
          exact .readSock ready.1 ready.2
        · cases moves
    | hand =>
        simp only [wintunMove] at moves
        split at moves
        · rename_i isHanding isPanicked
          cases moves
          exact .handToNobody isHanding isPanicked
        · rename_i isHanding isRunning
          split at moves
          · rename_i room
            cases moves
            exact .hand isHanding isRunning room
          · cases moves
        · cases moves
    | send =>
        cases isSender : side.sender with
        | panicked =>
            simp [wintunMove, isSender] at moves
        | running =>
            cases waits : side.handed with
            | nil =>
                simp [wintunMove, isSender, waits] at moves
            | cons buf rest =>
                rw [wintunMove_send isSender waits] at moves
                split at moves
                · rename_i long
                  cases moves
                  exact .panic isSender waits long
                · rename_i fits
                  cases moves
                  exact .send isSender waits fits
  · intro move
    cases move with
    | receive ready =>
        simp [wintunMove, ready]
    | forward nothing ready =>
        simp [wintunMove, nothing, ready]
    | writeSock isWriting writes =>
        simp [wintunMove, isWriting, writes]
    | pump moves =>
        simp [wintunMove, pumpStep_eq_some_iff.2 moves]
    | readSock atRead occupied =>
        simp [wintunMove, atRead, occupied]
    | hand isHanding isRunning room =>
        simp [wintunMove, isHanding, isRunning, room]
    | handToNobody isHanding isPanicked =>
        simp [wintunMove, isHanding, isPanicked]
    | send isRunning waits fits =>
        rw [wintunMove_send isRunning waits, if_neg fits]
    | panic isRunning waits long =>
        rw [wintunMove_send isRunning waits, if_pos long]

end Relation

def wintunTasks (strategy : PanicStrategy) (allocates : Nat → Bool)
    (mtu : Nat) (respectDf : Bool) : Scheduler WintunSide WintunTask where
  step side task :=
    match strategy, side.sender with
    | .abort, .panicked => none
    | _, _ => wintunMove allocates mtu respectDf side task

def WintunSide.initial (packets incoming : List Bytes) : WintunSide where
  device := packets
  received := []
  forwarding := none
  uplinkPipe := []
  pumped := []
  channel := incoming
  writing := []
  downlinkPipe := []
  reader := .reading
  handed := []
  sender := .running
  sent := []

/-! ## What is on its way -/

def WintunSide.uplinkBytes (side : WintunSide) : Bytes :=
  side.arrivedBytes ++ side.forwarding.getD [] ++ side.received.flatten ++
    side.device.flatten

/-- The bytes of the downlink, from those that the sending thread is done with,
whether or not the session had room for them. -/
def WintunSide.downlinkBytes (mtu : Nat) (respectDf : Bool)
    (side : WintunSide) : Bytes :=
  (side.sent.map Prod.fst).flatten ++ side.handed.flatten ++
    side.reader.bytes.flatten ++ side.leavingBytes mtu respectDf

/-- The packets that the session has been given. -/
def WintunSide.transmitted (side : WintunSide) : List Bytes :=
  (side.sent.filter Prod.snd).map Prod.fst

/-- The sending thread is at a buffer that is too long for the packet that it
has allocated. -/
def WintunSide.AtLongBuffer (allocates : Nat → Bool) (side : WintunSide) :
    Prop :=
  ∃ buf rest, side.handed = buf :: rest ∧ u16Max < buf.length ∧
    allocates side.sent.length = true

/-- The streams are not overfull, the session has given its answer for every
buffer, what has been sent are packets, the reading task has ended only after a
panic, and a panic has its reason. -/
structure WintunSide.Sound (allocates : Nat → Bool) (side : WintunSide) :
    Prop where
  fit : side.Fit
  ended : ∀ bytes, side.reader = .ended bytes → side.sender = .panicked
  answers : side.sent.map Prod.snd =
    (List.range side.sent.length).map allocates
  packets : ∀ buf, (buf, true) ∈ side.sent → buf.length ≤ u16Max
  panicked : side.sender = .panicked → side.AtLongBuffer allocates

/-! ## What a move does -/

def SockReader.work : SockReader → Nat
  | .handing bytes => bytes.length + 2
  | _ => 0

def SendThread.work : SendThread → Nat
  | .running => 1
  | .panicked => 0

def forwardingWork (forwarding : Option Bytes) : Nat :=
  (forwarding.map fun bytes => 2 * bytes.length + 2).getD 0

def WintunSide.work (mtu : Nat) (respectDf : Bool) (side : WintunSide) : Nat :=
  (side.device.map fun packet => 2 * packet.length + 4).sum +
    (side.received.map fun packet => 2 * packet.length + 3).sum +
    forwardingWork side.forwarding + side.reader.work + side.handed.length +
    side.sender.work + side.pumpsWork mtu respectDf

structure WintunMoves (allocates : Nat → Bool) (mtu : Nat) (respectDf : Bool)
    (before after : WintunSide) : Prop where
  uplink : after.uplinkBytes = before.uplinkBytes
  downlink :
    after.downlinkBytes mtu respectDf = before.downlinkBytes mtu respectDf
  sound : before.Sound allocates → after.Sound allocates
  less : after.work mtu respectDf < before.work mtu respectDf

section Moves

variable {allocates : Nat → Bool} {mtu : Nat} {respectDf : Bool}
variable {side next : WintunSide}

private theorem sessionReceive_moves
    (moves : WintunMove allocates mtu respectDf side .receive next) :
    WintunMoves allocates mtu respectDf side next := by
  cases moves with
  | receive ready =>
      refine ⟨?_, rfl, ?_, ?_⟩
      · simp [WintunSide.uplinkBytes, ready]
      · intro sound
        exact ⟨sound.fit, sound.ended, sound.answers, sound.packets,
          sound.panicked⟩
      · simp only [WintunSide.work, ready, List.map_cons, List.sum_cons,
          List.map_append, List.map_nil, List.sum_append, List.sum_nil]
        omega

private theorem forward_moves
    (moves : WintunMove allocates mtu respectDf side .forward next) :
    WintunMoves allocates mtu respectDf side next := by
  cases moves with
  | forward nothing ready =>
      refine ⟨?_, rfl, ?_, ?_⟩
      · simp [WintunSide.uplinkBytes, nothing, ready]
      · intro sound
        exact ⟨sound.fit, sound.ended, sound.answers, sound.packets,
          sound.panicked⟩
      · simp only [WintunSide.work, nothing, ready, forwardingWork,
          List.map_cons, List.sum_cons, Option.map_some, Option.map_none,
          Option.getD_some, Option.getD_none]
        omega

private theorem writeSock_moves
    (moves : WintunMove allocates mtu respectDf side .writeSock next) :
    WintunMoves allocates mtu respectDf side next := by
  cases moves with
  | @writeSock bytes wrote isWriting writes =>
      rcases writeSome_eq_some writes with ⟨kept, fits, less⟩
      have lengths := congrArg List.length kept
      simp only [List.length_append] at lengths
      have left : (if wrote.2 = [] then none else some wrote.2).getD [] =
          wrote.2 := by
        by_cases done : wrote.2 = [] <;> simp [done]
      refine ⟨?_, rfl, ?_, ?_⟩
      · simp only [WintunSide.uplinkBytes, Pumps.arrivedBytes, left,
          isWriting, Option.getD_some]
        rw [List.append_assoc side.pumped.flatten, kept]
        simp
      · intro sound
        exact ⟨⟨fits sound.fit.uplink, sound.fit.downlink⟩, sound.ended,
          sound.answers, sound.packets, sound.panicked⟩
      · simp only [WintunSide.work, Pumps.pumpsWork, isWriting,
          forwardingWork]
        by_cases done : wrote.2 = []
        · rw [done, List.length_nil] at lengths
          simp only [done, if_true, Option.map_none, Option.map_some,
            Option.getD_none, Option.getD_some]
          omega
        · have lessLeft := less.resolve_left done
          simp only [done, if_false, Option.map_some, Option.getD_some]
          omega

private theorem wintunPump_moves {task : PumpTask}
    (moves : WintunMove allocates mtu respectDf side (.pump task) next) :
    WintunMoves allocates mtu respectDf side next := by
  cases moves with
  | pump moves =>
      have moved := pumpMove_moves moves
      refine ⟨?_, ?_, ?_, ?_⟩
      · simp only [WintunSide.uplinkBytes, moved.arrived]
      · simp only [WintunSide.downlinkBytes, moved.leaving]
      · intro sound
        exact ⟨moved.fit sound.fit, sound.ended, sound.answers,
          sound.packets, sound.panicked⟩
      · exact Nat.add_lt_add_left moved.less _

private theorem readSock_moves
    (moves : WintunMove allocates mtu respectDf side .readSock next) :
    WintunMoves allocates mtu respectDf side next := by
  cases moves with
  | readSock atRead occupied =>
      have positive := List.length_pos_iff.2 occupied
      have split := List.take_append_drop readBufferSize side.downlinkPipe
      have lengths := congrArg List.length split
      rw [List.length_append] at lengths
      refine ⟨rfl, ?_, ?_, ?_⟩
      · simp only [WintunSide.downlinkBytes, Pumps.leavingBytes,
          SockReader.bytes, atRead, List.flatten_nil, List.flatten_singleton,
          List.append_nil, List.append_assoc]
        rw [← List.append_assoc (side.downlinkPipe.take _), split]
      · intro sound
        refine ⟨⟨sound.fit.uplink, ?_⟩, ?_, sound.answers, sound.packets,
          sound.panicked⟩
        · exact Nat.le_trans (List.drop_sublist _ _).length_le
            sound.fit.downlink
        · intro bytes isEnded
          cases isEnded
      · have takes : 0 < (side.downlinkPipe.take readBufferSize).length := by
          rw [List.length_take]
          unfold readBufferSize
          omega
        simp only [WintunSide.work, Pumps.pumpsWork, SockReader.work, atRead]
        omega

private theorem hand_moves
    (moves : WintunMove allocates mtu respectDf side .hand next) :
    WintunMoves allocates mtu respectDf side next := by
  cases moves with
  | hand isHanding isRunning _ =>
      refine ⟨rfl, ?_, ?_, ?_⟩
      · simp [WintunSide.downlinkBytes, SockReader.bytes, isHanding]
      · intro sound
        refine ⟨sound.fit, nofun, sound.answers, sound.packets, ?_⟩
        intro isPanicked
        simp [isRunning] at isPanicked
      · simp only [WintunSide.work, SockReader.work, isHanding,
          List.length_append, List.length_singleton]
        omega
  | handToNobody isHanding isPanicked =>
      refine ⟨rfl, ?_, ?_, ?_⟩
      · simp [WintunSide.downlinkBytes, SockReader.bytes, isHanding]
      · intro sound
        exact ⟨sound.fit, fun _ _ => isPanicked, sound.answers,
          sound.packets, sound.panicked⟩
      · simp only [WintunSide.work, SockReader.work, isHanding]
        omega

private theorem send_moves
    (moves : WintunMove allocates mtu respectDf side .send next) :
    WintunMoves allocates mtu respectDf side next := by
  cases moves with
  | @send buf rest isRunning waits fits =>
      refine ⟨rfl, ?_, ?_, ?_⟩
      · simp [WintunSide.downlinkBytes, waits]
      · intro sound
        refine ⟨sound.fit, sound.ended, ?_, ?_, ?_⟩
        · simp only [List.map_append, List.length_append,
            List.length_singleton, List.range_succ, sound.answers]
          rfl
        · intro other member
          rcases List.mem_append.1 member with earlier | last
          · exact sound.packets other earlier
          · rcases Prod.mk.inj (List.mem_singleton.1 last) with
              ⟨isBuf, allocated⟩
            rw [isBuf]
            exact Nat.le_of_not_lt (not_and.1 fits allocated.symm)
        · intro isPanicked
          simp [isRunning] at isPanicked
      · simp only [WintunSide.work, waits, List.length_cons]
        omega
  | panic isRunning waits long =>
      refine ⟨rfl, rfl, ?_, ?_⟩
      · intro sound
        exact ⟨sound.fit, fun _ _ => rfl, sound.answers, sound.packets,
          fun _ => ⟨_, _, waits, long.2, long.1⟩⟩
      · simp only [WintunSide.work, SendThread.work, isRunning]
        omega

theorem wintunMove_moves {task : WintunTask}
    (moves : wintunMove allocates mtu respectDf side task = some next) :
    WintunMoves allocates mtu respectDf side next := by
  rw [wintunMove_eq_some_iff] at moves
  cases task with
  | receive =>
      exact sessionReceive_moves moves
  | forward =>
      exact forward_moves moves
  | writeSock =>
      exact writeSock_moves moves
  | pump task =>
      exact wintunPump_moves moves
  | readSock =>
      exact readSock_moves moves
  | hand =>
      exact hand_moves moves
  | send =>
      exact send_moves moves

/-- A thread that has panicked sends nothing more. -/
theorem wintunMove_of_panicked {task : WintunTask}
    (isPanicked : side.sender = .panicked)
    (moves : wintunMove allocates mtu respectDf side task = some next) :
    next.sender = .panicked ∧ next.sent = side.sent := by
  cases wintunMove_eq_some_iff.1 moves with
  | send isRunning | panic isRunning =>
      simp [isRunning] at isPanicked
  | _ =>
      exact ⟨isPanicked, rfl⟩

end Moves

/-! ## Runs -/

structure WintunSide.UplinkIdle (side : WintunSide) : Prop where
  device : side.device = []
  received : side.received = []
  forwarding : side.forwarding = none
  uplinkPipe : side.uplinkPipe = []

structure WintunSide.DownlinkIdle (side : WintunSide) : Prop where
  channel : side.channel = []
  writing : side.writing = []
  downlinkPipe : side.downlinkPipe = []
  reader : side.reader = .reading
  handed : side.handed = []

section Runs

variable {strategy : PanicStrategy} {allocates : Nat → Bool} {mtu : Nat}
variable {respectDf : Bool} {side next : WintunSide}

theorem wintunMove_of_step {task : WintunTask}
    (moves : (wintunTasks strategy allocates mtu respectDf).step side task =
      some next) :
    wintunMove allocates mtu respectDf side task = some next := by
  simp only [wintunTasks] at moves
  split at moves
  · cases moves
  · exact moves

theorem step_eq_wintunMove (task : WintunTask)
    (goes : strategy = .unwind ∨ side.sender = .running) :
    (wintunTasks strategy allocates mtu respectDf).step side task =
      wintunMove allocates mtu respectDf side task := by
  simp only [wintunTasks]
  split
  · rename_i isPanicked
    simp [isPanicked] at goes
  · rfl

private theorem wintunPump_stuck
    (stuck : ∀ task, wintunMove allocates mtu respectDf side task = none)
    (task : PumpTask) :
    pumpStep mtu respectDf false side.toPumps task = none :=
  Option.map_eq_none_iff.1 (stuck (.pump task))

/-- The uplink waits for nothing but the pump, which never waits. -/
theorem uplinkIdle_of_stuck
    (stuck : ∀ task, wintunMove allocates mtu respectDf side task = none) :
    side.UplinkIdle := by
  have uplinkPipe :=
    uplinkPipe_of_stuck (wintunPump_stuck stuck .tunToP2p)
  have forwarding : side.forwarding = none := by
    have waits := stuck .writeSock
    cases isForwarding : side.forwarding with
    | none =>
        rfl
    | some bytes =>
        simp only [wintunMove, isForwarding, Option.map_eq_none_iff] at waits
        have room : side.uplinkPipe.length < duplexCapacity := by
          rw [uplinkPipe]
          exact duplexCapacity_pos
        exact absurd waits (writeSome_ne_none room)
  have received : side.received = [] := by
    have waits := stuck .forward
    cases isReceived : side.received with
    | nil =>
        rfl
    | cons packet rest =>
        simp [wintunMove, forwarding, isReceived] at waits
  have device : side.device = [] := by
    have waits := stuck .receive
    cases holds : side.device with
    | nil =>
        rfl
    | cons packet rest =>
        simp [wintunMove, holds] at waits
  exact ⟨device, received, forwarding, uplinkPipe⟩

/-- The downlink waits for the sending thread, which waits for nothing while it
runs. -/
theorem WintunSide.Sound.downlinkIdle_of_stuck (sound : side.Sound allocates)
    (isRunning : side.sender = .running)
    (stuck : ∀ task, wintunMove allocates mtu respectDf side task = none) :
    side.DownlinkIdle := by
  have handed : side.handed = [] := by
    have waits := stuck .send
    cases isHanded : side.handed with
    | nil =>
        rfl
    | cons buf rest =>
        rw [wintunMove_send isRunning isHanded] at waits
        split at waits <;> cases waits
  have reader : side.reader = .reading := by
    cases isReader : side.reader with
    | reading =>
        rfl
    | ended bytes =>
        have isPanicked := sound.ended bytes isReader
        simp [isRunning] at isPanicked
    | handing bytes =>
        have waits := stuck .hand
        simp [wintunMove, isReader, isRunning, handed, sendQueueCapacity]
          at waits
  have downlinkPipe : side.downlinkPipe = [] := by
    have waits := stuck .readSock
    by_contra occupied
    simp [wintunMove, reader, occupied] at waits
  have room : side.downlinkPipe.length < duplexCapacity := by
    rw [downlinkPipe]
    exact duplexCapacity_pos
  have writing := writing_of_stuck (wintunPump_stuck stuck .write) room
  have channel :=
    channel_of_stuck (wintunPump_stuck stuck .receive) writing
  exact ⟨channel, writing, downlinkPipe, reader, handed⟩

/-- What every schedule keeps. -/
structure WintunKeeps (allocates : Nat → Bool) (mtu : Nat) (respectDf : Bool)
    (before after : WintunSide) : Prop where
  sound : after.Sound allocates
  uplink : after.uplinkBytes = before.uplinkBytes
  downlink :
    after.downlinkBytes mtu respectDf = before.downlinkBytes mtu respectDf
  stands : before.sender = .panicked →
    after.sender = .panicked ∧ after.sent = before.sent

theorem wintunTasks_keep (sound : side.Sound allocates)
    (schedule : List WintunTask) :
    WintunKeeps allocates mtu respectDf side
      ((wintunTasks strategy allocates mtu respectDf).run side schedule) := by
  apply Scheduler.run_invariant
  · intro state task next keeps moves
    have move := wintunMove_of_step moves
    have moved := wintunMove_moves move
    refine ⟨moved.sound keeps.sound, moved.uplink.trans keeps.uplink,
      moved.downlink.trans keeps.downlink, ?_⟩
    intro isPanicked
    rcases keeps.stands isPanicked with ⟨stillPanicked, sent⟩
    obtain ⟨nextPanicked, nextSent⟩ :=
      wintunMove_of_panicked stillPanicked move
    exact ⟨nextPanicked, nextSent.trans sent⟩
  · exact ⟨sound, rfl, rfl, fun isPanicked => ⟨isPanicked, rfl⟩⟩

private theorem wintunTasks_stuck {rounds : List (List WintunTask)}
    (fair : ∀ round, round ∈ rounds → Scheduler.FairRound round)
    (enough : side.work mtu respectDf ≤ rounds.length) :
    (wintunTasks strategy allocates mtu respectDf).Stuck
      ((wintunTasks strategy allocates mtu respectDf).run side
        rounds.flatten) := by
  have decreases : ∀ state task next,
      (wintunTasks strategy allocates mtu respectDf).step state task =
        some next →
      next.work mtu respectDf < state.work mtu respectDf :=
    fun _ _ _ moves => (wintunMove_moves (wintunMove_of_step moves)).less
  exact Scheduler.stuck_of_fairRounds decreases fair enough

/-- A session that always has room is given all that the sending thread is done
with. -/
theorem WintunSide.Sound.transmitted_eq (sound : side.Sound allocates)
    (roomy : ∀ count, allocates count = true) :
    side.transmitted = side.sent.map Prod.fst := by
  have all : ∀ entry, entry ∈ side.sent → entry.2 = true := by
    intro entry member
    have answer : entry.2 ∈ side.sent.map Prod.snd :=
      List.mem_map_of_mem member
    rw [sound.answers] at answer
    rcases List.mem_map.1 answer with ⟨count, _, isAnswer⟩
    rw [← isAnswer]
    exact roomy count
  rw [transmitted, List.filter_eq_self.2 all]

/-- Where threads and tasks that keep getting their turns come to rest.  While
the sending thread runs, everything has come to the end of its direction, where
the session takes what it has room for.  A thread that does not run any more is
at a read too long for a packet, and then the uplink is through unless the
process is gone. -/
structure WintunSettles (strategy : PanicStrategy) (allocates : Nat → Bool)
    (mtu : Nat) (respectDf : Bool) (before after : WintunSide) : Prop where
  running : after.sender = .running →
    after.pumped.flatten = before.uplinkBytes ∧
      (after.sent.map Prod.fst).flatten = before.downlinkBytes mtu respectDf
  roomy : after.sender = .running → (∀ count, allocates count = true) →
    after.transmitted.flatten = before.downlinkBytes mtu respectDf
  panicked : after.sender = .panicked →
    after.AtLongBuffer allocates ∧
      (strategy = .unwind → after.pumped.flatten = before.uplinkBytes)

private theorem wintunTasks_settle (sound : side.Sound allocates)
    {rounds : List (List WintunTask)}
    (fair : ∀ round, round ∈ rounds → Scheduler.FairRound round)
    (enough : side.work mtu respectDf ≤ rounds.length) :
    WintunSettles strategy allocates mtu respectDf side
      ((wintunTasks strategy allocates mtu respectDf).run side
        rounds.flatten) := by
  have keeps : WintunKeeps allocates mtu respectDf side
      ((wintunTasks strategy allocates mtu respectDf).run side
        rounds.flatten) := wintunTasks_keep sound rounds.flatten
  have stuck : (wintunTasks strategy allocates mtu respectDf).Stuck
      ((wintunTasks strategy allocates mtu respectDf).run side
        rounds.flatten) := wintunTasks_stuck fair enough
  generalize (wintunTasks strategy allocates mtu respectDf).run side
    rounds.flatten = after at keeps stuck
  have pumps : strategy = .unwind ∨ after.sender = .running →
      after.pumped.flatten = side.uplinkBytes := by
    intro goes
    have idle := uplinkIdle_of_stuck fun task =>
      (step_eq_wintunMove task goes).symm.trans (stuck task)
    simpa [WintunSide.uplinkBytes, Pumps.arrivedBytes, idle.device,
      idle.received, idle.forwarding, idle.uplinkPipe] using keeps.uplink
  have handles : after.sender = .running →
      (after.sent.map Prod.fst).flatten =
        side.downlinkBytes mtu respectDf := by
    intro isRunning
    have idle := keeps.sound.downlinkIdle_of_stuck isRunning fun task =>
      (step_eq_wintunMove task (Or.inr isRunning)).symm.trans (stuck task)
    simpa [WintunSide.downlinkBytes, Pumps.leavingBytes, SockReader.bytes,
      idle.channel, idle.writing, idle.downlinkPipe, idle.reader,
      idle.handed] using keeps.downlink
  refine ⟨?_, ?_, ?_⟩
  · intro isRunning
    exact ⟨pumps (Or.inr isRunning), handles isRunning⟩
  · intro isRunning roomy
    rw [keeps.sound.transmitted_eq roomy]
    exact handles isRunning
  · intro isPanicked
    exact ⟨keeps.sound.panicked isPanicked,
      fun unwinds => pumps (Or.inl unwinds)⟩

end Runs

/-- In whatever order the tasks run, the bytes of both directions keep their
order and their place up to the sending thread, which gives the session exactly
those buffers for which it has room, all of them packets; and after a panic
nothing more is sent.  If the tasks keep getting their turns, everything gets
there as long as the sending thread runs, and the uplink gets through unless
the process is gone; a thread that does not run any more is at a read too long
for a packet. -/
theorem wintun_side_delivers (strategy : PanicStrategy)
    (allocates : Nat → Bool) (mtu : Nat) (respectDf : Bool)
    {side : WintunSide} (sound : side.Sound allocates) :
    (∀ schedule more,
      WintunKeeps allocates mtu respectDf side
          ((wintunTasks strategy allocates mtu respectDf).run side
            schedule) ∧
        WintunKeeps allocates mtu respectDf
          ((wintunTasks strategy allocates mtu respectDf).run side schedule)
          ((wintunTasks strategy allocates mtu respectDf).run side
            (schedule ++ more))) ∧
    ∀ rounds : List (List WintunTask),
      (∀ round, round ∈ rounds → Scheduler.FairRound round) →
      side.work mtu respectDf ≤ rounds.length →
        WintunSettles strategy allocates mtu respectDf side
          ((wintunTasks strategy allocates mtu respectDf).run side
            rounds.flatten) := by
  constructor
  · intro schedule more
    have keeps : WintunKeeps allocates mtu respectDf side
        ((wintunTasks strategy allocates mtu respectDf).run side schedule) :=
      wintunTasks_keep sound schedule
    refine ⟨keeps, ?_⟩
    rw [Scheduler.run_append]
    exact wintunTasks_keep keeps.sound more
  · intro rounds fair enough
    exact wintunTasks_settle sound fair enough

def everyWintunTask : List WintunTask :=
  [.receive, .forward, .writeSock, .pump .tunToP2p, .pump .receive,
    .pump .write, .readSock, .hand, .send]

theorem fairRound_everyWintunTask : Scheduler.FairRound everyWintunTask := by
  intro task
  cases task with
  | pump task =>
      cases task <;> decide
  | _ =>
      decide

theorem WintunSide.initial_sound (allocates : Nat → Bool)
    (packets incoming : List Bytes) :
    (WintunSide.initial packets incoming).Sound allocates where
  fit := ⟨Nat.zero_le _, Nat.zero_le _⟩
  ended := nofun
  answers := rfl
  packets := nofun
  panicked := nofun

/-- A session with room for every packet, and one without room for any. -/
theorem wintun_side_delivers_threePackets :
    ∃ schedule,
      ((wintunTasks .abort (fun _ => true) 1300 false).run
          (.initial [[0x40, 1], [0x60, 2]] [[0x60, 3]])
          schedule).pumped.flatten = [0x40, 1, 0x60, 2] ∧
        ((wintunTasks .abort (fun _ => true) 1300 false).run
          (.initial [[0x40, 1], [0x60, 2]] [[0x60, 3]])
          schedule).transmitted.flatten = [0x60, 3] ∧
        ((wintunTasks .abort (fun _ => false) 1300 false).run
          (.initial [[0x40, 1], [0x60, 2]] [[0x60, 3]])
          schedule).transmitted = [] := by
  have fair : ∀ round, round ∈ List.replicate 40 everyWintunTask →
      Scheduler.FairRound round := by
    intro round member
    rw [List.eq_of_mem_replicate member]
    exact fairRound_everyWintunTask
  have settles := (wintun_side_delivers .abort (fun _ => true) 1300 false
    (WintunSide.initial_sound _ [[0x40, 1], [0x60, 2]] [[0x60, 3]])).2 _ fair
      (by decide +kernel)
  have isRunning : ((wintunTasks .abort (fun _ => true) 1300 false).run
      (.initial [[0x40, 1], [0x60, 2]] [[0x60, 3]])
      (List.replicate 40 everyWintunTask).flatten).sender = .running := by
    decide +kernel
  exact ⟨_, (settles.running isRunning).1.trans (by decide +kernel),
    (settles.roomy isRunning fun _ => rfl).trans (by decide +kernel),
    by decide +kernel⟩

end CocoNet
