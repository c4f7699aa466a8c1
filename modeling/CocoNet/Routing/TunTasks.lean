import CocoNet.Routing.Pumps

/-!
# The tasks on the TUN side

Three tasks move packets between the TUN device and the P2P channels.  One
bridge task serves both directions: it waits for the device or for the stream,
whichever comes first, and passes on what it has read before it waits again.
While its write to the stream is blocked it reads neither.  The two pumps are at
the other end of the stream.

The bridge leaves its loop for good when the device has nothing to read any
more, or fails at a read or a write, and drops its end of the stream.  Until
then the tasks cannot block each other for good.  Whatever the order in which
they run, no byte is lost or moved out of its place, and if each of them keeps
getting its turn, everything that is waiting goes through.
-/

namespace CocoNet

/-! ## The tasks -/

/-- Where the bridge task is: in `select!`, in a `write_all` to the stream or
to the device with some bytes left, or past its loop, after a read that gave
nothing or after a write that the device has refused. -/
inductive BridgeTask where
  | selecting
  | toSock (left : Bytes)
  | toDevice (bytes : Bytes)
  | ended
  | refused (bytes : Bytes)
  deriving DecidableEq, Repr

/-- Past its loop the bridge has dropped its end of the stream. -/
def BridgeTask.closed : BridgeTask → Bool
  | .ended => true
  | .refused _ => true
  | _ => false

structure TunSide extends Pumps where
  /-- The packets that the device holds ready; an empty one stands for the end
  of the device or an error of the read. -/
  device : List Bytes
  bridge : BridgeTask
  /-- What the bridge has written to the device. -/
  written : List Bytes
  deriving DecidableEq, Repr

inductive TunTask where
  | bridgeReadDevice
  | bridgeWriteSock
  | bridgeReadSock
  | bridgeWriteDevice
  | pump (task : PumpTask)
  deriving DecidableEq, Repr

/-- The next move of a task, if it can make one.  `accepts` says of a write to
the device, given those before, whether it succeeds; one write is one packet,
so it succeeds as a whole or not at all. -/
def tunStep (accepts : List Bytes → Bytes → Bool) (mtu : Nat)
    (respectDf : Bool) (side : TunSide) : TunTask → Option TunSide
  | .bridgeReadDevice =>
      match side.bridge, side.device with
      | .selecting, packet :: rest =>
          if packet.length > 0 then
            some { side with device := rest, bridge := .toSock packet }
          else some { side with bridge := .ended }
      | _, _ => none
  | .bridgeWriteSock =>
      match side.bridge with
      | .toSock bytes =>
          (writeSome side.uplinkPipe bytes).map fun wrote =>
            { side with
              uplinkPipe := wrote.1
              bridge := if wrote.2 = [] then .selecting else .toSock wrote.2 }
      | _ => none
  | .bridgeReadSock =>
      if side.bridge = .selecting ∧ side.downlinkPipe ≠ [] then
        some { side with
          bridge := .toDevice (side.downlinkPipe.take readBufferSize)
          downlinkPipe := side.downlinkPipe.drop readBufferSize }
      else none
  | .bridgeWriteDevice =>
      match side.bridge with
      | .toDevice bytes =>
          if accepts side.written bytes then
            some { side with
              bridge := .selecting
              written := side.written ++ [bytes] }
          else some { side with bridge := .refused bytes }
      | _ => none
  | .pump task =>
      (pumpStep mtu respectDf side.bridge.closed side.toPumps task).map
        fun pumps => { side with toPumps := pumps }

/-- The moves of the tasks one by one, with what each of them needs. -/
inductive TunMove (accepts : List Bytes → Bytes → Bool) (mtu : Nat)
    (respectDf : Bool) (side : TunSide) : TunTask → TunSide → Prop where
  | bridgeReadDevice {packet : Bytes} {rest : List Bytes}
      (atSelect : side.bridge = .selecting)
      (ready : side.device = packet :: rest) (nonempty : packet ≠ []) :
      TunMove accepts mtu respectDf side .bridgeReadDevice
        { side with device := rest, bridge := .toSock packet }
  | bridgeReadNothing {rest : List Bytes}
      (atSelect : side.bridge = .selecting)
      (ready : side.device = [] :: rest) :
      TunMove accepts mtu respectDf side .bridgeReadDevice
        { side with bridge := .ended }
  | bridgeWriteSock {bytes : Bytes} {wrote : Bytes × Bytes}
      (isWriting : side.bridge = .toSock bytes)
      (writes : writeSome side.uplinkPipe bytes = some wrote) :
      TunMove accepts mtu respectDf side .bridgeWriteSock { side with
        uplinkPipe := wrote.1
        bridge := if wrote.2 = [] then .selecting else .toSock wrote.2 }
  | bridgeReadSock (atSelect : side.bridge = .selecting)
      (occupied : side.downlinkPipe ≠ []) :
      TunMove accepts mtu respectDf side .bridgeReadSock { side with
        bridge := .toDevice (side.downlinkPipe.take readBufferSize)
        downlinkPipe := side.downlinkPipe.drop readBufferSize }
  | bridgeWriteDevice {bytes : Bytes}
      (isWriting : side.bridge = .toDevice bytes)
      (accepted : accepts side.written bytes = true) :
      TunMove accepts mtu respectDf side .bridgeWriteDevice { side with
        bridge := .selecting
        written := side.written ++ [bytes] }
  | deviceRefuses {bytes : Bytes}
      (isWriting : side.bridge = .toDevice bytes)
      (refused : accepts side.written bytes = false) :
      TunMove accepts mtu respectDf side .bridgeWriteDevice
        { side with bridge := .refused bytes }
  | pump {task : PumpTask} {pumps : Pumps}
      (moves : PumpMove mtu respectDf side.bridge.closed side.toPumps task
        pumps) :
      TunMove accepts mtu respectDf side (.pump task)
        { side with toPumps := pumps }

section Relation

variable {accepts : List Bytes → Bytes → Bool} {mtu : Nat} {respectDf : Bool}
variable {side next : TunSide}

theorem tunStep_eq_some_iff {task : TunTask} :
    tunStep accepts mtu respectDf side task = some next ↔
      TunMove accepts mtu respectDf side task next := by
  constructor
  · intro moves
    cases task with
    | bridgeReadDevice =>
        simp only [tunStep] at moves
        split at moves
        · rename_i packet rest atSelect ready
          split at moves
          · rename_i positive
            cases moves
            exact .bridgeReadDevice atSelect ready
              (List.ne_nil_of_length_pos positive)
          · rename_i notPositive
            obtain rfl : packet = [] := by
              simpa using notPositive
            cases moves
            exact .bridgeReadNothing atSelect ready
        · cases moves
    | bridgeWriteSock =>
        simp only [tunStep] at moves
        split at moves
        · rename_i isWriting
          rcases Option.map_eq_some_iff.1 moves with ⟨wrote, writes, same⟩
          subst same
          exact .bridgeWriteSock isWriting writes
        · cases moves
    | bridgeReadSock =>
        simp only [tunStep] at moves
        split at moves
        · rename_i ready
          cases moves
          exact .bridgeReadSock ready.1 ready.2
        · cases moves
    | bridgeWriteDevice =>
        simp only [tunStep] at moves
        split at moves
        · rename_i isWriting
          split at moves
          · rename_i accepted
            cases moves
            exact .bridgeWriteDevice isWriting accepted
          · rename_i refused
            cases moves
            exact .deviceRefuses isWriting (Bool.eq_false_of_not_eq_true refused)
        · cases moves
    | pump task =>
        simp only [tunStep] at moves
        rcases Option.map_eq_some_iff.1 moves with ⟨pumps, pumped, same⟩
        subst same
        exact .pump (pumpStep_eq_some_iff.1 pumped)
  · intro move
    cases move with
    | bridgeReadDevice atSelect ready nonempty =>
        simp [tunStep, atSelect, ready, List.length_pos_iff, nonempty]
    | bridgeReadNothing atSelect ready =>
        simp [tunStep, atSelect, ready]
    | bridgeWriteSock isWriting writes =>
        simp [tunStep, isWriting, writes]
    | bridgeReadSock atSelect occupied =>
        simp [tunStep, atSelect, occupied]
    | bridgeWriteDevice isWriting accepted =>
        simp [tunStep, isWriting, accepted]
    | deviceRefuses isWriting refused =>
        simp [tunStep, isWriting, refused]
    | pump moves =>
        simp [tunStep, pumpStep_eq_some_iff.2 moves]

end Relation

def tunTasks (accepts : List Bytes → Bytes → Bool) (mtu : Nat)
    (respectDf : Bool) : Scheduler TunSide TunTask where
  step := tunStep accepts mtu respectDf

/-! ## What is on its way -/

def BridgeTask.uplinkBytes : BridgeTask → Bytes
  | .toSock left => left
  | _ => []

/-- What the bridge has read from the stream and not written: if the device has
refused it, it stays in the bridge. -/
def BridgeTask.toWrite : BridgeTask → List Bytes
  | .toDevice bytes => [bytes]
  | .refused bytes => [bytes]
  | _ => []

/-- The bytes of the uplink, from those that the P2P side has got to those that
the device still holds. -/
def TunSide.uplinkBytes (side : TunSide) : Bytes :=
  side.arrivedBytes ++ side.bridge.uplinkBytes ++ side.device.flatten

/-- The bytes of the downlink, from those that the device has got to those that
wait in the channel, cut to the MTU. -/
def TunSide.downlinkBytes (mtu : Nat) (respectDf : Bool) (side : TunSide) :
    Bytes :=
  side.written.flatten ++ side.bridge.toWrite.flatten ++
    side.leavingBytes mtu respectDf

/-- The streams are not overfull, and if the bridge is past its loop, the device
has given it the reason. -/
structure TunSide.Sound (accepts : List Bytes → Bytes → Bool)
    (side : TunSide) : Prop where
  fit : side.Fit
  ended : side.bridge = .ended → ∃ rest, side.device = [] :: rest
  refused : ∀ bytes, side.bridge = .refused bytes →
    accepts side.written bytes = false

/-! ## What a move does -/

def BridgeTask.work : BridgeTask → Nat
  | .selecting => 1
  | .toSock left => 2 * left.length + 2
  | .toDevice bytes => bytes.length + 2
  | .ended => 0
  | .refused _ => 0

/-- A bound for the moves that are left. -/
def TunSide.work (mtu : Nat) (respectDf : Bool) (side : TunSide) : Nat :=
  (side.device.map fun packet => 3 * packet.length + 2).sum +
    side.bridge.work + side.pumpsWork mtu respectDf

/-- A move keeps the bytes of both directions in order, keeps the tasks sound
and leaves less to do. -/
structure TunMoves (accepts : List Bytes → Bytes → Bool) (mtu : Nat)
    (respectDf : Bool) (before after : TunSide) : Prop where
  uplink : after.uplinkBytes = before.uplinkBytes
  downlink :
    after.downlinkBytes mtu respectDf = before.downlinkBytes mtu respectDf
  sound : before.Sound accepts → after.Sound accepts
  less : after.work mtu respectDf < before.work mtu respectDf

section Moves

variable {accepts : List Bytes → Bytes → Bool} {mtu : Nat} {respectDf : Bool}
variable {side next : TunSide}

private theorem bridgeReadDevice_moves
    (moves : TunMove accepts mtu respectDf side .bridgeReadDevice next) :
    TunMoves accepts mtu respectDf side next := by
  cases moves with
  | @bridgeReadDevice packet rest atSelect ready nonempty =>
      refine ⟨?_, ?_, ?_, ?_⟩
      · simp [TunSide.uplinkBytes, BridgeTask.uplinkBytes, atSelect, ready]
      · simp [TunSide.downlinkBytes, BridgeTask.toWrite, atSelect]
      · intro sound
        exact ⟨sound.fit, nofun, nofun⟩
      · simp only [TunSide.work, BridgeTask.work, atSelect, ready,
          List.map_cons, List.sum_cons]
        omega
  | bridgeReadNothing atSelect ready =>
      refine ⟨?_, ?_, ?_, ?_⟩
      · simp [TunSide.uplinkBytes, BridgeTask.uplinkBytes, atSelect]
      · simp [TunSide.downlinkBytes, BridgeTask.toWrite, atSelect]
      · intro sound
        exact ⟨sound.fit, fun _ => ⟨_, ready⟩, nofun⟩
      · simp only [TunSide.work, BridgeTask.work, atSelect]
        omega

private theorem bridgeWriteSock_moves
    (moves : TunMove accepts mtu respectDf side .bridgeWriteSock next) :
    TunMoves accepts mtu respectDf side next := by
  cases moves with
  | @bridgeWriteSock bytes wrote isWriting writes =>
      rcases writeSome_eq_some writes with ⟨kept, fits, less⟩
      have lengths := congrArg List.length kept
      simp only [List.length_append] at lengths
      have bridgeBytes : BridgeTask.uplinkBytes
          (if wrote.2 = [] then .selecting else .toSock wrote.2) = wrote.2 := by
        by_cases done : wrote.2 = [] <;> simp [done, BridgeTask.uplinkBytes]
      refine ⟨?_, ?_, ?_, ?_⟩
      · simp only [TunSide.uplinkBytes, Pumps.arrivedBytes, bridgeBytes,
          isWriting]
        rw [List.append_assoc _ wrote.1, kept]
        simp [BridgeTask.uplinkBytes]
      · simp only [TunSide.downlinkBytes, isWriting]
        split <;> rfl
      · intro sound
        refine ⟨⟨fits sound.fit.uplink, sound.fit.downlink⟩, ?_, ?_⟩
        · intro isEnded
          simp only at isEnded
          split at isEnded <;> cases isEnded
        · intro other isRefused
          simp only at isRefused
          split at isRefused <;> cases isRefused
      · simp only [TunSide.work, Pumps.pumpsWork, isWriting]
        by_cases done : wrote.2 = []
        · rw [if_pos done]
          rw [done, List.length_nil] at lengths
          simp only [BridgeTask.work]
          omega
        · have lessLeft := less.resolve_left done
          rw [if_neg done]
          simp only [BridgeTask.work]
          omega

private theorem bridgeReadSock_moves
    (moves : TunMove accepts mtu respectDf side .bridgeReadSock next) :
    TunMoves accepts mtu respectDf side next := by
  cases moves with
  | bridgeReadSock atSelect occupied =>
      have positive := List.length_pos_iff.2 occupied
      have split :=
        List.take_append_drop readBufferSize side.downlinkPipe
      have lengths := congrArg List.length split
      rw [List.length_append] at lengths
      refine ⟨?_, ?_, ?_, ?_⟩
      · simp [TunSide.uplinkBytes, Pumps.arrivedBytes,
          BridgeTask.uplinkBytes, atSelect]
      · simp only [TunSide.downlinkBytes, Pumps.leavingBytes,
          BridgeTask.toWrite, atSelect, List.flatten_singleton,
          List.flatten_nil, List.append_nil, List.append_assoc]
        rw [← List.append_assoc (side.downlinkPipe.take _), split]
      · intro sound
        refine ⟨⟨sound.fit.uplink, ?_⟩, ?_, ?_⟩
        · exact Nat.le_trans (List.drop_sublist _ _).length_le
            sound.fit.downlink
        · intro isEnded
          cases isEnded
        · intro bytes isRefused
          cases isRefused
      · have takes : 0 < (side.downlinkPipe.take readBufferSize).length := by
          rw [List.length_take]
          unfold readBufferSize
          omega
        simp only [TunSide.work, Pumps.pumpsWork, BridgeTask.work, atSelect]
        omega

private theorem bridgeWriteDevice_moves
    (moves : TunMove accepts mtu respectDf side .bridgeWriteDevice next) :
    TunMoves accepts mtu respectDf side next := by
  cases moves with
  | bridgeWriteDevice isWriting accepted =>
      refine ⟨?_, ?_, ?_, ?_⟩
      · simp [TunSide.uplinkBytes, BridgeTask.uplinkBytes, isWriting]
      · simp [TunSide.downlinkBytes, BridgeTask.toWrite, isWriting]
      · intro sound
        exact ⟨sound.fit, nofun, nofun⟩
      · simp only [TunSide.work, BridgeTask.work, isWriting]
        omega
  | @deviceRefuses bytes isWriting refused =>
      refine ⟨?_, ?_, ?_, ?_⟩
      · simp [TunSide.uplinkBytes, BridgeTask.uplinkBytes, isWriting]
      · simp [TunSide.downlinkBytes, BridgeTask.toWrite, isWriting]
      · intro sound
        refine ⟨sound.fit, nofun, ?_⟩
        intro other same
        rw [← BridgeTask.refused.inj same]
        exact refused
      · simp only [TunSide.work, BridgeTask.work, isWriting]
        omega

private theorem pump_moves {task : PumpTask}
    (moves : TunMove accepts mtu respectDf side (.pump task) next) :
    TunMoves accepts mtu respectDf side next := by
  cases moves with
  | pump moves =>
      have moved := pumpMove_moves moves
      refine ⟨?_, ?_, ?_, ?_⟩
      · simp only [TunSide.uplinkBytes, moved.arrived]
      · simp only [TunSide.downlinkBytes, moved.leaving]
      · intro sound
        exact ⟨moved.fit sound.fit, sound.ended, sound.refused⟩
      · exact Nat.add_lt_add_left moved.less _

private theorem tunStep_moves {task : TunTask}
    (moves : tunStep accepts mtu respectDf side task = some next) :
    TunMoves accepts mtu respectDf side next := by
  rw [tunStep_eq_some_iff] at moves
  cases task with
  | bridgeReadDevice =>
      exact bridgeReadDevice_moves moves
  | bridgeWriteSock =>
      exact bridgeWriteSock_moves moves
  | bridgeReadSock =>
      exact bridgeReadSock_moves moves
  | bridgeWriteDevice =>
      exact bridgeWriteDevice_moves moves
  | pump task =>
      exact pump_moves moves

end Moves

/-! ## No deadlock -/

/-- Nothing is on its way. -/
structure TunSide.Idle (side : TunSide) : Prop where
  device : side.device = []
  bridge : side.bridge = .selecting
  uplinkPipe : side.uplinkPipe = []
  channel : side.channel = []
  writing : side.writing = []
  downlinkPipe : side.downlinkPipe = []

section Runs

variable {accepts : List Bytes → Bytes → Bool} {mtu : Nat} {respectDf : Bool}
variable {side next : TunSide}

private theorem pump_stuck (stuck : (tunTasks accepts mtu respectDf).Stuck side)
    (task : PumpTask) :
    pumpStep mtu respectDf side.bridge.closed side.toPumps task = none :=
  Option.map_eq_none_iff.1 (stuck (.pump task))

/-- A bridge in its loop that is stuck is in `select!`: its writes to the stream
wait for a pump that waits for nothing, and the device answers at once. -/
theorem selecting_of_stuck
    (stuck : (tunTasks accepts mtu respectDf).Stuck side)
    (inLoop : side.bridge.closed = false) : side.bridge = .selecting := by
  cases isAt : side.bridge with
  | selecting =>
      rfl
  | ended =>
      simp [isAt, BridgeTask.closed] at inLoop
  | refused bytes =>
      simp [isAt, BridgeTask.closed] at inLoop
  | toDevice bytes =>
      have waits := stuck .bridgeWriteDevice
      simp only [tunTasks, tunStep, isAt] at waits
      split at waits <;> cases waits
  | toSock left =>
      have waits := stuck .bridgeWriteSock
      simp only [tunTasks, tunStep, isAt, Option.map_eq_none_iff] at waits
      have room : side.uplinkPipe.length < duplexCapacity := by
        rw [uplinkPipe_of_stuck (pump_stuck stuck .tunToP2p)]
        exact duplexCapacity_pos
      exact absurd waits (writeSome_ne_none room)

/-- Tasks that are stuck with the bridge in its loop have nothing left to
do. -/
theorem idle_of_stuck (stuck : (tunTasks accepts mtu respectDf).Stuck side)
    (inLoop : side.bridge.closed = false) : side.Idle := by
  have uplinkPipe := uplinkPipe_of_stuck (pump_stuck stuck .tunToP2p)
  have bridge := selecting_of_stuck stuck inLoop
  have downlinkPipe : side.downlinkPipe = [] := by
    have waits := stuck .bridgeReadSock
    by_contra occupied
    simp [tunTasks, tunStep, bridge, occupied] at waits
  have device : side.device = [] := by
    have waits := stuck .bridgeReadDevice
    cases holds : side.device with
    | nil =>
        rfl
    | cons packet rest =>
        simp only [tunTasks, tunStep, bridge, holds] at waits
        split at waits <;> cases waits
  have room : side.downlinkPipe.length < duplexCapacity := by
    rw [downlinkPipe]
    exact duplexCapacity_pos
  have waits := pump_stuck stuck .write
  rw [inLoop] at waits
  have writing := writing_of_stuck waits room
  have channel := channel_of_stuck (pump_stuck stuck .receive) writing
  exact ⟨device, bridge, uplinkPipe, channel, writing, downlinkPipe⟩

/-- What every schedule keeps. -/
structure TunKeeps (accepts : List Bytes → Bytes → Bool) (mtu : Nat)
    (respectDf : Bool) (before after : TunSide) : Prop where
  sound : after.Sound accepts
  uplink : after.uplinkBytes = before.uplinkBytes
  downlink :
    after.downlinkBytes mtu respectDf = before.downlinkBytes mtu respectDf

private theorem tunTasks_keep (sound : side.Sound accepts)
    (schedule : List TunTask) :
    TunKeeps accepts mtu respectDf side
      ((tunTasks accepts mtu respectDf).run side schedule) := by
  apply Scheduler.run_invariant
  · intro state task next keeps moves
    have moved := tunStep_moves moves
    exact ⟨moved.sound keeps.sound, moved.uplink.trans keeps.uplink,
      moved.downlink.trans keeps.downlink⟩
  · exact ⟨sound, rfl, rfl⟩

private theorem tunTasks_stuck {rounds : List (List TunTask)}
    (fair : ∀ round, round ∈ rounds → Scheduler.FairRound round)
    (enough : side.work mtu respectDf ≤ rounds.length) :
    (tunTasks accepts mtu respectDf).Stuck
      ((tunTasks accepts mtu respectDf).run side rounds.flatten) := by
  have decreases : ∀ state task next,
      (tunTasks accepts mtu respectDf).step state task = some next →
        next.work mtu respectDf < state.work mtu respectDf :=
    fun _ _ _ moves => (tunStep_moves moves).less
  exact Scheduler.stuck_of_fairRounds decreases fair enough

/-- A device that has something to read at every read and takes every write
gives the bridge no reason to leave its loop. -/
structure TunSide.Served (side : TunSide) : Prop where
  inLoop : side.bridge.closed = false
  packets : ∀ packet, packet ∈ side.device → packet ≠ []

theorem TunMove.served {task : TunTask}
    (willing : ∀ earlier bytes, accepts earlier bytes = true)
    (served : side.Served)
    (moves : TunMove accepts mtu respectDf side task next) : next.Served := by
  cases moves with
  | bridgeReadDevice atSelect ready nonempty =>
      refine ⟨rfl, ?_⟩
      intro packet member
      apply served.packets
      rw [ready]
      exact List.mem_cons_of_mem _ member
  | bridgeReadNothing atSelect ready =>
      exact absurd rfl (served.packets [] (by rw [ready]; exact List.mem_cons_self))
  | bridgeWriteSock isWriting writes =>
      refine ⟨?_, served.packets⟩
      simp only
      split <;> rfl
  | bridgeReadSock atSelect occupied =>
      exact ⟨rfl, served.packets⟩
  | bridgeWriteDevice isWriting accepted =>
      exact ⟨rfl, served.packets⟩
  | deviceRefuses isWriting refused =>
      rw [willing] at refused
      cases refused
  | pump moves =>
      exact ⟨served.inLoop, served.packets⟩

private theorem served_run
    (willing : ∀ earlier bytes, accepts earlier bytes = true)
    (served : side.Served) (schedule : List TunTask) :
    ((tunTasks accepts mtu respectDf).run side schedule).Served := by
  apply Scheduler.run_invariant
  · intro state task next served moves
    exact (tunStep_eq_some_iff.1 moves).served willing served
  · exact served

end Runs

/-- Where tasks that keep getting their turns come to rest.  With the bridge in
its loop everything is through.  If it has left its loop, all that it has read
from the device is through, and either there was nothing more to read or the
device has refused a write. -/
structure TunSettles (accepts : List Bytes → Bytes → Bool) (mtu : Nat)
    (respectDf : Bool) (before after : TunSide) : Prop where
  inLoop : after.bridge.closed = false →
    after.Idle ∧ after.pumped.flatten = before.uplinkBytes ∧
      after.written.flatten = before.downlinkBytes mtu respectDf
  left : after.bridge.closed = true →
    after.pumped.flatten ++ after.device.flatten = before.uplinkBytes ∧
      ((∃ rest, after.device = [] :: rest) ∨
        ∃ bytes, after.bridge = .refused bytes ∧
          accepts after.written bytes = false)
  served : (∀ earlier bytes, accepts earlier bytes = true) →
    before.Served → after.bridge.closed = false

theorem tunTasks_settle {accepts : List Bytes → Bytes → Bool} {mtu : Nat}
    {respectDf : Bool} {side : TunSide} (sound : side.Sound accepts)
    {rounds : List (List TunTask)}
    (fair : ∀ round, round ∈ rounds → Scheduler.FairRound round)
    (enough : side.work mtu respectDf ≤ rounds.length) :
    TunSettles accepts mtu respectDf side
      ((tunTasks accepts mtu respectDf).run side rounds.flatten) := by
  have keeps : TunKeeps accepts mtu respectDf side
      ((tunTasks accepts mtu respectDf).run side rounds.flatten) :=
    tunTasks_keep sound rounds.flatten
  have stuck : (tunTasks accepts mtu respectDf).Stuck
      ((tunTasks accepts mtu respectDf).run side rounds.flatten) :=
    tunTasks_stuck fair enough
  refine ⟨?_, ?_, fun willing served =>
    (served_run willing served rounds.flatten).inLoop⟩
  · intro inLoop
    have idle := idle_of_stuck stuck inLoop
    refine ⟨idle, ?_, ?_⟩
    · simpa [TunSide.uplinkBytes, Pumps.arrivedBytes, BridgeTask.uplinkBytes,
        idle.device, idle.bridge, idle.uplinkPipe] using keeps.uplink
    · simpa [TunSide.downlinkBytes, Pumps.leavingBytes, BridgeTask.toWrite,
        idle.bridge, idle.channel, idle.writing, idle.downlinkPipe]
        using keeps.downlink
  · intro isClosed
    have uplinkPipe := uplinkPipe_of_stuck (pump_stuck stuck .tunToP2p)
    have uplink := keeps.uplink
    rw [TunSide.uplinkBytes, Pumps.arrivedBytes, uplinkPipe,
      List.append_nil] at uplink
    cases isAt : ((tunTasks accepts mtu respectDf).run side
        rounds.flatten).bridge with
    | ended =>
        refine ⟨?_, Or.inl (keeps.sound.ended isAt)⟩
        simpa [isAt, BridgeTask.uplinkBytes] using uplink
    | refused bytes =>
        refine ⟨?_, Or.inr ⟨bytes, rfl, keeps.sound.refused bytes isAt⟩⟩
        simpa [isAt, BridgeTask.uplinkBytes] using uplink
    | selecting | toSock left | toDevice bytes =>
        simp [isAt, BridgeTask.closed] at isClosed

/-- In whatever order the three tasks run, the bytes of both directions keep
their order and their place, and while the bridge is in its loop some task can
move as long as anything is on its way.  If the tasks keep getting their turns,
all that the device holds reaches the P2P channel, and all that waits in the
channel reaches the device, unless the device ends, fails at a read or refuses
a write; what the bridge has read until then reaches the channel all the
same. -/
theorem tun_side_delivers (accepts : List Bytes → Bytes → Bool) (mtu : Nat)
    (respectDf : Bool) {side : TunSide} (sound : side.Sound accepts) :
    (∀ schedule after,
      (tunTasks accepts mtu respectDf).run side schedule = after →
        TunKeeps accepts mtu respectDf side after ∧
          (after.bridge.closed = false → ¬ after.Idle →
            ∃ task next,
              tunStep accepts mtu respectDf after task = some next)) ∧
    ∀ rounds : List (List TunTask),
      (∀ round, round ∈ rounds → Scheduler.FairRound round) →
      side.work mtu respectDf ≤ rounds.length →
        TunSettles accepts mtu respectDf side
          ((tunTasks accepts mtu respectDf).run side rounds.flatten) := by
  constructor
  · intro schedule after reached
    refine ⟨reached ▸ tunTasks_keep sound schedule, ?_⟩
    intro inLoop notIdle
    by_contra none
    apply notIdle
    apply @idle_of_stuck accepts mtu respectDf _ _ inLoop
    intro task
    cases moves : (tunTasks accepts mtu respectDf).step after task with
    | none =>
        rfl
    | some next =>
        exact absurd ⟨task, next, moves⟩ none
  · intro rounds fair enough
    exact tunTasks_settle sound fair enough

/-- Two packets wait at the device and one in the channel. -/
def threeWaiting : TunSide where
  device := [[0x40, 1], [0x60, 2]]
  bridge := .selecting
  uplinkPipe := []
  pumped := []
  channel := [[0x60, 3]]
  writing := []
  downlinkPipe := []
  written := []

def everyTask : List TunTask :=
  [.bridgeReadDevice, .bridgeWriteSock, .bridgeReadSock, .bridgeWriteDevice,
    .pump .tunToP2p, .pump .receive, .pump .write]

/-- With a device that takes everything, and with one that takes nothing. -/
theorem tun_side_delivers_threeWaiting :
    ∃ schedule,
      ((tunTasks (fun _ _ => true) 1400 false).run threeWaiting
            schedule).pumped.flatten = [0x40, 1, 0x60, 2] ∧
        ((tunTasks (fun _ _ => true) 1400 false).run threeWaiting
            schedule).written.flatten = [0x60, 3] ∧
        ((tunTasks (fun _ _ => false) 1400 false).run threeWaiting
            schedule).bridge = .refused [0x60, 3] := by
  have sound : ∀ accepts, threeWaiting.Sound accepts := fun _ =>
    ⟨⟨by decide, by decide⟩, nofun, nofun⟩
  have fair : ∀ round, round ∈ List.replicate 40 everyTask →
      Scheduler.FairRound round := by
    intro round member task
    rw [List.eq_of_mem_replicate member]
    cases task with
    | pump task =>
        cases task <;> decide
    | _ =>
        decide
  have settles := (tun_side_delivers (fun _ _ => true) 1400 false
    (sound _)).2 _ fair (by decide +kernel)
  obtain ⟨_, pumped, written⟩ := settles.inLoop
    (settles.served (fun _ _ => rfl) ⟨rfl, by decide⟩)
  exact ⟨_, pumped.trans (by decide +kernel),
    written.trans (by decide +kernel), by decide +kernel⟩

end CocoNet
