import CocoNet.Library.Scheduler
import CocoNet.Routing.TunBridge

/-!
# The pumps

On every platform two tasks connect the duplex stream of the TUN side with the
channels of the P2P side, which are unbounded.  `pump_tun_to_p2p` sends on what
it reads.  `pump_p2p_to_tun` takes a packet from its channel and writes it, or
its fragments, before it takes the next.

The P2P side outlives the pumps, so that its channels stay open.  The stream
does not always: once the other end is dropped, a write to it fails.
-/

namespace CocoNet

/-! ## The tasks -/

/-- What the two pumps share with the tasks at the other end of the stream. -/
structure Pumps where
  /-- The stream to `pump_tun_to_p2p`. -/
  uplinkPipe : Bytes
  /-- What `pump_tun_to_p2p` has sent to the P2P channel. -/
  pumped : List Bytes
  /-- The packets that wait for `pump_p2p_to_tun`. -/
  channel : List Bytes
  /-- What `pump_p2p_to_tun` has still to write for the packet it is at. -/
  writing : List Bytes
  /-- The stream from `pump_p2p_to_tun`. -/
  downlinkPipe : Bytes
  deriving DecidableEq, Repr

/-- A read and a send of `pump_tun_to_p2p`, and for `pump_p2p_to_tun` what it
does up to a write and what it writes. -/
inductive PumpTask where
  | tunToP2p
  | receive
  | write
  deriving DecidableEq, Repr

/-- The part of a `write_all` for which there is room in the stream: what then
is in the stream, and what is left to write.  Without room the writer waits,
unless it has nothing to write. -/
def writeSome (pipe bytes : Bytes) : Option (Bytes × Bytes) :=
  let room := duplexCapacity - pipe.length
  if bytes = [] ∨ 0 < room then
    some (pipe ++ bytes.take room, bytes.drop room)
  else none

/-- The next move of a pump, if it can make one.  `closed` says whether the
other end of the stream has been dropped. -/
def pumpStep (mtu : Nat) (respectDf closed : Bool) (pumps : Pumps) :
    PumpTask → Option Pumps
  | .tunToP2p =>
      -- At the end of a closed stream the pump is past its loop.
      if pumps.uplinkPipe ≠ [] then
        some { pumps with
          uplinkPipe := pumps.uplinkPipe.drop readBufferSize
          pumped := pumps.pumped ++ [pumps.uplinkPipe.take readBufferSize] }
      else none
  | .receive =>
      match pumps.writing, pumps.channel with
      | [], pkt :: rest =>
          match pumpPacket mtu respectDf pkt with
          | .ok writes => some { pumps with channel := rest, writing := writes }
          | .error _ => none
      | _, _ => none
  | .write =>
      match pumps.writing with
      | bytes :: rest =>
          -- The write fails and the pump returns its error: `bytes` and what
          -- comes after them are never written.
          if closed = true ∧ bytes ≠ [] then none
          else
            (writeSome pumps.downlinkPipe bytes).map fun wrote =>
              { pumps with
                downlinkPipe := wrote.1
                writing := if wrote.2 = [] then rest else wrote.2 :: rest }
      | [] => none

/-- The moves of the pumps one by one, with what each of them needs. -/
inductive PumpMove (mtu : Nat) (respectDf closed : Bool) (pumps : Pumps) :
    PumpTask → Pumps → Prop where
  | tunToP2p (occupied : pumps.uplinkPipe ≠ []) :
      PumpMove mtu respectDf closed pumps .tunToP2p { pumps with
        uplinkPipe := pumps.uplinkPipe.drop readBufferSize
        pumped := pumps.pumped ++ [pumps.uplinkPipe.take readBufferSize] }
  | receive {pkt : Bytes} {rest : List Bytes}
      (nothing : pumps.writing = []) (waiting : pumps.channel = pkt :: rest) :
      PumpMove mtu respectDf closed pumps .receive { pumps with
        channel := rest
        writing := writesOf mtu respectDf pkt }
  | write {bytes : Bytes} {rest : List Bytes} {wrote : Bytes × Bytes}
      (isWriting : pumps.writing = bytes :: rest)
      (goes : closed = true → bytes = [])
      (writes : writeSome pumps.downlinkPipe bytes = some wrote) :
      PumpMove mtu respectDf closed pumps .write { pumps with
        downlinkPipe := wrote.1
        writing := if wrote.2 = [] then rest else wrote.2 :: rest }

section Relation

variable {mtu : Nat} {respectDf closed : Bool} {pumps next : Pumps}

theorem pumpStep_eq_some_iff {task : PumpTask} :
    pumpStep mtu respectDf closed pumps task = some next ↔
      PumpMove mtu respectDf closed pumps task next := by
  constructor
  · intro moves
    cases task with
    | tunToP2p =>
        simp only [pumpStep] at moves
        split at moves
        · rename_i occupied
          cases moves
          exact .tunToP2p occupied
        · cases moves
    | receive =>
        simp only [pumpStep, pumpPacket_eq_writesOf] at moves
        split at moves
        · rename_i nothing waiting
          cases moves
          exact .receive nothing waiting
        · cases moves
    | write =>
        simp only [pumpStep] at moves
        split at moves
        · rename_i isWriting
          split at moves
          · cases moves
          · rename_i goes
            rw [not_and, not_not] at goes
            rcases Option.map_eq_some_iff.1 moves with ⟨wrote, writes, same⟩
            subst same
            exact .write isWriting goes writes
        · cases moves
  · intro move
    cases move with
    | tunToP2p occupied =>
        simp [pumpStep, occupied]
    | receive nothing waiting =>
        simp [pumpStep, nothing, waiting, pumpPacket_eq_writesOf]
    | write isWriting goes writes =>
        have notFailing := not_and.2 fun isClosed => not_not.2 (goes isClosed)
        simp only [pumpStep, isWriting, if_neg notFailing, writes,
          Option.map_some]

end Relation

/-! ## Writes to the stream -/

theorem writeSome_eq_some {pipe bytes : Bytes} {wrote : Bytes × Bytes}
    (writes : writeSome pipe bytes = some wrote) :
    wrote.1 ++ wrote.2 = pipe ++ bytes ∧
      (pipe.length ≤ duplexCapacity → wrote.1.length ≤ duplexCapacity) ∧
      (wrote.2 = [] ∨ wrote.2.length < bytes.length) := by
  unfold writeSome at writes
  simp only at writes
  split at writes
  · rename_i moves
    rw [← Option.some.inj writes]
    refine ⟨?_, ?_, ?_⟩
    · simp only [List.append_assoc, List.take_append_drop]
    · intro fits
      simp only [List.length_append, List.length_take]
      omega
    · by_cases empty : bytes = []
      · exact Or.inl (by simp [empty])
      · have room := moves.resolve_left empty
        have positive := List.length_pos_iff.2 empty
        apply Or.inr
        simp only [List.length_drop]
        omega
  · cases writes

/-- A writer waits only for a full stream. -/
theorem full_of_writeSome_eq_none {pipe bytes : Bytes}
    (waits : writeSome pipe bytes = none) :
    bytes ≠ [] ∧ duplexCapacity ≤ pipe.length := by
  unfold writeSome at waits
  simp only at waits
  split at waits
  · cases waits
  · rename_i still
    rw [not_or] at still
    exact ⟨still.1, by omega⟩

theorem duplexCapacity_pos : 0 < duplexCapacity := by
  decide

theorem writeSome_ne_none {pipe bytes : Bytes}
    (room : pipe.length < duplexCapacity) : writeSome pipe bytes ≠ none :=
  fun waits => Nat.not_le.2 room (full_of_writeSome_eq_none waits).2

theorem writeSome_nil {bytes : Bytes} (fits : bytes.length ≤ duplexCapacity) :
    writeSome [] bytes = some (bytes, []) := by
  have roomy : bytes = [] ∨ 0 < duplexCapacity := Or.inr duplexCapacity_pos
  simp [writeSome, roomy, List.take_of_length_le fits,
    List.drop_of_length_le fits]

/-- A `write_all` that can go on does what a turn of the writer of the pipe
does. -/
theorem write_of_writeSome {pipe bytes : Bytes} {wrote : Bytes × Bytes}
    (writes : writeSome pipe bytes = some wrote) (rest : List Bytes) :
    Pipe.write duplexCapacity ⟨bytes :: rest, pipe⟩ =
      ⟨if wrote.2 = [] then rest else wrote.2 :: rest, wrote.1⟩ := by
  unfold writeSome at writes
  simp only at writes
  split at writes
  · rw [← Option.some.inj writes]
    rfl
  · cases writes

/-- What is left of a write, in front of the writes after it. -/
theorem flatten_left (left : Bytes) (rest : List Bytes) :
    (if left = [] then rest else left :: rest).flatten =
      left ++ rest.flatten := by
  by_cases done : left = []
  · simp [done]
  · simp [done]

/-! ## What a move of a pump does -/

/-- What has come through the stream to the P2P side, and what is in it. -/
def Pumps.arrivedBytes (pumps : Pumps) : Bytes :=
  pumps.pumped.flatten ++ pumps.uplinkPipe

/-- What is in the stream from the P2P side, and what has still to be written
to it. -/
def Pumps.leavingBytes (mtu : Nat) (respectDf : Bool) (pumps : Pumps) :
    Bytes :=
  pumps.downlinkPipe ++ pumps.writing.flatten ++
    (pumps.channel.flatMap (writesOf mtu respectDf)).flatten

structure Pumps.Fit (pumps : Pumps) : Prop where
  uplink : pumps.uplinkPipe.length ≤ duplexCapacity
  downlink : pumps.downlinkPipe.length ≤ duplexCapacity

/-- The moves that a list of writes takes at most, with their bytes on the way
to the device. -/
def pumpWork (writes : List Bytes) : Nat :=
  (writes.map fun bytes => 5 * bytes.length + 1).sum

/-- A bound for the moves that are left on account of what the pumps have in
hand: a byte counts less and less the further it gets. -/
def Pumps.pumpsWork (mtu : Nat) (respectDf : Bool) (pumps : Pumps) : Nat :=
  pumps.uplinkPipe.length +
    (pumps.channel.map fun pkt =>
      pumpWork (writesOf mtu respectDf pkt) + 1).sum +
    pumpWork pumps.writing + 4 * pumps.downlinkPipe.length

/-- A move of a pump keeps the bytes of both directions in order, overfills
neither stream and leaves less to do. -/
structure PumpMoves (mtu : Nat) (respectDf : Bool) (before after : Pumps) :
    Prop where
  arrived : after.arrivedBytes = before.arrivedBytes
  leaving :
    after.leavingBytes mtu respectDf = before.leavingBytes mtu respectDf
  fit : before.Fit → after.Fit
  less : after.pumpsWork mtu respectDf < before.pumpsWork mtu respectDf

section Moves

variable {mtu : Nat} {respectDf closed : Bool} {pumps next : Pumps}

private theorem pumpTunToP2p_moves
    (moves : PumpMove mtu respectDf closed pumps .tunToP2p next) :
    PumpMoves mtu respectDf pumps next := by
  cases moves with
  | tunToP2p occupied =>
      have positive := List.length_pos_iff.2 occupied
      refine ⟨?_, rfl, ?_, ?_⟩
      · simp only [Pumps.arrivedBytes, List.flatten_append,
          List.flatten_singleton]
        rw [List.append_assoc, List.take_append_drop]
      · intro fit
        refine ⟨?_, fit.downlink⟩
        exact Nat.le_trans (List.drop_sublist _ _).length_le fit.uplink
      · simp only [Pumps.pumpsWork, List.length_drop]
        unfold readBufferSize
        omega

private theorem pumpReceive_moves
    (moves : PumpMove mtu respectDf closed pumps .receive next) :
    PumpMoves mtu respectDf pumps next := by
  cases moves with
  | receive nothing waiting =>
      refine ⟨rfl, ?_, fun fit => ⟨fit.uplink, fit.downlink⟩, ?_⟩
      · simp [Pumps.leavingBytes, nothing, waiting]
      · simp only [Pumps.pumpsWork, nothing, waiting, List.map_cons,
          List.sum_cons, pumpWork, List.map_nil, List.sum_nil]
        omega

private theorem pumpWrite_moves
    (moves : PumpMove mtu respectDf closed pumps .write next) :
    PumpMoves mtu respectDf pumps next := by
  cases moves with
  | @write bytes rest wrote isWriting goes writes =>
      rcases writeSome_eq_some writes with ⟨kept, fits, less⟩
      have lengths := congrArg List.length kept
      simp only [List.length_append] at lengths
      refine ⟨rfl, ?_, fun fit => ⟨fit.uplink, fits fit.downlink⟩, ?_⟩
      · simp only [Pumps.leavingBytes, flatten_left, isWriting,
          List.flatten_cons]
        rw [← List.append_assoc wrote.1, kept, List.append_assoc _ bytes]
      · simp only [Pumps.pumpsWork, isWriting, pumpWork, List.map_cons,
          List.sum_cons]
        by_cases done : wrote.2 = []
        · rw [if_pos done]
          rw [done, List.length_nil] at lengths
          omega
        · have lessLeft := less.resolve_left done
          rw [if_neg done, List.map_cons, List.sum_cons]
          omega

theorem pumpMove_moves {task : PumpTask}
    (moves : PumpMove mtu respectDf closed pumps task next) :
    PumpMoves mtu respectDf pumps next := by
  cases task with
  | tunToP2p =>
      exact pumpTunToP2p_moves moves
  | receive =>
      exact pumpReceive_moves moves
  | write =>
      exact pumpWrite_moves moves

end Moves

/-! ## Pumps that cannot move -/

section Stuck

variable {mtu : Nat} {respectDf closed : Bool} {pumps : Pumps}

theorem uplinkPipe_of_stuck
    (stuck : pumpStep mtu respectDf closed pumps .tunToP2p = none) :
    pumps.uplinkPipe = [] := by
  by_contra occupied
  simp [pumpStep, occupied] at stuck

/-- The pump of the downlink waits for nothing but a full stream. -/
theorem writing_of_stuck
    (stuck : pumpStep mtu respectDf false pumps .write = none)
    (room : pumps.downlinkPipe.length < duplexCapacity) :
    pumps.writing = [] := by
  cases isWriting : pumps.writing with
  | nil =>
      rfl
  | cons bytes rest =>
      simp only [pumpStep, isWriting, Bool.false_eq_true, false_and, if_false,
        Option.map_eq_none_iff] at stuck
      exact absurd stuck (writeSome_ne_none room)

theorem channel_of_stuck
    (stuck : pumpStep mtu respectDf closed pumps .receive = none)
    (nothing : pumps.writing = []) : pumps.channel = [] := by
  cases waiting : pumps.channel with
  | nil =>
      rfl
  | cons pkt rest =>
      simp [pumpStep, nothing, waiting, pumpPacket_eq_writesOf] at stuck

end Stuck

/-! ## The streams of the pumps -/

/-- The pump has the rest of the packet it is at to write, and then the packets
of the channel, cut to the MTU. -/
def Pumps.downlink (mtu : Nat) (respectDf : Bool) (pumps : Pumps) :
    Pipe UInt8 where
  unwritten :=
    pumps.writing ++ pumps.channel.flatMap (writesOf mtu respectDf)
  buffer := pumps.downlinkPipe

section Streams

variable {mtu : Nat} {respectDf closed : Bool} {pumps next : Pumps}

theorem PumpMove.downlink_receive
    (moves : PumpMove mtu respectDf closed pumps .receive next) :
    next.downlink mtu respectDf = pumps.downlink mtu respectDf := by
  cases moves with
  | receive nothing waiting =>
      simp [Pumps.downlink, nothing, waiting]

theorem PumpMove.downlink_write
    (moves : PumpMove mtu respectDf closed pumps .write next) :
    next.downlink mtu respectDf =
      (pumps.downlink mtu respectDf).write duplexCapacity := by
  cases moves with
  | @write bytes rest wrote isWriting goes writes =>
      simp only [Pumps.downlink, isWriting, List.cons_append]
      rw [write_of_writeSome writes]
      by_cases done : wrote.2 = [] <;> simp [done]

/-- `pump_tun_to_p2p` makes a turn of the reader, whatever is unwritten. -/
theorem PumpMove.uplink_read
    (moves : PumpMove mtu respectDf closed pumps .tunToP2p next)
    (unwritten : List Bytes) :
    (⟨unwritten, next.uplinkPipe⟩ : Pipe UInt8) =
        (Pipe.read readBufferSize ⟨unwritten, pumps.uplinkPipe⟩).1 ∧
      next.pumped = pumps.pumped ++
        (Pipe.read readBufferSize ⟨unwritten, pumps.uplinkPipe⟩).2 := by
  cases moves with
  | tunToP2p occupied =>
      simp [Pipe.read, occupied]

theorem ne_nil_of_write
    (moves : PumpMove mtu respectDf closed pumps .write next) :
    (pumps.downlink mtu respectDf).unwritten ≠ [] := by
  cases moves with
  | write isWriting goes writes =>
      simp [Pumps.downlink, isWriting]

end Streams

end CocoNet
