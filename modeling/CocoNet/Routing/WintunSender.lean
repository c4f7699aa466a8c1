import CocoNet.Routing.TunBridge

/-!
# The Windows send thread

The reader task hands every read of the stream to a thread that allocates a
packet for it.  A packet's length has sixteen bits, so the thread asks for at
most 65535 bytes and copies the whole read into what it gets.  The two lengths
differ for a read of the whole capacity of the stream, and for no other.
-/

namespace CocoNet

open StepMachine

/-- The length with which `allocate_send_packet` is called. -/
def sendPacketLen (buf : Bytes) : Nat :=
  min buf.length u16Max

/-- Every buffer handed to the send thread has the length of its packet. -/
def LengthsAgree (writes : List Bytes) (turns : List Turn) : Prop :=
  ∀ buf, buf ∈ untilEmpty ((duplex writes).outputsOf turns) →
    buf.length = sendPacketLen buf

/-- The reader never finds the stream filled to its capacity. -/
def NeverFull (writes : List Bytes) : List Turn → Prop :=
  EachStep fun earlier turn =>
    turn = .reader →
      ((duplex writes).stateAfter earlier).buffer.length < duplexCapacity

private theorem eq_sendPacketLen_iff (buf : Bytes) :
    buf.length = sendPacketLen buf ↔ buf.length ≤ u16Max := by
  unfold sendPacketLen
  omega

/-- Everything the pipe holds comes out in one read. -/
theorem reads_small_iff (writes : List Bytes) (turns : List Turn) :
    (∀ buf, buf ∈ (duplex writes).outputsOf turns → buf.length ≤ u16Max) ↔
      NeverFull writes turns := by
  have bounded : ∀ earlier : List Turn,
      ((duplex writes).stateAfter earlier).buffer.length ≤ readBufferSize :=
    Pipe.length_buffer_le
  constructor
  · intro small earlier turn later shape isReader
    subst isReader
    by_cases empty : ((duplex writes).stateAfter earlier).buffer = []
    · rw [empty]
      decide
    · have read := small _ ((Pipe.mem_outputsOf_iff turns _).2
        ⟨earlier, later, shape, empty, rfl⟩)
      rw [List.take_of_length_le (bounded earlier)] at read
      exact Nat.lt_succ_of_le read
  · intro neverFull buf member
    obtain ⟨earlier, later, shape, _, rfl⟩ :=
      (Pipe.mem_outputsOf_iff turns _).1 member
    rw [List.take_of_length_le (bounded earlier)]
    exact Nat.le_of_lt_succ (neverFull earlier .reader later shape rfl)

private theorem lengthsAgree_iff (writes : List Bytes) (turns : List Turn) :
    LengthsAgree writes turns ↔ NeverFull writes turns := by
  rw [← reads_small_iff, LengthsAgree,
    untilEmpty_eq (duplex_reads_nonempty writes turns)]
  simp only [eq_sendPacketLen_iff]

private theorem sockToDevice_windows_succeeds_iff (writes : List Bytes)
    (turns : List Turn) :
    Checked.Succeeds
        (Platform.windows.sockToDevice ((duplex writes).outputsOf turns)) ↔
      NeverFull writes turns := by
  rw [← reads_small_iff, Platform.sockToDevice,
    untilEmpty_eq (duplex_reads_nonempty writes turns), sendAllToWintun_eq]
  split
  · rename_i small
    exact ⟨fun _ => small, fun _ => ⟨_, rfl⟩⟩
  · rename_i large
    constructor
    · intro succeeds
      rcases succeeds with ⟨_, returned⟩
      cases returned
    · intro small
      exact absurd small large

/-- Whatever is written and in every run of the stream, the lengths agree, and
so no copy of the send thread panics, if and only if no read finds the stream
full. -/
theorem sender_lengths_agree_iff (writes : List Bytes) (turns : List Turn) :
    (LengthsAgree writes turns ↔ NeverFull writes turns) ∧
      (Checked.Succeeds
          (Platform.windows.sockToDevice ((duplex writes).outputsOf turns)) ↔
        NeverFull writes turns) :=
  ⟨lengthsAgree_iff writes turns,
    sockToDevice_windows_succeeds_iff writes turns⟩

/-- Two packets that fill the stream, written before the first read. -/
theorem not_neverFull_of_fills {first second : Bytes}
    (fills : first.length + second.length = duplexCapacity) :
    ¬ NeverFull [first, second] [.writer, .writer, .reader] := by
  intro neverFull
  have filled : (duplex [first, second]).stateAfter [.writer, .writer] =
      ⟨[], first ++ second⟩ := by
    change Pipe.write duplexCapacity
      (Pipe.write duplexCapacity ⟨[first, second], []⟩) = _
    rw [Pipe.write_of_room (by rw [List.length_nil]; omega),
      List.nil_append, Pipe.write_of_room (Nat.le_of_eq fills)]
  have room := neverFull [.writer, .writer] .reader [] rfl rfl
  rw [filled, List.length_append, fills] at room
  exact Nat.lt_irrefl _ room

/-- A packet of the largest size and one of one byte. -/
def fillingPackets : List Bytes :=
  [0x60 :: List.replicate 65534 0, [0x60]]

private theorem fillingPackets_sized : PacketSized fillingPackets := by
  intro packet member
  rcases List.mem_pair.1 member with isLong | isShort
  · rw [isLong, List.length_cons, List.length_replicate]
    decide
  · rw [isShort]
    decide

private theorem pump_fillingPackets :
    pumpP2pToTun 1300 false fillingPackets = .ok fillingPackets := by
  have whole : ∀ rest : Bytes,
      pumpPacket 1300 false (0x60 :: rest) = .ok [0x60 :: rest] := by
    intro rest
    apply (pumpPacket_eq 1300 false _).2
    intro ⟨version4, _⟩
    change (0x60 : UInt8).toNat >>> 4 = 4 at version4
    exact absurd version4 (by decide)
  rw [fillingPackets, pumpP2pToTun, whole, Checked.ok_bind, pumpP2pToTun,
    whole, Checked.ok_bind]
  rfl

/-- The two packets reach the stream as they are, are written before a read,
and the copy of the 65536 bytes that are read panics. -/
theorem full_read_panics :
    pumpP2pToTun 1300 false fillingPackets = .ok fillingPackets ∧
    ¬ Checked.Succeeds
      (Platform.windows.sockToDevice
        ((duplex fillingPackets).outputsOf [.writer, .writer, .reader])) ∧
    ¬ ∀ (writes : List Bytes) (turns : List Turn), PacketSized writes →
      LengthsAgree writes turns := by
  have full : ¬ NeverFull fillingPackets [.writer, .writer, .reader] := by
    apply not_neverFull_of_fills
    rw [List.length_cons, List.length_replicate]
    rfl
  refine ⟨pump_fillingPackets, ?_, ?_⟩
  · rw [sockToDevice_windows_succeeds_iff]
    exact full
  · intro always
    apply full
    exact (lengthsAgree_iff _ _).1 (always _ _ fillingPackets_sized)

end CocoNet
