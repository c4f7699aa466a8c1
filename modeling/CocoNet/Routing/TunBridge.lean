import CocoNet.Library.BytePipe
import CocoNet.Routing.Downlink
import CocoNet.Routing.FragmentReassembly

/-!
# The bridge between the TUN device and the pumps

Packets cross between the device and the pumps over an in-memory duplex stream:
a pipe of bytes in each direction.  On either side one write is one packet and
one read is taken for one packet, but the pipe keeps bytes only.
-/

namespace CocoNet

/-! ## The two ends of the stream -/

def duplexCapacity : Nat := 64 * 1024

def readBufferSize : Nat := 65536

inductive Platform where
  | windows
  | other
  deriving DecidableEq, Repr

/-- `Ok(n) if n > 0`, and `break` on anything else. -/
def untilEmpty : List Bytes → List Bytes
  | [] => []
  | bytes :: rest =>
      if bytes.length > 0 then bytes :: untilEmpty rest else []

/-- What the bridge writes to the stream, given what it reads from the device.
On Windows a thread and a task hand every packet on. -/
def Platform.deviceToSock : Platform → List Bytes → List Bytes
  | .other, packets => untilEmpty packets
  | .windows, packets => packets

/-- `allocate_send_packet` and `copy_from_slice` of the Windows sender. -/
def sendToWintun (buf : Bytes) : Checked Bytes :=
  Checked.copyFromSlice (List.replicate (min buf.length u16Max) 0) 0
    (min buf.length u16Max) buf

def sendAllToWintun : List Bytes → Checked (List Bytes)
  | [] => .ok []
  | buf :: rest => do
      let packet ← sendToWintun buf
      let others ← sendAllToWintun rest
      .ok (packet :: others)

/-- What the bridge writes to the device, given what it reads from the
stream. -/
def Platform.sockToDevice : Platform → List Bytes → Checked (List Bytes)
  | .other, reads => .ok (untilEmpty reads)
  | .windows, reads => sendAllToWintun (untilEmpty reads)

/-- `pump_tun_to_p2p`: what it sends to the P2P channel, given what it reads
from the stream. -/
def pumpTunToP2p : List Bytes → Checked (List Bytes)
  | [] => .ok []
  | bytes :: rest =>
      if bytes.length = 0 then .ok []
      else do
        let _logged ← parseIpMeta bytes
        let others ← pumpTunToP2p rest
        .ok (bytes :: others)

/-! ## The two directions -/

abbrev duplex (writes : List Bytes) :
    StepMachine (Pipe UInt8) Turn Bytes :=
  Pipe.machine duplexCapacity readBufferSize writes

abbrev WritesWhenEmpty (writes : List Bytes) : List Turn → Prop :=
  Pipe.WritesWhenEmpty duplexCapacity readBufferSize writes

/-- What has come out at the far end are the first packets, one by one; the
pipe holds the next one or nothing, and the others are unwritten. -/
def DeliversPackets (packets : List Bytes) (pipe : Pipe UInt8)
    (delivered : Checked (List Bytes)) : Prop :=
  ∃ first, delivered = .ok first ∧ Pipe.Whole packets pipe first

theorem untilEmpty_eq {packets : List Bytes}
    (nonempty : ∀ packet, packet ∈ packets → packet ≠ []) :
    untilEmpty packets = packets := by
  induction packets with
  | nil =>
      rfl
  | cons packet rest inductionHypothesis =>
      have positive := List.length_pos_of_ne_nil (nonempty packet (by simp))
      rw [untilEmpty, if_pos positive,
        inductionHypothesis fun other member =>
          nonempty other (by simp [member])]

private theorem deviceToSock_eq (platform : Platform) {packets : List Bytes}
    (nonempty : ∀ packet, packet ∈ packets → packet ≠ []) :
    platform.deviceToSock packets = packets := by
  cases platform with
  | windows =>
      rfl
  | other =>
      exact untilEmpty_eq nonempty

private theorem pumpTunToP2p_eq {reads : List Bytes}
    (nonempty : ∀ bytes, bytes ∈ reads → bytes ≠ []) :
    pumpTunToP2p reads = .ok reads := by
  induction reads with
  | nil =>
      rfl
  | cons bytes rest inductionHypothesis =>
      have positive := List.length_pos_of_ne_nil (nonempty bytes (by simp))
      rcases parseIpMeta_succeeds bytes with ⟨_, parses⟩
      rw [pumpTunToP2p, if_neg (by omega), parses, Checked.ok_bind,
        inductionHypothesis fun other member =>
          nonempty other (by simp [member])]
      rfl

theorem sendToWintun_eq (buf : Bytes) :
    sendToWintun buf =
      if buf.length ≤ u16Max then .ok buf else .error .lengthMismatch := by
  have inside :
      0 ≤ min buf.length u16Max ∧
        min buf.length u16Max ≤
          (List.replicate (min buf.length u16Max) (0 : UInt8)).length := by
    simp
  rw [sendToWintun, Checked.copyFromSlice, if_pos inside]
  by_cases small : buf.length ≤ u16Max
  · rw [if_pos (by omega), if_pos small, Nat.min_eq_left small,
      List.take_zero, List.nil_append,
      List.drop_of_length_le (by simp), List.append_nil]
  · rw [if_neg (by omega), if_neg small]

theorem sendAllToWintun_eq {reads : List Bytes} :
    sendAllToWintun reads =
      if ∀ buf, buf ∈ reads → buf.length ≤ u16Max then .ok reads
      else .error .lengthMismatch := by
  induction reads with
  | nil =>
      simp [sendAllToWintun]
  | cons buf rest inductionHypothesis =>
      rw [sendAllToWintun, sendToWintun_eq, inductionHypothesis]
      by_cases all : ∀ other, other ∈ buf :: rest → other.length ≤ u16Max
      · rcases List.forall_mem_cons.mp all with ⟨small, others⟩
        rw [if_pos all, if_pos small, Checked.ok_bind, if_pos others,
          Checked.ok_bind]
      · rw [if_neg all]
        by_cases small : buf.length ≤ u16Max
        · rw [if_pos small, Checked.ok_bind, if_neg fun others =>
            all (List.forall_mem_cons.mpr ⟨small, others⟩)]
          rfl
        · rw [if_neg small]
          rfl

private theorem sockToDevice_only (platform : Platform)
    {reads written : List Bytes}
    (nonempty : ∀ bytes, bytes ∈ reads → bytes ≠ [])
    (reaches : platform.sockToDevice reads = .ok written) :
    written = reads := by
  cases platform with
  | other =>
      rw [Platform.sockToDevice, untilEmpty_eq nonempty] at reaches
      exact (Except.ok.inj reaches).symm
  | windows =>
      rw [Platform.sockToDevice, untilEmpty_eq nonempty,
        sendAllToWintun_eq] at reaches
      split at reaches
      · exact (Except.ok.inj reaches).symm
      · cases reaches

private theorem sockToDevice_eq (platform : Platform) {reads : List Bytes}
    (nonempty : ∀ bytes, bytes ∈ reads → bytes ≠ [])
    (small : ∀ bytes, bytes ∈ reads → bytes.length ≤ u16Max) :
    platform.sockToDevice reads = .ok reads := by
  cases platform with
  | other =>
      rw [Platform.sockToDevice, untilEmpty_eq nonempty]
  | windows =>
      rw [Platform.sockToDevice, untilEmpty_eq nonempty, sendAllToWintun_eq,
        if_pos small]

/-! ## What the pumps write -/

/-- Packets that are not empty and fit a 16-bit length. -/
def PacketSized (packets : List Bytes) : Prop :=
  ∀ packet, packet ∈ packets → 1 ≤ packet.length ∧ packet.length ≤ 65535

theorem PacketSized.chunks {packets : List Bytes}
    (sized : PacketSized packets) :
    ∀ packet, packet ∈ packets →
      packet ≠ [] ∧ packet.length < duplexCapacity := by
  intro packet member
  rcases sized packet member with ⟨nonempty, small⟩
  refine ⟨List.ne_nil_of_length_pos nonempty, ?_⟩
  rw [duplexCapacity]
  omega

private theorem fragmentsOf_sized {pkt : Bytes} {mtu : Nat} {respectDf : Bool}
    (fragmentable : Fragmentable pkt mtu respectDf) :
    PacketSized (fragmentsOf pkt mtu) := by
  intro frag member
  rcases fragmentsOf_lengths fragmentable member with ⟨total, _⟩
  have totalSmall := Ipv4.totalLength_le frag
  rcases List.mem_map.mp member with ⟨piece, _, shape⟩
  have long : frag.length = Ipv4.ihl pkt + piece.data.length := by
    rw [← shape]
    exact length_fragmentFor fragmentable.sound piece
  have header := fragmentable.header
  exact ⟨by omega, by omega⟩

theorem writesOf_ne_nil (mtu : Nat) (respectDf : Bool) (pkt : Bytes) :
    writesOf mtu respectDf pkt ≠ [] := by
  rcases pumpPacket_cases mtu respectDf pkt with ⟨fragmentable, cut⟩ | whole
  · rw [writesOf, cut]
    exact (fragmentsOf_correct fragmentable).nonempty
  · rw [writesOf, whole]
    exact List.cons_ne_nil pkt []

theorem pumpP2pToTun_sized (mtu : Nat) (respectDf : Bool)
    {packets : List Bytes} (sized : PacketSized packets) :
    ∃ writes, pumpP2pToTun mtu respectDf packets = .ok writes ∧
      PacketSized writes := by
  induction packets with
  | nil =>
      exact ⟨[], rfl, sized⟩
  | cons pkt rest inductionHypothesis =>
      rcases List.forall_mem_cons.mp sized with ⟨pktSized, restSized⟩
      obtain ⟨others, runsOthers, othersSized⟩ :=
        inductionHypothesis restSized
      obtain ⟨writes, runs, writesSized⟩ :
          ∃ writes, pumpPacket mtu respectDf pkt = .ok writes ∧
            PacketSized writes := by
        rcases pumpPacket_cases mtu respectDf pkt with
          ⟨fragmentable, cut⟩ | whole
        · exact ⟨_, cut, fragmentsOf_sized fragmentable⟩
        · exact ⟨_, whole, by simpa [PacketSized] using pktSized⟩
      refine ⟨writes ++ others, ?_, ?_⟩
      · rw [pumpP2pToTun, runs, Checked.ok_bind, runsOthers, Checked.ok_bind]
      · intro packet member
        rcases List.mem_append.mp member with first | later
        · exact writesSized packet first
        · exact othersSized packet later

/-! ## Packet boundaries -/

theorem duplex_reads_nonempty (writes : List Bytes) (turns : List Turn) :
    ∀ bytes, bytes ∈ (duplex writes).outputsOf turns → bytes ≠ [] :=
  fun _ member => Pipe.ne_nil_of_mem_outputsOf (by decide) member

/-- Boundaries are all that the stream can lose: in every run what was read,
what is in the pipe and what is unwritten are the bytes of the writes. -/
theorem duplex_keeps_bytes (writes : List Bytes) (turns : List Turn) :
    ((duplex writes).outputsOf turns).flatten ++
        ((duplex writes).stateAfter turns).buffer ++
        ((duplex writes).stateAfter turns).unwritten.flatten =
      writes.flatten :=
  Pipe.conserves duplexCapacity readBufferSize writes turns

/-- Handing on nothing but the reads, and all of them when they are small,
delivers the written packets exactly when the stream keeps them apart. -/
theorem deliversPackets_iff {packets : List Bytes}
    (sized : PacketSized packets) (turns : List Turn)
    {delivered : Checked (List Bytes)}
    (only : ∀ written, delivered = .ok written →
      written = (duplex packets).outputsOf turns)
    (all :
      (∀ bytes, bytes ∈ (duplex packets).outputsOf turns →
        bytes.length ≤ u16Max) →
        delivered = .ok ((duplex packets).outputsOf turns)) :
    (DeliversPackets packets ((duplex packets).stateAfter turns) delivered ↔
        WritesWhenEmpty packets turns) ∧
      (Pipe.Drained ((duplex packets).stateAfter turns) →
        (delivered = .ok packets ↔ WritesWhenEmpty packets turns)) := by
  have wholeIff :=
    Pipe.whole_iff sized.chunks (Nat.le_refl readBufferSize) turns
  have inEveryState :
      DeliversPackets packets ((duplex packets).stateAfter turns) delivered ↔
        WritesWhenEmpty packets turns := by
    constructor
    · intro ⟨first, reaches, whole⟩
      rw [only first reaches] at whole
      exact wholeIff.1 whole
    · intro each
      have whole := wholeIff.2 each
      refine ⟨_, all ?_, whole⟩
      intro bytes member
      refine (sized bytes ?_).2
      rw [← whole]
      simp [member]
  refine ⟨inEveryState, fun drained => ?_⟩
  rw [← inEveryState]
  constructor
  · intro reaches
    exact ⟨packets, reaches, (Pipe.whole_of_drained drained).2 rfl⟩
  · intro ⟨first, reaches, whole⟩
    rw [reaches, (Pipe.whole_of_drained drained).1 whole]

/-- In both directions and in every run of the stream, packets cross one by one
if and only if every write finds the pipe empty: in every state what has come
out are the first packets and the pipe holds at most one, and once the stream
is drained what has come out are the packets. -/
theorem tun_bridge_keeps_packets_iff (platform : Platform)
    {packets : List Bytes} (sized : PacketSized packets) (mtu : Nat)
    (respectDf : Bool) (turns : List Turn) :
    ((DeliversPackets packets
          ((duplex (platform.deviceToSock packets)).stateAfter turns)
          (pumpTunToP2p
            ((duplex (platform.deviceToSock packets)).outputsOf turns)) ↔
        WritesWhenEmpty (platform.deviceToSock packets) turns) ∧
      (Pipe.Drained
          ((duplex (platform.deviceToSock packets)).stateAfter turns) →
        (pumpTunToP2p
              ((duplex (platform.deviceToSock packets)).outputsOf turns) =
            .ok packets ↔
          WritesWhenEmpty (platform.deviceToSock packets) turns))) ∧
      ∃ writes, pumpP2pToTun mtu respectDf packets = .ok writes ∧
        (DeliversPackets writes ((duplex writes).stateAfter turns)
            (platform.sockToDevice ((duplex writes).outputsOf turns)) ↔
          WritesWhenEmpty writes turns) ∧
        (Pipe.Drained ((duplex writes).stateAfter turns) →
          (platform.sockToDevice ((duplex writes).outputsOf turns) =
              .ok writes ↔
            WritesWhenEmpty writes turns)) := by
  constructor
  · have nonempty : ∀ packet, packet ∈ packets → packet ≠ [] :=
      fun packet member => (sized.chunks packet member).1
    rw [deviceToSock_eq platform nonempty]
    have sends := pumpTunToP2p_eq (duplex_reads_nonempty packets turns)
    refine deliversPackets_iff sized turns ?_ fun _ => sends
    intro written reaches
    exact Except.ok.inj (reaches.symm.trans sends)
  · obtain ⟨writes, runs, writesSized⟩ :=
      pumpP2pToTun_sized mtu respectDf sized
    refine ⟨writes, runs, ?_⟩
    have nonempty := duplex_reads_nonempty writes turns
    exact deliversPackets_iff writesSized turns
      (fun _ => sockToDevice_only platform nonempty)
      (sockToDevice_eq platform nonempty)

/-- Two packets of one byte that take turns with the reads. -/
theorem tun_bridge_keeps_packets_alternating :
    WritesWhenEmpty [[0x40], [0x60]] [.writer, .reader, .writer, .reader] := by
  have iffs :=
    (tun_bridge_keeps_packets_iff .windows
      (show PacketSized [[0x40], [0x60]] by simp [PacketSized]) 1400 false
      [.writer, .reader, .writer, .reader]).1
  exact (iffs.2 ⟨by decide, by decide⟩).1 (by decide)

def shortDatagram : Bytes :=
  [0x45, 0, 0, 36, 0, 7, 0, 0, 64, 17, 0, 0, 10, 99, 0, 1, 10, 99, 0, 2] ++
    List.replicate 16 0xAB

def shortFragments : List Bytes :=
  [[0x45, 0, 0, 28, 0, 7, 0x20, 0, 64, 17, 70, 2, 10, 99, 0, 1, 10, 99, 0, 2] ++
      List.replicate 8 0xAB,
    [0x45, 0, 0, 28, 0, 7, 0, 1, 64, 17, 102, 1, 10, 99, 0, 1, 10, 99, 0, 2] ++
      List.replicate 8 0xAB]

/-- Two writes before a read.  Up, two packets of one byte are sent as one of
two bytes; down, the two fragments of one datagram reach the device in one
write. -/
theorem tun_bridge_merges_packets :
    (¬ ∀ (platform : Platform) (packets : List Bytes) (turns : List Turn),
        PacketSized packets →
        Pipe.Drained
          ((duplex (platform.deviceToSock packets)).stateAfter turns) →
        pumpTunToP2p
            ((duplex (platform.deviceToSock packets)).outputsOf turns) =
          .ok packets) ∧
      ¬ ∀ (platform : Platform) (mtu : Nat) (packets writes : List Bytes)
          (turns : List Turn),
        PacketSized packets →
        pumpP2pToTun mtu false packets = .ok writes →
        Pipe.Drained ((duplex writes).stateAfter turns) →
        platform.sockToDevice ((duplex writes).outputsOf turns) =
          .ok writes := by
  constructor
  · intro always
    have sent :=
      always .other [[0x40], [0x60]] [.writer, .writer, .reader]
        (by simp [PacketSized]) ⟨by decide, by decide⟩
    exact absurd sent (by decide)
  · intro always
    have fragments :
        pumpP2pToTun 28 false [shortDatagram] = .ok shortFragments := by
      decide +kernel
    have written :=
      always .other 28 [shortDatagram] shortFragments
        [.writer, .writer, .reader] (by simp [PacketSized, shortDatagram])
        fragments ⟨by decide +kernel, by decide +kernel⟩
    exact absurd written (by decide +kernel)

end CocoNet
