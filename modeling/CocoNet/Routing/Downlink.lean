import CocoNet.P2p.Unpack
import CocoNet.Routing.FragmentLayout

/-!
# The downlink from the network to the TUN writer

A message from the network is unpacked into packets, and each packet is
inspected, fragmented when it has to be, and written.  None of it faults,
whatever the bytes are.
-/

namespace CocoNet

/-- A gossipsub message of the data topic, or a request. -/
inductive InboundMessage where
  | gossip (data : Bytes)
  | request (data : Bytes)
  deriving DecidableEq, Repr

def InboundMessage.unpack : InboundMessage → Checked Unpacked
  | .gossip data => unpackGossip data
  | .request data => unpackRequest data

/-- The `write_all` calls that messages from the network lead to, in order. -/
def downlink (mtu : Nat) (respectDf : Bool) :
    List InboundMessage → Checked (List Bytes)
  | [] => .ok []
  | message :: rest => do
      let unpacked ← message.unpack
      let writes ← pumpP2pToTun mtu respectDf unpacked.packets
      let others ← downlink mtu respectDf rest
      .ok (writes ++ others)

/-! ## One packet -/

theorem parseIpMeta_succeeds (pkt : Bytes) :
    Checked.Succeeds (parseIpMeta pkt) := by
  rw [parseIpMeta]
  by_cases empty : pkt.length < 1
  · exact ⟨none, if_pos empty⟩
  · rw [if_neg empty, Checked.index_eq_ok (by omega), Checked.ok_bind]
    generalize pkt[0] = first
    split
    · by_cases short : pkt.length < 20
      · exact ⟨none, if_pos short⟩
      · have ihlBound : (first.toNat &&& 0x0F) * 4 ≤ 60 := by
          have nibble : first.toNat &&& 0x0F ≤ 0x0F := Nat.and_le_right
          omega
        have roomForGuard :
            (first.toNat &&& 0x0F) * 4 + 20 < usizeBound := by
          rw [usizeBound]
          omega
        rw [if_neg short, Checked.mul_eq_ok (by omega), Checked.ok_bind,
          Checked.add_eq_ok roomForGuard, Checked.ok_bind,
          Checked.index_eq_ok (by omega), Checked.ok_bind,
          Checked.slice_eq_ok (by omega) (by omega), Checked.ok_bind,
          Checked.slice_eq_ok (by omega) (by omega), Checked.ok_bind]
        exact ⟨_, rfl⟩
    · by_cases short : pkt.length < 40
      · exact ⟨none, if_pos short⟩
      · rw [if_neg short, Checked.index_eq_ok (by omega), Checked.ok_bind,
          Checked.slice_eq_ok (by omega) (by omega), Checked.ok_bind,
          Checked.slice_eq_ok (by omega) (by omega), Checked.ok_bind]
        exact ⟨_, rfl⟩
    · exact ⟨none, rfl⟩

theorem ipv4FragmentIfNeeded_cases (pkt : Bytes) (mtu : Nat)
    (respectDf : Bool) :
    (Fragmentable pkt mtu respectDf ∧
        ipv4FragmentIfNeeded pkt mtu respectDf =
          .ok (some (fragmentsOf pkt mtu))) ∨
      ipv4FragmentIfNeeded pkt mtu respectDf = .ok none := by
  by_cases version4 : Ipv4.version pkt = 4
  · rcases ipv4FragmentIfNeeded_eq mtu respectDf version4 with ⟨cuts, leaves⟩
    by_cases fragmentable : Fragmentable pkt mtu respectDf
    · exact Or.inl ⟨fragmentable, cuts fragmentable⟩
    · exact Or.inr (leaves fragmentable)
  · exact Or.inr (ipv4FragmentIfNeeded_of_version_ne mtu respectDf version4)

private theorem ipv4FragmentIfNeeded_succeeds (pkt : Bytes) (mtu : Nat)
    (respectDf : Bool) :
    Checked.Succeeds (ipv4FragmentIfNeeded pkt mtu respectDf) := by
  rcases ipv4FragmentIfNeeded_cases pkt mtu respectDf with ⟨_, cut⟩ | left
  · exact ⟨_, cut⟩
  · exact ⟨none, left⟩

private theorem parseIpMeta_of_version4 {pkt : Bytes}
    (version4 : Ipv4.version pkt = 4) (long : 20 ≤ pkt.length) :
    ∃ info, parseIpMeta pkt = .ok (some info) ∧ info.version = .ipv4 := by
  have nibble : (Ipv4.byteAt pkt 0).toNat >>> 4 = 4 := version4
  have small := Ipv4.ihl_le pkt
  rw [parseIpMeta, if_neg (by omega), index_eq_byteAt (by omega),
    Checked.ok_bind]
  simp only [nibble]
  rw [if_neg (by omega), mul_ihl, Checked.ok_bind,
    Checked.add_eq_ok (by unfold usizeBound; omega), Checked.ok_bind,
    index_eq_byteAt (by omega), Checked.ok_bind,
    Checked.slice_eq_ok (by omega) (by omega), Checked.ok_bind,
    Checked.slice_eq_ok (by omega) long, Checked.ok_bind]
  exact ⟨_, rfl, rfl⟩

/-- An IPv4 packet is cut when it is fragmentable, and every other packet is
written whole. -/
theorem pumpPacket_eq (mtu : Nat) (respectDf : Bool) (pkt : Bytes) :
    (Ipv4.version pkt = 4 ∧ Fragmentable pkt mtu respectDf →
      pumpPacket mtu respectDf pkt = .ok (fragmentsOf pkt mtu)) ∧
    (¬ (Ipv4.version pkt = 4 ∧ Fragmentable pkt mtu respectDf) →
      pumpPacket mtu respectDf pkt = .ok [pkt]) := by
  constructor
  · intro ⟨version4, fragmentable⟩
    obtain ⟨info, parses, isIpv4⟩ :=
      parseIpMeta_of_version4 version4 (Nat.le_of_lt fragmentable.long)
    rw [pumpPacket, parses, Checked.ok_bind]
    simp only [isIpv4]
    rw [(ipv4FragmentIfNeeded_eq mtu respectDf version4).1 fragmentable,
      Checked.ok_bind]
  · intro kept
    have leaves : ipv4FragmentIfNeeded pkt mtu respectDf = .ok none := by
      by_cases version4 : Ipv4.version pkt = 4
      · exact (ipv4FragmentIfNeeded_eq mtu respectDf version4).2
          fun fragmentable => kept ⟨version4, fragmentable⟩
      · exact ipv4FragmentIfNeeded_of_version_ne mtu respectDf version4
    rcases parseIpMeta_succeeds pkt with ⟨parsed, parses⟩
    rw [pumpPacket, parses, Checked.ok_bind]
    cases parsed with
    | none =>
        rfl
    | some info =>
        cases version : info.version with
        | ipv6 =>
            simp only [version]
        | ipv4 =>
            simp only [version]
            rw [leaves, Checked.ok_bind]

theorem pumpPacket_cases (mtu : Nat) (respectDf : Bool) (pkt : Bytes) :
    (Fragmentable pkt mtu respectDf ∧
        pumpPacket mtu respectDf pkt = .ok (fragmentsOf pkt mtu)) ∨
      pumpPacket mtu respectDf pkt = .ok [pkt] := by
  obtain ⟨cuts, keeps⟩ := pumpPacket_eq mtu respectDf pkt
  by_cases cut : Ipv4.version pkt = 4 ∧ Fragmentable pkt mtu respectDf
  · exact Or.inl ⟨cut.2, cuts cut⟩
  · exact Or.inr (keeps cut)

/-! ## Sequences of packets and of messages -/

/-- What `pump_p2p_to_tun` writes for a packet. -/
def writesOf (mtu : Nat) (respectDf : Bool) (pkt : Bytes) : List Bytes :=
  match pumpPacket mtu respectDf pkt with
  | .ok writes => writes
  | .error _ => []

theorem pumpPacket_eq_writesOf (mtu : Nat) (respectDf : Bool) (pkt : Bytes) :
    pumpPacket mtu respectDf pkt = .ok (writesOf mtu respectDf pkt) := by
  unfold writesOf
  rcases pumpPacket_cases mtu respectDf pkt with ⟨_, cut⟩ | whole
  · rw [cut]
  · rw [whole]

theorem pumpP2pToTun_eq (mtu : Nat) (respectDf : Bool) (pkts : List Bytes) :
    pumpP2pToTun mtu respectDf pkts =
      .ok (pkts.flatMap (writesOf mtu respectDf)) := by
  induction pkts with
  | nil =>
      rfl
  | cons pkt rest inductionHypothesis =>
      rw [pumpP2pToTun, pumpPacket_eq_writesOf, inductionHypothesis]
      rfl

private theorem pumpP2pToTun_succeeds (mtu : Nat) (respectDf : Bool)
    (pkts : List Bytes) :
    Checked.Succeeds (pumpP2pToTun mtu respectDf pkts) := by
  induction pkts with
  | nil =>
      exact ⟨[], rfl⟩
  | cons pkt rest inductionHypothesis =>
      rcases inductionHypothesis with ⟨others, runsOthers⟩
      obtain ⟨writes, runs⟩ :
          Checked.Succeeds (pumpPacket mtu respectDf pkt) := by
        rcases pumpPacket_cases mtu respectDf pkt with ⟨_, cut⟩ | whole
        · exact ⟨_, cut⟩
        · exact ⟨_, whole⟩
      rw [pumpP2pToTun, runs, Checked.ok_bind, runsOthers, Checked.ok_bind]
      exact ⟨_, rfl⟩

private theorem InboundMessage.unpack_succeeds (message : InboundMessage) :
    Checked.Succeeds message.unpack := by
  cases message with
  | gossip data =>
      exact unpackBatch_succeeds data
  | request data =>
      exact unpackBatch_succeeds data

private theorem downlink_succeeds (mtu : Nat) (respectDf : Bool)
    (messages : List InboundMessage) :
    Checked.Succeeds (downlink mtu respectDf messages) := by
  induction messages with
  | nil =>
      exact ⟨[], rfl⟩
  | cons message rest inductionHypothesis =>
      rcases inductionHypothesis with ⟨others, runsOthers⟩
      rcases message.unpack_succeeds with ⟨unpacked, unpacks⟩
      obtain ⟨writes, runs⟩ :=
        pumpP2pToTun_succeeds mtu respectDf unpacked.packets
      rw [downlink, unpacks, Checked.ok_bind, runs, Checked.ok_bind,
        runsOthers, Checked.ok_bind]
      exact ⟨_, rfl⟩

/-- No bytes from the network make the downlink fault: neither the whole way of
a sequence of messages to the TUN writer, nor the unpacking of one message, nor
the inspection and the fragmentation of a packet of it, nor the checksum of a
header that has a checksum field. -/
theorem downlink_never_faults (mtu : Nat) (respectDf : Bool)
    (messages : List InboundMessage) :
    Checked.Succeeds (downlink mtu respectDf messages) ∧
      (∀ message, message ∈ messages →
        ∃ unpacked, message.unpack = .ok unpacked ∧
          ∀ pkt, pkt ∈ unpacked.packets →
            Checked.Succeeds (parseIpMeta pkt) ∧
              Checked.Succeeds (ipv4FragmentIfNeeded pkt mtu respectDf)) ∧
      ∀ header : Bytes, 12 ≤ header.length →
        Checked.Succeeds (ipv4Checksum header) := by
  refine ⟨downlink_succeeds mtu respectDf messages, ?_, ?_⟩
  · intro message _
    rcases message.unpack_succeeds with ⟨unpacked, unpacks⟩
    exact ⟨unpacked, unpacks, fun pkt _ =>
      ⟨parseIpMeta_succeeds pkt,
        ipv4FragmentIfNeeded_succeeds pkt mtu respectDf⟩⟩
  · intro header long
    exact ⟨_, ipv4Checksum_eq long⟩

/-- A request that counts 65535 packets and ends inside the first. -/
theorem downlink_never_faults_truncated :
    Checked.Succeeds
        (downlink 28 false
          [.request [0x43, 0x4F, 0x01, 0xFF, 0xFF, 0x00, 0x04, 0x4F]]) ∧
      (∃ unpacked,
        (InboundMessage.request
            [0x43, 0x4F, 0x01, 0xFF, 0xFF, 0x00, 0x04, 0x4F]).unpack =
          .ok unpacked) ∧
      Checked.Succeeds (ipv4Checksum (List.replicate 12 0xFF)) := by
  obtain ⟨whole, each, checksum⟩ :=
    downlink_never_faults 28 false
      [.request [0x43, 0x4F, 0x01, 0xFF, 0xFF, 0x00, 0x04, 0x4F]]
  rcases each _ (List.mem_singleton.mpr rfl) with ⟨unpacked, unpacks, _⟩
  exact ⟨whole, ⟨unpacked, unpacks⟩, checksum _ (by decide)⟩

end CocoNet
