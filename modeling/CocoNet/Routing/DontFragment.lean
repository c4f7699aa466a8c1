import Mathlib.Data.List.Forall2
import CocoNet.Routing.Downlink
import CocoNet.Routing.FragmentReassembly

/-!
# Don't Fragment on the way to the TUN device

A packet with the DF bit is to be written as it is.  The code looks at the bit
only when `COCONET_RESPECT_DF` turns that on; left unset, a packet with the bit
is cut like any other, and its fragments do not have the bit.
-/

namespace CocoNet

/-- What the bit asks of the writes for one packet. -/
structure HonoursDf (pkt : Bytes) (writes : List Bytes) : Prop where
  whole : Ipv4.version pkt = 4 → Ipv4.dontFragment pkt = true →
    writes = [pkt]
  altered : writes ≠ [pkt] → Ipv4.dontFragment pkt = false

/-! ## One packet -/

private theorem fragmentsOf_ne_singleton {pkt : Bytes} {mtu : Nat}
    {respectDf : Bool}
    (fragmentable : Fragmentable pkt mtu respectDf) :
    fragmentsOf pkt mtu ≠ [pkt] := by
  intro same
  have member : pkt ∈ fragmentsOf pkt mtu := by
    simp [same]
  have short := (fragmentsOf_lengths fragmentable member).2
  exact Nat.not_le_of_lt fragmentable.tooLong short

private theorem honoursDf_iff {mtu : Nat} {respectDf : Bool} {pkt : Bytes}
    {writes : List Bytes}
    (written : pumpPacket mtu respectDf pkt = .ok writes) :
    HonoursDf pkt writes ↔
      (Ipv4.version pkt = 4 → Ipv4.dontFragment pkt = true →
        ¬ Fragmentable pkt mtu respectDf) := by
  obtain ⟨cuts, keeps⟩ := pumpPacket_eq mtu respectDf pkt
  by_cases cut : Ipv4.version pkt = 4 ∧ Fragmentable pkt mtu respectDf
  · rw [cuts cut] at written
    obtain rfl := Except.ok.inj written
    have changed := fragmentsOf_ne_singleton cut.2
    constructor
    · intro honours version4 df
      exact absurd (honours.whole version4 df) changed
    · intro spared
      have clear : Ipv4.dontFragment pkt = false := by
        by_contra df
        exact spared cut.1 (Bool.eq_true_of_not_eq_false df) cut.2
      refine ⟨fun _ df => ?_, fun _ => clear⟩
      rw [clear] at df
      cases df
  · rw [keeps cut] at written
    obtain rfl := Except.ok.inj written
    constructor
    · intro _ version4 _ fragmentable
      exact cut ⟨version4, fragmentable⟩
    · intro _
      exact ⟨fun _ _ => rfl, fun changed => absurd rfl changed⟩

/-! ## Sequences of packets -/

/-- The writes for a sequence are those for its packets, one after the
other. -/
theorem pumpP2pToTun_groups (mtu : Nat) (respectDf : Bool)
    (pkts : List Bytes) :
    ∃ groups, pumpP2pToTun mtu respectDf pkts = .ok groups.flatten ∧
      List.Forall₂
        (fun pkt writes => pumpPacket mtu respectDf pkt = .ok writes)
        pkts groups := by
  induction pkts with
  | nil =>
      exact ⟨[], rfl, List.Forall₂.nil⟩
  | cons pkt rest inductionHypothesis =>
      obtain ⟨groups, runs, each⟩ := inductionHypothesis
      obtain ⟨writes, written⟩ :
          ∃ writes, pumpPacket mtu respectDf pkt = .ok writes := by
        rcases pumpPacket_cases mtu respectDf pkt with ⟨_, cut⟩ | whole
        · exact ⟨_, cut⟩
        · exact ⟨_, whole⟩
      refine ⟨writes :: groups, ?_, List.Forall₂.cons written each⟩
      rw [pumpP2pToTun, written, Checked.ok_bind, runs, Checked.ok_bind,
        List.flatten_cons]

/-- For every MTU and every setting, the packets are written in groups, one
for each packet, and DF is honoured for all of them if and only if no IPv4
packet with the bit is fragmentable under that setting. -/
theorem df_honoured_iff (mtu : Nat) (setting : Option String)
    (pkts : List Bytes) :
    ∃ groups, pumpP2pToTun mtu (respectDfOf setting) pkts =
        .ok groups.flatten ∧
      List.Forall₂
        (fun pkt writes =>
          pumpPacket mtu (respectDfOf setting) pkt = .ok writes)
        pkts groups ∧
      (List.Forall₂ HonoursDf pkts groups ↔
        ∀ pkt, pkt ∈ pkts → Ipv4.version pkt = 4 →
          Ipv4.dontFragment pkt = true →
            ¬ Fragmentable pkt mtu (respectDfOf setting)) := by
  obtain ⟨groups, runs, each⟩ :=
    pumpP2pToTun_groups mtu (respectDfOf setting) pkts
  refine ⟨groups, runs, each, ?_⟩
  clear runs
  induction each with
  | nil =>
      simp
  | cons written _ inductionHypothesis =>
      rw [List.forall₂_cons, honoursDf_iff written, inductionHypothesis,
        List.forall_mem_cons]

/-- Fifty-six bytes of payload with DF set. -/
def dfDatagram : Bytes :=
  [0x45, 0, 0, 76, 0, 7, 0x40, 0, 64, 17, 0, 0, 10, 99, 0, 1, 10, 99, 0, 2] ++
    List.replicate 56 0xAB

/-- Over an MTU of 68 and with the setting unset, the datagram is written in
two pieces without the bit. -/
theorem df_datagram_cut :
    (pumpP2pToTun 68 (respectDfOf none) [dfDatagram]).map
        (List.map fun written =>
          (written.length, Ipv4.dontFragment written)) =
      .ok [(68, false), (28, false)] ∧
    ¬ ∀ (mtu : Nat) (pkts : List Bytes) (groups : List (List Bytes)),
      List.Forall₂
        (fun pkt writes => pumpPacket mtu (respectDfOf none) pkt = .ok writes)
        pkts groups →
      List.Forall₂ HonoursDf pkts groups := by
  constructor
  · decide +kernel
  · intro always
    have fragmentable : Fragmentable dfDatagram 68 (respectDfOf none) :=
      ⟨by decide, by decide, by decide, by decide, by decide, by decide⟩
    have written := (pumpPacket_eq 68 (respectDfOf none) dfDatagram).1
      ⟨by decide, fragmentable⟩
    have honours := always 68 [dfDatagram] _
      (List.Forall₂.cons written List.Forall₂.nil)
    have whole := (List.forall₂_cons.1 honours).1.whole (by decide) (by decide)
    exact fragmentsOf_ne_singleton fragmentable whole

end CocoNet
