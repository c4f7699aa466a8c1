import CocoNet.P2p.BatchRoundTrip
import CocoNet.P2p.Uplink

/-!
# The uplink loses, duplicates and reorders nothing

At every point of a run, what the receivers get from the transmissions so far,
followed by the packets still in the builder, is the sequence of packets taken
from the channel.  A flush moves the packets of the builder into one message; a
large packet follows such a message raw, and no IP packet begins like a batch
header, because a header's first byte would be a header length of twelve bytes.
-/

namespace CocoNet

open StepMachine

/-- The packet starts like an IPv4 packet with a header of at least twenty
bytes, or like an IPv6 packet. -/
def IpLike (pkt : Bytes) : Prop :=
  ∃ first rest, pkt = first :: rest ∧
    ((first >>> 4 = 4 ∧ 5 ≤ first &&& 0x0F) ∨ first >>> 4 = 6)

theorem IpLike.not_headed {pkt : Bytes} (ipLike : IpLike pkt) :
    ¬ Headed pkt := by
  intro ⟨high, low, rest, headed⟩
  rcases ipLike with ⟨first, others, shape, nibble⟩
  obtain rfl : first = 0x43 := by
    have heads := shape.symm.trans headed
    simp only [List.cons.injEq] at heads
    exact heads.1
  exact absurd nibble (by decide)

private theorem receivedAll_publish_raw {pkt : Bytes} (ipLike : IpLike pkt) :
    receivedAll [.publish .packets pkt] = .ok [pkt] := by
  rw [receivedAll, Outgoing.received, unpackGossip,
    unpackBatch_of_not_headed ipLike.not_headed]
  rfl

/-! ## The invariant -/

/-- The transmissions so far and the packets in the builder make up the
packets taken from the channel. -/
structure Accounts (taken : List Bytes) (batch : BatchBuilder)
    (emitted : List Outgoing) : Prop where
  exists_split : ∃ delivered pending,
    receivedAll emitted = .ok delivered ∧
      Represents batch pending ∧
      (∀ pkt, pkt ∈ pending → pkt.length ≤ u16Max) ∧
      delivered ++ pending = taken

theorem flushBatch_fresh {batch : BatchBuilder} {pending : List Bytes}
    (directPeers : Finset PeerId) (represents : Represents batch pending) :
    Represents (flushBatch directPeers batch).1 [] := by
  by_cases empty : pending = []
  · subst empty
    rw [flushBatch_of_empty directPeers (represents.isEmpty_iff.2 rfl)]
    exact represents
  · have nonempty := represents.isEmpty_eq_false empty
    rw [flushBatch_of_nonempty directPeers nonempty]
    exact represents.take_fst

private theorem flushBatch_delivers {batch : BatchBuilder}
    {pending : List Bytes}
    (directPeers : Finset PeerId) (represents : Represents batch pending)
    (small : ∀ pkt, pkt ∈ pending → pkt.length ≤ u16Max) :
    receivedAll (flushBatch directPeers batch).2 = .ok pending := by
  by_cases empty : pending = []
  · subst empty
    rw [flushBatch_of_empty directPeers (represents.isEmpty_iff.2 rfl)]
    rfl
  · have nonempty := represents.isEmpty_eq_false empty
    have message := (represents.take empty).1
    have unpacked := unpackBatch_batchMessage represents.length_le small
    rw [flushBatch_of_nonempty directPeers nonempty, message]
    by_cases noDirect : directPeers = ∅
    · simp only [if_pos noDirect, receivedAll, Outgoing.received,
        unpackGossip, unpacked, Checked.ok_bind, List.append_nil]
    · simp only [if_neg noDirect, receivedAll, Outgoing.received,
        unpackRequest, unpacked, Checked.ok_bind, List.append_nil]

namespace Accounts

variable {taken : List Bytes} {batch : BatchBuilder} {emitted : List Outgoing}

theorem flush (accounts : Accounts taken batch emitted)
    (directPeers : Finset PeerId) :
    Represents (flushBatch directPeers batch).1 [] ∧
      receivedAll (emitted ++ (flushBatch directPeers batch).2) =
        .ok taken := by
  obtain ⟨delivered, pending, runs, represents, small, rfl⟩ :=
    accounts.exists_split
  exact ⟨flushBatch_fresh directPeers represents,
    receivedAll_append runs (flushBatch_delivers directPeers represents small)⟩

theorem of_flushed {fresh : BatchBuilder} (represents : Represents fresh [])
    (runs : receivedAll emitted = .ok taken) :
    Accounts taken fresh emitted :=
  ⟨taken, [], runs, represents, by simp, List.append_nil taken⟩

theorem add (accounts : Accounts taken batch emitted) {pkt : Bytes}
    (room : batch.pktCount ≠ u16Max) (small : pkt.length ≤ u16Max) :
    Accounts (taken ++ [pkt]) (batch.add pkt).1 emitted := by
  obtain ⟨delivered, pending, runs, represents, pendingSmall, rfl⟩ :=
    accounts.exists_split
  rw [represents.count] at room
  refine ⟨delivered, pending ++ [pkt], runs, (represents.add room pkt).2,
    ?_, (List.append_assoc _ _ _).symm⟩
  intro other member
  rcases List.mem_append.mp member with earlier | last
  · exact pendingSmall other earlier
  · rw [List.mem_singleton.mp last]
    exact small

end Accounts

/-! ## One round -/

def UplinkEvent.packets : UplinkEvent → List Bytes
  | .recv (some pkt) => [pkt]
  | _ => []

/-- The limits of the configuration fit the two-byte fields of the batch. -/
structure UplinkConfig.Fits (config : UplinkConfig) : Prop where
  pkts : config.maxBatchPkts ≤ 65535
  bytes : config.maxBatchBytes ≤ 131071

theorem uplinkStep_accounts {config : UplinkConfig} (fits : config.Fits)
    {taken : List Bytes} {batch : BatchBuilder} {emitted : List Outgoing}
    (accounts : Accounts taken batch emitted) (directPeers : Finset PeerId)
    (event : UplinkEvent)
    (ipLike : ∀ pkt, pkt ∈ event.packets → IpLike pkt) :
    Accounts (taken ++ event.packets)
      (uplinkStep config directPeers batch event).1
      (emitted ++ (uplinkStep config directPeers batch event).2) := by
  rcases accounts.flush directPeers with ⟨fresh, flushed⟩
  cases event with
  | tick =>
      simpa only [uplinkStep, UplinkEvent.packets, List.append_nil] using
        Accounts.of_flushed fresh flushed
  | recv maybePkt =>
      cases maybePkt with
      | none =>
          simpa only [uplinkStep, UplinkEvent.packets, List.append_nil] using
            Accounts.of_flushed fresh flushed
      | some pkt =>
          have raw := receivedAll_publish_raw
            (ipLike pkt (by simp [UplinkEvent.packets]))
          by_cases large : pkt.length > config.maxBatchBytes / 2
          · simp only [uplinkStep, if_pos large, UplinkEvent.packets]
            apply Accounts.of_flushed fresh
            rw [← List.append_assoc]
            exact receivedAll_append flushed raw
          · have small : pkt.length ≤ u16Max := by
              have := fits.bytes
              unfold u16Max
              omega
            simp only [uplinkStep, if_neg large, UplinkEvent.packets]
            split
            · -- The batch was full: the packet starts the next one.
              have emptied : (flushBatch directPeers batch).1.pktCount = 0 :=
                fresh.count
              refine (Accounts.of_flushed fresh flushed).add ?_ small
              rw [emptied]
              decide
            · rename_i notFull
              have count : batch.pktCount < config.maxBatchPkts :=
                Nat.lt_of_not_le fun full => notFull (Or.inl full)
              rw [List.append_nil]
              refine accounts.add ?_ small
              have := fits.pkts
              unfold u16Max
              omega

/-! ## Whole runs -/

def packetsTaken (events : List (Finset PeerId × UplinkEvent)) : List Bytes :=
  events.flatMap fun event => event.2.packets

/-- The event is a tick or takes an IP packet; the channel stays open. -/
def UplinkEvent.Carries (event : UplinkEvent) : Prop :=
  event ≠ .recv none ∧ ∀ pkt, pkt ∈ event.packets → IpLike pkt

private theorem uplink_accounts {config : UplinkConfig} (fits : config.Fits)
    {events : List (Finset PeerId × UplinkEvent)}
    (carries : ∀ event, event ∈ events → event.2.Carries) :
    ((uplink config).stateAfter events).running = true ∧
      Accounts (packetsTaken events) ((uplink config).stateAfter events).batch
        ((uplink config).outputsOf events) := by
  have each :
      EachStep (fun _ event => event.2.Carries) events := by
    intro earlier event later shape
    exact carries event (by simp [shape])
  refine (uplink config).invariant
    (fun _ event => event.2.Carries)
    (fun earlier state emitted =>
      state.running = true ∧
        Accounts (packetsTaken earlier) state.batch emitted)
    ⟨rfl, Accounts.of_flushed (Represents.withCapacity _) rfl⟩ ?_ each
  intro earlier ⟨directPeers, event⟩ ⟨running, accounts⟩ carried
  have stillOpen : (event != .recv none) = true := by
    simpa using carried.1
  have stepped :=
    uplinkStep_accounts fits accounts directPeers event carried.2
  rw [uplink_step_running config running]
  refine ⟨stillOpen, ?_⟩
  simpa [packetsTaken, List.flatMap_append] using stepped

/-- After any interleaving of packets and ticks, under any direct peers, and
the close of the channel, the receivers of the emitted messages have unpacked
exactly the packets taken, in order, and the builder is empty. -/
theorem uplink_delivers_in_order (config : UplinkConfig)
    (fits : config.Fits) (events : List (Finset PeerId × UplinkEvent))
    (carries : ∀ event, event ∈ events → event.2.Carries)
    (directPeers : Finset PeerId) :
    receivedAll
        ((uplink config).outputsOf (events ++ [(directPeers, .recv none)])) =
      .ok (packetsTaken events) ∧
    ((uplink config).stateAfter
        (events ++ [(directPeers, .recv none)])).batch.isEmpty = true := by
  rcases uplink_accounts fits carries with ⟨running, accounts⟩
  rcases accounts.flush directPeers with ⟨fresh, flushed⟩
  rw [stateAfter_snoc, outputsOf_snoc, uplink_step_running config running]
  exact ⟨flushed, fresh.isEmpty_iff.2 rfl⟩

private theorem UplinkEvent.carries_recv {first : UInt8} {rest : Bytes}
    (isIpv6 : first >>> 4 = 6) :
    (UplinkEvent.recv (some (first :: rest))).Carries := by
  refine ⟨by simp, ?_⟩
  intro pkt taken
  exact ⟨first, rest, by simpa [packets] using taken, Or.inr isIpv6⟩

private theorem UplinkEvent.carries_tick : UplinkEvent.tick.Carries :=
  ⟨by simp, by simp [packets]⟩

/-- With limits of 24 bytes and two packets: the third packet finds the batch
at its limit, the tick sends it with the third alone, and the large packet
sends the fourth before itself.  Peer 7 becomes direct and ceases to be in
between. -/
def mixedTraffic : List (Finset PeerId × UplinkEvent) :=
  [(∅, .recv (some [0x60, 1])), ({⟨[7]⟩}, .recv (some [0x60, 2])),
    (∅, .recv (some [0x60, 3])), ({⟨[7]⟩}, .tick),
    (∅, .recv (some [0x60, 4])),
    ({⟨[7]⟩}, .recv (some (0x60 :: List.replicate 12 5)))]

theorem uplink_delivers_in_order_mixedTraffic :
    ((uplink ⟨24, 2⟩).outputsOf
          (mixedTraffic ++ [(∅, .recv none)])).length = 4 ∧
      receivedAll
          ((uplink ⟨24, 2⟩).outputsOf
            (mixedTraffic ++ [(∅, .recv none)])) =
        .ok [[0x60, 1], [0x60, 2], [0x60, 3], [0x60, 4],
          0x60 :: List.replicate 12 5] ∧
      ((uplink ⟨24, 2⟩).stateAfter
        (mixedTraffic ++ [(∅, .recv none)])).batch.isEmpty = true := by
  refine ⟨by decide +kernel, uplink_delivers_in_order ⟨24, 2⟩
    ⟨by decide, by decide⟩ mixedTraffic ?_ ∅⟩
  intro event member
  simp only [mixedTraffic, List.mem_cons, List.not_mem_nil, or_false]
    at member
  rcases member with rfl | rfl | rfl | rfl | rfl | rfl
  · exact UplinkEvent.carries_recv (by decide)
  · exact UplinkEvent.carries_recv (by decide)
  · exact UplinkEvent.carries_recv (by decide)
  · exact UplinkEvent.carries_tick
  · exact UplinkEvent.carries_recv (by decide)
  · exact UplinkEvent.carries_recv (by decide)

end CocoNet
