import CocoNet.Library.ReassemblyTable
import CocoNet.Routing.Downlink
import CocoNet.Routing.Refragmentation

/-!
# The datagrams that reach the host

The host behind the TUN device puts the fragments that `pump_p2p_to_tun` writes
together again, one assembly for each source, destination, protocol and
identification.  Identifications repeat, so an assembly that one datagram
leaves behind spoils the next one with its key.

Here whole streams of datagrams are compared: those that come out of the
overlay, each as a valid fragmentation, and those that the host ends up with.
-/

namespace CocoNet

open Reassembly

/-! ## The receiving host -/

/-- The IPv4 packets, as pieces of their datagrams. -/
def ipv4Arrivals (pkts : List Bytes) :
    List (Arrival Ipv4.DatagramKey UInt8) :=
  (pkts.filter fun pkt => Ipv4.version pkt = 4).map fun pkt =>
    ⟨Ipv4.datagramKey pkt, Ipv4.piece pkt⟩

/-- What a host that receives these packets delivers. -/
def receivedDatagrams (pkts : List Bytes) :
    List (Delivery Ipv4.DatagramKey UInt8) :=
  table.outputsOf (ipv4Arrivals pkts)

/-- A datagram and the packets it is sent as. -/
structure SentDatagram where
  key : Ipv4.DatagramKey
  payload : Bytes
  pkts : List Bytes
  valid : ValidFragmentation key payload pkts

def SentDatagram.datagram (sent : SentDatagram) :
    Delivery Ipv4.DatagramKey UInt8 :=
  ⟨sent.key, sent.payload⟩

/-- A packet that is a datagram by itself. -/
structure WholeDatagram (pkt : Bytes) : Prop where
  wellFormed : WellFormed pkt
  noMore : Ipv4.moreFragments pkt = false
  atStart : Ipv4.fragmentOffset pkt = 0

def datagramOf (pkt : Bytes) : Delivery Ipv4.DatagramKey UInt8 :=
  ⟨Ipv4.datagramKey pkt, Ipv4.payload pkt⟩

theorem WholeDatagram.valid {pkt : Bytes} (whole : WholeDatagram pkt) :
    ValidFragmentation (Ipv4.datagramKey pkt) (Ipv4.payload pkt) [pkt] where
  wellFormed found member := by
    rw [List.mem_singleton.1 member]
    exact whole.wellFormed
  keys found member := by
    rw [List.mem_singleton.1 member]
  pieces := by
    have piece : Ipv4.piece pkt = ⟨0, false, Ipv4.payload pkt⟩ := by
      rw [Ipv4.piece, whole.noMore, whole.atStart]
    rw [List.map_singleton, piece]
    by_cases empty : Ipv4.payload pkt = []
    · exact Or.inl ⟨empty, by rw [empty]⟩
    · exact Or.inr ⟨empty, Tiles.singleton false 0 empty⟩

/-- An IPv4 packet under one of our keys. -/
def isOurs (ours : Ipv4.DatagramKey → Bool) (pkt : Bytes) : Bool :=
  ours (Ipv4.datagramKey pkt) && Ipv4.version pkt = 4

/-! ## What becomes of one packet -/

theorem version_fragmentsOf {pkt frag : Bytes} {mtu : Nat} {respectDf : Bool}
    (fragmentable : Fragmentable pkt mtu respectDf)
    (member : frag ∈ fragmentsOf pkt mtu) :
    Ipv4.version frag = Ipv4.version pkt := by
  obtain ⟨piece, _, same⟩ := List.mem_map.1 member
  have header := fragmentFor_carriesHeader fragmentable.sound piece
  rw [← same, Ipv4.version, Ipv4.version, header.versionIhl]
  rfl

private theorem writesOf_of_version4 (mtu : Nat) (respectDf : Bool)
    {pkt : Bytes}
    (version4 : Ipv4.version pkt = 4) :
    writesOf mtu respectDf pkt = outputsOf mtu respectDf pkt := by
  obtain ⟨cuts, keeps⟩ := pumpPacket_eq mtu respectDf pkt
  rw [writesOf, outputsOf]
  by_cases fragmentable : Fragmentable pkt mtu respectDf
  · rw [cuts ⟨version4, fragmentable⟩, if_pos fragmentable]
  · have whole : ¬ (Ipv4.version pkt = 4 ∧ Fragmentable pkt mtu respectDf) :=
      fun both => fragmentable both.2
    rw [keeps whole, if_neg fragmentable]

theorem writesOf_of_other (mtu : Nat) (respectDf : Bool) {pkt : Bytes}
    (other : Ipv4.version pkt ≠ 4) :
    writesOf mtu respectDf pkt = [pkt] := by
  have whole : ¬ (Ipv4.version pkt = 4 ∧ Fragmentable pkt mtu respectDf) :=
    fun both => other both.1
  rw [writesOf, (pumpPacket_eq mtu respectDf pkt).2 whole]

private theorem isOurs_of_mem_writesOf (ours : Ipv4.DatagramKey → Bool)
    {mtu : Nat} {respectDf : Bool} {pkt write : Bytes}
    (member : write ∈ writesOf mtu respectDf pkt) :
    isOurs ours write = isOurs ours pkt := by
  by_cases version4 : Ipv4.version pkt = 4
  swap
  · rw [writesOf_of_other mtu respectDf version4, List.mem_singleton] at member
    rw [member]
  · rw [writesOf_of_version4 mtu respectDf version4] at member
    have sameKey := datagramKey_outputsOf member
    have sameVersion : Ipv4.version write = Ipv4.version pkt := by
      rw [outputsOf] at member
      split at member
      · rename_i fragmentable
        exact version_fragmentsOf fragmentable member
      · rw [List.mem_singleton.1 member]
    rw [isOurs, isOurs, sameKey, sameVersion]

/-- The writes of ours are the writes for the packets of ours. -/
theorem filter_writes (ours : Ipv4.DatagramKey → Bool) (mtu : Nat)
    (respectDf : Bool) (pkts : List Bytes) :
    (pkts.flatMap (writesOf mtu respectDf)).filter (isOurs ours) =
      (pkts.filter (isOurs ours)).flatMap (outputsOf mtu respectDf) := by
  induction pkts with
  | nil =>
      rfl
  | cons pkt rest inductionHypothesis =>
      rw [List.flatMap_cons, List.filter_append, inductionHypothesis]
      by_cases own : isOurs ours pkt = true
      · have version4 : Ipv4.version pkt = 4 := by
          rw [isOurs, Bool.and_eq_true, decide_eq_true_eq] at own
          exact own.2
        have all : (writesOf mtu respectDf pkt).filter (isOurs ours) =
            outputsOf mtu respectDf pkt := by
          rw [← writesOf_of_version4 mtu respectDf version4]
          apply List.filter_eq_self.2
          intro write member
          rw [isOurs_of_mem_writesOf ours member, own]
        rw [List.filter_cons_of_pos own, List.flatMap_cons, all]
      · have nothing : (writesOf mtu respectDf pkt).filter (isOurs ours) =
            [] := by
          apply List.filter_eq_nil_iff.2
          intro write member
          rw [isOurs_of_mem_writesOf ours member]
          exact own
        rw [List.filter_cons_of_neg own, nothing, List.nil_append]

/-- Other packets do not change which datagrams of ours are received. -/
theorem receivedDatagrams_filter (ours : Ipv4.DatagramKey → Bool)
    (pkts : List Bytes) :
    ((receivedDatagrams pkts).filter fun delivery => ours delivery.key) =
      table.outputsOf ((pkts.filter (isOurs ours)).map fun pkt =>
        ⟨Ipv4.datagramKey pkt, Ipv4.piece pkt⟩) := by
  rw [receivedDatagrams, StepMachine.outputsOf,
    table_runFrom_filter ours fun key _ => Eq.refl (table.start key)]
  rw [ipv4Arrivals, List.filter_map, List.filter_filter]
  rfl

/-! ## What becomes of one datagram -/

private theorem SentDatagram.arrivals_eq (sent : SentDatagram) (mtu : Nat)
    (respectDf : Bool) :
    ((sent.pkts.flatMap (outputsOf mtu respectDf)).map fun pkt =>
        (⟨Ipv4.datagramKey pkt, Ipv4.piece pkt⟩ :
          Arrival Ipv4.DatagramKey UInt8)) =
      ((sent.pkts.flatMap (outputsOf mtu respectDf)).map Ipv4.piece).map
        (Arrival.mk sent.key) := by
  rw [List.map_map]
  apply List.map_congr_left
  intro write member
  obtain ⟨pkt, isSent, isWritten⟩ := List.mem_flatMap.1 member
  rw [datagramKey_outputsOf isWritten, sent.valid.keys pkt isSent]
  rfl

theorem SentDatagram.carries (sent : SentDatagram) {mtu : Nat}
    {respectDf : Bool}
    (onlyWhole : OnlyWholeAreCut sent.pkts mtu respectDf) :
    Carries sent.payload
      ((sent.pkts.flatMap (outputsOf mtu respectDf)).map Ipv4.piece) := by
  by_cases empty : sent.payload = []
  · obtain ⟨pkt, single, piece⟩ := sent.valid.eq_singleton empty
    have kept : ¬ Fragmentable pkt mtu respectDf := by
      intro fragmentable
      apply payload_ne_nil fragmentable
      exact congrArg Piece.data piece
    refine Or.inl ⟨empty, ?_⟩
    rw [single, List.flatMap_singleton, outputsOf, if_neg kept,
      List.map_singleton, piece]
  · refine Or.inr ⟨empty, ?_⟩
    rw [List.map_flatMap]
    apply Tiles.flatMap Ipv4.piece (sent.valid.tiles empty)
    intro pkt member
    exact sent.valid.outputsOf_tiles empty onlyWhole member

/-- The first cut of a fragment makes the host deliver that fragment's payload
as if it were a datagram. -/
theorem run_cut_fragment {mtu : Nat} {respectDf : Bool}
    {key : Ipv4.DatagramKey}
    {assemblies : Ipv4.DatagramKey → Assembly UInt8}
    (isOpen : (assemblies key).total = none) {offset : Nat} {rest : Bytes}
    {pkts : List Bytes}
    (tiles : Tiles false offset rest (pkts.map Ipv4.piece))
    (cut : ∃ pkt, pkt ∈ pkts ∧ Fragmentable pkt mtu respectDf ∧
      ¬ (Ipv4.moreFragments pkt = false ∧ Ipv4.fragmentOffset pkt = 0)) :
    ∃ pkt, pkt ∈ pkts ∧
      ¬ (Ipv4.moreFragments pkt = false ∧ Ipv4.fragmentOffset pkt = 0) ∧
      ∃ later,
        (table.runFrom assemblies
          (((pkts.flatMap (outputsOf mtu respectDf)).map Ipv4.piece).map
            (Arrival.mk key))).2 =
          ⟨key, Ipv4.payload pkt⟩ :: later := by
  induction pkts generalizing assemblies offset rest with
  | nil =>
      obtain ⟨pkt, member, _⟩ := cut
      cases member
  | cons pkt others inductionHypothesis =>
      rw [List.flatMap_cons, List.map_append, List.map_append,
        StepMachine.runFrom_append]
      by_cases isCut : Fragmentable pkt mtu respectDf ∧
          ¬ (Ipv4.moreFragments pkt = false ∧ Ipv4.fragmentOffset pkt = 0)
      · obtain ⟨fragmentable, notWhole⟩ := isCut
        have delivers := run_carries isOpen (Or.inr
          ⟨payload_ne_nil fragmentable, fragmentsOf_tiles fragmentable⟩)
        refine ⟨pkt, by simp, notWhole, ?_⟩
        rw [outputsOf, if_pos fragmentable, delivers]
        exact ⟨_, rfl⟩
      · have inOthers : ∃ other, other ∈ others ∧
            Fragmentable other mtu respectDf ∧
            ¬ (Ipv4.moreFragments other = false ∧
              Ipv4.fragmentOffset other = 0) := by
          obtain ⟨other, member, otherCut⟩ := cut
          rcases List.mem_cons.1 member with isFirst | later
          · rw [isFirst] at otherCut
            exact absurd otherCut isCut
          · exact ⟨other, later, otherCut⟩
        rcases tiles with ⟨after, _, _, _, more, othersTile⟩
        -- Something follows this packet, so it is cut only if it is whole.
        have followed : (Ipv4.piece pkt).more = true := by
          refine more.2 (Or.inl ?_)
          intro nothing
          subst nothing
          have noOthers := List.map_eq_nil_iff.1 othersTile.eq_nil
          obtain ⟨other, member, _⟩ := inOthers
          rw [noOthers] at member
          cases member
        have kept : ¬ Fragmentable pkt mtu respectDf := by
          intro fragmentable
          apply isCut
          refine ⟨fragmentable, ?_⟩
          intro whole
          exact absurd (followed.symm.trans whole.1) (by decide)
        rw [outputsOf, if_neg kept]
        have single : ∀ piece, piece ∈ [Ipv4.piece pkt] →
            piece.more = true := by simpa using followed
        obtain ⟨silent, stillOpen⟩ := run_followed isOpen single
        obtain ⟨found, member, notWhole, later, runs⟩ :=
          inductionHypothesis stillOpen othersTile inOthers
        refine ⟨found, by simp [member], notWhole, later, ?_⟩
        dsimp only [List.map_singleton] at silent runs ⊢
        rw [silent, List.nil_append]
        exact runs

/-! ## What becomes of a stream of datagrams -/

/-- A datagram one of whose fragments is cut makes the host deliver something
else first. -/
theorem SentDatagram.delivers_other (sent : SentDatagram) {mtu : Nat}
    {respectDf : Bool}
    (fragmentCut : ¬ OnlyWholeAreCut sent.pkts mtu respectDf)
    {assemblies : Ipv4.DatagramKey → Assembly UInt8}
    (isOpen : (assemblies sent.key).total = none) :
    ∃ payload later, payload ≠ sent.payload ∧
      (table.runFrom assemblies
        (((sent.pkts.flatMap (outputsOf mtu respectDf)).map Ipv4.piece).map
          (Arrival.mk sent.key))).2 =
        ⟨sent.key, payload⟩ :: later := by
  unfold OnlyWholeAreCut at fragmentCut
  push Not at fragmentCut
  obtain ⟨pkt, member, tooLong, room, allowed, notWhole⟩ := fragmentCut
  have nonempty : sent.payload ≠ [] := by
    intro empty
    obtain ⟨single, pkts, piece⟩ := sent.valid.eq_singleton empty
    rw [pkts, List.mem_singleton] at member
    subst member
    apply notWhole (congrArg Piece.more piece)
    have atStart : 8 * Ipv4.fragmentOffset pkt = 0 :=
      congrArg Piece.offset piece
    omega
  have fragmentable : Fragmentable pkt mtu respectDf :=
    (sent.valid.fragmentable_iff member mtu respectDf).2
      ⟨tooLong, room, fun both => allowed both.1 both.2⟩
  obtain ⟨found, isSent, foundNotWhole, later, runs⟩ :=
    run_cut_fragment isOpen (sent.valid.tiles nonempty)
      ⟨pkt, member, fragmentable, fun whole => notWhole whole.1 whole.2⟩
  refine ⟨Ipv4.payload found, later, ?_, runs⟩
  intro same
  exact foundNotWhole
    (sent.valid.whole_of_payload_eq nonempty isSent same)

/-- A host that has nothing pending receives exactly the datagrams sent to it,
in their order, if and only if no fragment of any of them is cut. -/
theorem run_sent_iff (mtu : Nat) (respectDf : Bool)
    (sent : List SentDatagram) :
    table.outputsOf
        (((sent.flatMap SentDatagram.pkts).flatMap
          (outputsOf mtu respectDf)).map fun pkt =>
            (⟨Ipv4.datagramKey pkt, Ipv4.piece pkt⟩ :
              Arrival Ipv4.DatagramKey UInt8)) =
        sent.map SentDatagram.datagram ↔
      ∀ datagram, datagram ∈ sent →
        OnlyWholeAreCut datagram.pkts mtu respectDf := by
  unfold StepMachine.outputsOf
  induction sent with
  | nil =>
      simp [StepMachine.runFrom]
  | cons first others inductionHypothesis =>
      rw [List.flatMap_cons, List.flatMap_append, List.map_append,
        StepMachine.runFrom_append, first.arrivals_eq, List.map_cons,
        List.forall_mem_cons]
      dsimp only
      let start : Ipv4.DatagramKey → Assembly UInt8 := table.start
      have isOpen : (start first.key).total = none := rfl
      by_cases onlyWhole : OnlyWholeAreCut first.pkts mtu respectDf
      · have clear :
            Function.update start first.key Assembly.empty = start :=
          Function.update_eq_self first.key start
        rw [run_carries isOpen (first.carries onlyWhole), clear]
        rw [← inductionHypothesis]
        simp only [List.singleton_append, List.cons.injEq, onlyWhole,
          true_and]
        exact and_iff_right rfl
      · obtain ⟨payload, later, different, runs⟩ :=
          first.delivers_other onlyWhole isOpen
        rw [runs]
        simp only [onlyWhole, false_and, iff_false]
        intro same
        apply different
        exact congrArg Delivery.payload (List.cons.inj same).1

/-- The datagrams of a sender reach the host as they were sent, in order and
none twice, whatever other packets arrive between them, if and only if none of
their fragments is cut. -/
theorem downlink_delivers_datagrams_iff (mtu : Nat) (respectDf : Bool)
    (ours : Ipv4.DatagramKey → Bool) {pkts : List Bytes}
    {sent : List SentDatagram}
    (arrived : pkts.filter (isOurs ours) =
      sent.flatMap SentDatagram.pkts) :
    ∃ writes, pumpP2pToTun mtu respectDf pkts = .ok writes ∧
      (((receivedDatagrams writes).filter fun delivery => ours delivery.key) =
          sent.map SentDatagram.datagram ↔
        ∀ datagram, datagram ∈ sent →
          OnlyWholeAreCut datagram.pkts mtu respectDf) := by
  refine ⟨_, pumpP2pToTun_eq mtu respectDf pkts, ?_⟩
  rw [receivedDatagrams_filter, filter_writes, arrived]
  exact run_sent_iff mtu respectDf sent

/-- Sixteen bytes of UDP from one host to another. -/
def smallDatagram : Bytes :=
  [0x45, 0, 0, 36, 0, 7, 0, 0, 64, 17, 0, 0, 10, 99, 0, 1, 10, 99, 0, 2] ++
    List.replicate 16 0xAB

theorem smallDatagram_whole : WholeDatagram smallDatagram :=
  ⟨⟨by decide, by decide, by decide, by decide⟩, by decide, by decide⟩

def sentSmallDatagram : SentDatagram :=
  ⟨_, _, _, smallDatagram_whole.valid⟩

/-- The same datagram twice, cut in two each time, around a packet that is not
IPv4. -/
theorem downlink_delivers_datagrams_twice :
    ∃ writes,
      pumpP2pToTun 28 false [smallDatagram, [0x60], smallDatagram] =
          .ok writes ∧
        ((receivedDatagrams writes).filter fun _ => true) =
          [datagramOf smallDatagram, datagramOf smallDatagram] := by
  have arrived :
      [smallDatagram, [0x60], smallDatagram].filter (isOurs fun _ => true) =
        [sentSmallDatagram, sentSmallDatagram].flatMap SentDatagram.pkts := by
    decide
  obtain ⟨writes, runs, delivered⟩ :=
    downlink_delivers_datagrams_iff 28 false (fun _ => true) arrived
  refine ⟨writes, runs, delivered.2 ?_⟩
  intro datagram member found isSent _ _ _
  have same : datagram = sentSmallDatagram := by simpa using member
  rw [same] at isSent
  rw [List.mem_singleton.1 isSent]
  exact ⟨by decide, by decide⟩

/-! ## Whole datagrams -/

private theorem exists_sent_of_whole {pkts : List Bytes}
    (whole : ∀ pkt, pkt ∈ pkts → WholeDatagram pkt) (mtu : Nat)
    (respectDf : Bool) :
    ∃ sent : List SentDatagram,
      sent.flatMap SentDatagram.pkts = pkts ∧
        sent.map SentDatagram.datagram = pkts.map datagramOf ∧
        ∀ datagram, datagram ∈ sent →
          OnlyWholeAreCut datagram.pkts mtu respectDf := by
  induction pkts with
  | nil =>
      exact ⟨[], rfl, rfl, by simp⟩
  | cons pkt rest inductionHypothesis =>
      have first := whole pkt (by simp)
      obtain ⟨sent, same, datagrams, onlyWhole⟩ :=
        inductionHypothesis fun other member => whole other (by simp [member])
      refine ⟨⟨_, _, _, first.valid⟩ :: sent, ?_, ?_, ?_⟩
      · rw [List.flatMap_cons, same]
        rfl
      · rw [List.map_cons, datagrams]
        rfl
      · rw [List.forall_mem_cons]
        refine ⟨?_, onlyWhole⟩
        intro found member _ _ _
        rw [List.mem_singleton.1 member]
        exact ⟨first.noMore, first.atStart⟩

/-- Whole datagrams reach the host one by one, whatever the MTU. -/
theorem receivedDatagrams_whole (mtu : Nat) (respectDf : Bool)
    (ours : Ipv4.DatagramKey → Bool) {pkts : List Bytes}
    (whole : ∀ pkt, pkt ∈ pkts.filter (isOurs ours) → WholeDatagram pkt) :
    ((receivedDatagrams (pkts.flatMap (writesOf mtu respectDf))).filter
        fun delivery => ours delivery.key) =
      (pkts.filter (isOurs ours)).map datagramOf := by
  obtain ⟨sent, same, datagrams, onlyWhole⟩ :=
    exists_sent_of_whole whole mtu respectDf
  rw [receivedDatagrams_filter, filter_writes, ← datagrams, ← same]
  exact (run_sent_iff mtu respectDf sent).2 onlyWhole

end CocoNet
