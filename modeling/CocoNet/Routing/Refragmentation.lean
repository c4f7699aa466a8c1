import CocoNet.Routing.FragmentReassembly

/-!
# Fragmenting the fragments of a datagram

A sender may fragment a datagram before it enters the overlay, and each of its
fragments may exceed the receiver's MTU.  RFC 791 lets a fragment be fragmented
again: the new pieces continue its offset, and the last of them keeps its
more-flag.  The program starts at offset zero and clears the last more-flag
instead, which is right for a whole datagram only.
-/

namespace CocoNet

open Reassembly

/-- One packet of a fragmentation: IPv4, with a header and a total length that
agree with its bytes. -/
structure WellFormed (pkt : Bytes) : Prop where
  version4 : Ipv4.version pkt = 4
  header : 20 ≤ Ipv4.ihl pkt
  inside : Ipv4.ihl pkt ≤ pkt.length
  total : Ipv4.totalLength pkt = pkt.length

/-- The packets are a fragmentation of one datagram, in the order of their
offsets.  An unfragmented datagram is its own single piece, and only that one
may be empty. -/
structure ValidFragmentation (key : Ipv4.DatagramKey) (payload : Bytes)
    (pkts : List Bytes) : Prop where
  wellFormed : ∀ pkt, pkt ∈ pkts → WellFormed pkt
  keys : ∀ pkt, pkt ∈ pkts → Ipv4.datagramKey pkt = key
  pieces :
    (payload = [] ∧ pkts.map Ipv4.piece = [⟨0, false, []⟩]) ∨
      (payload ≠ [] ∧ Tiles false 0 payload (pkts.map Ipv4.piece))

/-- Every packet goes through the fragmentation; one that it leaves alone stays
as it is. -/
def refragment (mtu : Nat) (respectDf : Bool) :
    List Bytes → Checked (List Bytes)
  | [] => .ok []
  | pkt :: rest => do
      let result ← ipv4FragmentIfNeeded pkt mtu respectDf
      let others ← refragment mtu respectDf rest
      .ok (result.getD [pkt] ++ others)

structure PreservesDatagram (key : Ipv4.DatagramKey) (payload : Bytes)
    (pkts : List Bytes) (mtu : Nat) (respectDf : Bool) : Prop where
  reassembles : ∃ outputs, refragment mtu respectDf pkts = .ok outputs ∧
    ∀ arrivals : List Bytes, arrivals.Perm outputs →
      reassembleDatagram key arrivals = some payload
  offsets : ∀ pkt, pkt ∈ pkts → ∀ frags,
    ipv4FragmentIfNeeded pkt mtu respectDf = .ok (some frags) →
      ∀ position (inside : position < frags.length),
        8 * Ipv4.fragmentOffset frags[position] =
          8 * Ipv4.fragmentOffset pkt +
            ((frags.take position).map fun frag =>
              (Ipv4.payload frag).length).sum
  lastMore : ∀ pkt, pkt ∈ pkts → ∀ frags,
    ipv4FragmentIfNeeded pkt mtu respectDf = .ok (some frags) →
      ∀ last, frags.getLast? = some last →
        Ipv4.moreFragments last = Ipv4.moreFragments pkt

/-- Only whole datagrams are too long for the MTU and may be cut: a packet
longer than the MTU, with room for eight bytes after its header and without a
respected DF, is not itself a fragment. -/
def OnlyWholeAreCut (pkts : List Bytes) (mtu : Nat) (respectDf : Bool) :
    Prop :=
  ∀ pkt, pkt ∈ pkts → mtu < pkt.length → Ipv4.ihl pkt + 8 ≤ mtu →
    ¬ (Ipv4.dontFragment pkt = true ∧ respectDf = true) →
      Ipv4.moreFragments pkt = false ∧ Ipv4.fragmentOffset pkt = 0

/-! ## What comes out of one packet -/

open Classical in
/-- The fragments of a packet, or the packet alone. -/
noncomputable def outputsOf (mtu : Nat) (respectDf : Bool) (pkt : Bytes) :
    List Bytes :=
  if Fragmentable pkt mtu respectDf then fragmentsOf pkt mtu else [pkt]

private theorem refragment_eq (mtu : Nat) (respectDf : Bool) {pkts : List Bytes}
    (version4 : ∀ pkt, pkt ∈ pkts → Ipv4.version pkt = 4) :
    refragment mtu respectDf pkts =
      .ok (pkts.flatMap (outputsOf mtu respectDf)) := by
  induction pkts with
  | nil =>
      rfl
  | cons pkt rest inductionHypothesis =>
      obtain ⟨cuts, leaves⟩ :=
        ipv4FragmentIfNeeded_eq mtu respectDf (version4 pkt (by simp))
      have others :=
        inductionHypothesis fun other member =>
          version4 other (by simp [member])
      by_cases fragmentable : Fragmentable pkt mtu respectDf
      · rw [refragment, cuts fragmentable, Checked.ok_bind, others,
          Checked.ok_bind, List.flatMap_cons, outputsOf,
          if_pos fragmentable]
        rfl
      · rw [refragment, leaves fragmentable, Checked.ok_bind, others,
          Checked.ok_bind, List.flatMap_cons, outputsOf,
          if_neg fragmentable]
        rfl

theorem datagramKey_outputsOf {mtu : Nat} {respectDf : Bool}
    {pkt output : Bytes} (member : output ∈ outputsOf mtu respectDf pkt) :
    Ipv4.datagramKey output = Ipv4.datagramKey pkt := by
  rw [outputsOf] at member
  split at member
  · rename_i fragmentable
    exact (fragmentsOf_sameHeader fragmentable member).datagramKey
  · rw [List.mem_singleton.mp member]

section Valid

variable {key : Ipv4.DatagramKey} {payload : Bytes} {pkts : List Bytes}
variable (valid : ValidFragmentation key payload pkts)
include valid

theorem ValidFragmentation.eq_singleton (empty : payload = []) :
    ∃ pkt, pkts = [pkt] ∧ Ipv4.piece pkt = ⟨0, false, []⟩ := by
  rcases valid.pieces with ⟨_, single⟩ | ⟨nonempty, _⟩
  · exact List.map_eq_singleton_iff.mp single
  · exact absurd empty nonempty

variable (nonempty : payload ≠ [])

include nonempty in
theorem ValidFragmentation.tiles :
    Tiles false 0 payload (pkts.map Ipv4.piece) := by
  rcases valid.pieces with ⟨empty, _⟩ | ⟨_, tiles⟩
  · exact absurd empty nonempty
  · exact tiles

include nonempty in
theorem ValidFragmentation.fits {pkt : Bytes} (member : pkt ∈ pkts) :
    FitsIn payload (Ipv4.piece pkt) :=
  (valid.tiles nonempty).fits [] (List.mem_map_of_mem member)

include nonempty in
theorem ValidFragmentation.payload_ne_nil {pkt : Bytes}
    (member : pkt ∈ pkts) : Ipv4.payload pkt ≠ [] :=
  (valid.tiles nonempty).data_ne_nil (List.mem_map_of_mem member)

include nonempty in
theorem ValidFragmentation.whole_of_payload_eq {pkt : Bytes}
    (member : pkt ∈ pkts) (whole : Ipv4.payload pkt = payload) :
    Ipv4.moreFragments pkt = false ∧ Ipv4.fragmentOffset pkt = 0 := by
  rcases valid.fits nonempty member with ⟨before, after, shape, start, more⟩
  have lengths := congrArg List.length shape
  have sameLength : (Ipv4.piece pkt).data.length = payload.length :=
    congrArg List.length whole
  simp only [List.length_append] at lengths
  have nothingAfter : after = [] :=
    List.eq_nil_of_length_eq_zero (by omega)
  have zero : 8 * Ipv4.fragmentOffset pkt = 0 := by
    change (Ipv4.piece pkt).offset = 0
    omega
  refine ⟨?_, by omega⟩
  rw [Bool.eq_false_iff]
  intro flagged
  exact more.1 flagged nothingAfter

theorem ValidFragmentation.fragmentable_iff {pkt : Bytes}
    (member : pkt ∈ pkts) (mtu : Nat) (respectDf : Bool) :
    Fragmentable pkt mtu respectDf ↔
      mtu < pkt.length ∧ Ipv4.ihl pkt + 8 ≤ mtu ∧
        ¬ (Ipv4.dontFragment pkt = true ∧ respectDf = true) := by
  constructor
  · intro fragmentable
    exact ⟨fragmentable.tooLong, fragmentable.room, fragmentable.allowed⟩
  · intro ⟨tooLong, room, allowed⟩
    have header := (valid.wellFormed pkt member).header
    have total := (valid.wellFormed pkt member).total
    exact ⟨header, by omega, tooLong, room, by omega, allowed⟩

include nonempty in
/-- When only whole datagrams are cut, what comes out of a packet continues
it. -/
theorem ValidFragmentation.outputsOf_tiles {mtu : Nat} {respectDf : Bool}
    (onlyWhole : OnlyWholeAreCut pkts mtu respectDf) {pkt : Bytes}
    (member : pkt ∈ pkts) :
    Tiles (Ipv4.piece pkt).more (Ipv4.piece pkt).offset (Ipv4.piece pkt).data
      ((outputsOf mtu respectDf pkt).map Ipv4.piece) := by
  by_cases fragmentable : Fragmentable pkt mtu respectDf
  · obtain ⟨noMore, zero⟩ :=
      onlyWhole pkt member fragmentable.tooLong fragmentable.room
        fragmentable.allowed
    rw [outputsOf, if_pos fragmentable, Ipv4.piece, noMore, zero]
    exact fragmentsOf_tiles fragmentable
  · rw [outputsOf, if_neg fragmentable]
    exact Tiles.singleton _ _ (valid.payload_ne_nil nonempty member)

include nonempty in
private theorem ValidFragmentation.reassembles_of_onlyWhole {mtu : Nat}
    {respectDf : Bool} (onlyWhole : OnlyWholeAreCut pkts mtu respectDf)
    {arrivals : List Bytes}
    (order : arrivals.Perm (pkts.flatMap (outputsOf mtu respectDf))) :
    reassembleDatagram key arrivals = some payload := by
  refine reassembleDatagram_of_tiles nonempty ?_ ?_ order
  · intro output member
    rcases List.mem_flatMap.mp member with ⟨pkt, pktMember, outputMember⟩
    rw [datagramKey_outputsOf outputMember, valid.keys pkt pktMember]
  · rw [List.map_flatMap]
    exact (valid.tiles nonempty).flatMap Ipv4.piece _ fun pkt member =>
      valid.outputsOf_tiles nonempty onlyWhole member

private theorem ValidFragmentation.reassembles_of_empty {mtu : Nat}
    {respectDf : Bool}
    (empty : payload = []) {arrivals : List Bytes}
    (order : arrivals.Perm (pkts.flatMap (outputsOf mtu respectDf))) :
    reassembleDatagram key arrivals = some payload := by
  rcases valid.eq_singleton empty with ⟨pkt, same, piece⟩
  subst same
  have notFragmentable : ¬ Fragmentable pkt mtu respectDf := by
    intro fragmentable
    have noData : Ipv4.payload pkt = [] := congrArg Piece.data piece
    exact CocoNet.payload_ne_nil fragmentable noData
  rw [List.flatMap_cons, List.flatMap_nil, List.append_nil, outputsOf,
    if_neg notFragmentable] at order
  have keyed : Ipv4.datagramKey pkt = key := valid.keys pkt (by simp)
  rw [List.perm_singleton.mp order, reassembleDatagram, List.filter_cons,
    if_pos (decide_eq_true keyed), List.filter_nil, List.map_cons,
    List.map_nil, piece, empty]
  rfl

/-- When the fragments of a packet arrive first, its own payload is delivered
as if it were the datagram's. -/
theorem ValidFragmentation.delivers_piece {mtu : Nat} {respectDf : Bool}
    {pkt : Bytes} (member : pkt ∈ pkts)
    (fragmentable : Fragmentable pkt mtu respectDf) :
    ∃ arrivals : List Bytes,
      arrivals.Perm (pkts.flatMap (outputsOf mtu respectDf)) ∧
        reassembleDatagram key arrivals = some (Ipv4.payload pkt) := by
  have first :
      reassembleDatagram key (fragmentsOf pkt mtu) =
        some (Ipv4.payload pkt) := by
    rw [← valid.keys pkt member]
    exact reassembleDatagram_of_tiles (CocoNet.payload_ne_nil fragmentable)
      (fun frag fragMember =>
        (fragmentsOf_sameHeader fragmentable fragMember).datagramKey)
      (fragmentsOf_tiles fragmentable) (List.Perm.refl _)
  refine ⟨fragmentsOf pkt mtu ++
    (pkts.erase pkt).flatMap (outputsOf mtu respectDf), ?_,
    reassembleDatagram_append first _⟩
  have reordered :=
    (List.perm_cons_erase member).symm.flatMap_right
      (outputsOf mtu respectDf)
  rwa [List.flatMap_cons, outputsOf, if_pos fragmentable] at reordered

end Valid

/-! ## The law and its exact condition -/

/-- Fragmenting the fragments of a datagram preserves it if and only if only
whole datagrams are cut. -/
theorem refragmentation_preserves_iff {key : Ipv4.DatagramKey}
    {payload : Bytes} {pkts : List Bytes}
    (valid : ValidFragmentation key payload pkts) (mtu : Nat)
    (respectDf : Bool) :
    PreservesDatagram key payload pkts mtu respectDf ↔
      OnlyWholeAreCut pkts mtu respectDf := by
  have version4 : ∀ pkt, pkt ∈ pkts → Ipv4.version pkt = 4 :=
    fun pkt member => (valid.wellFormed pkt member).version4
  have runs := refragment_eq mtu respectDf version4
  constructor
  · intro ⟨⟨outputs, outputsRun, delivered⟩, _, _⟩
    obtain rfl : pkts.flatMap (outputsOf mtu respectDf) = outputs :=
      Except.ok.inj (runs.symm.trans outputsRun)
    intro pkt member tooLong room allowed
    have fragmentable : Fragmentable pkt mtu respectDf :=
      (valid.fragmentable_iff member mtu respectDf).2 ⟨tooLong, room, allowed⟩
    obtain ⟨arrivals, order, early⟩ := valid.delivers_piece member fragmentable
    have same : Ipv4.payload pkt = payload :=
      Option.some.inj (early.symm.trans (delivered arrivals order))
    have nonempty : payload ≠ [] := by
      rw [← same]
      exact payload_ne_nil fragmentable
    exact valid.whole_of_payload_eq nonempty member same
  · intro onlyWhole
    have continues : ∀ pkt, pkt ∈ pkts → ∀ frags,
        ipv4FragmentIfNeeded pkt mtu respectDf = .ok (some frags) →
          Tiles false (8 * Ipv4.fragmentOffset pkt) (Ipv4.payload pkt)
              (frags.map Ipv4.piece) ∧
            Ipv4.moreFragments pkt = false := by
      intro pkt member frags cut
      obtain ⟨cuts, leaves⟩ :=
        ipv4FragmentIfNeeded_eq mtu respectDf (version4 pkt member)
      by_cases fragmentable : Fragmentable pkt mtu respectDf
      · rw [cuts fragmentable] at cut
        obtain rfl : fragmentsOf pkt mtu = frags :=
          Option.some.inj (Except.ok.inj cut)
        obtain ⟨noMore, zero⟩ :=
          onlyWhole pkt member fragmentable.tooLong fragmentable.room
            fragmentable.allowed
        rw [zero]
        exact ⟨fragmentsOf_tiles fragmentable, noMore⟩
      · rw [leaves fragmentable] at cut
        cases cut
    have delivered : ∀ arrivals : List Bytes,
        arrivals.Perm (pkts.flatMap (outputsOf mtu respectDf)) →
          reassembleDatagram key arrivals = some payload := by
      intro arrivals order
      by_cases empty : payload = []
      · exact valid.reassembles_of_empty empty order
      · exact valid.reassembles_of_onlyWhole empty onlyWhole order
    refine ⟨⟨_, runs, delivered⟩, ?_, ?_⟩
    · intro pkt member frags cut position inside
      rcases continues pkt member frags cut with ⟨tiles, _⟩
      have mapped := tiles.offset_eq (by simpa using inside)
      simpa [Ipv4.piece, Function.comp_def] using mapped
    · intro pkt member frags cut last isLast
      rcases continues pkt member frags cut with ⟨tiles, noMore⟩
      rw [noMore]
      have mappedLast :
          (frags.map Ipv4.piece).getLast? = some (Ipv4.piece last) := by
        rw [List.getLast?_map, isLast]
        rfl
      exact tiles.more_getLast mappedLast

/-! ## Two pieces of one datagram -/

def leadingPiece : Bytes :=
  [0x45, 0, 0, 36, 0, 7, 0x20, 0, 64, 17, 0, 0, 10, 99, 0, 1, 10, 99, 0, 2] ++
    List.replicate 16 0xAB

def closingPiece : Bytes :=
  [0x45, 0, 0, 28, 0, 7, 0, 2, 64, 17, 0, 0, 10, 99, 0, 1, 10, 99, 0, 2] ++
    List.replicate 8 0xCD

private theorem twoPieces_valid :
    ValidFragmentation (Ipv4.datagramKey leadingPiece)
      (List.replicate 16 0xAB ++ List.replicate 8 0xCD)
      [leadingPiece, closingPiece] where
  wellFormed := by
    have leading : WellFormed leadingPiece :=
      ⟨by decide, by decide, by decide, by decide⟩
    have closing : WellFormed closingPiece :=
      ⟨by decide, by decide, by decide, by decide⟩
    simpa using ⟨leading, closing⟩
  keys := by
    have same :
        Ipv4.datagramKey closingPiece = Ipv4.datagramKey leadingPiece := by
      decide
    simpa using same
  pieces := by
    refine Or.inr ⟨by decide, ?_⟩
    have leading :
        Ipv4.piece leadingPiece = ⟨0, true, List.replicate 16 0xAB⟩ := by
      decide
    have closing :
        Ipv4.piece closingPiece = ⟨16, false, List.replicate 8 0xCD⟩ := by
      decide
    rw [List.map_cons, List.map_cons, List.map_nil, leading, closing]
    refine ⟨List.replicate 8 0xCD, rfl, by decide, rfl, by decide, ?_⟩
    exact Tiles.singleton false 16 (by decide)

/-- At an MTU of twenty-eight the leading piece is cut in two and loses its
more-flag: what comes out, in its own order, reassembles to the leading
sixteen bytes alone. -/
theorem refragmentation_loses_the_tail :
    ∃ key payload pkts,
      ValidFragmentation key payload pkts ∧
        ¬ PreservesDatagram key payload pkts 28 false ∧
        ∃ outputs, refragment 28 false pkts = .ok outputs ∧
          reassembleDatagram key outputs = some (payload.take 16) := by
  have delivered :
      (refragment 28 false [leadingPiece, closingPiece]).map
          (reassembleDatagram (Ipv4.datagramKey leadingPiece)) =
        .ok (some (List.replicate 16 0xAB)) := by
    decide +kernel
  refine ⟨_, _, _, twoPieces_valid, ?_, ?_⟩
  · intro ⟨⟨outputs, runs, whole⟩, _, _⟩
    rw [runs] at delivered
    have early := Except.ok.inj delivered
    rw [whole outputs (List.Perm.refl outputs)] at early
    exact absurd early (by decide)
  · cases runs : refragment 28 false [leadingPiece, closingPiece] with
    | error fault =>
        rw [runs] at delivered
        cases delivered
    | ok outputs =>
        rw [runs] at delivered
        exact ⟨outputs, rfl, Except.ok.inj delivered⟩

/-- At an MTU of thirty-six neither piece is cut. -/
theorem refragmentation_preserves_two_pieces :
    PreservesDatagram (Ipv4.datagramKey leadingPiece)
      (List.replicate 16 0xAB ++ List.replicate 8 0xCD)
      [leadingPiece, closingPiece] 36 false := by
  apply (refragmentation_preserves_iff twoPieces_valid 36 false).2
  intro pkt member tooLong
  have short :
      ∀ piece, piece ∈ [leadingPiece, closingPiece] → piece.length ≤ 36 := by
    decide
  exact absurd (short pkt member) (Nat.not_le.mpr tooLong)

end CocoNet
