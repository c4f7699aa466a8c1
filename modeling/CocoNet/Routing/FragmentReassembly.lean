import CocoNet.Routing.FragmentLayout

/-!
# Fragmentation followed by reassembly

Read back by its fields, the fragment built for a piece of the payload is that
piece: its offset field and its more-flag say where it belongs, and its total
length is its own length.  The pieces of a cut tile the payload, so the
fragments of a whole datagram reassemble to its payload in every order of
arrival.
-/

namespace CocoNet

open Reassembly

/-! ## Reading a fragment back -/

private theorem fragOffField_eq {offset : Nat} (small : offset < 65536)
    (moreFragments : Bool) :
    fragOffField offset moreFragments =
      (if moreFragments then 8192 else 0) + offset / 8 := by
  have units : offset / 8 < 2 ^ 13 := by omega
  have masked : offset / 8 % 65536 &&& 0x1FFF = offset / 8 := by
    rw [Nat.mod_eq_of_lt (by omega),
      Nat.and_two_pow_sub_one_eq_mod (offset / 8) 13, Nat.mod_eq_of_lt units]
  rw [fragOffField, masked]
  cases moreFragments with
  | false =>
      simp
  | true =>
      have joined := Nat.two_pow_add_eq_or_of_lt units 1
      exact joined.symm

private theorem fragOffField_lt {offset : Nat} (small : offset < 65536)
    (moreFragments : Bool) : fragOffField offset moreFragments < 65536 := by
  rw [fragOffField_eq small]
  split <;> omega

private theorem fragOffField_offset {offset : Nat} (small : offset < 65536)
    (aligned : 8 ∣ offset) (moreFragments : Bool) :
    8 * (fragOffField offset moreFragments &&& 0x1FFF) = offset := by
  rw [Nat.and_two_pow_sub_one_eq_mod _ 13, fragOffField_eq small]
  split <;> omega

private theorem fragOffField_more {offset : Nat} (small : offset < 65536)
    (moreFragments : Bool) :
    (fragOffField offset moreFragments &&& 0x2000 != 0) = moreFragments := by
  have units : (offset / 8).testBit 13 = false :=
    Nat.testBit_lt_two_pow (by omega)
  rw [fragOffField_eq small, show (8192 : Nat) = 2 ^ 13 from rfl,
    Nat.and_two_pow]
  cases moreFragments with
  | false =>
      simp [units]
  | true =>
      have flagged : (2 ^ 13 + offset / 8).testBit 13 = true := by
        rw [Nat.testBit_two_pow_add_eq, units]
        rfl
      rw [if_pos rfl, flagged]
      decide

structure CarriesHeader (fields : HeaderFields) (options : Bytes)
    (frag : Bytes) : Prop where
  versionIhl : Ipv4.byteAt frag 0 = fields.versionIhl
  tos : Ipv4.tos frag = fields.tos
  identification : Ipv4.identification frag = fields.id % 65536
  ttl : Ipv4.ttl frag = fields.ttl
  protocol : Ipv4.protocol frag = fields.proto
  source : Ipv4.source frag = fields.srcDst.take 4
  destination : Ipv4.destination frag = fields.srcDst.drop 4
  options : (frag.drop 20).take options.length = options

section Layout

variable {fields : HeaderFields} {options data : Bytes}
variable {fragTotalLen fragOff : Nat}

private theorem fragment_carriesHeader
    (srcDstLength : fields.srcDst.length = 8) :
    CarriesHeader fields options
      (fragment fields options fragTotalLen fragOff data) := by
  obtain ⟨csum, shape⟩ :
      ∃ csum,
        fragment fields options fragTotalLen fragOff data =
          fixedHeader fields fragTotalLen fragOff csum ++
            (fields.srcDst ++ (options ++ data)) :=
    ⟨checksumOf (fragmentHeader fields options fragTotalLen fragOff 0), by
      simp only [fragment, fragmentHeader, List.append_assoc]⟩
  rw [shape]
  have tail :
      (fixedHeader fields fragTotalLen fragOff csum ++
          (fields.srcDst ++ (options ++ data))).drop 12 =
        fields.srcDst ++ (options ++ data) :=
    rfl
  have later : ∀ more,
      (fixedHeader fields fragTotalLen fragOff csum ++
          (fields.srcDst ++ (options ++ data))).drop (12 + more) =
        (fields.srcDst ++ (options ++ data)).drop more := by
    intro more
    rw [← List.drop_drop, tail]
  refine ⟨rfl, rfl, BigEndian.word_bytes fields.id, rfl, rfl, ?_, ?_, ?_⟩
  · rw [Ipv4.source, tail, List.take_append_of_le_length (by omega)]
  · rw [Ipv4.destination, later 4,
      List.drop_append_of_le_length (by omega),
      List.take_append_of_le_length (by rw [List.length_drop]; omega),
      List.take_of_length_le (by rw [List.length_drop]; omega)]
  · have start := later 8
    rw [← srcDstLength, List.drop_left] at start
    rw [show 20 = 12 + fields.srcDst.length by omega, start, List.take_left]

private theorem totalLength_fragment :
    Ipv4.totalLength (fragment fields options fragTotalLen fragOff data) =
      fragTotalLen % 65536 :=
  BigEndian.word_bytes fragTotalLen

private theorem flagsFragment_fragment :
    Ipv4.flagsFragment (fragment fields options fragTotalLen fragOff data) =
      fragOff % 65536 :=
  BigEndian.word_bytes fragOff

private theorem fragment_eq_header_append :
    ∃ header : Bytes,
      fragment fields options fragTotalLen fragOff data = header ++ data ∧
        header.length = 12 + fields.srcDst.length + options.length :=
  ⟨_, rfl, by
    simp only [fragmentHeader, List.length_append, length_fixedHeader]⟩

end Layout

/-! ## The fragments of a packet -/

/-- Which packets the fragmentation reaches with its payload in hand. -/
structure Sound (pkt : Bytes) : Prop where
  header : 20 ≤ Ipv4.ihl pkt
  inside : Ipv4.ihl pkt ≤ pkt.length

theorem Fragmentable.sound {pkt : Bytes} {mtu : Nat} {respectDf : Bool}
    (fragmentable : Fragmentable pkt mtu respectDf) : Sound pkt where
  header := fragmentable.header
  inside := by
    have := fragmentable.tooLong
    have := fragmentable.room
    omega

abbrev fragmentFor (pkt : Bytes) (piece : Piece UInt8) : Bytes :=
  fragmentOf (headerFields pkt) (Ipv4.options pkt) (Ipv4.ihl pkt) piece

structure Placed (pkt : Bytes) (piece : Piece UInt8) : Prop where
  aligned : 8 ∣ piece.offset
  start : piece.offset < 65536
  fits : Ipv4.ihl pkt + piece.data.length < 65536

section OneFragment

variable {pkt : Bytes} (sound : Sound pkt)
include sound

theorem long_of_sound : 20 ≤ pkt.length :=
  Nat.le_trans sound.header sound.inside

theorem length_options : (Ipv4.options pkt).length = Ipv4.ihl pkt - 20 := by
  have := sound.inside
  rw [Ipv4.options, List.length_take, List.length_drop]
  omega

theorem fragmentFor_carriesHeader (piece : Piece UInt8) :
    CarriesHeader (headerFields pkt) (Ipv4.options pkt)
      (fragmentFor pkt piece) :=
  fragment_carriesHeader (length_srcDst (long_of_sound sound))

theorem ihl_fragmentFor (piece : Piece UInt8) :
    Ipv4.ihl (fragmentFor pkt piece) = Ipv4.ihl pkt := by
  rw [Ipv4.ihl, (fragmentFor_carriesHeader sound piece).versionIhl]
  rfl

private theorem fragmentFor_split (piece : Piece UInt8) :
    ∃ header : Bytes,
      fragmentFor pkt piece = header ++ piece.data ∧
        header.length = Ipv4.ihl pkt := by
  obtain ⟨header, shape, length⟩ :
      ∃ header : Bytes,
        fragmentFor pkt piece = header ++ piece.data ∧
          header.length =
            12 + (headerFields pkt).srcDst.length +
              (Ipv4.options pkt).length :=
    fragment_eq_header_append
  refine ⟨header, shape, ?_⟩
  rw [length, length_srcDst (long_of_sound sound), length_options sound]
  have := sound.header
  omega

theorem length_fragmentFor (piece : Piece UInt8) :
    (fragmentFor pkt piece).length = Ipv4.ihl pkt + piece.data.length := by
  rcases fragmentFor_split sound piece with ⟨header, shape, length⟩
  rw [shape, List.length_append, length]

private theorem totalLength_fragmentFor {piece : Piece UInt8}
    (placed : Placed pkt piece) :
    Ipv4.totalLength (fragmentFor pkt piece) =
      (fragmentFor pkt piece).length := by
  rw [length_fragmentFor sound, fragmentFor, fragmentOf,
    totalLength_fragment, Nat.mod_eq_of_lt placed.fits]

/-- Read back by its fields, the fragment built for a piece is the piece. -/
theorem piece_fragmentFor {piece : Piece UInt8} (placed : Placed pkt piece) :
    Ipv4.piece (fragmentFor pkt piece) = piece := by
  rcases fragmentFor_split sound piece with ⟨header, shape, length⟩
  have flags :
      Ipv4.flagsFragment (fragmentFor pkt piece) =
        fragOffField piece.offset piece.more := by
    rw [fragmentFor, fragmentOf, flagsFragment_fragment,
      Nat.mod_eq_of_lt (fragOffField_lt placed.start piece.more)]
  have total :
      Ipv4.totalLength (fragmentFor pkt piece) =
        Ipv4.ihl pkt + piece.data.length := by
    rw [totalLength_fragmentFor sound placed, length_fragmentFor sound]
  have offset :
      8 * Ipv4.fragmentOffset (fragmentFor pkt piece) = piece.offset := by
    rw [Ipv4.fragmentOffset, flags,
      fragOffField_offset placed.start placed.aligned]
  have more : Ipv4.moreFragments (fragmentFor pkt piece) = piece.more := by
    rw [Ipv4.moreFragments, flags, fragOffField_more placed.start]
  have data : Ipv4.payload (fragmentFor pkt piece) = piece.data := by
    rw [Ipv4.payload, ihl_fragmentFor sound, total, shape, ← length,
      List.drop_left, Nat.add_sub_cancel_left, List.take_length]
  rw [Ipv4.piece, offset, more, data]

end OneFragment

/-! ## All fragments of a packet -/

structure SameHeader (pkt frag : Bytes) : Prop where
  tos : Ipv4.tos frag = Ipv4.tos pkt
  identification : Ipv4.identification frag = Ipv4.identification pkt
  ttl : Ipv4.ttl frag = Ipv4.ttl pkt
  protocol : Ipv4.protocol frag = Ipv4.protocol pkt
  source : Ipv4.source frag = Ipv4.source pkt
  destination : Ipv4.destination frag = Ipv4.destination pkt

theorem SameHeader.datagramKey {pkt frag : Bytes}
    (same : SameHeader pkt frag) :
    Ipv4.datagramKey frag = Ipv4.datagramKey pkt := by
  rw [Ipv4.datagramKey, same.source, same.destination, same.protocol,
    same.identification, Ipv4.datagramKey]

private theorem fragmentFor_sameHeader {pkt : Bytes} (sound : Sound pkt)
    (piece : Piece UInt8) : SameHeader pkt (fragmentFor pkt piece) := by
  have carries := fragmentFor_carriesHeader sound piece
  have idSmall : Ipv4.identification pkt < 65536 := BigEndian.word_lt _ _
  refine ⟨carries.tos, ?_, carries.ttl, carries.protocol, ?_, ?_⟩
  · rw [carries.identification]
    exact Nat.mod_eq_of_lt idSmall
  · rw [carries.source, headerFields, List.take_take]
    rfl
  · rw [carries.destination, headerFields, List.drop_take, List.drop_drop]
    rfl

structure FragmentsCorrect (pkt : Bytes) (mtu : Nat) (frags : List Bytes) :
    Prop where
  nonempty : frags ≠ []
  lengths : ∀ frag, frag ∈ frags →
    frag.length = Ipv4.totalLength frag ∧ frag.length ≤ mtu
  full : ∀ position (inside : position + 1 < frags.length),
    0 < (Ipv4.payload frags[position]).length ∧
      8 ∣ (Ipv4.payload frags[position]).length
  more : ∀ position (inside : position < frags.length),
    Ipv4.moreFragments frags[position] =
      decide (position + 1 < frags.length)
  offsets : ∀ position (inside : position < frags.length),
    8 * Ipv4.fragmentOffset frags[position] =
      ((frags.take position).map fun frag =>
        (Ipv4.payload frag).length).sum
  header : ∀ frag, frag ∈ frags → SameHeader pkt frag

section AllFragments

variable {pkt : Bytes} {mtu : Nat} {respectDf : Bool}
variable (fragmentable : Fragmentable pkt mtu respectDf)
include fragmentable

private theorem maxPayload_pos : 0 < alignDown8 (mtu - Ipv4.ihl pkt) := by
  have := fragmentable.room
  rw [alignDown8_eq]
  omega

theorem payload_ne_nil : Ipv4.payload pkt ≠ [] := by
  apply List.ne_nil_of_length_pos
  have := fragmentable.carries
  have := fragmentable.tooLong
  have := fragmentable.room
  rw [Ipv4.payload, List.length_take, List.length_drop]
  omega

private theorem placed_of_mem_cut {piece : Piece UInt8}
    (member : piece ∈
      cut (alignDown8 (mtu - Ipv4.ihl pkt)) 0 (Ipv4.payload pkt)) :
    Placed pkt piece := by
  rcases mem_cut member with ⟨_, _, _, aligned, _, within⟩
  have carries := fragmentable.carries
  have totalSmall := Ipv4.totalLength_le pkt
  have payloadSmall :
      (Ipv4.payload pkt).length ≤
        Ipv4.totalLength pkt - Ipv4.ihl pkt := by
    rw [Ipv4.payload, List.length_take]
    exact Nat.min_le_left _ _
  have unit : 8 ∣ alignDown8 (mtu - Ipv4.ihl pkt) := by
    rw [alignDown8_eq]
    exact Nat.dvd_mul_left 8 _
  exact ⟨Nat.dvd_trans unit aligned, by omega, by omega⟩

/-- Read back by their fields, the fragments are the pieces of the cut. -/
theorem fragmentsOf_pieces :
    (fragmentsOf pkt mtu).map Ipv4.piece =
      cut (alignDown8 (mtu - Ipv4.ihl pkt)) 0 (Ipv4.payload pkt) := by
  rw [fragmentsOf, List.map_map]
  refine (List.map_congr_left fun piece member => ?_).trans (List.map_id _)
  exact piece_fragmentFor fragmentable.sound
    (placed_of_mem_cut fragmentable member)

theorem fragmentsOf_tiles :
    Tiles false 0 (Ipv4.payload pkt)
      ((fragmentsOf pkt mtu).map Ipv4.piece) := by
  rw [fragmentsOf_pieces fragmentable]
  exact cut_tiles (maxPayload_pos fragmentable) 0 (Ipv4.payload pkt)

theorem fragmentsOf_sameHeader {frag : Bytes}
    (member : frag ∈ fragmentsOf pkt mtu) : SameHeader pkt frag := by
  rcases List.mem_map.mp member with ⟨piece, _, same⟩
  subst same
  exact fragmentFor_sameHeader fragmentable.sound piece

private theorem mem_cut_of_mem_fragmentsOf {frag : Bytes}
    (member : frag ∈ fragmentsOf pkt mtu) :
    Ipv4.piece frag ∈
      cut (alignDown8 (mtu - Ipv4.ihl pkt)) 0 (Ipv4.payload pkt) := by
  rw [← fragmentsOf_pieces fragmentable]
  exact List.mem_map_of_mem member

theorem fragmentsOf_lengths {frag : Bytes}
    (member : frag ∈ fragmentsOf pkt mtu) :
    frag.length = Ipv4.totalLength frag ∧ frag.length ≤ mtu := by
  rcases List.mem_map.mp member with ⟨piece, pieceMember, same⟩
  subst same
  rcases mem_cut pieceMember with ⟨_, bounded, _⟩
  have placed := placed_of_mem_cut fragmentable pieceMember
  have room := fragmentable.room
  rw [alignDown8_eq] at bounded
  refine ⟨(totalLength_fragmentFor fragmentable.sound placed).symm, ?_⟩
  rw [length_fragmentFor fragmentable.sound piece]
  omega

theorem fragmentsOf_correct :
    FragmentsCorrect pkt mtu (fragmentsOf pkt mtu) := by
  have tiles := fragmentsOf_tiles fragmentable
  have more : ∀ position (inside : position < (fragmentsOf pkt mtu).length),
      Ipv4.moreFragments (fragmentsOf pkt mtu)[position] =
        decide (position + 1 < (fragmentsOf pkt mtu).length) := by
    intro position inside
    have mapped := tiles.more_eq (by simpa using inside)
    simp only [List.getElem_map, List.length_map] at mapped
    exact mapped
  refine ⟨?_, fun frag => fragmentsOf_lengths fragmentable, ?_, more, ?_,
    fun frag => fragmentsOf_sameHeader fragmentable⟩
  · intro empty
    rw [empty] at tiles
    exact payload_ne_nil fragmentable tiles
  · intro position inside
    have here : position < (fragmentsOf pkt mtu).length := by omega
    obtain ⟨nonempty, _, full, _⟩ :=
      mem_cut (mem_cut_of_mem_fragmentsOf fragmentable
        (List.getElem_mem here))
    have followed :
        Ipv4.moreFragments (fragmentsOf pkt mtu)[position] = true := by
      rw [more position here]
      exact decide_eq_true inside
    refine ⟨nonempty, ?_⟩
    have length :
        (Ipv4.payload (fragmentsOf pkt mtu)[position]).length =
          alignDown8 (mtu - Ipv4.ihl pkt) :=
      full followed
    rw [length, alignDown8_eq]
    exact Nat.dvd_mul_left 8 _
  · intro position inside
    have mapped := tiles.offset_eq (by simpa using inside)
    simpa [Ipv4.piece, Function.comp_def] using mapped

end AllFragments

/-- The fragmentation returns for every IPv4 packet, fragments exactly the
packets that are fragmentable, and fragments them into correct fragments that
reassemble, in every order of arrival, to the payload of the packet.  A packet
that is itself a fragment is no exception: its fragments reassemble to what it
carries. -/
theorem fragmentation_reassembles (pkt : Bytes) (mtu : Nat)
    (respectDf : Bool) (version4 : Ipv4.version pkt = 4) :
    ∃ result,
      ipv4FragmentIfNeeded pkt mtu respectDf = .ok result ∧
        (result.isSome = true ↔ Fragmentable pkt mtu respectDf) ∧
        ∀ frags, result = some frags →
          FragmentsCorrect pkt mtu frags ∧
            ∀ arrivals : List Bytes, arrivals.Perm frags →
              reassembleDatagram (Ipv4.datagramKey pkt) arrivals =
                some ((pkt.take (min (Ipv4.totalLength pkt)
                  pkt.length)).drop (Ipv4.ihl pkt)) := by
  rcases ipv4FragmentIfNeeded_eq mtu respectDf version4 with ⟨cuts, leaves⟩
  by_cases fragmentable : Fragmentable pkt mtu respectDf
  · refine ⟨_, cuts fragmentable, by simpa using fragmentable, ?_⟩
    intro frags same
    obtain rfl : fragmentsOf pkt mtu = frags := Option.some.inj same
    refine ⟨fragmentsOf_correct fragmentable, fun arrivals order => ?_⟩
    rw [← Ipv4.payload_eq_slice]
    exact reassembleDatagram_of_tiles (payload_ne_nil fragmentable)
      (fun frag member =>
        (fragmentsOf_sameHeader fragmentable member).datagramKey)
      (fragmentsOf_tiles fragmentable) order
  · refine ⟨none, leaves fragmentable, by simpa using fragmentable, ?_⟩
    intro frags same
    cases same

/-- Thirty-six bytes of total length over an MTU of twenty-eight. -/
theorem fragmentation_reassembles_two_fragments :
    ∃ result,
      ipv4FragmentIfNeeded
          ([0x45, 0, 0, 36, 0, 7, 0, 0, 64, 17, 0, 0, 10, 99, 0, 1,
            10, 99, 0, 2] ++ List.replicate 16 0xAB) 28 false =
        .ok result ∧ result.isSome = true := by
  obtain ⟨result, runs, some_iff, _⟩ :=
    fragmentation_reassembles
      ([0x45, 0, 0, 36, 0, 7, 0, 0, 64, 17, 0, 0, 10, 99, 0, 1,
        10, 99, 0, 2] ++ List.replicate 16 0xAB) 28 false (by decide)
  exact ⟨result, runs, some_iff.2
    ⟨by decide, by decide, by decide, by decide, by decide, by decide⟩⟩

end CocoNet
