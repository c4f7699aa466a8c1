import CocoNet.Library.OnesComplement
import CocoNet.Routing.Downlink
import CocoNet.Routing.FragmentReassembly

/-!
# The header checksum

The checksum that the code computes with a wide sum and a fold of the carries is
what the ones' complement sum of the header's words leaves to 65535.  Stored in
its field it makes that sum 65535, whatever stood there before.
-/

namespace CocoNet

/-! ## The words of a header -/

/-- The big-endian words; a last single byte is the high byte of its word. -/
def headerWords : Bytes → List Nat
  | high :: low :: rest => BigEndian.word high low :: headerWords rest
  | [high] => [BigEndian.word high 0]
  | [] => []

/-- The ones' complement sum that a receiver computes over a header. -/
def onesSum (header : Bytes) : Nat :=
  OnesComplement.sum 65535 (headerWords header)

private theorem headerWords_le {header : Bytes} :
    ∀ word, word ∈ headerWords header → word ≤ 65535 := by
  fun_induction headerWords header with
  | case1 high low rest inductionHypothesis =>
      intro word member
      rcases List.mem_cons.1 member with isFirst | later
      · rw [isFirst]
        exact Nat.le_of_lt_succ (BigEndian.word_lt high low)
      · exact inductionHypothesis word later
  | case2 high =>
      intro word member
      rw [List.mem_singleton.1 member]
      exact Nat.le_of_lt_succ (BigEndian.word_lt high 0)
  | case3 =>
      simp

private theorem two_mul_sum_headerWords_le (header : Bytes) :
    2 * (headerWords header).sum ≤ 65535 * (header.length + 1) := by
  fun_induction headerWords header with
  | case1 high low rest inductionHypothesis =>
      have small := BigEndian.word_lt high low
      simp only [List.sum_cons, List.length_cons]
      omega
  | case2 high =>
      have small := BigEndian.word_lt high 0
      simp only [List.sum_singleton, List.length_singleton]
      omega
  | case3 =>
      exact Nat.zero_le _

private theorem sum_headerWords_lt {header : Bytes}
    (short : header.length ≤ 65536) :
    (headerWords header).sum < u32Bound := by
  have bounded := two_mul_sum_headerWords_le header
  unfold u32Bound
  omega

/-- A sum that stays below the bound never wraps. -/
theorem sumWords_eq {sum : Nat} {header : Bytes}
    (bounded : sum + (headerWords header).sum < u32Bound) :
    sumWords sum header = sum + (headerWords header).sum := by
  fun_induction headerWords header generalizing sum with
  | case1 high low rest inductionHypothesis =>
      rw [List.sum_cons] at bounded
      have inside : sum + BigEndian.word high low < u32Bound := by
        omega
      rw [sumWords, Nat.mod_eq_of_lt inside, inductionHypothesis (by omega),
        List.sum_cons, Nat.add_assoc]
  | case2 high =>
      have shifted : high.toNat <<< 8 = BigEndian.word high 0 := by
        simp [Nat.shiftLeft_eq, BigEndian.word]
      rw [List.sum_singleton] at bounded ⊢
      rw [sumWords, shifted, Nat.mod_eq_of_lt bounded]
  | case3 =>
      rfl

private theorem endAround_modEq (sum : Nat) : endAround sum ≡ sum
    [MOD 65535] := by
  unfold Nat.ModEq endAround
  split <;> omega

private theorem endAround_eq_zero_iff (sum : Nat) :
    endAround sum = 0 ↔ sum = 0 := by
  unfold endAround
  split <;> omega

/-- The checksum of the code is what the ones' complement sum leaves to
65535. -/
theorem checksumOf_eq {header : Bytes} (short : header.length ≤ 65536) :
    checksumOf header = 65535 - onesSum header := by
  have bounded : 0 + (headerWords header).sum < u32Bound := by
    rw [Nat.zero_add]
    exact sum_headerWords_lt short
  have folded : onesSum header = endAround (headerWords header).sum := by
    apply (OnesComplement.sum_eq_iff headerWords_le
      (Nat.le_of_lt_succ (endAround_lt _))).2
    exact ⟨endAround_modEq _, endAround_eq_zero_iff _⟩
  rw [checksumOf, sumWords_eq bounded, Nat.zero_add, folded]

/-! ## Storing the checksum -/

private theorem headerWords_append {front : Bytes} (even : 2 ∣ front.length)
    (back : Bytes) :
    headerWords (front ++ back) = headerWords front ++ headerWords back := by
  fun_induction headerWords front with
  | case1 high low rest inductionHypothesis =>
      have restEven : 2 ∣ rest.length := by
        simp only [List.length_cons] at even
        omega
      rw [List.cons_append, List.cons_append, headerWords,
        inductionHypothesis restEven]
      rfl
  | case2 high =>
      rw [List.length_singleton] at even
      omega
  | case3 =>
      rfl

/-- With a word of any value between an even front and the back. -/
theorem sum_headerWords_between {front : Bytes} (even : 2 ∣ front.length)
    (value : Nat) (small : value < 65536) (back : Bytes) :
    (headerWords (front ++ BigEndian.bytes value ++ back)).sum =
      (headerWords (front ++ BigEndian.bytes 0 ++ back)).sum + value := by
  have between : ∀ other, other < 65536 →
      (headerWords (front ++ BigEndian.bytes other ++ back)).sum =
        (headerWords front).sum + (other + (headerWords back).sum) := by
    intro other fits
    rw [List.append_assoc, headerWords_append even, List.sum_append]
    change _ + (BigEndian.word _ _ :: headerWords back).sum = _
    rw [BigEndian.word_bytes_of_lt fits, List.sum_cons]
  rw [between value small, between 0 (by decide)]
  omega

/-- A header whose checksum field holds the checksum of the header with that
field clear sums to 65535. -/
theorem onesSum_checksummed {front back : Bytes} (even : 2 ∣ front.length)
    (short : front.length + 2 + back.length ≤ 65536) :
    onesSum (front ++
        BigEndian.bytes
          (checksumOf (front ++ BigEndian.bytes 0 ++ back)) ++ back) =
      65535 := by
  have clearShort :
      (front ++ BigEndian.bytes 0 ++ back).length ≤ 65536 := by
    simpa [Nat.add_assoc] using short
  have checksum := checksumOf_eq clearShort
  have total := sum_headerWords_between even
    (checksumOf (front ++ BigEndian.bytes 0 ++ back)) (by omega) back
  rw [checksum] at total ⊢
  exact OnesComplement.sum_eq_top (by decide) headerWords_le headerWords_le
    total

/-! ## The field of a header -/

/-- A header is what stands before its checksum field, the field, and the
rest. -/
theorem checksumField_split {header : Bytes} (long : 12 ≤ header.length) :
    ∃ front high low back, front.length = 10 ∧
      header = front ++ high :: low :: back := by
  refine ⟨header.take 10, header[10], header[11], header.drop 12, ?_, ?_⟩
  · rw [List.length_take]
    omega
  · rw [← List.drop_eq_getElem_cons, ← List.drop_eq_getElem_cons,
      List.take_append_drop]

private theorem ipv4Checksum_append {front back : Bytes}
    (isFront : front.length = 10)
    (high low : UInt8) :
    ipv4Checksum (front ++ high :: low :: back) =
      .ok (front ++ 0 :: 0 :: back,
        checksumOf (front ++ BigEndian.bytes 0 ++ back)) := by
  have cleared : ((front ++ high :: low :: back).set 10 0).set 11 0 =
      front ++ 0 :: 0 :: back := by
    rw [List.set_append_right _ _ (by omega),
      List.set_append_right _ _ (by omega), isFront]
    rfl
  have field : front ++ 0 :: 0 :: back =
      front ++ BigEndian.bytes 0 ++ back := by
    rw [List.append_assoc]
    rfl
  have long : 12 ≤ (front ++ high :: low :: back).length := by
    simp only [List.length_append, List.length_cons, isFront]
    omega
  rw [ipv4Checksum_eq long, cleared, ← field]

private theorem copyChecksum_append {front back : Bytes}
    (isFront : front.length = 10)
    (high low : UInt8) (csum : Nat) :
    Checked.copyFromSlice (front ++ high :: low :: back) 10 12
        (BigEndian.bytes csum) =
      .ok (front ++ BigEndian.bytes csum ++ back) := by
  have copied := Checked.copyFromSlice_middle front [high, low] back
    (BigEndian.bytes csum) rfl
  rw [isFront] at copied
  rw [← copied, List.append_assoc]
  rfl

/-- The bytes of a fragment's header before its checksum. -/
def fragmentFront (fields : HeaderFields) (fragTotalLen fragOff : Nat) :
    Bytes :=
  (fixedHeader fields fragTotalLen fragOff 0).take 10

@[simp]
theorem length_fragmentFront (fields : HeaderFields)
    (fragTotalLen fragOff : Nat) :
    (fragmentFront fields fragTotalLen fragOff).length = 10 :=
  rfl

private theorem fragmentHeader_eq (fields : HeaderFields) (options : Bytes)
    (fragTotalLen fragOff csum : Nat) :
    fragmentHeader fields options fragTotalLen fragOff csum =
      fragmentFront fields fragTotalLen fragOff ++ BigEndian.bytes csum ++
        (fields.srcDst ++ options) := by
  rw [fragmentHeader, List.append_assoc]
  rfl

/-- The header of a built fragment sums to 65535. -/
theorem onesSum_header_fragmentFor {pkt : Bytes} (sound : Sound pkt)
    (piece : Piece UInt8) :
    onesSum ((fragmentFor pkt piece).take (Ipv4.ihl pkt)) = 65535 := by
  have srcDst := length_srcDst (long_of_sound sound)
  have options := length_options sound
  have header := sound.header
  have small := Ipv4.ihl_le pkt
  rw [fragmentFor, fragmentOf, fragment]
  generalize Ipv4.ihl pkt + piece.data.length = fragTotalLen
  generalize fragOffField piece.offset piece.more = fragOff
  have isHeader :
      (fragmentHeader (headerFields pkt) (Ipv4.options pkt) fragTotalLen
        fragOff (checksumOf (fragmentHeader (headerFields pkt)
          (Ipv4.options pkt) fragTotalLen fragOff 0))).length =
        Ipv4.ihl pkt := by
    simp only [fragmentHeader, List.length_append, length_fixedHeader]
    omega
  rw [← isHeader, List.take_left, fragmentHeader_eq, fragmentHeader_eq]
  apply onesSum_checksummed
  · rw [length_fragmentFront]
    decide
  · rw [length_fragmentFront, List.length_append]
    omega

/-- Every fragment has a valid header checksum: its header sums to 65535.  And
over every slice of 12 to 65536 bytes the checksum is computed, and storing it
in its field makes the slice sum to 65535 and changes nothing else. -/
theorem checksums_valid (pkt : Bytes) (mtu : Nat) (respectDf : Bool) :
    (∀ frags, ipv4FragmentIfNeeded pkt mtu respectDf = .ok (some frags) →
      ∀ frag, frag ∈ frags →
        Ipv4.ihl frag ≤ frag.length ∧
          onesSum (frag.take (Ipv4.ihl frag)) = 0xFFFF) ∧
    ∀ header : Bytes, 12 ≤ header.length → header.length ≤ 65536 →
      ∃ cleared csum stored,
        ipv4Checksum header = .ok (cleared, csum) ∧
          Checked.copyFromSlice cleared 10 12 (BigEndian.bytes csum) =
            .ok stored ∧
          onesSum stored = 0xFFFF ∧ stored.length = header.length ∧
          ∀ position, position ≠ 10 → position ≠ 11 →
            stored[position]? = header[position]? := by
  constructor
  · intro frags returned frag member
    rcases ipv4FragmentIfNeeded_cases pkt mtu respectDf with
      ⟨fragmentable, cuts⟩ | leaves
    · rw [cuts] at returned
      obtain rfl := Option.some.inj (Except.ok.inj returned)
      rcases List.mem_map.mp member with ⟨piece, _, same⟩
      subst same
      have sound := fragmentable.sound
      rw [ihl_fragmentFor sound]
      refine ⟨?_, onesSum_header_fragmentFor sound piece⟩
      rw [length_fragmentFor sound]
      exact Nat.le_add_right _ _
    · rw [leaves] at returned
      cases returned
  · intro header long short
    obtain ⟨front, high, low, back, isFront, rfl⟩ := checksumField_split long
    refine ⟨_, _, _, ipv4Checksum_append isFront high low,
      copyChecksum_append isFront 0 0 _, ?_, ?_, ?_⟩
    · apply onesSum_checksummed
      · rw [isFront]
        decide
      · simp only [List.length_append, List.length_cons] at short
        omega
    · simp only [List.length_append, List.length_cons,
        BigEndian.length_bytes]
      omega
    · intro position notHigh notLow
      have outside :
          position < front.length ∨
            front.length + [high, low].length ≤ position := by
        simp only [isFront, List.length_cons, List.length_nil]
        omega
      have kept := Checked.getElem?_middle front [high, low] back
        (BigEndian.bytes
          (checksumOf (front ++ BigEndian.bytes 0 ++ back))) rfl outside
      rw [kept, List.append_assoc]
      rfl

/-- Sixteen bytes of payload, with a checksum that is not the right one. -/
def uncheckedDatagram : Bytes :=
  [0x45, 0, 0, 36, 0, 7, 0, 0, 64, 17, 0xFF, 0xFF, 10, 99, 0, 1, 10, 99, 0, 2]
    ++ List.replicate 16 0xFF

theorem checksums_valid_two_fragments :
    (∃ frags,
      ipv4FragmentIfNeeded uncheckedDatagram 28 false = .ok (some frags) ∧
        frags.length = 2 ∧
        ∀ frag, frag ∈ frags →
          onesSum (frag.take (Ipv4.ihl frag)) = 0xFFFF) ∧
      ∃ cleared csum stored,
        ipv4Checksum (List.replicate 12 0xFF) = .ok (cleared, csum) ∧
          Checked.copyFromSlice cleared 10 12 (BigEndian.bytes csum) =
            .ok stored ∧
          onesSum stored = 0xFFFF := by
  obtain ⟨fragments, slices⟩ := checksums_valid uncheckedDatagram 28 false
  have built : ipv4FragmentIfNeeded uncheckedDatagram 28 false =
      .ok (some (fragmentsOf uncheckedDatagram 28)) :=
    (ipv4FragmentIfNeeded_eq 28 false (by decide)).1
      ⟨by decide, by decide, by decide, by decide, by decide, by decide⟩
  obtain ⟨cleared, csum, stored, computes, stores, sum, _⟩ :=
    slices (List.replicate 12 0xFF) (by decide) (by decide)
  exact ⟨⟨_, built, by decide +kernel,
      fun frag member => (fragments _ built frag member).2⟩,
    cleared, csum, stored, computes, stores, sum⟩

end CocoNet
