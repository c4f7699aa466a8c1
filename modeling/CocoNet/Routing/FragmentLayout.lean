import CocoNet.Routing.Fragment
import CocoNet.Routing.Ipv4Header

/-!
# What the fragmentation code builds

The loop that writes fragment after fragment into fresh buffers builds one
byte string for each piece of a cut of the payload: the fixed part of the
header, the addresses, the options and the data of the piece.  On the way every
index, slice and copy is shown to be in range, and both loops are shown to end
before their fuel does.
-/

namespace CocoNet

/-! ## The checksum -/

/-- Folding the carry until there is none: the representative between 1 and
65535 modulo 65535, and zero for zero. -/
def endAround (sum : Nat) : Nat :=
  if sum = 0 then 0 else (sum - 1) % 65535 + 1

theorem endAround_lt (sum : Nat) : endAround sum < 65536 := by
  unfold endAround
  split
  · decide
  · have := Nat.mod_lt (sum - 1) (show 0 < 65535 by decide)
    omega

private theorem endAround_of_lt {sum : Nat} (small : sum < 65536) :
    endAround sum = sum := by
  unfold endAround
  split <;> omega

private theorem endAround_fold {sum : Nat} (large : 65536 ≤ sum) :
    endAround (sum % 65536 + sum / 65536) = endAround sum := by
  have positive : sum % 65536 + sum / 65536 ≠ 0 := by omega
  rw [endAround, endAround, if_neg positive, if_neg (by omega)]
  omega

/-- One more round of fuel folds sums of sixteen more bits, as long as the
first round leaves a sum of at most seventeen bits. -/
theorem foldCarry_small {fuel sum : Nat} (small : sum < 65536) :
    foldCarry (fuel + 1) sum = .ok (endAround sum) := by
  have noCarry : ¬ sum >>> 16 ≠ 0 := by
    rw [Nat.shiftRight_eq_div_pow, Nat.div_eq_of_lt small]
    exact fun different => different rfl
  rw [foldCarry, if_neg noCarry, endAround_of_lt small]

private theorem foldCarry_round {fuel sum : Nat} (large : 65536 ≤ sum)
    (bounded : sum < u32Bound) :
    foldCarry (fuel + 1) sum =
      foldCarry fuel (sum % 65536 + sum / 65536) := by
  have carry : sum >>> 16 ≠ 0 := by
    rw [Nat.shiftRight_eq_div_pow]
    omega
  have low : sum &&& 0xFFFF = sum % 65536 :=
    Nat.and_two_pow_sub_one_eq_mod sum 16
  have high : sum >>> 16 = sum / 65536 :=
    Nat.shiftRight_eq_div_pow sum 16
  unfold u32Bound at bounded
  rw [foldCarry, if_pos carry, low, high,
    Checked.add_eq_ok (by unfold u32Bound; omega), Checked.ok_bind]

private theorem foldCarry_eq {sum : Nat} (bounded : sum < u32Bound) :
    foldCarry carryFuel sum = .ok (endAround sum) := by
  unfold carryFuel
  by_cases small : sum < 65536
  · exact foldCarry_small small
  · have large : 65536 ≤ sum := Nat.le_of_not_lt small
    rw [foldCarry_round large bounded, ← endAround_fold large]
    unfold u32Bound at bounded
    generalize foldedShape : sum % 65536 + sum / 65536 = folded
    have foldedBound : folded < 131072 := by omega
    by_cases foldedSmall : folded < 65536
    · exact foldCarry_small foldedSmall
    · have foldedLarge : 65536 ≤ folded := Nat.le_of_not_lt foldedSmall
      rw [foldCarry_round foldedLarge (by unfold u32Bound; omega),
        ← endAround_fold foldedLarge]
      exact foldCarry_small (by omega)

private theorem sumWords_lt (header : Bytes) {sum : Nat}
    (bounded : sum < u32Bound) :
    sumWords sum header < u32Bound := by
  fun_induction sumWords sum header with
  | case1 sum high low rest inductionHypothesis =>
      exact inductionHypothesis (Nat.mod_lt _ (by decide))
  | case2 sum high =>
      exact Nat.mod_lt _ (by decide)
  | case3 sum =>
      exact bounded

def checksumOf (header : Bytes) : Nat :=
  0xFFFF - endAround (sumWords 0 header)

theorem ipv4Checksum_eq {header : Bytes} (long : 12 ≤ header.length) :
    ipv4Checksum header =
      .ok ((header.set 10 0).set 11 0,
        checksumOf ((header.set 10 0).set 11 0)) := by
  rw [ipv4Checksum, Checked.update_eq_ok _ (by omega), Checked.ok_bind,
    Checked.update_eq_ok _ (by rw [List.length_set]; omega), Checked.ok_bind,
    foldCarry_eq (sumWords_lt _ (by decide)), Checked.ok_bind, checksumOf,
    Nat.mod_eq_of_lt (endAround_lt _)]

/-! ## One fragment -/

/-- The first twelve bytes of a fragment's header. -/
def fixedHeader (fields : HeaderFields) (fragTotalLen fragOff csum : Nat) :
    Bytes :=
  [fields.versionIhl, fields.tos,
    UInt8.ofNat (fragTotalLen / 256), UInt8.ofNat fragTotalLen,
    UInt8.ofNat (fields.id / 256), UInt8.ofNat fields.id,
    UInt8.ofNat (fragOff / 256), UInt8.ofNat fragOff,
    fields.ttl, fields.proto,
    UInt8.ofNat (csum / 256), UInt8.ofNat csum]

@[simp]
theorem length_fixedHeader (fields : HeaderFields)
    (fragTotalLen fragOff csum : Nat) :
    (fixedHeader fields fragTotalLen fragOff csum).length = 12 :=
  rfl

def fragmentHeader (fields : HeaderFields) (options : Bytes)
    (fragTotalLen fragOff csum : Nat) : Bytes :=
  fixedHeader fields fragTotalLen fragOff csum ++ fields.srcDst ++ options

def fragment (fields : HeaderFields) (options : Bytes)
    (fragTotalLen fragOff : Nat) (data : Bytes) : Bytes :=
  fragmentHeader fields options fragTotalLen fragOff
      (checksumOf (fragmentHeader fields options fragTotalLen fragOff 0)) ++
    data

private theorem writeFixedHeader_eq (fields : HeaderFields)
    (fragTotalLen fragOff : Nat) (rest : Bytes) :
    writeFixedHeader (List.replicate 12 0 ++ rest) fields fragTotalLen
        fragOff =
      .ok (fixedHeader fields fragTotalLen fragOff 0 ++ rest) := by
  simp [writeFixedHeader, Checked.update, Checked.copyFromSlice,
    List.replicate_succ, fixedHeader, BigEndian.bytes]

private theorem copyOptions_eq {start blank rest pkt : Bytes} {ihl : Nat}
    (startLength : start.length = 20) (blankLength : blank.length = ihl - 20)
    (headerFits : 20 ≤ ihl) (headerInside : ihl ≤ pkt.length) :
    copyOptions (start ++ blank ++ rest) pkt ihl =
      .ok (start ++ (pkt.drop 20).take (ihl - 20) ++ rest) := by
  by_cases hasOptions : ihl > 20
  · have copied :=
      Checked.copyFromSlice_middle start blank rest
        ((pkt.drop 20).take (ihl - 20)) (by
          rw [List.length_take, List.length_drop, blankLength]
          omega)
    have stop : 20 + (ihl - 20) = ihl := by omega
    rw [startLength, blankLength, stop] at copied
    rw [copyOptions, if_pos hasOptions,
      Checked.slice_eq_ok headerFits headerInside, Checked.ok_bind, copied]
  · have noOptions : ihl - 20 = 0 := by omega
    rw [noOptions] at blankLength
    rw [copyOptions, if_neg hasOptions, noOptions, List.take_zero,
      List.length_eq_zero_iff.mp blankLength]

private theorem copyChunk_eq {header blank payload : Bytes}
    {ihl offset fragPayloadLen : Nat}
    (headerLength : header.length = ihl)
    (blankLength : blank.length = fragPayloadLen)
    (headerSmall : ihl ≤ 60) (payloadSmall : payload.length ≤ 65535)
    (inside : offset + fragPayloadLen ≤ payload.length) :
    copyChunk (header ++ blank) ihl payload offset fragPayloadLen =
      .ok (header ++ (payload.drop offset).take fragPayloadLen) := by
  have copied :=
    Checked.copyFromSlice_middle header blank []
      ((payload.drop offset).take fragPayloadLen) (by
        rw [List.length_take, List.length_drop, blankLength]
        omega)
  rw [headerLength, blankLength, List.append_nil, List.append_nil] at copied
  rw [copyChunk, Checked.add_eq_ok (by unfold usizeBound; omega),
    Checked.ok_bind, Checked.add_eq_ok (by unfold usizeBound; omega),
    Checked.ok_bind, Checked.slice_eq_ok (by omega) inside, Checked.ok_bind,
    Nat.add_sub_cancel_left, copied]

private theorem storeChecksum_eq {fields : HeaderFields} {options data : Bytes}
    {fragTotalLen fragOff ihl : Nat}
    (headerLength :
      (fragmentHeader fields options fragTotalLen fragOff 0).length = ihl)
    (long : 20 ≤ ihl) :
    storeChecksum
        (fragmentHeader fields options fragTotalLen fragOff 0 ++ data) ihl =
      .ok (fragment fields options fragTotalLen fragOff data) := by
  subst headerLength
  have header :
      Checked.slice
          (fragmentHeader fields options fragTotalLen fragOff 0 ++ data) 0
          (fragmentHeader fields options fragTotalLen fragOff 0).length =
        .ok (fragmentHeader fields options fragTotalLen fragOff 0) := by
    rw [Checked.slice_eq_ok (Nat.zero_le _) (by simp), List.drop_zero,
      Nat.sub_zero, List.take_left]
  -- The checksum field of the header is already clear.
  have clear :
      ((fragmentHeader fields options fragTotalLen fragOff 0).set 10 0).set
          11 0 =
        fragmentHeader fields options fragTotalLen fragOff 0 :=
    rfl
  have writeBack :
      Checked.copyFromSlice
          (fragmentHeader fields options fragTotalLen fragOff 0 ++ data) 0
          (fragmentHeader fields options fragTotalLen fragOff 0).length
          (fragmentHeader fields options fragTotalLen fragOff 0) =
        .ok (fragmentHeader fields options fragTotalLen fragOff 0 ++
          data) := by
    simpa using
      Checked.copyFromSlice_middle []
        (fragmentHeader fields options fragTotalLen fragOff 0) data
        (fragmentHeader fields options fragTotalLen fragOff 0) rfl
  rw [storeChecksum, header, Checked.ok_bind, ipv4Checksum_eq (by omega),
    clear, Checked.ok_bind]
  simp only [writeBack, Checked.ok_bind]
  simp [Checked.copyFromSlice, fragment, fragmentHeader, fixedHeader,
    BigEndian.bytes]

/-- The body of the loop builds the fragment that carries its part of the
payload. -/
theorem buildFragment_eq {pkt payload : Bytes} {fields : HeaderFields}
    {ihl offset fragPayloadLen : Nat} (moreFragments : Bool)
    (srcDstLength : fields.srcDst.length = 8)
    (headerFits : 20 ≤ ihl) (headerInside : ihl ≤ pkt.length)
    (headerSmall : ihl ≤ 60) (payloadSmall : payload.length ≤ 65535)
    (inside : offset + fragPayloadLen ≤ payload.length) :
    buildFragment pkt fields ihl payload offset fragPayloadLen
        moreFragments =
      .ok (fragment fields ((pkt.drop 20).take (ihl - 20))
        (ihl + fragPayloadLen) (fragOffField offset moreFragments)
        ((payload.drop offset).take fragPayloadLen)) := by
  have blank :
      (List.replicate (ihl + fragPayloadLen) 0 : Bytes) =
        List.replicate 12 0 ++
          (List.replicate 8 0 ++
            (List.replicate (ihl - 20) 0 ++
              List.replicate fragPayloadLen 0)) := by
    simp only [List.replicate_append_replicate]
    congr 1
    omega
  let fixed :=
    fixedHeader fields (ihl + fragPayloadLen)
      (fragOffField offset moreFragments) 0
  let options := (pkt.drop 20).take (ihl - 20)
  have withAddresses :
      Checked.copyFromSlice
          (fixed ++
            (List.replicate 8 0 ++
              (List.replicate (ihl - 20) 0 ++
                List.replicate fragPayloadLen 0)))
          12 20 fields.srcDst =
        .ok (fixed ++ fields.srcDst ++
          (List.replicate (ihl - 20) 0 ++
            List.replicate fragPayloadLen 0)) := by
    rw [← List.append_assoc]
    exact Checked.copyFromSlice_middle fixed (List.replicate 8 0)
      (List.replicate (ihl - 20) 0 ++ List.replicate fragPayloadLen 0)
      fields.srcDst srcDstLength
  have startLength : (fixed ++ fields.srcDst).length = 20 := by
    rw [List.length_append, length_fixedHeader, srcDstLength]
  have headerLength : (fixed ++ fields.srcDst ++ options).length = ihl := by
    rw [List.length_append, startLength, List.length_take, List.length_drop]
    omega
  rw [buildFragment, Checked.add_eq_ok (by unfold usizeBound; omega),
    Checked.ok_bind, blank, writeFixedHeader_eq, Checked.ok_bind,
    withAddresses, Checked.ok_bind, ← List.append_assoc,
    copyOptions_eq startLength List.length_replicate headerFits headerInside,
    Checked.ok_bind,
    copyChunk_eq headerLength List.length_replicate headerSmall payloadSmall
      inside,
    Checked.ok_bind]
  exact storeChecksum_eq headerLength headerFits

/-! ## The loop -/

def fragmentOf (fields : HeaderFields) (options : Bytes) (ihl : Nat)
    (piece : Piece UInt8) : Bytes :=
  fragment fields options (ihl + piece.data.length)
    (fragOffField piece.offset piece.more) piece.data

/-- The loop builds the fragments of the cut of what is left of the payload. -/
theorem fragmentLoop_eq {pkt payload : Bytes} {fields : HeaderFields}
    {ihl maxPayload : Nat} (positive : 0 < maxPayload)
    (srcDstLength : fields.srcDst.length = 8)
    (headerFits : 20 ≤ ihl) (headerInside : ihl ≤ pkt.length)
    (headerSmall : ihl ≤ 60) (payloadSmall : payload.length ≤ 65535)
    {fuel offset : Nat} (enough : payload.length < fuel + offset)
    (inside : offset ≤ payload.length) :
    fragmentLoop pkt fields ihl maxPayload payload fuel offset =
      .ok ((Reassembly.cut maxPayload offset (payload.drop offset)).map
        (fragmentOf fields ((pkt.drop 20).take (ihl - 20)) ihl)) := by
  induction fuel generalizing offset with
  | zero =>
      omega
  | succ fuel inductionHypothesis =>
      rw [fragmentLoop, Reassembly.cut]
      by_cases remains : offset < payload.length
      · have notDone : ¬ (payload.drop offset = [] ∨ maxPayload = 0) := by
          rw [List.drop_eq_nil_iff]
          omega
        rw [if_pos remains, if_neg notDone,
          Checked.sub_eq_ok (by omega), Checked.ok_bind]
        generalize lengthShape :
          fragPayloadLen (payload.length - offset) maxPayload = carried
        have carriedEq :
            carried = min maxPayload (payload.length - offset) := by
          rw [← lengthShape, fragPayloadLen]
          split <;> omega
        have partShape :
            (payload.drop offset).take maxPayload =
              (payload.drop offset).take carried := by
          rw [List.take_eq_take_iff, List.length_drop]
          omega
        have restShape :
            Reassembly.cut maxPayload (offset + maxPayload)
                ((payload.drop offset).drop maxPayload) =
              Reassembly.cut maxPayload (offset + carried)
                (payload.drop (offset + carried)) := by
          by_cases full : maxPayload ≤ payload.length - offset
          · obtain rfl : maxPayload = carried := by omega
            rw [List.drop_drop]
          · rw [List.drop_drop, List.drop_of_length_le (by omega),
              List.drop_of_length_le (by omega), Reassembly.cut_nil,
              Reassembly.cut_nil]
        have moreShape :
            decide (offset + carried < payload.length) =
              decide (maxPayload < (payload.drop offset).length) := by
          rw [List.length_drop]
          exact decide_eq_decide.mpr (by omega)
        have partSize :
            ((payload.drop offset).take carried).length = carried := by
          rw [List.length_take, List.length_drop]
          omega
        rw [Checked.add_eq_ok (by unfold usizeBound; omega), Checked.ok_bind,
          buildFragment_eq _ srcDstLength headerFits headerInside headerSmall
            payloadSmall (by omega),
          Checked.ok_bind, inductionHypothesis (by omega) (by omega),
          Checked.ok_bind, List.map_cons, restShape, partShape, moreShape,
          fragmentOf, partSize]
      · have done : payload.drop offset = [] ∨ maxPayload = 0 := by
          rw [List.drop_eq_nil_iff]
          omega
        rw [if_neg remains, if_pos done]
        rfl

/-! ## The whole function -/

theorem alignDown8_eq (value : Nat) : alignDown8 value = value / 8 * 8 := by
  rw [alignDown8, Nat.shiftLeft_eq, Nat.shiftRight_eq_div_pow]

theorem index_eq_byteAt {pkt : Bytes} {position : Nat}
    (inside : position < pkt.length) :
    Checked.index pkt position = .ok (Ipv4.byteAt pkt position) :=
  Checked.index_eq_getD 0 inside

/-- The fields the code reads, for a packet long enough to have them. -/
def headerFields (pkt : Bytes) : HeaderFields where
  id := Ipv4.identification pkt
  proto := Ipv4.protocol pkt
  ttl := Ipv4.ttl pkt
  srcDst := (pkt.drop 12).take 8
  tos := Ipv4.tos pkt
  versionIhl := Ipv4.byteAt pkt 0

private theorem readHeaderFields_eq {pkt : Bytes} (long : 20 ≤ pkt.length) :
    readHeaderFields pkt = .ok (headerFields pkt) := by
  rw [readHeaderFields, index_eq_byteAt (by omega), Checked.ok_bind,
    index_eq_byteAt (by omega), Checked.ok_bind, index_eq_byteAt (by omega),
    Checked.ok_bind, index_eq_byteAt (by omega), Checked.ok_bind,
    Checked.slice_eq_ok (by omega) long, Checked.ok_bind,
    index_eq_byteAt (by omega), Checked.ok_bind, index_eq_byteAt (by omega),
    Checked.ok_bind]
  rfl

structure Fragmentable (pkt : Bytes) (mtu : Nat) (respectDf : Bool) :
    Prop where
  header : 20 ≤ Ipv4.ihl pkt
  long : 20 < pkt.length
  tooLong : mtu < pkt.length
  room : Ipv4.ihl pkt + 8 ≤ mtu
  carries : Ipv4.ihl pkt < Ipv4.totalLength pkt
  allowed : ¬ (Ipv4.dontFragment pkt = true ∧ respectDf = true)

/-- The fragments: one for each piece of the cut of the payload. -/
def fragmentsOf (pkt : Bytes) (mtu : Nat) : List Bytes :=
  (Reassembly.cut (alignDown8 (mtu - Ipv4.ihl pkt)) 0
      (Ipv4.payload pkt)).map
    (fragmentOf (headerFields pkt) (Ipv4.options pkt) (Ipv4.ihl pkt))

theorem length_srcDst {pkt : Bytes} (long : 20 ≤ pkt.length) :
    (headerFields pkt).srcDst.length = 8 := by
  rw [headerFields, List.length_take, List.length_drop]
  omega

theorem mul_ihl (pkt : Bytes) :
    Checked.mul usizeBound ((Ipv4.byteAt pkt 0).toNat &&& 0x0F) 4 =
      .ok (Ipv4.ihl pkt) := by
  have small : ((Ipv4.byteAt pkt 0).toNat &&& 0x0F) * 4 ≤ 60 :=
    Ipv4.ihl_le pkt
  exact Checked.mul_eq_ok (by unfold usizeBound; omega)

private theorem fragmentPayload_eq {pkt : Bytes} {maxPayload : Nat}
    (positive : 0 < maxPayload) (header : 20 ≤ Ipv4.ihl pkt)
    (inside : Ipv4.ihl pkt ≤ pkt.length) :
    fragmentPayload pkt (Ipv4.ihl pkt)
        (Ipv4.totalLength pkt - Ipv4.ihl pkt) maxPayload =
      .ok (if Ipv4.ihl pkt < Ipv4.totalLength pkt then
          some ((Reassembly.cut maxPayload 0 (Ipv4.payload pkt)).map
            (fragmentOf (headerFields pkt) (Ipv4.options pkt)
              (Ipv4.ihl pkt)))
        else none) := by
  by_cases carries : Ipv4.ihl pkt < Ipv4.totalLength pkt
  · have totalSmall := Ipv4.totalLength_le pkt
    have payloadShape :
        (pkt.drop (Ipv4.ihl pkt)).take
            (min (Ipv4.totalLength pkt - Ipv4.ihl pkt)
              (pkt.length - Ipv4.ihl pkt)) =
          Ipv4.payload pkt := by
      rw [Ipv4.payload, List.take_eq_take_iff, List.length_drop]
      omega
    rw [fragmentPayload, if_neg (by omega), if_neg (by omega),
      Checked.add_eq_ok (by unfold usizeBound; omega), Checked.ok_bind,
      Checked.slice_eq_ok (by omega) (by omega), Checked.ok_bind,
      Nat.add_sub_cancel_left, payloadShape,
      readHeaderFields_eq (by omega), Checked.ok_bind,
      fragmentLoop_eq positive (length_srcDst (by omega)) header inside
        (Ipv4.ihl_le pkt) (Ipv4.length_payload_le pkt) (by omega)
        (Nat.zero_le _),
      Checked.ok_bind, if_pos carries]
    rfl
  · rw [fragmentPayload, if_pos (by omega), if_neg carries]

/-- The function returns, for every input, and returns fragments exactly when
the packet is fragmentable: those of the cut of its payload. -/
theorem ipv4FragmentIfNeeded_eq {pkt : Bytes} (mtu : Nat) (respectDf : Bool)
    (version4 : Ipv4.version pkt = 4) :
    (Fragmentable pkt mtu respectDf →
      ipv4FragmentIfNeeded pkt mtu respectDf =
        .ok (some (fragmentsOf pkt mtu))) ∧
    (¬ Fragmentable pkt mtu respectDf →
      ipv4FragmentIfNeeded pkt mtu respectDf = .ok none) := by
  have alignZero :
      alignDown8 (mtu - Ipv4.ihl pkt) = 0 ↔ mtu - Ipv4.ihl pkt < 8 := by
    rw [alignDown8_eq]
    omega
  rw [ipv4FragmentIfNeeded]
  by_cases short : pkt.length ≤ 20
  · rw [if_pos short]
    exact ⟨fun fragmentable => absurd fragmentable.long (by omega),
      fun _ => rfl⟩
  have nibble : (Ipv4.byteAt pkt 0).toNat >>> 4 = 4 := version4
  rw [if_neg short, index_eq_byteAt (by omega), Checked.ok_bind,
    if_neg (fun different => different nibble), mul_ihl, Checked.ok_bind]
  by_cases badHeader : pkt.length < Ipv4.ihl pkt ∨ Ipv4.ihl pkt < 20
  · rw [if_pos badHeader]
    refine ⟨fun fragmentable => ?_, fun _ => rfl⟩
    have := fragmentable.header
    have := fragmentable.room
    have := fragmentable.tooLong
    omega
  rw [if_neg badHeader]
  by_cases fitsMtu : pkt.length ≤ mtu
  · rw [if_pos fitsMtu]
    exact ⟨fun fragmentable => absurd fragmentable.tooLong (by omega),
      fun _ => rfl⟩
  rw [if_neg fitsMtu, index_eq_byteAt (by omega), Checked.ok_bind,
    index_eq_byteAt (by omega), Checked.ok_bind, ← Ipv4.flagsFragment,
    ← Ipv4.dontFragment]
  by_cases dfRespected : (Ipv4.dontFragment pkt && respectDf) = true
  · rw [if_pos dfRespected]
    refine ⟨fun fragmentable => ?_, fun _ => rfl⟩
    exact absurd (Bool.and_eq_true_iff.mp dfRespected) fragmentable.allowed
  rw [if_neg dfRespected]
  by_cases noRoom : mtu ≤ Ipv4.ihl pkt
  · rw [if_pos noRoom]
    refine ⟨fun fragmentable => ?_, fun _ => rfl⟩
    have := fragmentable.room
    omega
  rw [if_neg noRoom, Checked.sub_eq_ok (by omega), Checked.ok_bind]
  by_cases noUnit : alignDown8 (mtu - Ipv4.ihl pkt) = 0
  · rw [if_pos noUnit]
    refine ⟨fun fragmentable => ?_, fun _ => rfl⟩
    have := fragmentable.room
    omega
  rw [if_neg noUnit, index_eq_byteAt (by omega), Checked.ok_bind,
    index_eq_byteAt (by omega), Checked.ok_bind, ← Ipv4.totalLength,
    fragmentPayload_eq (Nat.pos_of_ne_zero noUnit) (by omega) (by omega)]
  constructor
  · intro fragmentable
    rw [if_pos fragmentable.carries]
    rfl
  · intro notFragmentable
    rw [if_neg]
    intro carries
    exact notFragmentable
      { header := by omega
        long := by omega
        tooLong := by omega
        room := by omega
        carries := carries
        allowed := by rwa [Bool.and_eq_true_iff] at dfRespected }

theorem ipv4FragmentIfNeeded_of_version_ne {pkt : Bytes} (mtu : Nat)
    (respectDf : Bool) (other : Ipv4.version pkt ≠ 4) :
    ipv4FragmentIfNeeded pkt mtu respectDf = .ok none := by
  rw [ipv4FragmentIfNeeded]
  by_cases short : pkt.length ≤ 20
  · rw [if_pos short]
  · have nibble : (Ipv4.byteAt pkt 0).toNat >>> 4 ≠ 4 := other
    rw [if_neg short, index_eq_byteAt (by omega), Checked.ok_bind,
      if_pos nibble]

end CocoNet
