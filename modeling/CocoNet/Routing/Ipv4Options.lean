import CocoNet.Routing.Downlink
import CocoNet.Routing.FragmentReassembly

/-!
# IPv4 options under fragmentation

RFC 791 writes the options of a header one after the other and fills up the
last word of the header; an end-of-list octet ends them early.  When a packet
is cut, the first fragment carries all of its options and every later one those
with the copied flag.  The program copies the option area as it stands to every
fragment, which comes to the same only if all options have the flag.
-/

namespace CocoNet

/-! ## The option area -/

/-- An option by its type octet and its data.  The end of the list is no
option, and no-operation is its type octet alone. -/
@[ext]
structure IpOption where
  optionType : UInt8
  data : Bytes
  notEnd : optionType ≠ 0
  noOperation : optionType = 1 → data = []
  fits : data.length + 2 < 256
  deriving DecidableEq

/-- The top bit of the type octet. -/
def IpOption.copied (option : IpOption) : Bool :=
  option.optionType &&& 0x80 != 0

/-- The length octet counts itself and the type octet. -/
def IpOption.encode (option : IpOption) : Bytes :=
  if option.optionType = 1 then [option.optionType]
  else
    option.optionType :: UInt8.ofNat (option.data.length + 2) :: option.data

def encodeOptions (options : List IpOption) : Bytes :=
  options.flatMap IpOption.encode

/-- What may follow the options of an area: nothing, or an end-of-list octet
and whatever stands behind it. -/
def IsPadding (padding : Bytes) : Prop :=
  ∀ first, padding.head? = some first → first = 0

/-- The area consists of the options and padding. -/
def HoldsOptions (area : Bytes) (options : List IpOption) : Prop :=
  ∃ padding, area = encodeOptions options ++ padding ∧ IsPadding padding

/-- The area consists of the options and of padding up to the next multiple of
four bytes. -/
def CarriesOptions (area : Bytes) (options : List IpOption) : Prop :=
  ∃ padding, area = encodeOptions options ++ padding ∧ IsPadding padding ∧
    padding.length < 4 ∧ 4 ∣ area.length

private theorem encodeOptions_cons (option : IpOption) (rest : List IpOption) :
    encodeOptions (option :: rest) = option.encode ++ encodeOptions rest :=
  rfl

private theorem IpOption.encode_of_eq {option : IpOption}
    (alone : option.optionType = 1) :
    option.encode = [option.optionType] :=
  if_pos alone

private theorem IpOption.encode_of_ne {option : IpOption}
    (long : option.optionType ≠ 1) :
    option.encode = option.optionType ::
      UInt8.ofNat (option.data.length + 2) :: option.data :=
  if_neg long

private theorem IpOption.encode_head (option : IpOption) :
    ∃ tail, option.encode = option.optionType :: tail := by
  by_cases alone : option.optionType = 1
  · exact ⟨_, encode_of_eq alone⟩
  · exact ⟨_, encode_of_ne alone⟩

private theorem not_isPadding_encode (option : IpOption) (rest : Bytes) :
    ¬ IsPadding (option.encode ++ rest) := by
  intro padding
  obtain ⟨tail, shape⟩ := option.encode_head
  rw [shape] at padding
  exact option.notEnd (padding _ rfl)

/-- No option is the beginning of another. -/
theorem IpOption.encode_append_inj {first second : IpOption}
    {firstRest secondRest : Bytes}
    (same : first.encode ++ firstRest = second.encode ++ secondRest) :
    first = second ∧ firstRest = secondRest := by
  have sameType : first.optionType = second.optionType := by
    obtain ⟨firstTail, firstShape⟩ := first.encode_head
    obtain ⟨secondTail, secondShape⟩ := second.encode_head
    rw [firstShape, secondShape] at same
    exact (List.cons.inj same).1
  by_cases alone : first.optionType = 1
  · have secondAlone : second.optionType = 1 := sameType ▸ alone
    rw [encode_of_eq alone, encode_of_eq secondAlone] at same
    refine ⟨IpOption.ext sameType ?_, (List.cons.inj same).2⟩
    rw [first.noOperation alone, second.noOperation secondAlone]
  · have secondLong : second.optionType ≠ 1 := sameType ▸ alone
    rw [encode_of_ne alone, encode_of_ne secondLong] at same
    obtain ⟨_, lengthAndData⟩ := List.cons.inj same
    obtain ⟨sameOctet, dataAndRest⟩ := List.cons.inj lengthAndData
    have sameLength : first.data.length = second.data.length := by
      have octets := congrArg UInt8.toNat sameOctet
      have firstFits := first.fits
      have secondFits := second.fits
      rw [UInt8.toNat_ofNat', UInt8.toNat_ofNat'] at octets
      omega
    obtain ⟨sameData, sameRest⟩ := List.append_inj dataAndRest sameLength
    exact ⟨IpOption.ext sameType sameData, sameRest⟩

/-- An area holds the options of one list only. -/
theorem encodeOptions_append_inj {options others : List IpOption}
    {padding otherPadding : Bytes} (isPadding : IsPadding padding)
    (isOtherPadding : IsPadding otherPadding)
    (same : encodeOptions options ++ padding =
      encodeOptions others ++ otherPadding) :
    options = others ∧ padding = otherPadding := by
  induction options generalizing others with
  | nil =>
      cases others with
      | nil =>
          exact ⟨rfl, same⟩
      | cons other rest =>
          change padding = _ at same
          rw [encodeOptions_cons, List.append_assoc] at same
          rw [same] at isPadding
          exact absurd isPadding (not_isPadding_encode other _)
  | cons option rest inductionHypothesis =>
      rw [encodeOptions_cons, List.append_assoc] at same
      cases others with
      | nil =>
          change _ = otherPadding at same
          rw [← same] at isOtherPadding
          exact absurd isOtherPadding (not_isPadding_encode option _)
      | cons other otherRest =>
          rw [encodeOptions_cons, List.append_assoc] at same
          obtain ⟨sameOption, sameRest⟩ := IpOption.encode_append_inj same
          obtain ⟨sameOptions, samePadding⟩ := inductionHypothesis sameRest
          rw [sameOption, sameOptions]
          exact ⟨rfl, samePadding⟩

/-- An area that holds options carries just the copied ones if and only if all
of them are copied and less than a word of padding follows. -/
theorem carriesOptions_copied_iff {area : Bytes} {options : List IpOption}
    (holds : HoldsOptions area options) (aligned : 4 ∣ area.length) :
    CarriesOptions area (options.filter IpOption.copied) ↔
      (∀ option, option ∈ options → option.copied = true) ∧
        area.length < (encodeOptions options).length + 4 := by
  obtain ⟨padding, shape, isPadding⟩ := holds
  have length : area.length =
      (encodeOptions options).length + padding.length := by
    rw [shape, List.length_append]
  constructor
  · intro ⟨other, otherShape, isOther, short, _⟩
    obtain ⟨sameOptions, samePadding⟩ := encodeOptions_append_inj isPadding
      isOther (shape.symm.trans otherShape)
    refine ⟨List.filter_eq_self.1 sameOptions.symm, ?_⟩
    rw [length, samePadding]
    omega
  · intro ⟨copied, short⟩
    rw [List.filter_eq_self.2 copied]
    exact ⟨padding, shape, isPadding, by omega, aligned⟩

/-! ## The options of fragments -/

/-- What RFC 791 asks of the option areas of the fragments of a packet. -/
structure FollowsRfc791 (pkt : Bytes) (options : List IpOption)
    (frags : List Bytes) : Prop where
  first : ∀ frag, frags.head? = some frag →
    Ipv4.options frag = Ipv4.options pkt
  later : ∀ frag, frag ∈ frags.tail →
    CarriesOptions (Ipv4.options frag) (options.filter IpOption.copied)
  ihl : ∀ frag, frag ∈ frags →
    Ipv4.ihl frag = 20 + (Ipv4.options frag).length ∧
      Ipv4.payload frag = frag.drop (20 + (Ipv4.options frag).length)

section Fragments

variable {pkt : Bytes} {mtu : Nat} {respectDf : Bool}
variable (fragmentable : Fragmentable pkt mtu respectDf)
include fragmentable

/-- Every fragment has the option area of the packet. -/
theorem options_of_mem_fragmentsOf {frag : Bytes}
    (member : frag ∈ fragmentsOf pkt mtu) :
    Ipv4.options frag = Ipv4.options pkt := by
  rcases List.mem_map.mp member with ⟨piece, _, same⟩
  subst same
  have sound := fragmentable.sound
  have carries := (fragmentFor_carriesHeader sound piece).options
  rw [length_options sound] at carries
  rw [Ipv4.options, ihl_fragmentFor sound]
  exact carries

private theorem ihl_of_mem_fragmentsOf {frag : Bytes}
    (member : frag ∈ fragmentsOf pkt mtu) :
    Ipv4.ihl frag = 20 + (Ipv4.options frag).length := by
  have sameOptions := options_of_mem_fragmentsOf fragmentable member
  rcases List.mem_map.mp member with ⟨piece, _, same⟩
  subst same
  have sound := fragmentable.sound
  have header := sound.header
  rw [sameOptions, length_options sound, ihl_fragmentFor sound]
  omega

private theorem payload_of_mem_fragmentsOf {frag : Bytes}
    (member : frag ∈ fragmentsOf pkt mtu) :
    Ipv4.payload frag = frag.drop (Ipv4.ihl frag) := by
  have length := (fragmentsOf_lengths fragmentable member).1
  rw [Ipv4.payload, ← length]
  apply List.take_of_length_le
  rw [List.length_drop]

private theorem four_dvd_length_options : 4 ∣ (Ipv4.options pkt).length := by
  have header := fragmentable.header
  rw [length_options fragmentable.sound]
  rw [Ipv4.ihl_eq] at header ⊢
  omega

/-- Of two or more fragments, one is later than the first. -/
theorem followsRfc791_fragmentsOf_iff {options : List IpOption}
    (holds : HoldsOptions (Ipv4.options pkt) options)
    (several : 2 ≤ (fragmentsOf pkt mtu).length) :
    FollowsRfc791 pkt options (fragmentsOf pkt mtu) ↔
      (∀ option, option ∈ options → option.copied = true) ∧
        (Ipv4.options pkt).length < (encodeOptions options).length + 4 := by
  have sameOptions : ∀ frag, frag ∈ fragmentsOf pkt mtu →
      Ipv4.options frag = Ipv4.options pkt :=
    fun _ member => options_of_mem_fragmentsOf fragmentable member
  rw [← carriesOptions_copied_iff holds
    (four_dvd_length_options fragmentable)]
  constructor
  · intro follows
    obtain ⟨frag, isLater⟩ :=
      List.exists_mem_of_length_pos
        (show 0 < (fragmentsOf pkt mtu).tail.length by
          rw [List.length_tail]
          omega)
    have carries := follows.later frag isLater
    rwa [sameOptions frag (List.mem_of_mem_tail isLater)] at carries
  · intro carries
    refine ⟨?_, ?_, ?_⟩
    · intro frag isFirst
      exact sameOptions frag (List.mem_of_head? isFirst)
    · intro frag isLater
      rwa [sameOptions frag (List.mem_of_mem_tail isLater)]
    · intro frag member
      have ihl := ihl_of_mem_fragmentsOf fragmentable member
      have payload := payload_of_mem_fragmentsOf fragmentable member
      rw [ihl] at payload
      exact ⟨ihl, payload⟩

end Fragments

/-- Two or more fragments follow RFC 791 if and only if every option of the
packet is to be copied, no-operations included, and the packet pads its options
no further than to the next word. -/
theorem options_follow_rfc791_iff {pkt : Bytes} {options : List IpOption}
    (holds : HoldsOptions (Ipv4.options pkt) options) {mtu : Nat}
    {respectDf : Bool} {frags : List Bytes}
    (returned : ipv4FragmentIfNeeded pkt mtu respectDf = .ok (some frags))
    (several : 2 ≤ frags.length) :
    FollowsRfc791 pkt options frags ↔
      (∀ option, option ∈ options → option.copied = true) ∧
        (Ipv4.options pkt).length < (encodeOptions options).length + 4 := by
  rcases ipv4FragmentIfNeeded_cases pkt mtu respectDf with
    ⟨fragmentable, cuts⟩ | leaves
  · rw [cuts] at returned
    obtain rfl := Option.some.inj (Except.ok.inj returned)
    exact followsRfc791_fragmentsOf_iff fragmentable holds several
  · rw [leaves] at returned
    cases returned

def routerAlert : IpOption :=
  ⟨0x94, [0, 0], by decide, by decide, by decide⟩

def recordRoute : IpOption :=
  ⟨0x07, [4, 0, 0, 0, 0], by decide, by decide, by decide⟩

/-- A datagram of forty-eight bytes with one option that is copied. -/
def alertedDatagram : Bytes :=
  [0x46, 0, 0, 72, 0, 7, 0, 0, 64, 17, 0, 0, 10, 99, 0, 1, 10, 99, 0, 2,
    0x94, 4, 0, 0] ++ List.replicate 48 0xAB

/-- One with an option that is not, and an octet of padding. -/
def recordedDatagram : Bytes :=
  [0x47, 0, 0, 76, 0, 7, 0, 0, 64, 17, 0, 0, 10, 99, 0, 1, 10, 99, 0, 2,
    0x07, 7, 4, 0, 0, 0, 0, 0] ++ List.replicate 48 0xAB

theorem options_follow_rfc791_router_alert :
    FollowsRfc791 alertedDatagram [routerAlert]
      (fragmentsOf alertedDatagram 68) := by
  have returned : ipv4FragmentIfNeeded alertedDatagram 68 false =
      .ok (some (fragmentsOf alertedDatagram 68)) :=
    (ipv4FragmentIfNeeded_eq 68 false (by decide)).1
      ⟨by decide, by decide, by decide, by decide, by decide, by decide⟩
  have holds : HoldsOptions (Ipv4.options alertedDatagram) [routerAlert] :=
    ⟨[], by decide, by simp [IsPadding]⟩
  exact (options_follow_rfc791_iff holds returned (by decide +kernel)).2
    (by decide)

/-- The second fragment of the datagram carries the option as well. -/
theorem uncopied_option_copied :
    (ipv4FragmentIfNeeded recordedDatagram 68 false).map
        (Option.map (List.map Ipv4.options)) =
      .ok (some [[0x07, 7, 4, 0, 0, 0, 0, 0], [0x07, 7, 4, 0, 0, 0, 0, 0]]) ∧
    ¬ ∀ (pkt : Bytes) (options : List IpOption) (mtu : Nat)
        (respectDf : Bool) (frags : List Bytes),
      HoldsOptions (Ipv4.options pkt) options →
      ipv4FragmentIfNeeded pkt mtu respectDf = .ok (some frags) →
      2 ≤ frags.length → FollowsRfc791 pkt options frags := by
  constructor
  · decide +kernel
  · intro always
    have fragmentable : Fragmentable recordedDatagram 68 false :=
      ⟨by decide, by decide, by decide, by decide, by decide, by decide⟩
    have holds : HoldsOptions (Ipv4.options recordedDatagram) [recordRoute] :=
      ⟨[0], by decide, by simp [IsPadding]⟩
    have several : 2 ≤ (fragmentsOf recordedDatagram 68).length := by
      decide +kernel
    have follows := always _ _ 68 false _ holds
      ((ipv4FragmentIfNeeded_eq 68 false (by decide)).1 fragmentable) several
    have copied :=
      ((followsRfc791_fragmentsOf_iff fragmentable holds several).1
        follows).1 recordRoute (by simp)
    exact absurd copied (by decide)

end CocoNet
