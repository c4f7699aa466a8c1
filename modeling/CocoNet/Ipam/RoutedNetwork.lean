import CocoNet.Ipam.VirtualIp

/-!
# The virtual address on the interface

`main` writes the derived address and the prefix length as a text, and the
configuration of the interface parses that text and routes its network.  The
derived address is a host address of the configured network, so the network
routed is that network; and every host address is derived from some hash.
-/

namespace CocoNet

/-! ## From the address to the route -/

/-- The text of an address and a prefix length, as `format!` writes it. -/
def cidrText (ip : Ipv4Addr) (prefixLen : Nat) : String :=
  toString ip.a.toNat ++ "." ++ toString ip.b.toNat ++ "." ++
    toString ip.c.toNat ++ "." ++ toString ip.d.toNat ++ "/" ++
    toString prefixLen

section

variable (parse : String → Except String Ipv4Network)

/-- The network that `configure_iface_addr` routes to the interface. -/
def configureIfaceAddr (ipCidr : String) : Except String (Ipv4Addr × Nat) :=
  match parse ipCidr with
  | .error text => .error text
  | .ok net => .ok (net.network, net.prefixLen)

/-- The network that is routed when `main` opens the TUN device. -/
def routedNetwork (xxh3 : Bytes → UInt64) (cidr : String) (peer : PeerId) :
    Checked (Except String (Ipv4Addr × Nat)) := do
  let configured ← fullAddr parse xxh3 cidr peer
  match configured with
  | .error text => .ok (.error text)
  | .ok (virtualIp, prefixLen) =>
      .ok (configureIfaceAddr parse (cidrText virtualIp prefixLen))

end

/-! ## Decimal numerals -/

def numeralValue (digits : List Char) : Nat :=
  digits.foldl (fun value digit => 10 * value + (digit.toNat - 48)) 0

/-- The digits are those of the number, without leading zeros. -/
structure Denotes (digits : List Char) (value : Nat) : Prop where
  nonempty : digits ≠ []
  areDigits : ∀ digit, digit ∈ digits → digit.isDigit = true
  canonical : digits.head? = some '0' → digits = ['0']
  hasValue : numeralValue digits = value

/-- The parser reads an address of the network, written in dotted decimal with
the prefix length after a slash. -/
def ReadsBack (parse : String → Except String Ipv4Network)
    (net : Ipv4Network) : Prop :=
  ∀ ip, net.Contains ip → ∀ a b c d length : List Char,
    Denotes a ip.a.toNat → Denotes b ip.b.toNat → Denotes c ip.c.toNat →
      Denotes d ip.d.toNat → Denotes length net.prefixLen →
        parse (String.ofList (a ++ '.' :: (b ++ '.' :: (c ++ '.' ::
            (d ++ '/' :: length))))) = .ok { net with addr := ip }

private theorem denotes_toDigits {value : Nat} (small : value < 256) :
    Denotes (Nat.toDigits 10 value) value := by
  have each : ∀ value : Fin 256,
      Nat.toDigits 10 value.val ≠ [] ∧
        (Nat.toDigits 10 value.val).all Char.isDigit = true ∧
        ((Nat.toDigits 10 value.val).head? = some '0' →
          Nat.toDigits 10 value.val = ['0']) ∧
        numeralValue (Nat.toDigits 10 value.val) = value.val := by
    decide +kernel
  rcases each ⟨value, small⟩ with ⟨nonempty, digits, canonical, hasValue⟩
  exact ⟨nonempty, List.all_eq_true.1 digits, canonical, hasValue⟩

private theorem cidrText_eq (ip : Ipv4Addr) (prefixLen : Nat) :
    cidrText ip prefixLen =
      String.ofList (Nat.toDigits 10 ip.a.toNat ++ '.' ::
        (Nat.toDigits 10 ip.b.toNat ++ '.' ::
          (Nat.toDigits 10 ip.c.toNat ++ '.' ::
            (Nat.toDigits 10 ip.d.toNat ++ '/' ::
              Nat.toDigits 10 prefixLen)))) := by
  apply String.toList_inj.1
  simp [cidrText]

/-- What the parser is asked to read is the text that `main` writes. -/
theorem ReadsBack.cidrText {parse : String → Except String Ipv4Network}
    {net : Ipv4Network} (readsBack : ReadsBack parse net) {ip : Ipv4Addr}
    (contains : net.Contains ip) :
    parse (cidrText ip net.prefixLen) = .ok { net with addr := ip } := by
  have fits := net.fits
  rw [cidrText_eq]
  exact readsBack ip contains _ _ _ _ _ (denotes_toDigits ip.a.toNat_lt)
    (denotes_toDigits ip.b.toNat_lt) (denotes_toDigits ip.c.toNat_lt)
    (denotes_toDigits ip.d.toNat_lt) (denotes_toDigits (by omega))

/-! ## Host addresses -/

namespace Ipv4Network

/-- An address of the network that is neither the network's own nor the
broadcast address. -/
def IsHost (net : Ipv4Network) (ip : Ipv4Addr) : Prop :=
  net.network.toU32 < ip.toU32 ∧ ip.toU32 < net.broadcast.toU32

theorem IsHost.contains {net : Ipv4Network} {ip : Ipv4Addr}
    (isHost : net.IsHost ip) : net.Contains ip := by
  rcases isHost with ⟨above, below⟩
  rw [toU32_broadcast] at below
  rw [Contains, Cidr.network_eq_iff, Cidr.broadcast_eq, ← toU32_network]
  omega

/-- Every address of a network has the network's own address as its network. -/
theorem network_of_contains {net : Ipv4Network} {ip : Ipv4Addr}
    (contains : net.Contains ip) :
    ({ net with addr := ip } : Ipv4Network).network = net.network :=
  congrArg Ipv4Addr.ofU32 contains

/-- The address of a host, counted from the one after the network's. -/
def hostAddr (net : Ipv4Network) (host : Nat) : Ipv4Addr :=
  .ofU32 (net.network.toU32 + (host + 1))

private theorem toU32_hostAddr {net : Ipv4Network} {host : Nat}
    (isHost : host < net.usableHosts) :
    (net.hostAddr host).toU32 = net.network.toU32 + (host + 1) :=
  Ipv4Addr.toU32_ofU32
    (Nat.lt_trans (host_lt isHost) net.broadcast.toU32_lt)

private theorem isHost_hostAddr {net : Ipv4Network} {host : Nat}
    (isHost : host < net.usableHosts) : net.IsHost (net.hostAddr host) := by
  have below := host_lt isHost
  rw [IsHost, toU32_hostAddr isHost]
  omega

private theorem IsHost.exists_hostAddr {net : Ipv4Network} {ip : Ipv4Addr}
    (isHost : net.IsHost ip) :
    ∃ host, host < net.usableHosts ∧ net.hostAddr host = ip := by
  rcases isHost with ⟨above, below⟩
  rw [toU32_broadcast] at below
  refine ⟨ip.toU32 - net.network.toU32 - 1, ?_, ?_⟩
  · unfold usableHosts
    omega
  · rw [hostAddr]
    have same : net.network.toU32 +
        (ip.toU32 - net.network.toU32 - 1 + 1) = ip.toU32 := by
      omega
    rw [same, Ipv4Addr.ofU32_toU32]

/-- A hash that is the number of a host selects that host. -/
theorem hostOf_ofNat {net : Ipv4Network} {host : Nat}
    (isHost : host < net.usableHosts) :
    net.hostOf (UInt64.ofNat host) = host := by
  have below := host_lt isHost
  have small := net.broadcast.toU32_lt
  have low : (UInt64.ofNat host).toUInt32.toNat = host := by
    rw [UInt64.toNat_toUInt32, UInt64.toNat_ofNat']
    omega
  rw [hostOf, low, Nat.mod_eq_of_lt isHost]

end Ipv4Network

section

variable {parse : String → Except String Ipv4Network}
variable {xxh3 : Bytes → UInt64} {cidr : String} {net : Ipv4Network}

/-- A network with fewer than two host bits has no host to derive. -/
theorem deriveIpFromPeerid_of_narrow (parses : parse cidr = .ok net)
    (narrow : 31 ≤ net.prefixLen) (peer : PeerId) :
    deriveIpFromPeerid parse xxh3 cidr peer =
      .ok (.error "CIDR too small for host allocation (/31 or /32)") := by
  simp only [deriveIpFromPeerid, parses]
  rw [Checked.sub_eq_ok net.fits, Checked.ok_bind, if_pos (by omega)]

/-- Configuring any address of the network routes the network. -/
theorem configureIfaceAddr_eq (readsBack : ReadsBack parse net)
    {ip : Ipv4Addr} (contains : net.Contains ip) :
    configureIfaceAddr parse (cidrText ip net.prefixLen) =
      .ok (net.network, net.prefixLen) := by
  rw [configureIfaceAddr, readsBack.cidrText contains]
  simp only [Ipv4Network.network_of_contains contains]

private theorem routedNetwork_eq (parses : parse cidr = .ok net)
    (wide : net.prefixLen ≤ 30) (readsBack : ReadsBack parse net)
    (peer : PeerId) :
    routedNetwork parse xxh3 cidr peer =
      .ok (.ok (net.network, net.prefixLen)) := by
  have isHost := Ipv4Network.isHost_hostAddr
    (Ipv4Network.hostOf_lt wide (xxh3 peer.toBytes))
  rw [routedNetwork, fullAddr_eq parses wide, Checked.ok_bind]
  exact congrArg Except.ok
    (configureIfaceAddr_eq readsBack isHost.contains)

/-- With a prefix of at most 30, every peer gets a host address of the network,
whatever its hash, and the network of the CIDR is what is routed; every host
address belongs to some hash.  A longer prefix is an error. -/
theorem virtual_ip_usable (parses : parse cidr = .ok net) :
    (net.prefixLen ≤ 30 →
      (∀ peer, ∃ ip,
        deriveIpFromPeerid parse xxh3 cidr peer = .ok (.ok ip) ∧
          net.network.toU32 < ip.toU32 ∧ ip.toU32 < net.broadcast.toU32 ∧
          (ReadsBack parse net →
            routedNetwork parse xxh3 cidr peer =
              .ok (.ok (net.network, net.prefixLen)))) ∧
      ∀ ip : Ipv4Addr, net.network.toU32 < ip.toU32 →
        ip.toU32 < net.broadcast.toU32 →
          ∃ hash, ∀ (hashes : Bytes → UInt64) (peer : PeerId),
            hashes peer.toBytes = hash →
              deriveIpFromPeerid parse hashes cidr peer = .ok (.ok ip)) ∧
    (31 ≤ net.prefixLen → ∀ peer, ∃ text,
      deriveIpFromPeerid parse xxh3 cidr peer = .ok (.error text)) := by
  refine ⟨fun wide => ⟨?_, ?_⟩, ?_⟩
  · intro peer
    have isHost := Ipv4Network.isHost_hostAddr
      (Ipv4Network.hostOf_lt wide (xxh3 peer.toBytes))
    exact ⟨_, deriveIpFromPeerid_eq parses wide peer, isHost.1, isHost.2,
      fun readsBack => routedNetwork_eq parses wide readsBack peer⟩
  · intro ip above below
    obtain ⟨host, isHost, same⟩ :=
      Ipv4Network.IsHost.exists_hostAddr ⟨above, below⟩
    refine ⟨UInt64.ofNat host, fun hashes peer hashed => ?_⟩
    rw [deriveIpFromPeerid_eq parses wide, hashed,
      Ipv4Network.hostOf_ofNat isHost, ← same]
    rfl
  · intro narrow peer
    exact ⟨_, deriveIpFromPeerid_of_narrow parses narrow peer⟩

/-- The numeral at the start of a text, and the rest. -/
def readNumeral (text : List Char) : Nat × List Char :=
  (numeralValue (text.takeWhile Char.isDigit), text.dropWhile Char.isDigit)

/-- A parser of dotted decimal that does not look at the separators. -/
def readCidr (text : String) : Except String Ipv4Network :=
  let a := readNumeral text.toList
  let b := readNumeral (a.2.drop 1)
  let c := readNumeral (b.2.drop 1)
  let d := readNumeral (c.2.drop 1)
  let length := (readNumeral (d.2.drop 1)).1
  if fits : length ≤ 32 then
    .ok ⟨⟨UInt8.ofNat a.1, UInt8.ofNat b.1, UInt8.ofNat c.1, UInt8.ofNat d.1⟩,
      length, fits⟩
  else .error "invalid prefix"

private theorem readNumeral_digits {digits : List Char} {value : Nat}
    (denotes : Denotes digits value) {separator : Char}
    (stops : separator.isDigit = false) (rest : List Char) :
    readNumeral (digits ++ separator :: rest) = (value, separator :: rest) := by
  have areDigits := denotes.areDigits
  rw [readNumeral, List.takeWhile_append_of_pos areDigits,
    List.dropWhile_append_of_pos areDigits]
  simp [stops, denotes.hasValue]

private theorem readNumeral_last {digits : List Char} {value : Nat}
    (denotes : Denotes digits value) : (readNumeral digits).1 = value := by
  have whole := @List.takeWhile_append_of_pos _ Char.isDigit digits []
    denotes.areDigits
  rw [List.append_nil] at whole
  rw [readNumeral, whole, List.takeWhile_nil, List.append_nil,
    denotes.hasValue]

private theorem readCidr_readsBack (net : Ipv4Network) :
    ReadsBack readCidr net := by
  intro ip _ a b c d length isA isB isC isD isLength
  simp only [readCidr, String.toList_ofList,
    readNumeral_digits isA (by decide : Char.isDigit '.' = false),
    readNumeral_digits isB (by decide : Char.isDigit '.' = false),
    readNumeral_digits isC (by decide : Char.isDigit '.' = false),
    readNumeral_digits isD (by decide : Char.isDigit '/' = false),
    List.drop_succ_cons, List.drop_zero, readNumeral_last isLength,
    dif_pos net.fits, UInt8.ofNat_toNat]

theorem virtual_ip_usable_default :
    routedNetwork readCidr knownHashes "10.99.0.0/16"
        (ed25519PeerId firstKey) =
      .ok (.ok (⟨10, 99, 0, 0⟩, 16)) := by
  have parses : readCidr "10.99.0.0/16" = .ok defaultNetwork := by
    decide +kernel
  rcases ((@virtual_ip_usable readCidr knownHashes "10.99.0.0/16"
    defaultNetwork parses).1 (by decide)).1 (ed25519PeerId firstKey) with
      ⟨ip, _, _, _, routes⟩
  exact routes (readCidr_readsBack defaultNetwork)

end

end CocoNet
