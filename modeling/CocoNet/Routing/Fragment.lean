import CocoNet.Library.Checked
import CocoNet.Library.Framing
import CocoNet.P2p.BatchBuilder

/-!
# Packet inspection and IPv4 fragmentation

The functions of `routing.rs` on the way from the overlay to the TUN device.
Every index, slice and arithmetic operation is checked, so a packet that makes
one of them panic makes the model return a fault.
-/

namespace CocoNet

/-! ## Packet metadata -/

/-- An address as its bytes; the program keeps its text. -/
inductive IpAddr where
  | v4 (octets : Bytes)
  | v6 (octets : Bytes)
  deriving DecidableEq, Repr

inductive IpVersion where
  | ipv4
  | ipv6
  deriving DecidableEq, Repr

structure PacketMeta where
  src : IpAddr
  dst : IpAddr
  version : IpVersion
  proto : UInt8
  deriving DecidableEq, Repr

def parseIpMeta (pkt : Bytes) : Checked (Option PacketMeta) :=
  if pkt.length < 1 then .ok none
  else do
    let first ← Checked.index pkt 0
    match first.toNat >>> 4 with
    | 4 =>
        if pkt.length < 20 then .ok none
        else do
          let ihl ← Checked.mul usizeBound (first.toNat &&& 0x0F) 4
          -- Compared with the length, but the branch is empty.
          let _guard ← Checked.add usizeBound ihl 20
          let proto ← Checked.index pkt 9
          let src ← Checked.slice pkt 12 16
          let dst ← Checked.slice pkt 16 20
          .ok (some ⟨.v4 src, .v4 dst, .ipv4, proto⟩)
    | 6 =>
        if pkt.length < 40 then .ok none
        else do
          let next ← Checked.index pkt 6
          let src ← Checked.slice pkt 8 24
          let dst ← Checked.slice pkt 24 40
          .ok (some ⟨.v6 src, .v6 dst, .ipv6, next⟩)
    | _ => .ok none

/-! ## The header checksum -/

def u32Bound : Nat := 2 ^ 32

/-- `sum` over the two-byte chunks, with `wrapping_add`; a last single byte is
the high byte of its word. -/
def sumWords : Nat → Bytes → Nat
  | sum, high :: low :: rest =>
      sumWords ((sum + BigEndian.word high low) % u32Bound) rest
  | sum, [high] => (sum + high.toNat <<< 8) % u32Bound
  | sum, [] => sum

/-- `while (sum >> 16) != 0`, with fuel for the rounds. -/
def foldCarry : Nat → Nat → Checked Nat
  | 0, _ => .error .outOfFuel
  | fuel + 1, sum =>
      if sum >>> 16 ≠ 0 then do
        let folded ← Checked.add u32Bound (sum &&& 0xFFFF) (sum >>> 16)
        foldCarry fuel folded
      else .ok sum

def carryFuel : Nat := 4

/-- `ipv4_checksum`: the header with its checksum field cleared, and the
checksum. -/
def ipv4Checksum (header : Bytes) : Checked (Bytes × Nat) := do
  let header ← Checked.update header 10 0
  let header ← Checked.update header 11 0
  let sum ← foldCarry carryFuel (sumWords 0 header)
  .ok (header, 0xFFFF - sum % 65536)

/-! ## Fragmentation -/

structure HeaderFields where
  id : Nat
  proto : UInt8
  ttl : UInt8
  srcDst : Bytes
  tos : UInt8
  versionIhl : UInt8
  deriving DecidableEq, Repr

def readHeaderFields (pkt : Bytes) : Checked HeaderFields := do
  let idHigh ← Checked.index pkt 4
  let idLow ← Checked.index pkt 5
  let proto ← Checked.index pkt 9
  let ttl ← Checked.index pkt 8
  let srcDst ← Checked.slice pkt 12 20
  let tos ← Checked.index pkt 1
  let versionIhl ← Checked.index pkt 0
  .ok ⟨BigEndian.word idHigh idLow, proto, ttl, srcDst, tos, versionIhl⟩

/-- The flags and offset field: the more-flag, and the low thirteen bits of the
offset in units of eight bytes. -/
def fragOffField (offset : Nat) (moreFragments : Bool) : Nat :=
  let offUnits := offset / 8 % 65536
  let flags := if moreFragments then 0x2000 else 0x0000
  flags ||| (offUnits &&& 0x1FFF)

/-- The part of a fragment's header before the addresses; the checksum stays
zero. -/
def writeFixedHeader (buf : Bytes) (fields : HeaderFields)
    (fragTotalLen fragOff : Nat) : Checked Bytes := do
  let buf ← Checked.update buf 0 fields.versionIhl
  let buf ← Checked.update buf 1 fields.tos
  let buf ← Checked.copyFromSlice buf 2 4 (BigEndian.bytes fragTotalLen)
  let buf ← Checked.copyFromSlice buf 4 6 (BigEndian.bytes fields.id)
  let buf ← Checked.copyFromSlice buf 6 8 (BigEndian.bytes fragOff)
  let buf ← Checked.update buf 8 fields.ttl
  Checked.update buf 9 fields.proto

def copyOptions (buf pkt : Bytes) (ihl : Nat) : Checked Bytes :=
  if ihl > 20 then do
    let options ← Checked.slice pkt 20 ihl
    Checked.copyFromSlice buf 20 ihl options
  else .ok buf

/-- The part of the payload that the fragment carries. -/
def copyChunk (buf : Bytes) (ihl : Nat) (payload : Bytes)
    (offset fragPayloadLen : Nat) : Checked Bytes := do
  let bufEnd ← Checked.add usizeBound ihl fragPayloadLen
  let payloadEnd ← Checked.add usizeBound offset fragPayloadLen
  let chunk ← Checked.slice payload offset payloadEnd
  Checked.copyFromSlice buf ihl bufEnd chunk

def storeChecksum (buf : Bytes) (ihl : Nat) : Checked Bytes := do
  let header ← Checked.slice buf 0 ihl
  let (header, csum) ← ipv4Checksum header
  let buf ← Checked.copyFromSlice buf 0 ihl header
  Checked.copyFromSlice buf 10 12 (BigEndian.bytes csum)

/-- The body of the loop: one fragment. -/
def buildFragment (pkt : Bytes) (fields : HeaderFields) (ihl : Nat)
    (payload : Bytes) (offset fragPayloadLen : Nat) (moreFragments : Bool) :
    Checked Bytes := do
  let fragTotalLen ← Checked.add usizeBound ihl fragPayloadLen
  let buf ←
    writeFixedHeader (List.replicate fragTotalLen 0) fields fragTotalLen
      (fragOffField offset moreFragments)
  let buf ← Checked.copyFromSlice buf 12 20 fields.srcDst
  let buf ← copyOptions buf pkt ihl
  let buf ← copyChunk buf ihl payload offset fragPayloadLen
  storeChecksum buf ihl

def fragPayloadLen (remaining maxPayload : Nat) : Nat :=
  if remaining > maxPayload then maxPayload else remaining

/-- `while offset < payload.len()`, with fuel for the rounds. -/
def fragmentLoop (pkt : Bytes) (fields : HeaderFields)
    (ihl maxPayload : Nat) (payload : Bytes) :
    Nat → Nat → Checked (List Bytes)
  | 0, _ => .error .outOfFuel
  | fuel + 1, offset =>
      if offset < payload.length then do
        let remaining ← Checked.sub payload.length offset
        let next ←
          Checked.add usizeBound offset (fragPayloadLen remaining maxPayload)
        let frag ←
          buildFragment pkt fields ihl payload offset
            (fragPayloadLen remaining maxPayload)
            (decide (next < payload.length))
        let frags ← fragmentLoop pkt fields ihl maxPayload payload fuel next
        .ok (frag :: frags)
      else .ok []

def alignDown8 (value : Nat) : Nat :=
  value >>> 3 <<< 3

/-- The rest of `ipv4_fragment_if_needed`, once the payload length and the room
for it in a fragment are known. -/
def fragmentPayload (pkt : Bytes) (ihl payloadLen maxPayload : Nat) :
    Checked (Option (List Bytes)) :=
  if payloadLen = 0 then .ok none
  else if ihl > pkt.length then .ok none
  else do
    let payloadEnd ←
      Checked.add usizeBound ihl (min payloadLen (pkt.length - ihl))
    let payload ← Checked.slice pkt ihl payloadEnd
    let fields ← readHeaderFields pkt
    let frags ←
      fragmentLoop pkt fields ihl maxPayload payload (payload.length + 1) 0
    .ok (some frags)

def ipv4FragmentIfNeeded (pkt : Bytes) (mtu : Nat) (respectDf : Bool) :
    Checked (Option (List Bytes)) :=
  if pkt.length ≤ 20 then .ok none
  else do
    let first ← Checked.index pkt 0
    if first.toNat >>> 4 ≠ 4 then .ok none
    else do
      let ihl ← Checked.mul usizeBound (first.toNat &&& 0x0F) 4
      if pkt.length < ihl ∨ ihl < 20 then .ok none
      else if pkt.length ≤ mtu then .ok none
      else do
        let flagsHigh ← Checked.index pkt 6
        let flagsLow ← Checked.index pkt 7
        if (BigEndian.word flagsHigh flagsLow &&& 0x4000 != 0) && respectDf
        then .ok none
        else if mtu ≤ ihl then .ok none
        else do
          let available ← Checked.sub mtu ihl
          if alignDown8 available = 0 then .ok none
          else do
            let totalHigh ← Checked.index pkt 2
            let totalLow ← Checked.index pkt 3
            fragmentPayload pkt ihl (BigEndian.word totalHigh totalLow - ihl)
              (alignDown8 available)

/-! ## From the overlay to the TUN writer -/

/-- `COCONET_RESPECT_DF`: on and off in several spellings, off when it is unset
or anything else. -/
def respectDfOf (setting : Option String) : Bool :=
  match setting with
  | none => false
  | some text =>
      ["1", "true", "yes", "on"].contains (text.map Char.toLower)

/-- The `write_all` calls of `pump_p2p_to_tun` for one packet. -/
def pumpPacket (mtu : Nat) (respectDf : Bool) (pkt : Bytes) :
    Checked (List Bytes) := do
  match ← parseIpMeta pkt with
  | some info =>
      match info.version with
      | .ipv4 => do
          match ← ipv4FragmentIfNeeded pkt mtu respectDf with
          | some frags => .ok frags
          | none => .ok [pkt]
      | .ipv6 => .ok [pkt]
  | none => .ok [pkt]

/-- The `write_all` calls of `pump_p2p_to_tun`, in order, for the packets it
receives. -/
def pumpP2pToTun (mtu : Nat) (respectDf : Bool) :
    List Bytes → Checked (List Bytes)
  | [] => .ok []
  | pkt :: rest => do
      let writes ← pumpPacket mtu respectDf pkt
      let others ← pumpP2pToTun mtu respectDf rest
      .ok (writes ++ others)

end CocoNet
