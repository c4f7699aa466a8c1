import CocoNet.Library.Checked
import CocoNet.Library.Framing

/-!
# The batch builder

Small IP packets are collected into one message: a five-byte header `CO`,
version 1 and a big-endian packet count, followed by one frame per packet.  The
count is left zero while packets are added and is written when the batch is
taken.

The buffer carries its capacity, because `remaining_mut` subtracts the length
from it; how much more than asked `reserve` allocates is not observable and the
model takes the least.
-/

namespace CocoNet

/-- A byte string: `Bytes`, `Vec<u8>` and `&[u8]` alike. -/
abbrev Bytes := List UInt8

def usizeBound : Nat := 2 ^ 64

def u16Max : Nat := 65535

/-- A growable buffer, never longer than its capacity. -/
structure BytesMut where
  bytes : Bytes
  capacity : Nat
  within : bytes.length ≤ capacity

namespace BytesMut

def withCapacity (cap : Nat) : BytesMut :=
  ⟨[], cap, Nat.zero_le cap⟩

/-- Make room for `additional` more bytes. -/
def reserve (buf : BytesMut) (additional : Nat) : BytesMut where
  bytes := buf.bytes
  capacity := max buf.capacity (buf.bytes.length + additional)
  within := Nat.le_trans buf.within (Nat.le_max_left _ _)

/-- `put_slice`, which makes room when there is too little. -/
def putSlice (buf : BytesMut) (source : Bytes) : BytesMut where
  bytes := buf.bytes ++ source
  capacity := max buf.capacity (buf.bytes.length + source.length)
  within := by
    rw [List.length_append]
    exact Nat.le_max_right _ _

def putU8 (buf : BytesMut) (value : UInt8) : BytesMut :=
  buf.putSlice [value]

def putU16 (buf : BytesMut) (value : Nat) : BytesMut :=
  buf.putSlice (BigEndian.bytes value)

def setByte (buf : BytesMut) (position : Nat) (value : UInt8) : BytesMut where
  bytes := buf.bytes.set position value
  capacity := buf.capacity
  within := by
    rw [List.length_set]
    exact buf.within

/-- `split`: the bytes, and an empty buffer with the capacity left over. -/
def split (buf : BytesMut) : Bytes × BytesMut :=
  (buf.bytes, ⟨[], buf.capacity - buf.bytes.length, Nat.zero_le _⟩)

@[simp]
theorem bytes_withCapacity (cap : Nat) : (withCapacity cap).bytes = [] :=
  rfl

@[simp]
theorem bytes_reserve (buf : BytesMut) (additional : Nat) :
    (buf.reserve additional).bytes = buf.bytes :=
  rfl

@[simp]
theorem bytes_putSlice (buf : BytesMut) (source : Bytes) :
    (buf.putSlice source).bytes = buf.bytes ++ source :=
  rfl

@[simp]
theorem bytes_putU8 (buf : BytesMut) (value : UInt8) :
    (buf.putU8 value).bytes = buf.bytes ++ [value] :=
  rfl

@[simp]
theorem bytes_putU16 (buf : BytesMut) (value : Nat) :
    (buf.putU16 value).bytes = buf.bytes ++ BigEndian.bytes value :=
  rfl

@[simp]
theorem bytes_setByte (buf : BytesMut) (position : Nat) (value : UInt8) :
    (buf.setByte position value).bytes = buf.bytes.set position value :=
  rfl

end BytesMut

/-- The header length: `C`, `O`, version, count high, count low. -/
def hdrLen : Nat := 5

def magic : Bytes := [0x43, 0x4F]

def batchHeader (count : Nat) : Bytes :=
  magic ++ 0x01 :: BigEndian.bytes count

@[simp]
theorem length_batchHeader (count : Nat) :
    (batchHeader count).length = hdrLen :=
  rfl

def putHeader (buf : BytesMut) : BytesMut :=
  (((buf.putSlice magic).putU8 0x01).putU8 0).putU8 0

@[simp]
theorem bytes_putHeader (buf : BytesMut) :
    (putHeader buf).bytes = buf.bytes ++ batchHeader 0 := by
  simp [putHeader, batchHeader, BigEndian.bytes]

/-- The builder: a buffer that begins with a header, and how many packets it
holds.  The count is a `u16`. -/
structure BatchBuilder where
  buf : BytesMut
  pktCount : Nat
  header : hdrLen ≤ buf.bytes.length
  countFits : pktCount ≤ u16Max

namespace BatchBuilder

/-- `BatchBuilder::with_capacity`. -/
def withCapacity (cap : Nat) : BatchBuilder where
  buf := putHeader (BytesMut.withCapacity (max cap hdrLen))
  pktCount := 0
  header := by simp
  countFits := Nat.zero_le u16Max

def isEmpty (batch : BatchBuilder) : Bool :=
  batch.pktCount == 0

def payloadSize (batch : BatchBuilder) : Nat :=
  batch.buf.bytes.length - hdrLen

/-- The free capacity; `BytesMut.within` rules out underflow. -/
def remainingMut (batch : BatchBuilder) : Nat :=
  batch.buf.capacity - batch.buf.bytes.length

/-- Add one packet, unless the count is already at `u16::MAX`. -/
def add (batch : BatchBuilder) (pkt : Bytes) : BatchBuilder × Bool :=
  if full : batch.pktCount = u16Max then (batch, false)
  else
    let needed := 2 + pkt.length
    let buf :=
      if batch.remainingMut < needed then batch.buf.reserve needed
      else batch.buf
    ({ buf := (buf.putU16 pkt.length).putSlice pkt
       pktCount := batch.pktCount + 1
       header := by
         have kept : buf.bytes = batch.buf.bytes := by
           dsimp only [buf]
           split <;> rfl
         simp only [BytesMut.bytes_putSlice, BytesMut.bytes_putU16, kept,
           List.length_append]
         have := batch.header
         omega
       countFits := by
         have := batch.countFits
         omega }, true)

/-- Take the message and leave a builder with an empty batch.  The count goes
to bytes 3 and 4. -/
def take (batch : BatchBuilder) : BatchBuilder × Bytes :=
  if batch.pktCount = 0 then (batch, [])
  else
    let hi := UInt8.ofNat (batch.pktCount >>> 8)
    let lo := UInt8.ofNat (batch.pktCount &&& 0xFF)
    let buf :=
      if 5 ≤ batch.buf.bytes.length then
        (batch.buf.setByte 3 hi).setByte 4 lo
      else batch.buf
    let out := buf.split
    ({ buf := putHeader out.2
       pktCount := 0
       header := by simp
       countFits := Nat.zero_le u16Max }, out.1)

theorem add_of_full {batch : BatchBuilder}
    (full : batch.pktCount = u16Max) (pkt : Bytes) :
    batch.add pkt = (batch, false) :=
  dif_pos full

/-- With room, the length goes in as two bytes, whatever it is. -/
theorem add_of_room {batch : BatchBuilder}
    (room : batch.pktCount ≠ u16Max) (pkt : Bytes) :
    (batch.add pkt).2 = true ∧
      (batch.add pkt).1.buf.bytes =
        batch.buf.bytes ++ (BigEndian.bytes pkt.length ++ pkt) ∧
      (batch.add pkt).1.pktCount = batch.pktCount + 1 := by
  rw [add, dif_neg room]
  refine ⟨rfl, ?_, rfl⟩
  have kept :
      (if batch.remainingMut < 2 + pkt.length then
          batch.buf.reserve (2 + pkt.length)
        else batch.buf).bytes = batch.buf.bytes := by
    split <;> rfl
  simp only [BytesMut.bytes_putSlice, BytesMut.bytes_putU16, kept,
    List.append_assoc]

end BatchBuilder

end CocoNet
