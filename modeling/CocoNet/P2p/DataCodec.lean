import CocoNet.Library.StreamCodec
import CocoNet.P2p.BatchBuilder

/-!
# The data protocol's framing

Requests and responses go over their streams behind a length of four bytes.
The response side leaves out the empty read and the empty write; that makes no
difference to the stream.
-/

namespace CocoNet

inductive IoError where
  | unexpectedEof
  deriving DecidableEq, Repr

namespace DataCodec

/-! ## The codec

A reader returns what it read and what it left on the stream; a writer adds to
what has been written. -/

def readExact (count : Nat) (io : Bytes) : Except IoError (Bytes × Bytes) :=
  StreamCodec.takeExact .unexpectedEof count io

def writeAll (io bytes : Bytes) : Bytes :=
  io ++ bytes

/-- `u32::from_be_bytes`. -/
def fromBeBytes : Bytes → Nat
  | [first, second, third, fourth] =>
      BigEndian.word32 first second third fourth
  | _ => 0

def readRequest (io : Bytes) : Except IoError (Bytes × Bytes) := do
  let (lenBuf, io) ← readExact 4 io
  let len := fromBeBytes lenBuf
  readExact len io

def readResponse (io : Bytes) : Except IoError (Bytes × Bytes) := do
  let (lenBuf, io) ← readExact 4 io
  let len := fromBeBytes lenBuf
  if len > 0 then readExact len io else .ok ([], io)

def writeRequest (io req : Bytes) : Bytes :=
  let len := req.length % 2 ^ 32
  let io := writeAll io (BigEndian.bytes32 len)
  writeAll io req

def writeResponse (io resp : Bytes) : Bytes :=
  let len := resp.length % 2 ^ 32
  let io := writeAll io (BigEndian.bytes32 len)
  if resp ≠ [] then writeAll io resp else io

/-! ## The length -/

def readLength (io : Bytes) : Except IoError (Nat × Bytes) := do
  let (lenBuf, io) ← readExact 4 io
  .ok (fromBeBytes lenBuf, io)

def lengthBytes (length : Nat) : Bytes :=
  BigEndian.bytes32 (length % 2 ^ 32)

private theorem length_exact :
    StreamCodec.Exact (fun length => length < 2 ^ 32) lengthBytes
      readLength where
  readsBack length small suffix := by
    have bytes : readExact (lengthBytes length).length
        (lengthBytes length ++ suffix) = .ok (lengthBytes length, suffix) :=
      StreamCodec.takeExact_append _ _ _
    change readExact 4 _ = _ at bytes
    rw [readLength, bytes, lengthBytes, Nat.mod_eq_of_lt small]
    change Except.ok (BigEndian.word32 _ _ _ _, suffix) = _
    rw [BigEndian.word32_bytes_of_lt small]
  consumes stream length rest returned := by
    rw [readLength] at returned
    cases read : readExact 4 stream with
    | error failure =>
        rw [read] at returned
        cases returned
    | ok taken =>
        rcases taken with ⟨lenBuf, body⟩
        rw [read] at returned
        obtain ⟨isLength, rfl⟩ := Prod.mk.inj (Except.ok.inj returned)
        obtain ⟨four, shape⟩ := StreamCodec.takeExact_eq_ok read
        match lenBuf, four with
        | [first, second, third, fourth], _ =>
            change BigEndian.word32 first second third fourth = length
              at isLength
            have small := BigEndian.word32_lt first second third fourth
            rw [← isLength, lengthBytes, Nat.mod_eq_of_lt small,
              BigEndian.bytes32_word32]
            exact ⟨small, shape⟩

/-! ## The two sides -/

private theorem readRequest_eq :
    readRequest = StreamCodec.readPrefixed .unexpectedEof readLength := by
  funext io
  rw [readRequest, StreamCodec.readPrefixed, readLength]
  cases readExact 4 io <;> rfl

/-- Reading nothing is the same as not reading. -/
theorem readResponse_eq : readResponse = readRequest := by
  funext io
  rw [readResponse, readRequest]
  cases readExact 4 io with
  | error failure =>
      rfl
  | ok taken =>
      rcases taken with ⟨lenBuf, rest⟩
      change (if fromBeBytes lenBuf > 0 then _ else _) = _
      split
      · rfl
      · rename_i empty
        change _ = readExact (fromBeBytes lenBuf) rest
        rw [Nat.eq_zero_of_not_pos empty]
        rfl

private theorem writeRequest_eq (io req : Bytes) :
    writeRequest io req =
      io ++ StreamCodec.writePrefixed lengthBytes req :=
  List.append_assoc _ _ _

private theorem writeResponse_eq : writeResponse = writeRequest := by
  funext io resp
  rw [writeResponse, writeRequest]
  split
  · rfl
  · rename_i empty
    rw [not_not.1 empty, writeAll, writeAll, List.append_nil]

/-- What framing asks of a writer and a reader: a payload of less than 2^32
bytes is read back and leaves what follows it, a stream that ends inside one
yields an error, and a payload that is read has taken from the stream just what
writing it would have put there. -/
structure FramesExactly (write : Bytes → Bytes)
    (read : Bytes → Except IoError (Bytes × Bytes)) : Prop where
  readsBack : ∀ payload, payload.length < 2 ^ 32 → ∀ suffix,
    read (write payload ++ suffix) = .ok (payload, suffix)
  failsShort : ∀ payload, payload.length < 2 ^ 32 → ∀ stream,
    stream <+: write payload → stream ≠ write payload →
      ∃ failure, read stream = .error failure
  consumes : ∀ stream payload rest, read stream = .ok (payload, rest) →
    stream = write payload ++ rest

theorem request_framesExactly : FramesExactly (writeRequest []) readRequest := by
  have exact := length_exact.prefixed IoError.unexpectedEof
  have writes : writeRequest [] = StreamCodec.writePrefixed lengthBytes := by
    funext req
    rw [writeRequest_eq, List.nil_append]
  rw [writes, readRequest_eq]
  refine ⟨exact.readsBack, ?_, ?_⟩
  · intro payload small stream isPrefix short
    exact exact.fails_short small isPrefix short
  · intro stream payload rest returned
    exact (exact.consumes stream payload rest returned).2

end DataCodec

/-- Requests and responses are framed exactly, wherever on the stream they are
written. -/
theorem data_framing_exact :
    DataCodec.FramesExactly (DataCodec.writeRequest []) DataCodec.readRequest ∧
      DataCodec.FramesExactly (DataCodec.writeResponse [])
        DataCodec.readResponse ∧
      ∀ io payload,
        DataCodec.writeRequest io payload =
            io ++ DataCodec.writeRequest [] payload ∧
          DataCodec.writeResponse io payload =
            io ++ DataCodec.writeResponse [] payload := by
  rw [DataCodec.writeResponse_eq, DataCodec.readResponse_eq]
  refine ⟨DataCodec.request_framesExactly, DataCodec.request_framesExactly, ?_⟩
  intro io payload
  rw [DataCodec.writeRequest_eq, DataCodec.writeRequest_eq, List.nil_append]
  exact ⟨rfl, rfl⟩

end CocoNet
