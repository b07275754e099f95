import Mathlib.Data.List.Basic
import Mathlib.Algebra.Group.Int.Defs
import Mathlib.Algebra.GroupWithZero.Nat

/-!
# Frame codec

One frame is one WebSocket binary message: a type byte, a big-endian `u32`
stream id and an arbitrary payload (`protocol.py`). The stream id is kept as a
`UInt32`, so the range `struct.pack` insists on is part of its type.
-/
namespace Chute

abbrev Bytes := List UInt8

abbrev StreamId := UInt32

/-- The frame types of `protocol.py`. -/
inductive FrameType
  | open_
  | data
  | eof
  | reset
  | windowUpdate
  | goaway
  deriving DecidableEq, Repr

namespace FrameType

def code : FrameType → UInt8
  | open_ => 0x01
  | data => 0x02
  | eof => 0x03
  | reset => 0x04
  | windowUpdate => 0x05
  | goaway => 0x06

/-- The comparison chain of `Mux.run`: the type a wire byte names, if any. -/
def ofCode (c : UInt8) : Option FrameType :=
  if c = 0x01 then some open_
  else if c = 0x02 then some data
  else if c = 0x03 then some eof
  else if c = 0x04 then some reset
  else if c = 0x05 then some windowUpdate
  else if c = 0x06 then some goaway
  else none

@[simp] theorem ofCode_code (t : FrameType) : ofCode t.code = some t := by
  cases t <;> rfl

end FrameType

/-- `struct.pack("!I", n)`. -/
def packU32 (n : UInt32) : Bytes :=
  [UInt8.ofNat (n.toNat / 2 ^ 24), UInt8.ofNat (n.toNat / 2 ^ 16),
   UInt8.ofNat (n.toNat / 2 ^ 8), UInt8.ofNat n.toNat]

/-- `struct.unpack_from("!I", buffer)`: the first four bytes; a shorter buffer
raises `struct.error`. -/
def unpackU32 : Bytes → Option UInt32
  | a :: b :: c :: d :: _ =>
    some (UInt32.ofNat (a.toNat * 2 ^ 24 + b.toNat * 2 ^ 16 + c.toNat * 2 ^ 8 + d.toNat))
  | _ => none

theorem unpackU32_packU32 (n : UInt32) (rest : Bytes) :
    unpackU32 (packU32 n ++ rest) = some n := by
  have bound : n.toNat < 2 ^ 32 := n.toNat_lt
  simp only [packU32, List.cons_append, unpackU32, Option.some.injEq]
  apply UInt32.toNat_inj.mp
  simp only [UInt8.toNat_ofNat', UInt32.toNat_ofNat']
  omega

@[simp] theorem unpackU32_packU32_self (n : UInt32) : unpackU32 (packU32 n) = some n := by
  simpa using unpackU32_packU32 n []

@[simp] theorem length_packU32 (n : UInt32) : (packU32 n).length = 4 := rfl

/-- A payload of exactly four bytes always unpacks. -/
theorem unpackU32_of_length {payload : Bytes} (four : payload.length = 4) :
    ∃ n, unpackU32 payload = some n := by
  match payload, four with
  | [_, _, _, _], _ => exact ⟨_, rfl⟩

/-- `protocol.encode`. -/
def encode (frameType : UInt8) (streamId : StreamId) (payload : Bytes) : Bytes :=
  frameType :: packU32 streamId ++ payload

/-- `protocol.decode`; `none` is the `ValueError` of a message shorter than the
five byte prefix. -/
def decode : Bytes → Option (UInt8 × StreamId × Bytes)
  | frameType :: rest =>
    match unpackU32 rest with
    | some streamId => some (frameType, streamId, rest.drop 4)
    | none => none
  | [] => none

@[simp] theorem decode_encode (frameType : UInt8) (streamId : StreamId) (payload : Bytes) :
    decode (encode frameType streamId payload) = some (frameType, streamId, payload) := by
  simp only [encode, decode, List.cons_append, unpackU32_packU32, Option.some.injEq, Prod.mk.injEq,
    true_and]
  exact List.drop_left' (length_packU32 streamId)

/-- The first four bytes are the packed word. -/
theorem packU32_unpackU32 {bytes : Bytes} {n : UInt32} (unpacked : unpackU32 bytes = some n) :
    packU32 n = bytes.take 4 := by
  match bytes, unpacked with
  | a :: b :: c :: d :: rest, unpacked =>
    cases unpacked
    have first := a.toNat_lt
    have second := b.toNat_lt
    have third := c.toNat_lt
    have fourth := d.toNat_lt
    simp only [packU32, UInt32.toNat_ofNat', List.take_succ_cons, List.take_zero, List.cons.injEq, and_true]
    refine ⟨?_, ?_, ?_, ?_⟩ <;>
      (apply UInt8.toNat_inj.mp; rw [UInt8.toNat_ofNat']; omega)

theorem unpackU32_eq_none_iff (bytes : Bytes) : unpackU32 bytes = none ↔ bytes.length < 4 := by
  constructor
  · intro short
    match bytes, short with
    | [], _ | [_], _ | [_, _], _ | [_, _, _], _ => simp
  · intro short
    match bytes, short with
    | [], _ | [_], _ | [_, _], _ | [_, _, _], _ => rfl

/-- Encoding what was decoded gives the message back. -/
theorem encode_decode {message : Bytes} {frameType : UInt8} {streamId : StreamId} {payload : Bytes}
    (decoded : decode message = some (frameType, streamId, payload)) :
    encode frameType streamId payload = message := by
  cases message with
  | nil => cases decoded
  | cons code rest =>
    simp only [decode] at decoded
    split at decoded
    next word unpacked =>
      cases decoded
      rw [encode, packU32_unpackU32 unpacked, List.cons_append, List.take_append_drop]
    · cases decoded

theorem decode_eq_none_iff (message : Bytes) : decode message = none ↔ message.length < 5 := by
  cases message with
  | nil => exact iff_of_true rfl (by decide)
  | cons code rest =>
    have short := unpackU32_eq_none_iff rest
    simp only [decode, List.length_cons]
    split
    next word unpacked =>
      rw [unpacked] at short
      exact iff_of_false nofun fun small => nomatch short.mpr (by omega)
    next unpacked => exact iff_of_true rfl (by have := short.mp unpacked; omega)

/-- A frame as the senders hand it to `Mux._send`. -/
structure Frame where
  ftype : FrameType
  sid : StreamId
  payload : Bytes
  deriving DecidableEq, Repr

/-- The frames about one stream. -/
def about (sid : StreamId) (frames : List Frame) : List Frame :=
  frames.filter fun f => f.sid = sid

/-- The message `Mux._send` writes for a frame. -/
def Frame.message (f : Frame) : Bytes := encode f.ftype.code f.sid f.payload

end Chute
