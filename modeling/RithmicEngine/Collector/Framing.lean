import RithmicEngine.Base.BigEndian
/-!
# The length prefix of a message

Every message of the wire protocol is a length in four bytes and a payload. The sender writes
the low 32 bits of the payload's size; the receiver takes a message apart only when it is as
long as its prefix says.
-/
namespace RithmicEngine

open BigEndian

/-- `RithmicClient::frame` and `proto_frame`, from the serialised message on. -/
def frame (payload : List UInt8) : List UInt8 := encode 4 payload.length ++ payload

/-- The payload of a message, or the text of the exception. -/
def stripHeader (wire : List UInt8) : Except String (List UInt8) :=
  if wire.length < 4 then .error "Rithmic: message too short"
  else
    let len := decode (wire.take 4)
    if len ≠ wire.length - 4 then
      .error ("Rithmic: length prefix mismatch (prefix=" ++ toString len ++ " payload=" ++
        toString (wire.length - 4) ++ ")")
    else .ok (wire.drop 4)

theorem frame_length (payload : List UInt8) : (frame payload).length = payload.length + 4 := by
  rw [frame, List.length_append, encode_length, Nat.add_comm]

theorem frame_drop (payload : List UInt8) : (frame payload).drop 4 = payload :=
  List.drop_left' (encode_length 4 payload.length)

/-- A message that is taken apart is the frame of its payload, and so is every frame of a payload
whose size fits into the prefix. -/
theorem stripHeader_eq_ok_iff (wire payload : List UInt8) :
    stripHeader wire = .ok payload ↔ payload.length < 2 ^ 32 ∧ wire = frame payload := by
  constructor
  · intro stripped
    unfold stripHeader at stripped
    dsimp only at stripped
    split_ifs at stripped with short differs
    have four : (wire.take 4).length = 4 := by
      rw [List.length_take]
      omega
    have prefixed : decode (wire.take 4) = wire.length - 4 := not_not.mp differs
    have rest : wire.drop 4 = payload := Except.ok.inj stripped
    have size : payload.length = wire.length - 4 := by rw [← rest, List.length_drop]
    have bound := decode_lt (wire.take 4)
    rw [four] at bound
    constructor
    · rw [size, ← prefixed]
      exact bound
    · have written := encode_decode (wire.take 4)
      rw [four, prefixed, ← size] at written
      rw [frame, written, ← rest, List.take_append_drop]
  · rintro ⟨fits, rfl⟩
    have size := frame_length payload
    have front : (frame payload).take 4 = encode 4 payload.length :=
      List.take_left' (encode_length 4 payload.length)
    have prefixed : decode ((frame payload).take 4) = (frame payload).length - 4 := by
      rw [front, decode_encode, size, Nat.add_sub_cancel]
      exact Nat.mod_eq_of_lt fits
    unfold stripHeader
    dsimp only
    rw [if_neg (by omega), if_neg (not_not.mpr prefixed), frame_drop]

end RithmicEngine
