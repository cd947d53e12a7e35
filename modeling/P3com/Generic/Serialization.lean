/-
# The wire format of the datagram header

`source/p3com/generic/serialization.cpp`, `serialize` and `deserialize` of
`IoxChunkDatagramHeader_t`.  Every field is a 32-bit word, copied with `memcpy` on platforms that
are all little endian.

`deserialize` returns `none` where an `Expects` fails, that is where the buffer is too short: the
process terminates there.
-/
import P3com.Generic.Types
import P3com.Lib.LittleEndian

namespace P3com

open LittleEndian

/-- `maxIoxChunkDatagramHeaderSerializationSize()`: eleven words. -/
def maxIoxChunkDatagramHeaderSerializationSize : Nat := 44

/-- `pushPrimitive` of a 32-bit field: the bytes it appends. -/
def pushPrimitive (elem : UInt32) : List Byte := leBytes 4 elem.toNat

/-- `loadPrimitive` of a 32-bit field: the value at the offset and the offset after it. -/
def loadPrimitive (bytes : List Byte) (offset : Nat) : Option (UInt32 × Nat) :=
  if offset + 4 ≤ bytes.length then
    some (UInt32.ofNat (leValue ((bytes.drop offset).take 4)), offset + 4)
  else
    none

/-- `serialize(IoxChunkDatagramHeader_t)`. -/
def serialize (h : IoxChunkDatagramHeader) : List Byte :=
  pushPrimitive h.serviceHash.w0 ++ pushPrimitive h.serviceHash.w1 ++
  pushPrimitive h.serviceHash.w2 ++ pushPrimitive h.serviceHash.w3 ++
  pushPrimitive h.messageHash ++ pushPrimitive h.submessageCount ++
  pushPrimitive h.submessageOffset ++ pushPrimitive h.submessageSize ++
  pushPrimitive h.userPayloadSize ++ pushPrimitive h.userPayloadAlignment ++
  pushPrimitive h.userHeaderSize

/-- `deserialize(IoxChunkDatagramHeader_t)`: the header and the number of bytes it took. -/
def deserialize (bytes : List Byte) : Option (IoxChunkDatagramHeader × Nat) := do
  let (w0, offset) ← loadPrimitive bytes 0
  let (w1, offset) ← loadPrimitive bytes offset
  let (w2, offset) ← loadPrimitive bytes offset
  let (w3, offset) ← loadPrimitive bytes offset
  let (messageHash, offset) ← loadPrimitive bytes offset
  let (submessageCount, offset) ← loadPrimitive bytes offset
  let (submessageOffset, offset) ← loadPrimitive bytes offset
  let (submessageSize, offset) ← loadPrimitive bytes offset
  let (userPayloadSize, offset) ← loadPrimitive bytes offset
  let (userPayloadAlignment, offset) ← loadPrimitive bytes offset
  let (userHeaderSize, offset) ← loadPrimitive bytes offset
  -- the closing `Expects` on the offset
  guard (offset ≤ maxIoxChunkDatagramHeaderSerializationSize)
  pure ({ serviceHash := ⟨w0, w1, w2, w3⟩, messageHash, submessageCount, submessageOffset,
          submessageSize, userPayloadSize, userPayloadAlignment, userHeaderSize }, offset)

/-! ## Sizes and the round trip -/

@[simp] theorem length_pushPrimitive (elem : UInt32) : (pushPrimitive elem).length = 4 := by
  simp [pushPrimitive]

@[simp] theorem length_serialize (h : IoxChunkDatagramHeader) :
    (serialize h).length = maxIoxChunkDatagramHeaderSerializationSize := by
  simp [serialize, maxIoxChunkDatagramHeaderSerializationSize]

/-- Loading at an offset where a field was pushed gives the field, and leaves what follows. -/
theorem loadPrimitive_pushPrimitive {bytes rest : List Byte} {offset : Nat} {elem : UInt32}
    (h : bytes.drop offset = pushPrimitive elem ++ rest) :
    loadPrimitive bytes offset = some (elem, offset + 4) ∧ bytes.drop (offset + 4) = rest := by
  have hlen : bytes.length - offset = 4 + rest.length := by
    have := congrArg List.length h
    simpa using this
  have hval : leValue (pushPrimitive elem) = elem.toNat := by
    rw [pushPrimitive, leValue_leBytes, Nat.mod_eq_of_lt]
    exact elem.toNat_lt
  constructor
  · rw [loadPrimitive, if_pos (by omega), h, List.take_left' (length_pushPrimitive elem), hval,
      UInt32.ofNat_toNat]
  · rw [← List.drop_drop, h, List.drop_left' (length_pushPrimitive elem)]

theorem bind_of_eq_some {α β : Type} {x : Option α} {a : α} {f : α → Option β} (h : x = some a) :
    (x >>= f) = f a := by
  rw [h]
  rfl

/-- **The header round-trips**, with anything after it. -/
theorem deserialize_serialize (h : IoxChunkDatagramHeader) (rest : List Byte) :
    deserialize (serialize h ++ rest) = some (h, maxIoxChunkDatagramHeaderSerializationSize) := by
  generalize hb : serialize h ++ rest = bytes
  have h0 : bytes.drop 0 = serialize h ++ rest := by rw [hb, List.drop_zero]
  simp only [serialize, List.append_assoc] at h0
  obtain ⟨l0, h1⟩ := loadPrimitive_pushPrimitive h0
  obtain ⟨l1, h2⟩ := loadPrimitive_pushPrimitive h1
  obtain ⟨l2, h3⟩ := loadPrimitive_pushPrimitive h2
  obtain ⟨l3, h4⟩ := loadPrimitive_pushPrimitive h3
  obtain ⟨l4, h5⟩ := loadPrimitive_pushPrimitive h4
  obtain ⟨l5, h6⟩ := loadPrimitive_pushPrimitive h5
  obtain ⟨l6, h7⟩ := loadPrimitive_pushPrimitive h6
  obtain ⟨l7, h8⟩ := loadPrimitive_pushPrimitive h7
  obtain ⟨l8, h9⟩ := loadPrimitive_pushPrimitive h8
  obtain ⟨l9, h10⟩ := loadPrimitive_pushPrimitive h9
  obtain ⟨l10, _⟩ := loadPrimitive_pushPrimitive h10
  exact (bind_of_eq_some l0).trans <| (bind_of_eq_some l1).trans <| (bind_of_eq_some l2).trans <|
    (bind_of_eq_some l3).trans <| (bind_of_eq_some l4).trans <| (bind_of_eq_some l5).trans <|
    (bind_of_eq_some l6).trans <| (bind_of_eq_some l7).trans <| (bind_of_eq_some l8).trans <|
    (bind_of_eq_some l9).trans <| (bind_of_eq_some l10).trans rfl

theorem loadPrimitive_eq_some {bytes : List Byte} {offset : Nat} {r : UInt32 × Nat}
    (h : loadPrimitive bytes offset = some r) : r.2 = offset + 4 ∧ offset + 4 ≤ bytes.length := by
  unfold loadPrimitive at h
  split at h
  · obtain rfl := Option.some.inj h
    exact ⟨rfl, ‹_›⟩
  · cases h

/-- A header that was read took its full serialized size. -/
theorem deserialize_eq_some {bytes : List Byte} {h : IoxChunkDatagramHeader} {n : Nat}
    (hd : deserialize bytes = some (h, n)) :
    n = maxIoxChunkDatagramHeaderSerializationSize ∧ n ≤ bytes.length := by
  -- the loads one after the other, and then the `Expects`
  unfold deserialize at hd
  obtain ⟨⟨w0, o0⟩, e0, hd⟩ := Option.bind_eq_some_iff.mp hd
  obtain ⟨⟨w1, o1⟩, e1, hd⟩ := Option.bind_eq_some_iff.mp hd
  obtain ⟨⟨w2, o2⟩, e2, hd⟩ := Option.bind_eq_some_iff.mp hd
  obtain ⟨⟨w3, o3⟩, e3, hd⟩ := Option.bind_eq_some_iff.mp hd
  obtain ⟨⟨w4, o4⟩, e4, hd⟩ := Option.bind_eq_some_iff.mp hd
  obtain ⟨⟨w5, o5⟩, e5, hd⟩ := Option.bind_eq_some_iff.mp hd
  obtain ⟨⟨w6, o6⟩, e6, hd⟩ := Option.bind_eq_some_iff.mp hd
  obtain ⟨⟨w7, o7⟩, e7, hd⟩ := Option.bind_eq_some_iff.mp hd
  obtain ⟨⟨w8, o8⟩, e8, hd⟩ := Option.bind_eq_some_iff.mp hd
  obtain ⟨⟨w9, o9⟩, e9, hd⟩ := Option.bind_eq_some_iff.mp hd
  obtain ⟨⟨w10, o10⟩, e10, hd⟩ := Option.bind_eq_some_iff.mp hd
  obtain ⟨_, _, hp⟩ := Option.bind_eq_some_iff.mp hd
  have i0 := loadPrimitive_eq_some e0
  have i1 := loadPrimitive_eq_some e1
  have i2 := loadPrimitive_eq_some e2
  have i3 := loadPrimitive_eq_some e3
  have i4 := loadPrimitive_eq_some e4
  have i5 := loadPrimitive_eq_some e5
  have i6 := loadPrimitive_eq_some e6
  have i7 := loadPrimitive_eq_some e7
  have i8 := loadPrimitive_eq_some e8
  have i9 := loadPrimitive_eq_some e9
  have i10 := loadPrimitive_eq_some e10
  have hn : o10 = n := congrArg Prod.snd (Option.some.inj hp)
  unfold maxIoxChunkDatagramHeaderSerializationSize
  omega

/-! ## Every long enough string is a header -/

/-- Four bytes are a field. -/
theorem exists_pushPrimitive {bytes : List Byte} (h : 4 ≤ bytes.length) :
    ∃ elem rest, bytes = pushPrimitive elem ++ rest ∧ bytes.length = 4 + rest.length := by
  have hlen : (bytes.take 4).length = 4 := by simp [h]
  have hlt : leValue (bytes.take 4) < 2 ^ 32 := by
    have := leValue_lt (bytes.take 4)
    rwa [hlen] at this
  refine ⟨UInt32.ofNat (leValue (bytes.take 4)), bytes.drop 4, ?_, ?_⟩
  · have hword := leBytes_leValue (bytes.take 4)
    rw [hlen] at hword
    rw [pushPrimitive, UInt32.toNat_ofNat_of_lt' hlt, hword, List.take_append_drop]
  · rw [List.length_drop]
    omega

theorem exists_serialize {bytes : List Byte}
    (h : maxIoxChunkDatagramHeaderSerializationSize ≤ bytes.length) :
    ∃ hd rest, bytes = serialize hd ++ rest := by
  unfold maxIoxChunkDatagramHeaderSerializationSize at h
  obtain ⟨e0, r0, q0, l0⟩ := exists_pushPrimitive (show 4 ≤ bytes.length by omega)
  obtain ⟨e1, r1, q1, l1⟩ := exists_pushPrimitive (show 4 ≤ r0.length by omega)
  obtain ⟨e2, r2, q2, l2⟩ := exists_pushPrimitive (show 4 ≤ r1.length by omega)
  obtain ⟨e3, r3, q3, l3⟩ := exists_pushPrimitive (show 4 ≤ r2.length by omega)
  obtain ⟨e4, r4, q4, l4⟩ := exists_pushPrimitive (show 4 ≤ r3.length by omega)
  obtain ⟨e5, r5, q5, l5⟩ := exists_pushPrimitive (show 4 ≤ r4.length by omega)
  obtain ⟨e6, r6, q6, l6⟩ := exists_pushPrimitive (show 4 ≤ r5.length by omega)
  obtain ⟨e7, r7, q7, l7⟩ := exists_pushPrimitive (show 4 ≤ r6.length by omega)
  obtain ⟨e8, r8, q8, l8⟩ := exists_pushPrimitive (show 4 ≤ r7.length by omega)
  obtain ⟨e9, r9, q9, l9⟩ := exists_pushPrimitive (show 4 ≤ r8.length by omega)
  obtain ⟨e10, r10, q10, -⟩ := exists_pushPrimitive (show 4 ≤ r9.length by omega)
  refine ⟨⟨⟨e0, e1, e2, e3⟩, e4, e5, e6, e7, e8, e9, e10⟩, r10, ?_⟩
  simp only [serialize, List.append_assoc]
  rw [q0, q1, q2, q3, q4, q5, q6, q7, q8, q9, q10]

/-- A header can be read exactly from the strings that are long enough. -/
theorem isSome_deserialize_iff {bytes : List Byte} : (deserialize bytes).isSome = true ↔
    maxIoxChunkDatagramHeaderSerializationSize ≤ bytes.length := by
  constructor
  · intro h
    obtain ⟨⟨hd, n⟩, hdes⟩ := Option.isSome_iff_exists.mp h
    obtain ⟨rfl, hle⟩ := deserialize_eq_some hdes
    exact hle
  · intro h
    obtain ⟨hd, rest, rfl⟩ := exists_serialize h
    rw [deserialize_serialize]
    rfl

end P3com
