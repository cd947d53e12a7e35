/-
# A chunk in memory

`source/p3com/generic/data_reader.cpp`, `takeNext`, with its pointers.  The rest of the development
has a chunk as lists of bytes and a copy as `memcpyAt`.  Here the chunk lies in memory, `takeNext`
gets the addresses of its buffers and of the data, and `neonMemcpy` does the copy.  The theorem is
that the bytes in memory are then those of `Chunk.write`.
-/
import P3com.Generic.DataReader
import P3com.Utility.NeonMemcpy

namespace P3com

open Memory

namespace ChunkMemory

/-- `takeNext`.  A null pointer is `none`. -/
def takeNext (fuel : Nat) (memory : UInt64 → Byte) (h : IoxChunkDatagramHeader) (data : UInt64)
    (userHeaderBuffer userPayloadBuffer : Option UInt64) : Option (UInt64 → Byte) :=
  if h.submessageOffset < h.userHeaderSize then
    match userHeaderBuffer with
    | none => some memory
    | some p =>
      Neon.neonMemcpy fuel memory (p + h.submessageOffset.toUInt64) data
        h.submessageSize.toUInt64
  else
    match userPayloadBuffer with
    | none => some memory
    | some p =>
      Neon.neonMemcpy fuel memory
        (p + h.submessageOffset.toUInt64 - h.userHeaderSize.toUInt64) data
        h.submessageSize.toUInt64

/-- The buffers of the chunk lie at the two pointers, and they do not overlap. -/
structure Lies (memory : UInt64 → Byte) (userHeaderBuffer : Option UInt64)
    (userPayloadBuffer : UInt64) (c : Chunk) : Prop where
  userHeader : Option.Rel (Holds memory) userHeaderBuffer c.userHeader
  userPayload : Holds memory userPayloadBuffer c.userPayload
  apart : ∀ p ∈ userHeaderBuffer, ∀ bytes ∈ c.userHeader,
    Apart p bytes.length userPayloadBuffer c.userPayload.length
  userHeader_le : ∀ bytes ∈ c.userHeader, bytes.length ≤ 2 ^ 64
  userPayload_le : c.userPayload.length ≤ 2 ^ 64

/-- A copy into a buffer. -/
theorem holds_memcpyAt {memory : UInt64 → Byte} {p source : UInt64} {buffer data : List Byte}
    {offset : Nat} (hb : Holds memory p buffer) (hd : Holds memory source data)
    (hfit : offset + data.length ≤ buffer.length) (hlen : buffer.length ≤ 2 ^ 64) :
    Holds (memcpy memory (p + UInt64.ofNat offset) source data.length) p
      (memcpyAt buffer offset data) := by
  intro i b hi
  have hlt : i < buffer.length := by
    simpa using (List.getElem?_eq_some_iff.mp hi).1
  rw [getElem?_memcpyAt_eq hlt] at hi
  split at hi
  · rename_i hr
    have haddr : p + UInt64.ofNat i
        = p + UInt64.ofNat offset + UInt64.ofNat (i - offset) := by
      rw [UInt64.add_assoc, ← UInt64.ofNat_add, Nat.add_sub_cancel' hr.1]
    rw [haddr, memcpy_apply (by omega) (by omega)]
    exact hd _ b hi
  · rename_i hr
    rw [memcpy_of_ne]
    · exact hb i b hi
    · intro j hj heq
      rw [UInt64.add_assoc, ← UInt64.ofNat_add] at heq
      have hnat := congrArg UInt64.toNat (add_left_cancel heq)
      rw [toNat_ofNat (by omega), toNat_ofNat (by omega)] at hnat
      omega

section Refinement

variable {memory : UInt64 → Byte} {data : UInt64} {bytes : List Byte}
  {userHeaderBuffer : Option UInt64} {userPayloadBuffer : UInt64} {c : Chunk}
  {h : IoxChunkDatagramHeader}

/-- The received bytes lie outside the chunk, and there are as many as the header says. -/
structure Received (memory : UInt64 → Byte) (data : UInt64) (bytes : List Byte)
    (userHeaderBuffer : Option UInt64) (userPayloadBuffer : UInt64) (c : Chunk)
    (h : IoxChunkDatagramHeader) : Prop where
  holds : Holds memory data bytes
  length_eq : bytes.length = h.submessageSize.toNat
  apart_userHeader : ∀ p ∈ userHeaderBuffer, ∀ b ∈ c.userHeader,
    Apart data bytes.length p b.length
  apart_userPayload : Apart data bytes.length userPayloadBuffer c.userPayload.length

/-- A copy into the user header leaves the user payload. -/
theorem Lies.write_userHeader {p : UInt64} {b : List Byte} {offset : Nat}
    (hl : Lies memory (some p) userPayloadBuffer c) (hc : c.userHeader = some b)
    (hd : Holds memory data bytes) (hfit : offset + bytes.length ≤ b.length) :
    Lies (memcpy memory (p + UInt64.ofNat offset) data bytes.length) (some p) userPayloadBuffer
      (c.write .userHeader offset bytes) := by
  have hb : Holds memory p b := by
    have hrel := hl.userHeader
    rw [hc] at hrel
    cases hrel with
    | some hb => exact hb
  have hap := hl.apart p rfl b hc
  have hle := hl.userHeader_le b hc
  have hw : (c.write .userHeader offset bytes).userHeader = some (memcpyAt b offset bytes) := by
    simp [Chunk.write, hc]
  refine ⟨?_, ?_, ?_, ?_, hl.userPayload_le⟩
  · rw [hw]
    exact .some (holds_memcpyAt hb hd hfit hle)
  · exact hl.userPayload.memcpy (hap.symm.part hfit)
  · rintro _ ⟨⟩ b' hb'
    obtain rfl : memcpyAt b offset bytes = b' := by simpa [hw] using hb'
    rw [length_memcpyAt]
    exact hap
  · intro b' hb'
    obtain rfl : memcpyAt b offset bytes = b' := by simpa [hw] using hb'
    rw [length_memcpyAt]
    exact hle

/-- A buffer that may be null and is not written. -/
theorem rel_memcpy {destination : UInt64} {n : Nat} {o : Option (List Byte)}
    (hrel : Option.Rel (Holds memory) userHeaderBuffer o)
    (hap : ∀ p ∈ userHeaderBuffer, ∀ b ∈ o, Apart p b.length destination n) :
    Option.Rel (Holds (memcpy memory destination data n)) userHeaderBuffer o := by
  cases hrel with
  | some hb => exact .some (hb.memcpy (hap _ rfl _ rfl))
  | none => exact .none

/-- A copy into the user payload leaves the user header. -/
theorem Lies.write_userPayload {offset : Nat}
    (hl : Lies memory userHeaderBuffer userPayloadBuffer c) (hd : Holds memory data bytes)
    (hfit : offset + bytes.length ≤ c.userPayload.length) :
    Lies (memcpy memory (userPayloadBuffer + UInt64.ofNat offset) data bytes.length)
      userHeaderBuffer userPayloadBuffer (c.write .userPayload offset bytes) := by
  refine ⟨?_, holds_memcpyAt hl.userPayload hd hfit hl.userPayload_le, ?_, hl.userHeader_le, ?_⟩
  · exact rel_memcpy hl.userHeader fun p hp b hb => (hl.apart p hp b hb).part hfit
  · intro p hp b hb
    change Apart p b.length userPayloadBuffer (memcpyAt c.userPayload offset bytes).length
    rw [length_memcpyAt]
    exact hl.apart p hp b hb
  · change (memcpyAt c.userPayload offset bytes).length ≤ 2 ^ 64
    rw [length_memcpyAt]
    exact hl.userPayload_le

/-- The copy of `takeNext`, to an offset of a buffer. -/
theorem neonMemcpy_received {p : UInt64} {n offset : Nat}
    (hlen : bytes.length = h.submessageSize.toNat) (hap : Apart data bytes.length p n)
    (hfit : offset + bytes.length ≤ n) (extra : Nat) :
    Neon.neonMemcpy (bytes.length / 64 + extra) memory (p + UInt64.ofNat offset) data
        h.submessageSize.toUInt64
      = some (memcpy memory (p + UInt64.ofNat offset) data bytes.length) := by
  have hsize : h.submessageSize.toUInt64.toNat = bytes.length := by
    rw [hlen]
    rfl
  have happly : Apart data h.submessageSize.toUInt64.toNat (p + UInt64.ofNat offset)
      h.submessageSize.toUInt64.toNat := by
    rw [hsize]
    exact hap.part hfit
  have heq := neon_neonMemcpy_eq memory _ _ _ happly extra
  rw [Plain.neonMemcpy, hsize] at heq
  exact heq

/-- **`takeNext` in memory is `Chunk.write`.**  When the range fits, the copy ends and the chunk
that then lies at the pointers is the one of the list model. -/
theorem takeNext_lies (hl : Lies memory userHeaderBuffer userPayloadBuffer c)
    (hr : Received memory data bytes userHeaderBuffer userPayloadBuffer c h)
    (hfit : (takeNextRange h).Fits c) (extra : Nat) :
    ∃ memory', takeNext (bytes.length / 64 + extra) memory h data userHeaderBuffer
        (some userPayloadBuffer) = some memory' ∧
      Lies memory' userHeaderBuffer userPayloadBuffer
        (c.write (takeNextRange h).part (takeNextRange h).offset bytes) := by
  obtain ⟨n, hn, hle⟩ := hfit
  by_cases hlt : h.submessageOffset < h.userHeaderSize
  · have hrange : takeNextRange h
        = ⟨.userHeader, h.submessageOffset.toNat, h.submessageSize.toNat⟩ := if_pos hlt
    rw [hrange] at hn hle ⊢
    obtain ⟨b, hb, rfl⟩ := Option.map_eq_some_iff.mp hn
    rw [← hr.length_eq] at hle
    -- the chunk has a user header, so the pointer is not null
    obtain ⟨p, rfl⟩ : ∃ p, userHeaderBuffer = some p := by
      have hrel := hl.userHeader
      rw [hb] at hrel
      cases hrel with
      | some _ => exact ⟨_, rfl⟩
    refine ⟨_, ?_, hl.write_userHeader hb hr.holds hle⟩
    rw [takeNext, if_pos hlt, ← UInt64.ofNat_uInt32ToNat]
    exact neonMemcpy_received hr.length_eq (hr.apart_userHeader p rfl b hb) hle extra
  · have hrange : takeNextRange h = ⟨.userPayload,
        h.submessageOffset.toNat - h.userHeaderSize.toNat, h.submessageSize.toNat⟩ := if_neg hlt
    rw [hrange] at hn hle ⊢
    obtain rfl : c.userPayload.length = n := by simpa [Chunk.bufferSize] using hn
    rw [← hr.length_eq] at hle
    have haddr : userPayloadBuffer + h.submessageOffset.toUInt64 - h.userHeaderSize.toUInt64
        = userPayloadBuffer
          + UInt64.ofNat (h.submessageOffset.toNat - h.userHeaderSize.toNat) := by
      have hoffset : h.userHeaderSize.toNat ≤ h.submessageOffset.toNat := Nat.le_of_not_lt hlt
      rw [UInt64.ofNat_sub hoffset, UInt64.ofNat_uInt32ToNat, UInt64.ofNat_uInt32ToNat,
        add_sub_assoc]
    refine ⟨_, ?_, hl.write_userPayload hr.holds hle⟩
    simp only [takeNext, if_neg hlt, haddr]
    exact neonMemcpy_received hr.length_eq hr.apart_userPayload hle extra

end Refinement

end ChunkMemory

end P3com
