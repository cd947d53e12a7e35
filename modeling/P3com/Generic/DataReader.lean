/-
# Writing a received submessage into a chunk

`source/p3com/generic/data_reader.cpp`, `takeNext`.  A loaned chunk has a user payload buffer and,
if it was loaned with one, a user header buffer.  `takeNext` copies the received bytes into one of
the two, at the offset that the datagram header names.
-/
import P3com.Generic.SegmentedMessages

namespace P3com

/-- A loaned chunk.  The lengths of the two buffers are the sizes it was loaned with. -/
structure Chunk where
  publisher : PublisherId
  userHeader : Option (List Byte)
  userPayload : List Byte
deriving DecidableEq

/-- Which of the two buffers of a chunk. -/
inductive Part
  | userHeader
  | userPayload
deriving DecidableEq

/-- `neonMemcpy` to an offset of a buffer.  Bytes that would land beyond the buffer are not
modelled: whether there are any is what `Range.Fits` says. -/
def memcpyAt (buffer : List Byte) (offset : Nat) (data : List Byte) : List Byte :=
  buffer.mapIdx fun i b => if offset ≤ i then data.getD (i - offset) b else b

/-- The range of a chunk that `takeNext` writes. -/
structure Range where
  part : Part
  offset : Nat
  size : Nat
deriving DecidableEq

/-- Where `takeNext` writes: into the user header when the submessage starts below
`userHeaderSize`, and else into the user payload. -/
def takeNextRange (h : IoxChunkDatagramHeader) : Range :=
  if h.submessageOffset < h.userHeaderSize then
    ⟨.userHeader, h.submessageOffset.toNat, h.submessageSize.toNat⟩
  else
    ⟨.userPayload, h.submessageOffset.toNat - h.userHeaderSize.toNat, h.submessageSize.toNat⟩

namespace Chunk

/-- The size of a buffer of the chunk, if it has that buffer. -/
def bufferSize (c : Chunk) : Part → Option Nat
  | .userHeader => c.userHeader.map List.length
  | .userPayload => some c.userPayload.length

/-- Copy into one of the buffers. -/
def write (c : Chunk) (part : Part) (offset : Nat) (data : List Byte) : Chunk :=
  match part with
  | .userHeader => { c with userHeader := c.userHeader.map fun b => memcpyAt b offset data }
  | .userPayload => { c with userPayload := memcpyAt c.userPayload offset data }

end Chunk

/-- The range lies within the buffer of the chunk. -/
def Range.Fits (r : Range) (c : Chunk) : Prop :=
  ∃ n, c.bufferSize r.part = some n ∧ r.offset + r.size ≤ n

@[simp] theorem length_memcpyAt (buffer : List Byte) (offset : Nat) (data : List Byte) :
    (memcpyAt buffer offset data).length = buffer.length := by
  simp [memcpyAt]

theorem getElem?_memcpyAt (buffer : List Byte) (offset : Nat) (data : List Byte) (i : Nat) :
    (memcpyAt buffer offset data)[i]?
      = buffer[i]?.map fun b => if offset ≤ i then data.getD (i - offset) b else b := by
  simp [memcpyAt]

/-- What `memcpyAt` leaves at an index. -/
theorem getElem?_memcpyAt_eq {buffer data : List Byte} {offset i : Nat} (hi : i < buffer.length) :
    (memcpyAt buffer offset data)[i]?
      = if offset ≤ i ∧ i < offset + data.length then data[i - offset]? else buffer[i]? := by
  rw [getElem?_memcpyAt, List.getElem?_eq_getElem hi, Option.map_some]
  by_cases hle : offset ≤ i
  · by_cases hlt : i < offset + data.length
    · have hd : i - offset < data.length := by omega
      rw [if_pos hle, if_pos ⟨hle, hlt⟩, List.getElem?_eq_getElem hd]
      simp [hd]
    · have hd : data.length ≤ i - offset := by omega
      rw [if_pos hle, if_neg (fun h => hlt h.2)]
      simp [hd]
  · rw [if_neg hle, if_neg (fun h => hle h.1)]

@[simp] theorem bufferSize_write (c : Chunk) (part : Part) (offset : Nat) (data : List Byte)
    (p : Part) : (c.write part offset data).bufferSize p = c.bufferSize p := by
  cases part <;> cases p <;> simp [Chunk.write, Chunk.bufferSize, Function.comp_def]

end P3com
