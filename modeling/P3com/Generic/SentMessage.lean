/-
# One message, from its datagrams back to its bytes

A sent message is what `writeSegmented` cuts into datagrams for one transport.  Its bytes are those
of the user header followed by those of the user payload, and a submessage names a range of them
by offset and size.

This module has the two facts about a single message that reassembly rests on.  The submessages
cover the bytes, each within one of the two parts, and each datagram determines its submessage.
And a chunk of the right shape into which `takeNext` has copied every submessage, in any order,
holds exactly the message.
-/
import P3com.Generic.DataWriter
import P3com.Generic.DataReader

namespace P3com

/-- A message and the transport it is cut for.  The header carries the fields that
`writeSegmented` is given. -/
structure SentMessage where
  header : IoxChunkDatagramHeader
  userHeader : List Byte
  userPayload : List Byte
  maxMessageSize : Nat
  userHeaderSize_eq : header.userHeaderSize.toNat = userHeader.length
  userPayloadSize_eq : header.userPayloadSize.toNat = userPayload.length
  nonempty : 0 < userHeader.length + userPayload.length
  header_lt_max : maxIoxChunkDatagramHeaderSerializationSize < maxMessageSize
  fits : userHeader.length + userPayload.length
    + (maxMessageSize - maxIoxChunkDatagramHeaderSerializationSize) ≤ 2 ^ 32

namespace SentMessage

variable (m : SentMessage)

def hash : Hash := m.header.messageHash

/-- The bytes of the message, in the order of their offsets. -/
def bytes : List Byte := m.userHeader ++ m.userPayload

/-- The submessages, in the order in which they are sent. -/
def submessages : List Submessage :=
  match P3com.submessages m.header m.userHeader m.userPayload m.maxMessageSize with
  | none => []
  | some (headerCalls, payloadCalls) => headerCalls ++ payloadCalls

def datagrams : List (List Byte) := m.submessages.map Submessage.datagram

/-! ## The cut -/

/-- What is known of a submessage of the message. -/
structure Piece (q : Submessage) : Prop where
  serviceHash : q.header.serviceHash = m.header.serviceHash
  messageHash : q.header.messageHash = m.hash
  submessageCount : q.header.submessageCount.toNat = m.submessages.length
  userHeaderSize : q.header.userHeaderSize = m.header.userHeaderSize
  userPayloadSize : q.header.userPayloadSize = m.header.userPayloadSize
  pos : 0 < q.size
  size_le : q.size ≤ m.maxMessageSize - maxIoxChunkDatagramHeaderSerializationSize
  stop_le : q.stop ≤ m.bytes.length
  one_part : q.offset < m.userHeader.length → q.stop ≤ m.userHeader.length
  data : q.data = (m.bytes.drop q.offset).take q.size

/-- The submessages cover the message without overlap. -/
theorem cut : (∀ q ∈ m.submessages, m.Piece q) ∧
    (∀ i < m.bytes.length, ∃ q ∈ m.submessages, q.offset ≤ i ∧ i < q.stop) ∧
    m.submessages.Pairwise fun q q' => q.stop ≤ q'.offset := by
  obtain ⟨hc, pc, count, hsub, hcount, hh, hp⟩ := submessages_tiles (h := m.header) m.userHeader
    m.userPayload m.header_lt_max
    (by rw [m.userHeaderSize_eq, m.userPayloadSize_eq]; exact m.fits)
    (by rw [m.userHeaderSize_eq, m.userPayloadSize_eq]; exact m.nonempty)
  have hlist : m.submessages = hc ++ pc := by
    unfold submessages
    rw [hsub]
  have hlen : m.bytes.length = m.userHeader.length + m.userPayload.length := by
    simp [bytes]
  rw [m.userHeaderSize_eq] at hh hp
  rw [m.userPayloadSize_eq] at hp
  have hshared : ∀ q ∈ m.submessages, q.header.serviceHash = m.header.serviceHash ∧
      q.header.messageHash = m.hash ∧ q.header.submessageCount = count ∧
      q.header.userPayloadSize = m.header.userPayloadSize ∧
      q.header.userHeaderSize = m.header.userHeaderSize := by
    intro q hq
    rw [hlist] at hq
    have hmsg : q.header.message = ({ m.header with submessageCount := count } :
        IoxChunkDatagramHeader).message := by
      rcases List.mem_append.mp hq with hq | hq
      · exact hh.message q hq
      · exact hp.message q hq
    obtain ⟨h1, h2, h3, h4, -, h6⟩ := message_eq_iff.mp hmsg
    exact ⟨h1, h2, h3, h4, h6⟩
  refine ⟨fun q hq => ?_, fun i hi => ?_, ?_⟩
  · obtain ⟨h1, h2, h3, h4, h5⟩ := hshared q hq
    have hcnt : q.header.submessageCount.toNat = m.submessages.length := by
      rw [h3, hcount, hlist, List.length_append]
    rw [hlist] at hq
    rcases List.mem_append.mp hq with hq | hq
    · have hstop := hh.le_stop q hq
      refine ⟨h1, h2, hcnt, h5, h4, hh.pos q hq, hh.size_le q hq, by omega, fun _ => hstop, ?_⟩
      rw [hh.data q hq, bytes, Nat.sub_zero]
      have hoff : q.offset ≤ m.userHeader.length := Nat.le_trans (Nat.le_add_right _ _) hstop
      rw [List.drop_append_of_le_length hoff, List.take_append_of_le_length]
      rw [List.length_drop]
      unfold Submessage.stop at hstop
      omega
    · have hstart := hp.start_le q hq
      have hstop := hp.le_stop q hq
      refine ⟨h1, h2, hcnt, h5, h4, hp.pos q hq, hp.size_le q hq, by omega, fun hlt => by omega, ?_⟩
      rw [hp.data q hq, bytes, List.drop_append, List.drop_eq_nil_of_le hstart, List.nil_append]
  · rcases Nat.lt_or_ge i m.userHeader.length with hlt | hge
    · obtain ⟨q, hq, hr⟩ := hh.cover i (Nat.zero_le _) hlt
      exact ⟨q, by rw [hlist]; exact List.mem_append_left _ hq, hr⟩
    · obtain ⟨q, hq, hr⟩ := hp.cover i hge (by omega)
      exact ⟨q, by rw [hlist]; exact List.mem_append_right _ hq, hr⟩
  · rw [hlist]
    refine List.pairwise_append.mpr ⟨hh.ordered, hp.ordered, fun q hq q' hq' => ?_⟩
    exact Nat.le_trans (hh.le_stop q hq) (hp.start_le q' hq')

variable {m}

theorem piece {q : Submessage} (hq : q ∈ m.submessages) : m.Piece q := m.cut.1 q hq

theorem nodup_submessages : m.submessages.Nodup := by
  have hpos : ∀ q ∈ m.submessages, q.offset < q.stop := fun q hq =>
    Nat.lt_add_of_pos_right (piece hq).pos
  refine List.Pairwise.imp_of_mem (fun {q q'} hq _ hle heq => ?_) m.cut.2.2
  have h := hpos q hq
  rw [← heq] at hle
  omega

theorem submessages_ne_nil (m : SentMessage) : m.submessages ≠ [] := by
  have hlen : 0 < m.bytes.length := by
    rw [bytes, List.length_append]
    exact m.nonempty
  obtain ⟨q, hq, -⟩ := m.cut.2.1 0 hlen
  exact List.ne_nil_of_mem hq

/-- A datagram determines its submessage. -/
theorem datagram_injective {q q' : Submessage} (h : q.datagram = q'.datagram) : q = q' := by
  have hd := deserialize_serialize q.header q.data
  have hd' := deserialize_serialize q'.header q'.data
  unfold Submessage.datagram at h
  rw [h, hd'] at hd
  have hheader : q'.header = q.header := congrArg Prod.fst (Option.some.inj hd)
  rw [hheader] at h
  have hdata : q.data = q'.data := List.append_cancel_left h
  cases q
  cases q'
  simp_all

theorem length_data {q : Submessage} (hq : m.Piece q) : q.data.length = q.size := by
  have := hq.stop_le
  rw [hq.data, List.length_take, List.length_drop]
  unfold Submessage.stop at this
  omega

/-- The datagrams pass the size check of `receive`. -/
theorem size_le {q : Submessage} (hq : q ∈ m.submessages) :
    q.size + maxIoxChunkDatagramHeaderSerializationSize < 2 ^ 32 := by
  have hstop := (piece hq).stop_le
  have hfits := m.fits
  have hle := (piece hq).size_le
  have hlen : m.bytes.length = m.userHeader.length + m.userPayload.length := by simp [bytes]
  unfold Submessage.stop at hstop
  unfold maxIoxChunkDatagramHeaderSerializationSize at *
  omega

/-! ## Filling a chunk -/

end SentMessage

/-- The bytes of a chunk, in the order of the offsets of a message. -/
def Chunk.bytes (c : Chunk) : List Byte := c.userHeader.getD [] ++ c.userPayload

namespace SentMessage

variable {m : SentMessage}

/-- The chunk was loaned with the sizes of the message. -/
structure Shape (m : SentMessage) (c : Chunk) : Prop where
  userHeader : c.userHeader.map List.length
    = if m.userHeader = [] then none else some m.userHeader.length
  userPayload : c.userPayload.length = m.userPayload.length

/-- The chunk holds exactly the message. -/
structure Holds (m : SentMessage) (c : Chunk) : Prop where
  userHeader : c.userHeader = if m.userHeader = [] then none else some m.userHeader
  userPayload : c.userPayload = m.userPayload

/-- The chunk agrees with the message on the ranges of the given submessages. -/
def Filled (m : SentMessage) (c : Chunk) (written : List Submessage) : Prop :=
  ∀ q ∈ written, ∀ i, q.offset ≤ i → i < q.stop → c.bytes[i]? = m.bytes[i]?

theorem Shape.length_userHeader {c : Chunk} (h : m.Shape c) :
    (c.userHeader.getD []).length = m.userHeader.length := by
  have hl := h.userHeader
  cases hc : c.userHeader with
  | none =>
    rw [hc] at hl
    split at hl
    · simp_all
    · cases hl
  | some b =>
    rw [hc] at hl
    split at hl
    · cases hl
    · simpa using hl

theorem Shape.length_bytes {c : Chunk} (h : m.Shape c) : c.bytes.length = m.bytes.length := by
  rw [Chunk.bytes, List.length_append, h.length_userHeader, h.userPayload, bytes,
    List.length_append]

/-- **A chunk with every submessage holds the message.** -/
theorem holds_of_filled {c : Chunk} {written : List Submessage} (hs : m.Shape c)
    (hf : m.Filled c written) (hall : ∀ q ∈ m.submessages, q ∈ written) : m.Holds c := by
  have hbytes : c.bytes = m.bytes := by
    apply List.ext_getElem?
    intro i
    rcases Nat.lt_or_ge i m.bytes.length with hlt | hge
    · obtain ⟨q, hq, h1, h2⟩ := m.cut.2.1 i hlt
      exact hf q (hall q hq) i h1 h2
    · rw [List.getElem?_eq_none hge, List.getElem?_eq_none (by rw [hs.length_bytes]; exact hge)]
  obtain ⟨hu, hp⟩ := List.append_inj hbytes hs.length_userHeader
  refine ⟨?_, hp⟩
  have hl := hs.userHeader
  cases hc : c.userHeader with
  | none =>
    rw [hc] at hl
    split at hl
    · rename_i he
      rw [if_pos he]
    · cases hl
  | some b =>
    rw [hc] at hl hu
    split at hl
    · cases hl
    · rename_i he
      rw [if_neg he, ← hu]
      rfl

/-- The data of a submessage are the bytes of its range. -/
theorem Piece.getElem?_data {q : Submessage} (hq : m.Piece q) {i : Nat} (h₁ : q.offset ≤ i)
    (h₂ : i < q.stop) : q.data[i - q.offset]? = m.bytes[i]? := by
  have hlt : i - q.offset < q.size := by
    unfold Submessage.stop at h₂
    omega
  rw [hq.data, List.getElem?_take_of_lt hlt, List.getElem?_drop]
  congr 1
  omega

/-- The user header of a chunk with the shape of a message that has one. -/
theorem Shape.exists_userHeader {c : Chunk} (hs : m.Shape c) (hpos : 0 < m.userHeader.length) :
    ∃ b, c.userHeader = some b ∧ b.length = m.userHeader.length := by
  have hl := hs.userHeader
  rw [if_neg (List.ne_nil_of_length_pos hpos)] at hl
  exact Option.map_eq_some_iff.mp hl

/-- The bytes of a chunk after `takeNext`. -/
theorem getElem?_bytes_write {c : Chunk} {q : Submessage} (hs : m.Shape c) (hq : m.Piece q)
    (i : Nat) : (c.write (takeNextRange q.header).part (takeNextRange q.header).offset
      q.data).bytes[i]? = if q.offset ≤ i ∧ i < q.stop then m.bytes[i]? else c.bytes[i]? := by
  have hlen := length_data hq
  have huh : q.header.userHeaderSize.toNat = m.userHeader.length := by
    rw [hq.userHeaderSize, m.userHeaderSize_eq]
  have hiff : q.header.submessageOffset < q.header.userHeaderSize ↔
      q.offset < m.userHeader.length := by
    rw [UInt32.lt_iff_toNat_lt, huh]
    rfl
  by_cases hlt : q.offset < m.userHeader.length
  · obtain ⟨b, hb, hblen⟩ := hs.exists_userHeader (Nat.zero_lt_of_lt hlt)
    have hstop := hq.one_part hlt
    have hrange : takeNextRange q.header = ⟨.userHeader, q.offset, q.size⟩ := by
      rw [takeNextRange, if_pos (hiff.mpr hlt)]
      rfl
    simp only [hrange, Chunk.write, Chunk.bytes, hb, Option.map_some, Option.getD_some]
    rcases Nat.lt_or_ge i b.length with hi | hi
    · rw [List.getElem?_append_left (by simpa using hi), getElem?_memcpyAt_eq hi, hlen,
        List.getElem?_append_left hi]
      change (if q.offset ≤ i ∧ i < q.stop then _ else _) = _
      split
      · rename_i hr
        exact hq.getElem?_data hr.1 hr.2
      · rfl
    · have hnot : ¬ (q.offset ≤ i ∧ i < q.stop) := fun hr => by omega
      rw [if_neg hnot, List.getElem?_append_right (by simpa using hi), length_memcpyAt,
        List.getElem?_append_right hi]
  · have hoff : m.userHeader.length ≤ q.offset := Nat.le_of_not_lt hlt
    have hrange : takeNextRange q.header
        = ⟨.userPayload, q.offset - m.userHeader.length, q.size⟩ := by
      rw [takeNextRange, if_neg (mt hiff.mp hlt), huh]
      rfl
    have hhl := hs.length_userHeader
    simp only [hrange, Chunk.write, Chunk.bytes]
    rcases Nat.lt_or_ge i (c.userHeader.getD []).length with hi | hi
    · have hnot : ¬ (q.offset ≤ i ∧ i < q.stop) := fun hr => by omega
      rw [if_neg hnot, List.getElem?_append_left hi, List.getElem?_append_left hi]
    · rw [List.getElem?_append_right hi, List.getElem?_append_right hi]
      rcases Nat.lt_or_ge (i - (c.userHeader.getD []).length) c.userPayload.length with hj | hj
      · rw [getElem?_memcpyAt_eq hj, hlen, hhl]
        have hrng : (q.offset - m.userHeader.length ≤ i - m.userHeader.length ∧
            i - m.userHeader.length < q.offset - m.userHeader.length + q.size) ↔
            (q.offset ≤ i ∧ i < q.stop) := by
          unfold Submessage.stop
          omega
        simp only [hrng]
        split
        · rename_i hr
          rw [← hq.getElem?_data hr.1 hr.2]
          congr 1
          omega
        · rfl
      · have hlb := hs.length_bytes
        have hstop := hq.stop_le
        have hbl : c.bytes.length = (c.userHeader.getD []).length + c.userPayload.length := by
          simp [Chunk.bytes]
        have hnot : ¬ (q.offset ≤ i ∧ i < q.stop) := fun hr => by omega
        rw [if_neg hnot, List.getElem?_eq_none hj, List.getElem?_eq_none (by simpa using hj)]

theorem Shape.write {c : Chunk} (hs : m.Shape c) (part : Part) (offset : Nat) (data : List Byte) :
    m.Shape (c.write part offset data) where
  userHeader := by
    have := bufferSize_write c part offset data .userHeader
    simp only [Chunk.bufferSize] at this
    rw [this, hs.userHeader]
  userPayload := by
    have := bufferSize_write c part offset data .userPayload
    simp only [Chunk.bufferSize, Option.some.injEq] at this
    rw [this, hs.userPayload]

/-- **`takeNext` adds its submessage to those that the chunk agrees with.** -/
theorem Filled.write {c : Chunk} {q : Submessage} {written : List Submessage} (hs : m.Shape c)
    (hf : m.Filled c written) (hq : m.Piece q) :
    m.Filled (c.write (takeNextRange q.header).part (takeNextRange q.header).offset q.data)
      (q :: written) := by
  intro q' hq' i h₁ h₂
  rw [getElem?_bytes_write hs hq]
  split
  · rfl
  · rename_i hnot
    rcases List.mem_cons.mp hq' with rfl | hq'
    · exact absurd ⟨h₁, h₂⟩ hnot
    · exact hf q' hq' i h₁ h₂

theorem filled_nil (c : Chunk) : m.Filled c [] := by
  simp [Filled]

end SentMessage

end P3com
