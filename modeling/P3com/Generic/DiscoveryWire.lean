/-
# The wire format of the discovery message

`source/p3com/generic/serialization.cpp`, `serialize` and `deserialize` of `PubSubInfo_t`.  The
format is a 64-bit count, three NUL-terminated strings for each subscriber, and the trailing
fields; there are no length prefixes and no padding.

The decoder gets a pointer and a size.  `loadString` scans for the NUL first and compares with the
size afterwards, so it may look at bytes that are not part of the datagram: leftovers in the
receive buffer.  For this reason the buffer is the whole memory from the pointer on, and the
datagram its first `size` bytes.

Everything about the decoder follows from one exact statement, `deserialize_eq_some_iff`: it
returns a message and an offset if and only if the datagram begins with a well-formed *frame* of
that message and that length, a property in which the memory after the datagram does not occur.

Offsets stay below ten thousand (`maxPubSubInfoSerializationSize`), so the 64-bit sums of the source
do not wrap and the final conversion to 32 bits loses nothing.
-/
import P3com.Generic.Serialization

namespace P3com.DiscoveryWire

open LittleEndian

/-! ## Encoding -/

/-- `maxPubSubInfoSerializationSize()`. -/
def maxPubSubInfoSerializationSize : Nat :=
  8 + maxTopics * (3 * (idStringCapacity + 1)) + 8 + 4 + 4 + 1

/-- `pushPrimitive` of a field of the given number of bytes. -/
def pushPrimitive (width value : Nat) : List Byte := leBytes width value

/-- `pushString`: the characters of the string and the terminating NUL. -/
def pushString (str : IdString) : List Byte := str.bytes ++ [0]

/-- The body of the loop over the subscribers. -/
def pushService (service : ServiceDescription) : List Byte :=
  pushString service.serviceID ++ pushString service.instanceID ++ pushString service.eventID

/-- What `serialize(PubSubInfo_t)` has written when it comes to its `Expects`. -/
def push (info : PubSubInfo) : List Byte :=
  pushPrimitive 8 info.userSubscribers.size ++
    (info.userSubscribers.toList.flatMap pushService ++
      (pushPrimitive 8 info.gatewayBitset.toNat ++ (pushPrimitive 4 info.gatewayHash.toNat ++
        (pushPrimitive 4 info.infoHash.toNat ++ pushPrimitive 1 info.isTermination.toNat))))

/-- `serialize(PubSubInfo_t)`: the bytes and the offset returned. -/
def serialize (info : PubSubInfo) : Option (List Byte × Nat) := do
  let bytes := push info
  guard (bytes.length ≤ maxPubSubInfoSerializationSize)
  pure (bytes, bytes.length)

/-- `serialize(IoxChunkDatagramHeader_t)` with its closing `Expects`: the bytes and the offset
returned. -/
def serializeHeader (h : IoxChunkDatagramHeader) : Option (List Byte × Nat) := do
  let bytes := P3com.serialize h
  guard (bytes.length ≤ maxIoxChunkDatagramHeaderSerializationSize)
  pure (bytes, bytes.length)

/-! ## Decoding -/

/-- The memory from the pointer on. -/
abbrev Memory := Nat → Byte

/-- The bytes at an offset. -/
def readBytes (mem : Memory) (offset n : Nat) : List Byte :=
  (List.range n).map fun i => mem (offset + i)

/-- `strnlen`: the number of characters before the first NUL, or the limit. -/
def strnlen (mem : Memory) : Nat → Nat → Nat
  | _, 0 => 0
  | offset, limit + 1 => if mem offset = 0 then 0 else strnlen mem (offset + 1) limit + 1

/-- `IdString_t::unsafe_assign`: it scans at most one character beyond the capacity, and fails when
it finds no NUL there. -/
def unsafeAssign (mem : Memory) (offset : Nat) : Option IdString :=
  if h : strnlen mem offset (idStringCapacity + 1) ≤ idStringCapacity then
    some ⟨readBytes mem offset (strnlen mem offset (idStringCapacity + 1)), by
      simpa [readBytes] using h⟩
  else
    none

section

variable (mem : Memory) (size : Nat)

/-- `loadPrimitive` of a field of the given number of bytes. -/
def loadPrimitive (width offset : Nat) : Option (Nat × Nat) :=
  if offset + width ≤ size then
    some (leValue (readBytes mem offset width), offset + width)
  else
    none

/-- `loadString`. -/
def loadString (offset : Nat) : Option (IdString × Nat) := do
  let str ← unsafeAssign mem offset
  guard (offset + str.bytes.length + 1 ≤ size)
  pure (str, offset + str.bytes.length + 1)

/-- The body of the loop over the subscribers. -/
def loadService (offset : Nat) : Option (ServiceDescription × Nat) := do
  let (serviceStr, offset) ← loadString mem size offset
  let (instanceStr, offset) ← loadString mem size offset
  let (eventStr, offset) ← loadString mem size offset
  pure (⟨serviceStr, instanceStr, eventStr⟩, offset)

/-- The loop over the subscribers. -/
def loadServices : Nat → Nat → Option (List ServiceDescription × Nat)
  | 0, offset => some ([], offset)
  | n + 1, offset => do
    let (service, offset) ← loadService mem size offset
    let (services, offset) ← loadServices n offset
    pure (service :: services, offset)

/-- `deserialize(PubSubInfo_t)`: the message and the offset returned, `none` where an `Expects`
fails.  Any byte but 0 in the last place is read as `true`. -/
def deserialize : Option (PubSubInfo × Nat) := do
  let (userSubscribersSize, offset) ← loadPrimitive mem size 8 0
  guard (userSubscribersSize ≤ maxTopics)
  let (services, offset) ← loadServices mem size userSubscribersSize offset
  let (gatewayBitset, offset) ← loadPrimitive mem size 8 offset
  let (gatewayHash, offset) ← loadPrimitive mem size 4 offset
  let (infoHash, offset) ← loadPrimitive mem size 4 offset
  let (isTermination, offset) ← loadPrimitive mem size 1 offset
  guard (offset ≤ maxPubSubInfoSerializationSize)
  pure ({ userSubscribers := CxxVector.empty.pushAll services
          gatewayBitset := BitVec.ofNat 64 gatewayBitset
          gatewayHash := UInt32.ofNat gatewayHash
          infoHash := UInt32.ofNat infoHash
          isTermination := isTermination ≠ 0 }, offset)

end

/-! ## What the decoder reads -/

variable {mem : Memory} {size offset offset' : Nat}

@[simp] theorem length_readBytes (mem : Memory) (offset n : Nat) :
    (readBytes mem offset n).length = n := by
  simp [readBytes]

theorem readBytes_add (mem : Memory) (offset m n : Nat) :
    readBytes mem offset (m + n) = readBytes mem offset m ++ readBytes mem (offset + m) n := by
  simp [readBytes, List.range_add, Nat.add_assoc]

/-- The bytes stand at the offset, inside the datagram, and end at the second offset. -/
structure Reads (mem : Memory) (size offset : Nat) (bytes : List Byte) (offset' : Nat) : Prop where
  stop : offset' = offset + bytes.length
  inside : offset' ≤ size
  bytes : readBytes mem offset bytes.length = bytes

theorem reads_nil : Reads mem size offset [] offset' ↔ offset' = offset ∧ offset' ≤ size := by
  constructor
  · rintro ⟨rfl, hin, -⟩
    exact ⟨rfl, hin⟩
  · rintro ⟨rfl, hin⟩
    exact ⟨rfl, hin, rfl⟩

/-- One string after the other. -/
theorem reads_append {a b : List Byte} :
    Reads mem size offset (a ++ b) offset' ↔
      ∃ middle, Reads mem size offset a middle ∧ Reads mem size middle b offset' := by
  constructor
  · rintro ⟨rfl, hin, hbytes⟩
    rw [List.length_append] at hin hbytes
    rw [readBytes_add] at hbytes
    obtain ⟨ha, hb⟩ := List.append_inj hbytes (by simp)
    refine ⟨offset + a.length, ⟨rfl, by omega, ha⟩, ?_, ?_, hb⟩
    · rw [List.length_append, Nat.add_assoc]
    · rw [List.length_append]
      exact hin
  · rintro ⟨middle, ⟨rfl, -, ha⟩, rfl, hin, hb⟩
    refine ⟨?_, hin, ?_⟩
    · rw [List.length_append, Nat.add_assoc]
    · rw [List.length_append, readBytes_add, ha, hb]

/-- At offset 0, the datagram begins with the bytes. -/
theorem reads_zero {bytes : List Byte} : Reads mem size 0 bytes offset' ↔
    offset' = bytes.length ∧ ∃ rest, readBytes mem 0 size = bytes ++ rest := by
  constructor
  · rintro ⟨rfl, hin, hbytes⟩
    rw [Nat.zero_add] at hin ⊢
    refine ⟨rfl, readBytes mem bytes.length (size - bytes.length), ?_⟩
    have hsplit := readBytes_add mem 0 bytes.length (size - bytes.length)
    rwa [Nat.add_sub_cancel' hin, hbytes, Nat.zero_add] at hsplit
  · rintro ⟨rfl, rest, heq⟩
    have hlen : size = bytes.length + rest.length := by
      have := congrArg List.length heq
      simpa using this
    rw [hlen, readBytes_add] at heq
    obtain ⟨hbytes, -⟩ := List.append_inj heq (by simp)
    exact ⟨(Nat.zero_add _).symm, by omega, hbytes⟩

theorem guard_eq_some {p : Prop} [Decidable p] {u : Unit} :
    (guard p : Option Unit) = some u ↔ p := by
  by_cases hp : p <;> simp [guard, hp]

theorem loadPrimitive_eq_some_iff {width value : Nat} :
    loadPrimitive mem size width offset = some (value, offset') ↔
      ∃ raw, raw.length = width ∧ leValue raw = value ∧ Reads mem size offset raw offset' := by
  unfold loadPrimitive
  constructor
  · intro h
    split at h
    · rename_i hin
      obtain ⟨rfl, rfl⟩ := Prod.mk.inj (Option.some.inj h)
      exact ⟨readBytes mem offset width, by simp, rfl, by simp, hin, by simp⟩
    · cases h
  · rintro ⟨raw, rfl, rfl, rfl, hin, hbytes⟩
    rw [if_pos hin, hbytes]

/-! ## Strings -/

/-- Below its limit `strnlen` stops at the first NUL. -/
theorem strnlen_eq_iff {limit n : Nat} (hn : n < limit) :
    strnlen mem offset limit = n ↔ 0 ∉ readBytes mem offset n ∧ mem (offset + n) = 0 := by
  induction limit generalizing offset n with
  | zero => cases hn
  | succ limit ih =>
    rw [strnlen]
    cases n with
    | zero =>
      split <;> simp_all [readBytes]
    | succ n =>
      have hcons : readBytes mem offset (n + 1) = mem offset :: readBytes mem (offset + 1) n := by
        rw [Nat.add_comm n 1, readBytes_add]
        rfl
      have hnext : strnlen mem (offset + 1) limit = n ↔ _ := ih (Nat.lt_of_succ_lt_succ hn)
      rw [hcons, List.mem_cons, not_or]
      split
      · rename_i hzero
        simp [hzero]
      · rename_i hzero
        rw [Nat.succ_inj, hnext, Nat.add_assoc, Nat.add_comm 1 n]
        simp [eq_comm, hzero]

theorem unsafeAssign_eq_some_iff {str : IdString} :
    unsafeAssign mem offset = some str ↔
      0 ∉ str.bytes ∧ readBytes mem offset (str.bytes.length + 1) = pushString str := by
  have hread : readBytes mem offset (str.bytes.length + 1)
      = readBytes mem offset str.bytes.length ++ [mem (offset + str.bytes.length)] := by
    rw [readBytes_add]
    rfl
  have hlen := str.size_le
  rw [hread, pushString]
  constructor
  · intro h
    unfold unsafeAssign at h
    split at h
    · rename_i hle
      have hstop := (strnlen_eq_iff (Nat.lt_succ_of_le hle)).mp (rfl : strnlen mem offset _ = _)
      obtain rfl := Option.some.inj h
      simp only [length_readBytes]
      exact ⟨hstop.1, by rw [hstop.2]⟩
    · cases h
  · rintro ⟨hzero, heq⟩
    obtain ⟨hbytes, hnul⟩ := List.append_inj heq (by simp)
    have hstop : strnlen mem offset (idStringCapacity + 1) = str.bytes.length :=
      (strnlen_eq_iff (Nat.lt_succ_of_le hlen)).mpr ⟨by rwa [hbytes], List.singleton_inj.mp hnul⟩
    unfold unsafeAssign
    rw [dif_pos (by rw [hstop]; exact hlen)]
    congr 1
    cases str
    simp only [IdString.mk.injEq]
    rw [hstop]
    exact hbytes

/-- **`loadString` accepts exactly the NUL-terminated strings inside the datagram**, whatever
stands after it. -/
theorem loadString_eq_some_iff {str : IdString} :
    loadString mem size offset = some (str, offset') ↔
      0 ∉ str.bytes ∧ Reads mem size offset (pushString str) offset' := by
  have hlen : (pushString str).length = str.bytes.length + 1 := by simp [pushString]
  constructor
  · intro h
    simp only [loadString, Option.bind_eq_bind, Option.bind_eq_some_iff] at h
    obtain ⟨str', hassign, _, hguard, heq⟩ := h
    obtain ⟨rfl, rfl⟩ := Prod.mk.inj (Option.some.inj heq)
    obtain ⟨hzero, hread⟩ := unsafeAssign_eq_some_iff.mp hassign
    have hin : offset + str'.bytes.length + 1 ≤ size := guard_eq_some.mp hguard
    exact ⟨hzero, by rw [hlen, Nat.add_assoc], hin, by rw [hlen, hread]⟩
  · rintro ⟨hzero, hstop, hin, hread⟩
    rw [hlen] at hstop hread
    rw [hstop] at hin
    rw [loadString, unsafeAssign_eq_some_iff.mpr ⟨hzero, hread⟩, hstop]
    simp [guard, Nat.add_assoc, hin]

/-- The three strings of a service have no NUL in them. -/
def NulFree (service : ServiceDescription) : Prop :=
  0 ∉ service.serviceID.bytes ∧ 0 ∉ service.instanceID.bytes ∧ 0 ∉ service.eventID.bytes

instance (service : ServiceDescription) : Decidable (NulFree service) :=
  inferInstanceAs (Decidable (_ ∧ _ ∧ _))

theorem loadService_eq_some_iff {service : ServiceDescription} :
    loadService mem size offset = some (service, offset') ↔
      NulFree service ∧ Reads mem size offset (pushService service) offset' := by
  unfold loadService pushService NulFree
  rw [List.append_assoc, reads_append]
  constructor
  · intro h
    simp only [Option.bind_eq_bind, Option.bind_eq_some_iff, Prod.exists] at h
    obtain ⟨a, o₁, ha, b, o₂, hb, c, o₃, hc, heq⟩ := h
    obtain ⟨rfl, rfl⟩ := Prod.mk.inj (Option.some.inj heq)
    obtain ⟨hza, hra⟩ := loadString_eq_some_iff.mp ha
    obtain ⟨hzb, hrb⟩ := loadString_eq_some_iff.mp hb
    obtain ⟨hzc, hrc⟩ := loadString_eq_some_iff.mp hc
    exact ⟨⟨hza, hzb, hzc⟩, o₁, hra, reads_append.mpr ⟨o₂, hrb, hrc⟩⟩
  · rintro ⟨⟨hza, hzb, hzc⟩, o₁, hra, hrest⟩
    obtain ⟨o₂, hrb, hrc⟩ := reads_append.mp hrest
    have ha := loadString_eq_some_iff.mpr ⟨hza, hra⟩
    have hb := loadString_eq_some_iff.mpr ⟨hzb, hrb⟩
    have hc := loadString_eq_some_iff.mpr ⟨hzc, hrc⟩
    simp only [Option.bind_eq_bind, ha, hb, hc, Option.bind_some]
    rfl

/-- The loop accepts exactly the encodings of as many services. -/
theorem loadServices_eq_some_iff {n : Nat} {services : List ServiceDescription}
    (hin : offset ≤ size) :
    loadServices mem size n offset = some (services, offset') ↔
      services.length = n ∧ (∀ service ∈ services, NulFree service) ∧
        Reads mem size offset (services.flatMap pushService) offset' := by
  induction n generalizing services offset with
  | zero =>
    rw [loadServices]
    constructor
    · intro h
      obtain ⟨rfl, rfl⟩ := Prod.mk.inj (Option.some.inj h)
      exact ⟨rfl, by simp, reads_nil.mpr ⟨rfl, hin⟩⟩
    · rintro ⟨hlen, -, hreads⟩
      obtain rfl := List.length_eq_zero_iff.mp hlen
      rw [(reads_nil.mp hreads).1]
  | succ n ih =>
    rw [loadServices]
    constructor
    · intro h
      simp only [Option.bind_eq_bind, Option.bind_eq_some_iff, Prod.exists] at h
      obtain ⟨service, o₁, hservice, services', o₂, hservices, heq⟩ := h
      obtain ⟨rfl, rfl⟩ := Prod.mk.inj (Option.some.inj heq)
      obtain ⟨hnul, hreads⟩ := loadService_eq_some_iff.mp hservice
      obtain ⟨rfl, hall, hrest⟩ := (ih hreads.inside).mp hservices
      refine ⟨rfl, ?_, ?_⟩
      · intro x hx
        rcases List.mem_cons.mp hx with rfl | hx
        · exact hnul
        · exact hall x hx
      · rw [List.flatMap_cons, reads_append]
        exact ⟨o₁, hreads, hrest⟩
    · rintro ⟨hlen, hall, hreads⟩
      cases services with
      | nil => cases hlen
      | cons service services =>
        rw [List.flatMap_cons, reads_append] at hreads
        obtain ⟨o₁, hreads, hrest⟩ := hreads
        have hservice := loadService_eq_some_iff.mpr ⟨hall service List.mem_cons_self, hreads⟩
        have hservices := (ih hreads.inside).mpr ⟨Nat.succ_inj.mp hlen,
          fun x hx => hall x (List.mem_cons_of_mem _ hx), hrest⟩
        simp only [Option.bind_eq_bind, hservice, hservices, Option.bind_some]
        rfl

/-! ## Frames -/

/-- A discovery message as it stands in a datagram: the services and the raw bytes of the other
fields. -/
structure Frame where
  count : List Byte
  services : List ServiceDescription
  gatewayBitset : List Byte
  gatewayHash : List Byte
  infoHash : List Byte
  isTermination : List Byte

namespace Frame

def bytes (f : Frame) : List Byte :=
  f.count ++ (f.services.flatMap pushService ++
    (f.gatewayBitset ++ (f.gatewayHash ++ (f.infoHash ++ f.isTermination))))

/-- The message that the frame stands for. -/
def info (f : Frame) : PubSubInfo where
  userSubscribers := CxxVector.empty.pushAll f.services
  gatewayBitset := BitVec.ofNat 64 (leValue f.gatewayBitset)
  gatewayHash := UInt32.ofNat (leValue f.gatewayHash)
  infoHash := UInt32.ofNat (leValue f.infoHash)
  isTermination := leValue f.isTermination ≠ 0

structure WellFormed (f : Frame) : Prop where
  count : f.count.length = 8
  services : leValue f.count = f.services.length
  services_le : f.services.length ≤ maxTopics
  nulFree : ∀ service ∈ f.services, NulFree service
  gatewayBitset : f.gatewayBitset.length = 8
  gatewayHash : f.gatewayHash.length = 4
  infoHash : f.infoHash.length = 4
  isTermination : f.isTermination.length = 1

end Frame

/-- A service takes at most three strings of full length. -/
theorem length_pushService_le (service : ServiceDescription) :
    (pushService service).length ≤ 3 * (idStringCapacity + 1) := by
  have h₁ := service.serviceID.size_le
  have h₂ := service.instanceID.size_le
  have h₃ := service.eventID.size_le
  simp only [pushService, pushString, List.length_append, List.length_singleton]
  omega

theorem length_services_le (services : List ServiceDescription) :
    (services.flatMap pushService).length ≤ services.length * (3 * (idStringCapacity + 1)) := by
  induction services with
  | nil => simp
  | cons service services ih =>
    have := length_pushService_le service
    rw [List.flatMap_cons, List.length_append, List.length_cons, Nat.succ_mul]
    omega

theorem Frame.WellFormed.length_le {f : Frame} (h : f.WellFormed) :
    f.bytes.length ≤ maxPubSubInfoSerializationSize := by
  have hservices := length_services_le f.services
  have hmul : f.services.length * (3 * (idStringCapacity + 1))
      ≤ maxTopics * (3 * (idStringCapacity + 1)) := Nat.mul_le_mul_right _ h.services_le
  unfold maxPubSubInfoSerializationSize
  simp only [Frame.bytes, List.length_append, h.count, h.gatewayBitset, h.gatewayHash, h.infoHash,
    h.isTermination]
  omega

/-- **The decoder accepts exactly the well-formed frames at the beginning of the datagram**, with
the message that they stand for and their length. -/
theorem deserialize_eq_some_iff {info : PubSubInfo} :
    deserialize mem size = some (info, offset') ↔
      ∃ f : Frame, f.WellFormed ∧ info = f.info ∧ Reads mem size 0 f.bytes offset' := by
  constructor
  · intro h
    simp only [deserialize, Option.bind_eq_bind, Option.bind_eq_some_iff, Prod.exists] at h
    obtain ⟨n, o₁, hcount, _, hn, services, o₂, hservices, bitset, o₃, hbitset, gatewayHash, o₄,
      hhash, infoHash, o₅, hinfo, isTermination, o₆, hterm, _, -, heq⟩ := h
    rw [guard_eq_some] at hn
    obtain ⟨rfl, rfl⟩ := Prod.mk.inj (Option.some.inj heq)
    obtain ⟨count, hc, rfl, r₁⟩ := loadPrimitive_eq_some_iff.mp hcount
    obtain ⟨hlen, hnul, r₂⟩ := (loadServices_eq_some_iff r₁.inside).mp hservices
    obtain ⟨rawBitset, hb, rfl, r₃⟩ := loadPrimitive_eq_some_iff.mp hbitset
    obtain ⟨rawHash, hg, rfl, r₄⟩ := loadPrimitive_eq_some_iff.mp hhash
    obtain ⟨rawInfo, hi, rfl, r₅⟩ := loadPrimitive_eq_some_iff.mp hinfo
    obtain ⟨rawTerm, ht, rfl, r₆⟩ := loadPrimitive_eq_some_iff.mp hterm
    refine ⟨⟨count, services, rawBitset, rawHash, rawInfo, rawTerm⟩,
      ⟨hc, hlen.symm, hlen ▸ hn, hnul, hb, hg, hi, ht⟩, rfl, ?_⟩
    simp only [Frame.bytes, reads_append]
    exact ⟨o₁, r₁, o₂, r₂, o₃, r₃, o₄, r₄, o₅, r₅, r₆⟩
  · rintro ⟨f, hf, rfl, hreads⟩
    have hstop : offset' ≤ maxPubSubInfoSerializationSize := by
      rw [hreads.stop, Nat.zero_add]
      exact hf.length_le
    simp only [Frame.bytes, reads_append] at hreads
    obtain ⟨o₁, r₁, o₂, r₂, o₃, r₃, o₄, r₄, o₅, r₅, r₆⟩ := hreads
    have h₁ := loadPrimitive_eq_some_iff.mpr ⟨f.count, hf.count, rfl, r₁⟩
    have h₂ := (loadServices_eq_some_iff r₁.inside).mpr ⟨hf.services.symm, hf.nulFree, r₂⟩
    have h₃ := loadPrimitive_eq_some_iff.mpr ⟨f.gatewayBitset, hf.gatewayBitset, rfl, r₃⟩
    have h₄ := loadPrimitive_eq_some_iff.mpr ⟨f.gatewayHash, hf.gatewayHash, rfl, r₄⟩
    have h₅ := loadPrimitive_eq_some_iff.mpr ⟨f.infoHash, hf.infoHash, rfl, r₅⟩
    have h₆ := loadPrimitive_eq_some_iff.mpr ⟨f.isTermination, hf.isTermination, rfl, r₆⟩
    have hle : leValue f.count ≤ maxTopics := hf.services ▸ hf.services_le
    simp only [deserialize, Option.bind_eq_bind, h₁, h₂, h₃, h₄, h₅, h₆, Option.bind_some,
      guard, hle, hstop, if_true]
    rfl

/-! ## The round trip -/

theorem leValue_pushPrimitive {width value : Nat} (h : value < 256 ^ width) :
    leValue (pushPrimitive width value) = value := by
  rw [pushPrimitive, leValue_leBytes, Nat.mod_eq_of_lt h]

/-- The frame that `serialize` writes. -/
def frameOf (info : PubSubInfo) : Frame where
  count := pushPrimitive 8 info.userSubscribers.size
  services := info.userSubscribers.toList
  gatewayBitset := pushPrimitive 8 info.gatewayBitset.toNat
  gatewayHash := pushPrimitive 4 info.gatewayHash.toNat
  infoHash := pushPrimitive 4 info.infoHash.toNat
  isTermination := pushPrimitive 1 info.isTermination.toNat

theorem wellFormed_frameOf {info : PubSubInfo}
    (hnul : ∀ service ∈ info.userSubscribers.toList, NulFree service) :
    (frameOf info).WellFormed where
  count := length_leBytes _ _
  services := by
    have hle : info.userSubscribers.size ≤ maxTopics := info.userSubscribers.size_le
    refine leValue_pushPrimitive (Nat.lt_of_le_of_lt hle ?_)
    decide
  services_le := info.userSubscribers.size_le
  nulFree := hnul
  gatewayBitset := length_leBytes _ _
  gatewayHash := length_leBytes _ _
  infoHash := length_leBytes _ _
  isTermination := length_leBytes _ _

theorem info_frameOf (info : PubSubInfo) : (frameOf info).info = info := by
  have hservices : (CxxVector.empty.pushAll info.userSubscribers.toList : ServiceVector)
      = info.userSubscribers := by
    apply CxxVector.ext
    rw [CxxVector.toList_pushAll]
    · rfl
    · simpa [CxxVector.size] using info.userSubscribers.size_le
  have hbitset : leValue (pushPrimitive 8 info.gatewayBitset.toNat) = info.gatewayBitset.toNat :=
    leValue_pushPrimitive info.gatewayBitset.isLt
  have hgateway : leValue (pushPrimitive 4 info.gatewayHash.toNat) = info.gatewayHash.toNat :=
    leValue_pushPrimitive info.gatewayHash.toNat_lt
  have hinfo : leValue (pushPrimitive 4 info.infoHash.toNat) = info.infoHash.toNat :=
    leValue_pushPrimitive info.infoHash.toNat_lt
  have hterm : leValue (pushPrimitive 1 info.isTermination.toNat) = info.isTermination.toNat := by
    apply leValue_pushPrimitive
    cases info.isTermination <;> decide
  simp only [Frame.info, frameOf, hservices, hbitset, hgateway, hinfo, hterm]
  cases info with
  | mk services bitset gatewayHash infoHash isTermination => cases isTermination <;> simp

/-- `serialize` writes the frame of the message. -/
theorem serialize_eq {info : PubSubInfo}
    (hnul : ∀ service ∈ info.userSubscribers.toList, NulFree service) :
    serialize info = some (push info, (push info).length) := by
  have hle : (push info).length ≤ maxPubSubInfoSerializationSize :=
    (wellFormed_frameOf hnul).length_le
  simp [serialize, guard, hle]

/-- **The wire formats round-trip.**  A discovery message without NUL characters in its strings is
written within the maximal size, and read back as it was, with the same offset, whatever follows
it in the datagram and in the memory after it.  So is every datagram header, which takes exactly
its maximal size. -/
theorem wire_formats_round_trip (info : PubSubInfo)
    (hnul : ∀ service ∈ info.userSubscribers.toList, NulFree service)
    (h : IoxChunkDatagramHeader) :
    (∃ bytes offset, serialize info = some (bytes, offset) ∧ bytes.length = offset ∧
      offset ≤ maxPubSubInfoSerializationSize ∧
      ∀ mem size rest, readBytes mem 0 size = bytes ++ rest →
        deserialize mem size = some (info, offset)) ∧
    ∃ bytes offset, serializeHeader h = some (bytes, offset) ∧ bytes.length = offset ∧
      offset = maxIoxChunkDatagramHeaderSerializationSize ∧
      ∀ rest, P3com.deserialize (bytes ++ rest) = some (h, offset) := by
  constructor
  · refine ⟨push info, (push info).length, serialize_eq hnul, rfl,
      (wellFormed_frameOf hnul).length_le, ?_⟩
    intro mem size rest hmem
    refine deserialize_eq_some_iff.mpr
      ⟨frameOf info, wellFormed_frameOf hnul, (info_frameOf info).symm, ?_⟩
    exact reads_zero.mpr ⟨rfl, rest, hmem⟩
  · refine ⟨P3com.serialize h, _, ?_, length_serialize h, rfl, deserialize_serialize h⟩
    simp [serializeHeader, guard]

/-- A message with one subscriber. -/
def demoInfo : PubSubInfo :=
  ⟨CxxVector.empty.pushAll [demoService], 4, 7, 9, false⟩

/-- The message is read back from a datagram with a byte after it. -/
theorem wire_formats_round_trip_demo :
    (∀ service ∈ demoInfo.userSubscribers.toList, NulFree service) ∧
      ∃ bytes offset, serialize demoInfo = some (bytes, offset) ∧
        deserialize (fun i => (bytes ++ [5]).getD i 6) (offset + 1) = some (demoInfo, offset) := by
  have hnul : ∀ service ∈ demoInfo.userSubscribers.toList, NulFree service := by decide
  obtain ⟨⟨bytes, offset, hser, rfl, -, hround⟩, -⟩ :=
    wire_formats_round_trip demoInfo hnul ⟨⟨1, 2, 3, 4⟩, 5, 1, 0, 2, 2, 8, 0⟩
  refine ⟨hnul, bytes, _, hser, hround _ _ [5] ?_⟩
  apply List.ext_getElem
  · simp
  · intro i _ hi
    simp only [readBytes, List.getElem_map, List.getElem_range, Nat.zero_add]
    rw [List.getD, List.getElem?_eq_getElem hi, Option.getD_some]

/-! ## The grammar -/

/-- The grammar of discovery datagrams: a count, three strings for each service with a NUL after
each, and the trailing fields. -/
def Grammar (datagram : List Byte) : Prop :=
  ∃ (count : List Byte) (strings : List (List Byte)) (trailing rest : List Byte),
    datagram = count ++ (strings.flatMap (· ++ [0]) ++ (trailing ++ rest)) ∧
    count.length = 8 ∧ leValue count ≤ maxTopics ∧ strings.length = 3 * leValue count ∧
    (∀ str ∈ strings, 0 ∉ str ∧ str.length ≤ idStringCapacity) ∧ trailing.length = 8 + 4 + 4 + 1

/-- The strings of the services, one after the other. -/
theorem flatMap_pushService (services : List ServiceDescription) :
    services.flatMap pushService
      = (services.flatMap fun service => [service.serviceID.bytes, service.instanceID.bytes,
          service.eventID.bytes]).flatMap (· ++ [0]) := by
  have hservice : pushService = fun service => [service.serviceID.bytes, service.instanceID.bytes,
      service.eventID.bytes].flatMap (· ++ [0]) := by
    funext service
    simp [pushService, pushString]
  rw [List.flatMap_assoc, hservice]

/-- Strings of the right length are the strings of services. -/
theorem exists_services {strings : List (List Byte)} {n : Nat} (hlen : strings.length = 3 * n)
    (hstr : ∀ str ∈ strings, 0 ∉ str ∧ str.length ≤ idStringCapacity) :
    ∃ services : List ServiceDescription, services.length = n ∧
      (∀ service ∈ services, NulFree service) ∧
      services.flatMap pushService = strings.flatMap (· ++ [0]) := by
  induction n generalizing strings with
  | zero =>
    obtain rfl := List.length_eq_zero_iff.mp hlen
    exact ⟨[], rfl, by simp, rfl⟩
  | succ n ih =>
    match strings, hlen with
    | a :: b :: c :: strings, hlen =>
      have ha := hstr a (by simp)
      have hb := hstr b (by simp)
      have hc := hstr c (by simp)
      have hrest : strings.length = 3 * n := by
        simp only [List.length_cons] at hlen
        omega
      obtain ⟨services, hn, hnul, heq⟩ := ih hrest fun str h => hstr str (by simp [h])
      refine ⟨⟨⟨a, ha.2⟩, ⟨b, hb.2⟩, ⟨c, hc.2⟩⟩ :: services, by simp [hn], ?_, ?_⟩
      · intro service hmem
        rcases List.mem_cons.mp hmem with rfl | hmem
        · exact ⟨ha.1, hb.1, hc.1⟩
        · exact hnul service hmem
      · simp [pushService, pushString, heq]

/-- The grammar is that of the well-formed frames. -/
theorem grammar_iff {datagram : List Byte} :
    Grammar datagram ↔ ∃ f : Frame, f.WellFormed ∧ ∃ rest, datagram = f.bytes ++ rest := by
  constructor
  · rintro ⟨count, strings, trailing, rest, rfl, hcount, hle, hlen, hstr, htrail⟩
    obtain ⟨services, hn, hnul, heq⟩ := exists_services hlen hstr
    refine ⟨⟨count, services, trailing.take 8, (trailing.drop 8).take 4,
      (trailing.drop 12).take 4, trailing.drop 16⟩,
      ⟨hcount, hn.symm, hn ▸ hle, hnul, ?_, ?_, ?_, ?_⟩, rest, ?_⟩
    · simp [htrail]
    · simp [htrail]
    · simp [htrail]
    · simp [htrail]
    · have h₁ : trailing.drop 12 = (trailing.drop 8).drop 4 := by simp
      have h₂ : trailing.drop 16 = (trailing.drop 12).drop 4 := by simp
      have hsplit : trailing.take 8 ++ ((trailing.drop 8).take 4 ++ ((trailing.drop 12).take 4 ++
          trailing.drop 16)) = trailing := by
        rw [h₂, List.take_append_drop, h₁, List.take_append_drop, List.take_append_drop]
      simp only [Frame.bytes, heq, hsplit, List.append_assoc]
  · rintro ⟨f, hf, rest, rfl⟩
    refine ⟨f.count, f.services.flatMap fun service => [service.serviceID.bytes,
        service.instanceID.bytes, service.eventID.bytes],
      f.gatewayBitset ++ (f.gatewayHash ++ (f.infoHash ++ f.isTermination)), rest, ?_, hf.count,
      hf.services ▸ hf.services_le, ?_, ?_, ?_⟩
    · rw [Frame.bytes, ← flatMap_pushService]
      simp only [List.append_assoc]
    · rw [hf.services]
      simp [List.length_flatMap, Nat.mul_comm]
    · intro str hmem
      obtain ⟨service, hservice, hmem⟩ := List.mem_flatMap.mp hmem
      obtain ⟨h₁, h₂, h₃⟩ := hf.nulFree service hservice
      simp only [List.mem_cons, List.not_mem_nil, or_false] at hmem
      rcases hmem with rfl | rfl | rfl
      · exact ⟨h₁, service.serviceID.size_le⟩
      · exact ⟨h₂, service.instanceID.size_le⟩
      · exact ⟨h₃, service.eventID.size_le⟩
    · simp [hf.gatewayBitset, hf.gatewayHash, hf.infoHash, hf.isTermination]

/-- The decoder succeeds on the datagrams of the grammar. -/
theorem isSome_deserialize_iff :
    (deserialize mem size).isSome = true ↔ Grammar (readBytes mem 0 size) := by
  rw [grammar_iff, Option.isSome_iff_exists]
  constructor
  · rintro ⟨⟨info, offset⟩, h⟩
    obtain ⟨f, hf, -, hreads⟩ := deserialize_eq_some_iff.mp h
    exact ⟨f, hf, (reads_zero.mp hreads).2⟩
  · rintro ⟨f, hf, hrest⟩
    exact ⟨(f.info, f.bytes.length),
      deserialize_eq_some_iff.mpr ⟨f, hf, rfl, reads_zero.mpr ⟨rfl, hrest⟩⟩⟩

/-- **The discovery decoder accepts exactly its grammar and ignores bytes outside the datagram.**
-/
theorem discovery_decoder_exact (size : Nat) :
    (∀ mem, (deserialize mem size).isSome = true ↔ Grammar (readBytes mem 0 size)) ∧
    ∀ mem mem' : Memory, (∀ i < size, mem i = mem' i) →
      deserialize mem size = deserialize mem' size := by
  refine ⟨fun mem => isSome_deserialize_iff, fun mem mem' hagree => ?_⟩
  have hread : readBytes mem 0 size = readBytes mem' 0 size := by
    refine List.map_congr_left fun i hi => ?_
    rw [Nat.zero_add]
    exact hagree i (List.mem_range.mp hi)
  apply Option.ext
  rintro ⟨info, offset⟩
  simp only [deserialize_eq_some_iff, reads_zero, hread]

/-- A datagram with the message, in two buffers that differ after it. -/
theorem discovery_decoder_exact_demo :
    Grammar (readBytes (fun i => (push demoInfo).getD i 6) 0 (push demoInfo).length) ∧
      deserialize (fun i => (push demoInfo).getD i 6) (push demoInfo).length
        = deserialize (fun i => (push demoInfo).getD i 7) (push demoInfo).length := by
  obtain ⟨hgrammar, hagree⟩ := discovery_decoder_exact (push demoInfo).length
  refine ⟨(hgrammar _).mp (by decide +kernel), hagree _ _ fun i hi => ?_⟩
  rw [List.getD, List.getD, List.getElem?_eq_getElem hi, Option.getD_some, Option.getD_some]

end P3com.DiscoveryWire
