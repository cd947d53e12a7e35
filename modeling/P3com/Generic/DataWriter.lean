/-
# Cutting a message into datagrams

`source/p3com/generic/data_writer.cpp`, `divideAndRoundUp` and the body that
`writeSegmentedInternal` runs on a good transport.  A message is sent as one submessage for every
`maxMessageSize() - 44` bytes, first those of the user header and then those of the user payload,
so that no submessage has bytes of both.

The arithmetic is the source's, in 32 bits.  A loop that cannot advance (a maximal payload of
zero bytes) does not end in the source; here it runs out of fuel and the result is `none`.

What the loops produce is said once, by `Tiles`: the submessages of a part lie one after the
other, cover the part, and carry the bytes of their range.
-/
import P3com.Generic.Serialization

namespace P3com

/-! ## The source's functions -/

/-- `divideAndRoundUp`. -/
def divideAndRoundUp (divident divisor : UInt32) : UInt32 := (divident + divisor - 1) / divisor

/-- One submessage: the datagram header and the bytes handed to `sendUserData`. -/
structure Submessage where
  header : IoxChunkDatagramHeader
  data : List Byte
deriving DecidableEq

/-- The datagram of a submessage: the serialized header directly followed by the data. -/
def Submessage.datagram (c : Submessage) : List Byte := serialize c.header ++ c.data

/-- The call of `sendUserData` for the submessage of the given size at the header's current
offset.  `bytes` are the bytes of the part (user header or user payload) and `base` is the offset
at which the part starts. -/
def submessageAt (bytes : List Byte) (base : UInt32) (h : IoxChunkDatagramHeader)
    (size : UInt32) : Submessage where
  header := { h with submessageSize := size }
  data := (bytes.drop (h.submessageOffset.toNat - base.toNat)).take size.toNat

/-- One of the two `while` loops of `writeSegmentedInternal`.  The header that the loop updates
is returned with the submessages. -/
def sendLoop (maxTransportPayloadSize : UInt32) (bytes : List Byte) (base : UInt32) :
    Nat → IoxChunkDatagramHeader → UInt32 → Option (List Submessage × IoxChunkDatagramHeader)
  | fuel, h, remaining =>
    if remaining = 0 then some ([], h)
    else match fuel with
      | 0 => none
      | fuel + 1 =>
        let size := min maxTransportPayloadSize remaining
        let call := submessageAt bytes base h size
        let next := { call.header with submessageOffset := h.submessageOffset + size }
        (sendLoop maxTransportPayloadSize bytes base fuel next (remaining - size)).map
          fun r => (call :: r.1, r.2)

/-- The submessages that `writeSegmentedInternal` hands to a transport with the given
`maxMessageSize()`, those of the user header and those of the user payload.  The submessage
fields of `h` are overwritten. -/
def submessages (h : IoxChunkDatagramHeader) (userHeader userPayload : List Byte)
    (maxMessageSize : Nat) : Option (List Submessage × List Submessage) := do
  let maxTransportPayloadSize :=
    UInt32.ofNat (maxMessageSize - maxIoxChunkDatagramHeaderSerializationSize)
  let h := { h with
    submessageCount := divideAndRoundUp h.userHeaderSize maxTransportPayloadSize
      + divideAndRoundUp h.userPayloadSize maxTransportPayloadSize
    submessageOffset := 0 }
  let (headerCalls, h) ←
    sendLoop maxTransportPayloadSize userHeader 0 h.userHeaderSize.toNat h h.userHeaderSize
  let (payloadCalls, _) ←
    sendLoop maxTransportPayloadSize userPayload h.userHeaderSize h.userPayloadSize.toNat h
      h.userPayloadSize
  pure (headerCalls, payloadCalls)

/-! ## What the loops produce -/

namespace Submessage

def offset (c : Submessage) : Nat := c.header.submessageOffset.toNat

def size (c : Submessage) : Nat := c.header.submessageSize.toNat

/-- The first offset after the submessage. -/
def stop (c : Submessage) : Nat := c.offset + c.size

end Submessage

/-- The part of the header that all submessages of a message share. -/
def IoxChunkDatagramHeader.message (h : IoxChunkDatagramHeader) : IoxChunkDatagramHeader :=
  { h with submessageOffset := 0, submessageSize := 0 }

/-- Headers of one message agree in every field but the range of the submessage. -/
theorem message_eq_iff {h h' : IoxChunkDatagramHeader} :
    h.message = h'.message ↔ h.serviceHash = h'.serviceHash ∧ h.messageHash = h'.messageHash ∧
      h.submessageCount = h'.submessageCount ∧ h.userPayloadSize = h'.userPayloadSize ∧
      h.userPayloadAlignment = h'.userPayloadAlignment ∧
      h.userHeaderSize = h'.userHeaderSize := by
  simp [IoxChunkDatagramHeader.message]

/-- The submessages `cs`, of at most `max` bytes each, tile the offsets from `start` to `stop` of
a part whose bytes are `bytes` and which starts at offset `base`. -/
structure Tiles (h : IoxChunkDatagramHeader) (bytes : List Byte) (max base start stop : Nat)
    (cs : List Submessage) : Prop where
  message : ∀ c ∈ cs, c.header.message = h.message
  pos : ∀ c ∈ cs, 0 < c.size
  size_le : ∀ c ∈ cs, c.size ≤ max
  start_le : ∀ c ∈ cs, start ≤ c.offset
  le_stop : ∀ c ∈ cs, c.stop ≤ stop
  data : ∀ c ∈ cs, c.data = (bytes.drop (c.offset - base)).take c.size
  cover : ∀ i, start ≤ i → i < stop → ∃ c ∈ cs, c.offset ≤ i ∧ i < c.stop
  ordered : cs.Pairwise fun c c' => c.stop ≤ c'.offset

theorem toNat_min (a b : UInt32) : (min a b).toNat = min a.toNat b.toNat := by
  change (if a ≤ b then a else b).toNat = _
  split
  · rename_i h
    rw [Nat.min_eq_left (UInt32.le_iff_toNat_le.mp h)]
  · rename_i h
    rw [Nat.min_eq_right]
    exact Nat.le_of_lt (Nat.not_le.mp fun hle => h (UInt32.le_iff_toNat_le.mpr hle))

/-- No submessage: an empty range is tiled. -/
theorem Tiles.nil (h : IoxChunkDatagramHeader) (bytes : List Byte) (max base start : Nat) :
    Tiles h bytes max base start start [] where
  message := by simp
  pos := by simp
  size_le := by simp
  start_le := by simp
  le_stop := by simp
  data := by simp
  cover := fun i h₁ h₂ => absurd h₂ (Nat.not_lt.mpr h₁)
  ordered := List.Pairwise.nil

/-- One submessage in front of a tiled range. -/
theorem Tiles.cons {h : IoxChunkDatagramHeader} {bytes : List Byte} {max base mid stop : Nat}
    {c : Submessage} {cs : List Submessage} (ht : Tiles h bytes max base mid stop cs)
    (hmsg : c.header.message = h.message)
    (hpos : 0 < c.size) (hmax : c.size ≤ max) (hmid : c.stop = mid) (hle : mid ≤ stop)
    (hdata : c.data = (bytes.drop (c.offset - base)).take c.size) :
    Tiles h bytes max base c.offset stop (c :: cs) where
  message := by
    intro c' hc
    rcases List.mem_cons.mp hc with rfl | hc
    · exact hmsg
    · exact ht.message c' hc
  pos := by
    intro c' hc
    rcases List.mem_cons.mp hc with rfl | hc
    · exact hpos
    · exact ht.pos c' hc
  size_le := by
    intro c' hc
    rcases List.mem_cons.mp hc with rfl | hc
    · exact hmax
    · exact ht.size_le c' hc
  start_le := by
    intro c' hc
    rcases List.mem_cons.mp hc with rfl | hc
    · exact Nat.le_refl _
    · have h1 := ht.start_le c' hc
      have h2 : c.offset ≤ c.stop := Nat.le_add_right _ _
      omega
  le_stop := by
    intro c' hc
    rcases List.mem_cons.mp hc with rfl | hc
    · omega
    · exact ht.le_stop c' hc
  data := by
    intro c' hc
    rcases List.mem_cons.mp hc with rfl | hc
    · exact hdata
    · exact ht.data c' hc
  cover := by
    intro i h₁ h₂
    rcases Nat.lt_or_ge i mid with h | h
    · exact ⟨c, List.mem_cons_self, h₁, by omega⟩
    · obtain ⟨c', hc', h'⟩ := ht.cover i h h₂
      exact ⟨c', List.mem_cons_of_mem _ hc', h'⟩
  ordered := by
    refine List.pairwise_cons.mpr ⟨?_, ht.ordered⟩
    intro c' hc'
    rw [hmid]
    exact ht.start_le c' hc'

/-- The loop on no remaining byte. -/
theorem sendLoop_zero (M : UInt32) (bytes : List Byte) (base : UInt32) (fuel : Nat)
    (h : IoxChunkDatagramHeader) : sendLoop M bytes base fuel h 0 = some ([], h) := by
  cases fuel with
  | zero => rw [sendLoop, if_pos rfl]
  | succ fuel => rw [sendLoop, if_pos rfl]

theorem roundUp_zero {M : Nat} (hM : 0 < M) : (0 + M - 1) / M = 0 := by
  rw [Nat.zero_add, Nat.div_eq_of_lt (Nat.sub_lt hM Nat.one_pos)]

/-- One submessage of at most `M` bytes less is one less to send. -/
theorem roundUp_step {M r : Nat} (hM : 0 < M) (hr : 0 < r) :
    (r - min M r + M - 1) / M + 1 = (r + M - 1) / M := by
  rcases Nat.le_total M r with hle | hle
  · have h : r + M - 1 = r - M + M - 1 + M := by omega
    rw [Nat.min_eq_left hle, h, Nat.add_div_right _ hM]
  · have h : r + M - 1 = r - 1 + M := by omega
    rw [Nat.min_eq_right hle, Nat.sub_self, roundUp_zero hM, h, Nat.add_div_right _ hM,
      Nat.div_eq_of_lt (by omega)]

/-- **One loop tiles its part.**  If the payload of a datagram has room for a byte and the part
ends below `2 ^ 32`, the loop ends, its submessages tile the rest of the part, and their number
is the rounded-up quotient. -/
theorem sendLoop_tiles {M : UInt32} (hM : 0 < M.toNat) (bytes : List Byte) (base : UInt32) :
    ∀ (fuel : Nat) (h : IoxChunkDatagramHeader) (remaining : UInt32), remaining.toNat ≤ fuel →
      h.submessageOffset.toNat + remaining.toNat < 2 ^ 32 →
      ∃ cs h', sendLoop M bytes base fuel h remaining = some (cs, h') ∧
        Tiles h bytes M.toNat base.toNat h.submessageOffset.toNat
          (h.submessageOffset.toNat + remaining.toNat) cs ∧
        cs.length = (remaining.toNat + M.toNat - 1) / M.toNat ∧
        h'.submessageOffset.toNat = h.submessageOffset.toNat + remaining.toNat ∧
        h'.message = h.message := by
  intro fuel
  induction fuel with
  | zero =>
    intro h remaining hfuel _
    have h0 : remaining = 0 := UInt32.toNat_inj.mp (Nat.le_zero.mp hfuel)
    subst h0
    exact ⟨[], h, sendLoop_zero _ _ _ _ _, Tiles.nil _ _ _ _ _, (roundUp_zero hM).symm, rfl, rfl⟩
  | succ fuel ih =>
    intro h remaining hfuel hlt
    by_cases h0 : remaining = 0
    · subst h0
      exact ⟨[], h, sendLoop_zero _ _ _ _ _, Tiles.nil _ _ _ _ _, (roundUp_zero hM).symm, rfl, rfl⟩
    · have hr : 0 < remaining.toNat := by
        rcases Nat.eq_zero_or_pos remaining.toNat with hz | hz
        · exact absurd (UInt32.toNat_inj.mp hz) h0
        · exact hz
      -- the size of this submessage, and what is left after it
      have hsize : (min M remaining).toNat = min M.toNat remaining.toNat := toNat_min _ _
      have hle : min M.toNat remaining.toNat ≤ remaining.toNat := Nat.min_le_right _ _
      have hpos : 0 < min M.toNat remaining.toNat := Nat.lt_min.mpr ⟨hM, hr⟩
      have hsub : (remaining - min M remaining).toNat
          = remaining.toNat - min M.toNat remaining.toNat := by
        rw [UInt32.toNat_sub_of_le, hsize]
        rw [UInt32.le_iff_toNat_le, hsize]
        exact hle
      have hadd : (h.submessageOffset + min M remaining).toNat
          = h.submessageOffset.toNat + min M.toNat remaining.toNat := by
        rw [UInt32.toNat_add, hsize, Nat.mod_eq_of_lt]
        omega
      let call := submessageAt bytes base h (min M remaining)
      obtain ⟨cs, h', hcs, ht, hlen, hoff, hmsg⟩ := ih
        { call.header with submessageOffset := h.submessageOffset + min M remaining }
        (remaining - min M remaining) (by omega) (by simp only [hadd, hsub]; omega)
      simp only [hadd, hsub] at ht hoff hlen
      have hend : h.submessageOffset.toNat + min M.toNat remaining.toNat
          + (remaining.toNat - min M.toNat remaining.toNat)
          = h.submessageOffset.toNat + remaining.toNat := by omega
      rw [hend] at ht hoff
      refine ⟨call :: cs, h', ?_, ?_, ?_, hoff, hmsg⟩
      · rw [sendLoop, if_neg h0]
        simp only [hcs, call, Option.map_some]
      · have ht' : Tiles h bytes M.toNat base.toNat (h.submessageOffset.toNat +
            min M.toNat remaining.toNat) (h.submessageOffset.toNat + remaining.toNat) cs :=
          ⟨ht.message, ht.pos, ht.size_le, ht.start_le, ht.le_stop, ht.data, ht.cover, ht.ordered⟩
        have hcs : call.size = min M.toNat remaining.toNat := hsize
        refine ht'.cons rfl (hcs ▸ hpos) (hcs ▸ Nat.min_le_left _ _) ?_ (by omega) rfl
        rw [Submessage.stop, hcs]
        rfl
      · rw [List.length_cons, hlen]
        exact roundUp_step hM hr

/-- The rounding division, with the sum and the difference modulo `2 ^ 32`. -/
theorem toNat_divideAndRoundUp_eq (a M : UInt32) : (divideAndRoundUp a M).toNat
    = (2 ^ 32 - 1 + (a.toNat + M.toNat) % 2 ^ 32) % 2 ^ 32 / M.toNat := by
  rw [divideAndRoundUp, UInt32.toNat_div, UInt32.toNat_sub, UInt32.toNat_add]
  rfl

/-- The 32-bit rounding division is exact as long as the dividend and the divisor together stay
within `2 ^ 32`. -/
theorem toNat_divideAndRoundUp {a M : UInt32} (hM : 0 < M.toNat)
    (h : a.toNat + M.toNat ≤ 2 ^ 32) :
    (divideAndRoundUp a M).toNat = (a.toNat + M.toNat - 1) / M.toNat := by
  have hnum : (2 ^ 32 - 1 + (a.toNat + M.toNat) % 2 ^ 32) % 2 ^ 32 = a.toNat + M.toNat - 1 := by
    omega
  rw [toNat_divideAndRoundUp_eq, hnum]

/-- A tiling is about the fields that the submessages share. -/
theorem Tiles.congr {h h' : IoxChunkDatagramHeader} {bytes : List Byte}
    {max base start stop : Nat} {cs : List Submessage} (ht : Tiles h bytes max base start stop cs)
    (he : h.message = h'.message) : Tiles h' bytes max base start stop cs :=
  ⟨fun c hc => (ht.message c hc).trans he, ht.pos, ht.size_le, ht.start_le, ht.le_stop, ht.data,
    ht.cover, ht.ordered⟩

theorem roundUp_le {n M : Nat} (hM : 0 < M) : (n + M - 1) / M ≤ n := by
  rw [Nat.div_le_iff_le_mul_add_pred hM]
  have : n ≤ M * n := Nat.le_mul_of_pos_left n hM
  omega

/-- `a / M` rounded up, for two parts, is below `2 ^ 32` when the parts and `M` are. -/
theorem roundUp_add_lt {a b M : Nat} (hM : 0 < M) (h : a + b + M ≤ 2 ^ 32) :
    (a + M - 1) / M + (b + M - 1) / M < 2 ^ 32 := by
  have h1 := roundUp_le (n := a) hM
  have h2 := roundUp_le (n := b) hM
  omega

/-- **The two loops.**  If a datagram has room for a byte and the message ends below `2 ^ 32`, both
loops end, their submessages tile the user header and the user payload, and there are as many as
the sizes need.  All carry the count that was computed before. -/
theorem submessages_cut (h : IoxChunkDatagramHeader) (userHeader userPayload : List Byte)
    {maxMessageSize : Nat} {M : UInt32}
    (hM : UInt32.ofNat (maxMessageSize - maxIoxChunkDatagramHeaderSerializationSize) = M)
    (hpos : 0 < M.toNat) (hlt : h.userHeaderSize.toNat + h.userPayloadSize.toNat < 2 ^ 32) :
    ∃ hc pc, submessages h userHeader userPayload maxMessageSize = some (hc, pc) ∧
      hc.length = (h.userHeaderSize.toNat + M.toNat - 1) / M.toNat ∧
      pc.length = (h.userPayloadSize.toNat + M.toNat - 1) / M.toNat ∧
      Tiles { h with submessageCount := divideAndRoundUp h.userHeaderSize M
        + divideAndRoundUp h.userPayloadSize M } userHeader M.toNat 0 0
        h.userHeaderSize.toNat hc ∧
      Tiles { h with submessageCount := divideAndRoundUp h.userHeaderSize M
        + divideAndRoundUp h.userPayloadSize M } userPayload M.toNat h.userHeaderSize.toNat
        h.userHeaderSize.toNat (h.userHeaderSize.toNat + h.userPayloadSize.toNat) pc := by
  unfold submessages
  rw [hM]
  generalize hcount : divideAndRoundUp h.userHeaderSize M + divideAndRoundUp h.userPayloadSize M
    = count
  obtain ⟨hc, h', hloop, htiles, hlen, hoff, hmsg⟩ := sendLoop_tiles hpos userHeader 0
    h.userHeaderSize.toNat { h with submessageCount := count, submessageOffset := 0 }
    h.userHeaderSize (Nat.le_refl _) (by simp only [UInt32.toNat_zero]; omega)
  obtain ⟨_, _, _, hps, _, hhs⟩ := message_eq_iff.mp hmsg
  have hsz : h'.userHeaderSize = h.userHeaderSize ∧ h'.userPayloadSize = h.userPayloadSize :=
    ⟨hhs, hps⟩
  simp only [UInt32.toNat_zero, Nat.zero_add] at hoff htiles
  obtain ⟨pc, h'', hloop', htiles', hlen', _, _⟩ := sendLoop_tiles hpos userPayload
    h'.userHeaderSize h'.userPayloadSize.toNat h' h'.userPayloadSize (Nat.le_refl _)
    (by rw [hoff, hsz.2]; omega)
  refine ⟨hc, pc, ?_, hlen, by rw [hlen', hsz.2], htiles.congr rfl, ?_⟩
  · simp only [hcount, hloop, hloop', Option.bind_eq_bind, Option.bind_some, Option.pure_def]
  · have : Tiles { h with submessageCount := count } _ _ _ _ _ _ := htiles'.congr hmsg
    rwa [hoff, hsz.1, hsz.2] at this

/-- **The submessages of a message.**  Within the size bound the two loops end, the submessages
tile the user header and the user payload, and `submessageCount` is their number. -/
theorem submessages_tiles {h : IoxChunkDatagramHeader} (userHeader userPayload : List Byte)
    {maxMessageSize : Nat} (hmax : maxIoxChunkDatagramHeaderSerializationSize < maxMessageSize)
    (hfit : h.userHeaderSize.toNat + h.userPayloadSize.toNat
      + (maxMessageSize - maxIoxChunkDatagramHeaderSerializationSize) ≤ 2 ^ 32)
    (hsome : 0 < h.userHeaderSize.toNat + h.userPayloadSize.toNat) :
    ∃ hc pc count, submessages h userHeader userPayload maxMessageSize = some (hc, pc) ∧
      count.toNat = hc.length + pc.length ∧
      Tiles { h with submessageCount := count } userHeader
        (maxMessageSize - maxIoxChunkDatagramHeaderSerializationSize) 0 0
        h.userHeaderSize.toNat hc ∧
      Tiles { h with submessageCount := count } userPayload
        (maxMessageSize - maxIoxChunkDatagramHeaderSerializationSize) h.userHeaderSize.toNat
        h.userHeaderSize.toNat (h.userHeaderSize.toNat + h.userPayloadSize.toNat) pc := by
  obtain ⟨M, hM⟩ : ∃ M, UInt32.ofNat
    (maxMessageSize - maxIoxChunkDatagramHeaderSerializationSize) = M := ⟨_, rfl⟩
  have hMval : M.toNat = maxMessageSize - maxIoxChunkDatagramHeaderSerializationSize := by
    rw [← hM, UInt32.toNat_ofNat_of_lt']
    change _ < 2 ^ 32
    omega
  rw [← hMval] at hfit ⊢
  have hpos : 0 < M.toNat := by omega
  obtain ⟨hc, pc, hcut, hlen, hlen', htiles, htiles'⟩ :=
    submessages_cut h userHeader userPayload hM hpos (by omega)
  refine ⟨hc, pc, _, hcut, ?_, htiles, htiles'⟩
  rw [UInt32.toNat_add, toNat_divideAndRoundUp hpos (by omega),
    toNat_divideAndRoundUp hpos (by omega), Nat.mod_eq_of_lt (roundUp_add_lt hpos hfit), hlen,
    hlen']

/-- The loop ends as soon as a datagram has room for a byte. -/
theorem sendLoop_isSome {M : UInt32} (hM : 0 < M.toNat) (bytes : List Byte) (base : UInt32) :
    ∀ (fuel : Nat) (h : IoxChunkDatagramHeader) (remaining : UInt32), remaining.toNat ≤ fuel →
      ∃ r, sendLoop M bytes base fuel h remaining = some r := by
  intro fuel
  induction fuel with
  | zero =>
    intro h remaining hfuel
    have h0 : remaining = 0 := UInt32.toNat_inj.mp (Nat.le_zero.mp hfuel)
    subst h0
    exact ⟨_, sendLoop_zero _ _ _ _ _⟩
  | succ fuel ih =>
    intro h remaining hfuel
    by_cases h0 : remaining = 0
    · subst h0
      exact ⟨_, sendLoop_zero _ _ _ _ _⟩
    · have hr : remaining.toNat ≠ 0 := fun hz => h0 (UInt32.toNat_inj.mp hz)
      have hsize : (min M remaining).toNat = min M.toNat remaining.toNat := toNat_min _ _
      have hle : min M remaining ≤ remaining := by
        rw [UInt32.le_iff_toNat_le, hsize]
        exact Nat.min_le_right _ _
      have hsub := UInt32.toNat_sub_of_le remaining (min M remaining) hle
      obtain ⟨r, hr⟩ := ih { (submessageAt bytes base h (min M remaining)).header with
        submessageOffset := h.submessageOffset + min M remaining } (remaining - min M remaining)
        (by omega)
      rw [sendLoop, if_neg h0]
      simp only [hr, Option.map_some]
      exact ⟨_, rfl⟩

/-- Every message is cut into finitely many submessages by a transport that can send more than a
header. -/
theorem submessages_isSome (h : IoxChunkDatagramHeader) (userHeader userPayload : List Byte)
    {maxMessageSize : Nat} (hmax : maxIoxChunkDatagramHeaderSerializationSize < maxMessageSize)
    (hlt : maxMessageSize - maxIoxChunkDatagramHeaderSerializationSize < 2 ^ 32) :
    ∃ r, submessages h userHeader userPayload maxMessageSize = some r := by
  have hM : 0 < (UInt32.ofNat
      (maxMessageSize - maxIoxChunkDatagramHeaderSerializationSize)).toNat := by
    rw [UInt32.toNat_ofNat_of_lt' hlt]
    omega
  unfold submessages
  generalize UInt32.ofNat (maxMessageSize - maxIoxChunkDatagramHeaderSerializationSize) = M at *
  simp only
  obtain ⟨r, hr⟩ := sendLoop_isSome hM userHeader 0 h.userHeaderSize.toNat
    { h with
      submessageCount := divideAndRoundUp h.userHeaderSize M + divideAndRoundUp h.userPayloadSize M
      submessageOffset := 0 } h.userHeaderSize (Nat.le_refl _)
  obtain ⟨r', hr'⟩ := sendLoop_isSome hM userPayload r.2.userHeaderSize
    r.2.userPayloadSize.toNat r.2 r.2.userPayloadSize (Nat.le_refl _)
  simp only [hr, hr', Option.bind_eq_bind, Option.bind_some, Option.pure_def]
  exact ⟨_, rfl⟩

end P3com
