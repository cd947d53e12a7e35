/-
# How many segments a message has

`submessageCount` is computed before the loops of `writeSegmentedInternal` run, by two divisions
that round up (`source/p3com/generic/data_writer.cpp`).  `divideAndRoundUp` adds before it divides,
in 32 bits.  When the sum wraps, the quotient is zero, whatever the size
(`toNat_divideAndRoundUp_of_wrap`); and it does wrap for sizes within one datagram of `2 ^ 32`.

The loops do not use the count.  They tile the message at every size, if the transport has room for
a byte after the header.  That room is `maxMessageSize()` less 44, cut to 32 bits.  A message
without any byte has no segment at all, and so is not sent.

`segment_count_exact_iff` puts this together: the count is the number of datagrams and everything
else is as it should be exactly when none of these three happens.
-/
import P3com.Generic.DataWriter

namespace P3com

/-! ## Submessages one after the other -/

/-- The submessages follow each other without gap or overlap, from `start` to `stop`. -/
def Consecutive : Nat → Nat → List Submessage → Prop
  | start, stop, [] => start = stop
  | start, stop, c :: cs => c.offset = start ∧ 0 < c.size ∧ Consecutive c.stop stop cs

theorem Consecutive.append {a b d : Nat} {cs cs' : List Submessage} (h : Consecutive a b cs)
    (h' : Consecutive b d cs') : Consecutive a d (cs ++ cs') := by
  induction cs generalizing a with
  | nil =>
    obtain rfl : a = b := h
    exact h'
  | cons c cs ih => exact ⟨h.1, h.2.1, ih h.2.2⟩

/-- What tiles a range follows each other in it. -/
theorem Tiles.consecutive {h : IoxChunkDatagramHeader} {bytes : List Byte}
    {max base start stop : Nat} {cs : List Submessage}
    (ht : Tiles h bytes max base start stop cs) (hle : start ≤ stop) :
    Consecutive start stop cs := by
  induction cs generalizing start with
  | nil =>
    by_contra hne
    obtain ⟨c, hc, -⟩ := ht.cover start (Nat.le_refl _) (Nat.lt_of_le_of_ne hle hne)
    cases hc
  | cons c cs ih =>
    have hsize := ht.pos c List.mem_cons_self
    have hstart := ht.start_le c List.mem_cons_self
    have hstop := ht.le_stop c List.mem_cons_self
    have hord := List.pairwise_cons.mp ht.ordered
    have hsum : c.stop = c.offset + c.size := rfl
    -- the submessage at the start of the range can only be the first one
    have hoff : c.offset = start := by
      obtain ⟨c', hc', h₁, h₂⟩ := ht.cover start (Nat.le_refl _) (by omega)
      rcases List.mem_cons.mp hc' with rfl | hc'
      · omega
      · have := hord.1 c' hc'
        omega
    refine ⟨hoff, hsize, ih ?_ hstop⟩
    have hmem : ∀ c' ∈ cs, c' ∈ c :: cs := fun c' hc' => List.mem_cons_of_mem _ hc'
    refine ⟨fun c' hc' => ht.message c' (hmem c' hc'), fun c' hc' => ht.pos c' (hmem c' hc'),
      fun c' hc' => ht.size_le c' (hmem c' hc'), hord.1, fun c' hc' => ht.le_stop c' (hmem c' hc'),
      fun c' hc' => ht.data c' (hmem c' hc'), fun i h₁ h₂ => ?_, hord.2⟩
    obtain ⟨c', hc', hi⟩ := ht.cover i (by omega) h₂
    rcases List.mem_cons.mp hc' with rfl | hc'
    · omega
    · exact ⟨c', hc', hi⟩

/-! ## The count -/

section Count

variable {a b M : UInt32}

/-- If the sum wraps, nothing is left of the quotient. -/
theorem toNat_divideAndRoundUp_of_wrap (h : 2 ^ 32 < a.toNat + M.toNat) :
    (divideAndRoundUp a M).toNat = 0 := by
  have ha := a.toNat_lt
  have hM := M.toNat_lt
  have hnum : (2 ^ 32 - 1 + (a.toNat + M.toNat) % 2 ^ 32) % 2 ^ 32
      = a.toNat + M.toNat - 1 - 2 ^ 32 := by
    omega
  rw [toNat_divideAndRoundUp_eq, hnum]
  exact Nat.div_eq_of_lt (by omega)

theorem roundUp_pos {n m : Nat} (hm : 0 < m) (hn : 0 < n) : 0 < (n + m - 1) / m :=
  Nat.div_pos (by omega) hm

/-- The 32-bit quotient is the exact one or zero. -/
theorem toNat_divideAndRoundUp_cases (hM : 0 < M.toNat) (a : UInt32) :
    (a.toNat + M.toNat ≤ 2 ^ 32 ∧
        (divideAndRoundUp a M).toNat = (a.toNat + M.toNat - 1) / M.toNat) ∨
      (2 ^ 32 < a.toNat + M.toNat ∧ (divideAndRoundUp a M).toNat = 0 ∧
        0 < (a.toNat + M.toNat - 1) / M.toNat) := by
  rcases Nat.lt_or_ge (2 ^ 32) (a.toNat + M.toNat) with h | h
  · have hMlt := M.toNat_lt
    exact Or.inr ⟨h, toNat_divideAndRoundUp_of_wrap h, roundUp_pos hM (by omega)⟩
  · exact Or.inl ⟨h, toNat_divideAndRoundUp hM h⟩

/-- The sum of the two quotients is the number of segments exactly when neither sum wraps. -/
theorem count_eq_iff (hM : 0 < M.toNat) (hlt : a.toNat + b.toNat < 2 ^ 32) :
    (divideAndRoundUp a M + divideAndRoundUp b M).toNat
        = (a.toNat + M.toNat - 1) / M.toNat + (b.toNat + M.toNat - 1) / M.toNat ↔
      a.toNat + M.toNat ≤ 2 ^ 32 ∧ b.toNat + M.toNat ≤ 2 ^ 32 := by
  have ha := roundUp_le (n := a.toNat) hM
  have hb := roundUp_le (n := b.toNat) hM
  rw [UInt32.toNat_add]
  rcases toNat_divideAndRoundUp_cases hM a with ⟨ha₁, ha₂⟩ | ⟨ha₁, ha₂, ha₃⟩ <;>
    rcases toNat_divideAndRoundUp_cases hM b with ⟨hb₁, hb₂⟩ | ⟨hb₁, hb₂, hb₃⟩ <;>
    rw [ha₂, hb₂] <;> omega

end Count

/-! ## The claim of the header -/

/-- What a receiver expects of the datagrams of one message. -/
structure SegmentedExactly (h : IoxChunkDatagramHeader) (maxMessageSize : Nat)
    (cs : List Submessage) : Prop where
  count : ∀ c ∈ cs, c.header.submessageCount.toNat = cs.length
  some : 1 ≤ cs.length
  tiled : Consecutive 0 (h.userHeaderSize.toNat + h.userPayloadSize.toNat) cs
  split : ∀ c ∈ cs, c.stop ≤ h.userHeaderSize.toNat ∨ h.userHeaderSize.toNat ≤ c.offset
  fits : ∀ c ∈ cs, c.datagram.length ≤ maxMessageSize

/-- The room for data in a datagram, as it is computed: cut to 32 bits. -/
def dataRoom (maxMessageSize : Nat) : Nat :=
  (maxMessageSize - maxIoxChunkDatagramHeaderSerializationSize) % 2 ^ 32

/-- There is room for a byte in a datagram, there is a byte to send, and the sums that are divided
do not wrap. -/
structure CountFits (h : IoxChunkDatagramHeader) (maxMessageSize : Nat) : Prop where
  room : 0 < dataRoom maxMessageSize
  some : 0 < h.userHeaderSize.toNat + h.userPayloadSize.toNat
  header : h.userHeaderSize.toNat + dataRoom maxMessageSize ≤ 2 ^ 32
  payload : h.userPayloadSize.toNat + dataRoom maxMessageSize ≤ 2 ^ 32

/-- Without room for a byte the loop does not end. -/
theorem sendLoop_noRoom {M : UInt32} (hM : M.toNat = 0) (bytes : List Byte) (base : UInt32) :
    ∀ (fuel : Nat) (h : IoxChunkDatagramHeader) (remaining : UInt32), remaining ≠ 0 →
      sendLoop M bytes base fuel h remaining = none := by
  intro fuel
  induction fuel with
  | zero =>
    intro h remaining hr
    rw [sendLoop, if_neg hr]
  | succ fuel ih =>
    intro h remaining hr
    have hzero : min M remaining = 0 := by
      apply UInt32.toNat_inj.mp
      rw [toNat_min, hM]
      exact Nat.zero_min _
    rw [sendLoop, if_neg hr]
    simp only [hzero, UInt32.sub_zero]
    rw [ih _ _ hr]
    rfl

/-- Whatever the loops send, if they end and there is no room, is nothing. -/
theorem submessages_noRoom {h : IoxChunkDatagramHeader} {userHeader userPayload : List Byte}
    {maxMessageSize : Nat} {hc pc : List Submessage} (hroom : dataRoom maxMessageSize = 0)
    (hsub : submessages h userHeader userPayload maxMessageSize = some (hc, pc)) :
    hc ++ pc = [] := by
  have hM : (UInt32.ofNat
      (maxMessageSize - maxIoxChunkDatagramHeaderSerializationSize)).toNat = 0 := hroom
  unfold submessages at hsub
  generalize UInt32.ofNat (maxMessageSize - maxIoxChunkDatagramHeaderSerializationSize) = M at *
  simp only [Option.bind_eq_bind, Option.pure_def] at hsub
  obtain ⟨⟨hc', h'⟩, hloop, hsub⟩ := Option.bind_eq_some_iff.mp hsub
  obtain ⟨⟨pc', h''⟩, hloop', hsub⟩ := Option.bind_eq_some_iff.mp hsub
  obtain ⟨rfl, rfl⟩ : hc' = hc ∧ pc' = pc := by simpa using hsub
  -- a loop that ends has not begun
  have hnil : ∀ {bytes base fuel h remaining cs h₁},
      sendLoop M bytes base fuel h remaining = some (cs, h₁) → cs = [] := by
    intro bytes base fuel h remaining cs h₁ heq
    by_cases hr : remaining = 0
    · subst hr
      rw [sendLoop_zero] at heq
      exact (Prod.mk.inj (Option.some.inj heq)).1.symm
    · rw [sendLoop_noRoom hM _ _ _ _ _ hr] at heq
      cases heq
  rw [hnil hloop, hnil hloop']
  rfl

/-- A submessage is at most as long as the transport allows. -/
theorem Tiles.datagram_le {h : IoxChunkDatagramHeader} {bytes : List Byte}
    {base start stop maxMessageSize : Nat} {cs : List Submessage}
    (hmax : maxIoxChunkDatagramHeaderSerializationSize < maxMessageSize)
    (ht : Tiles h bytes (dataRoom maxMessageSize) base start stop cs) {c : Submessage}
    (hc : c ∈ cs) : c.datagram.length ≤ maxMessageSize := by
  have hdata : c.data.length ≤ c.size := by
    rw [ht.data c hc]
    exact List.length_take_le _ _
  have hsize := ht.size_le c hc
  have hroom : dataRoom maxMessageSize
      ≤ maxMessageSize - maxIoxChunkDatagramHeaderSerializationSize := Nat.mod_le _ _
  rw [Submessage.datagram, List.length_append, length_serialize]
  omega

/-- The datagrams of a message, if there is room for a byte: how many they are, and the count that
each of them has. -/
theorem submessages_counted (h : IoxChunkDatagramHeader) (userHeader userPayload : List Byte)
    {maxMessageSize : Nat} {M : UInt32}
    (hM : UInt32.ofNat (maxMessageSize - maxIoxChunkDatagramHeaderSerializationSize) = M)
    (hpos : 0 < M.toNat) (hlt : h.userHeaderSize.toNat + h.userPayloadSize.toNat < 2 ^ 32)
    {hc pc : List Submessage}
    (hsub : submessages h userHeader userPayload maxMessageSize = some (hc, pc)) :
    (hc ++ pc).length = (h.userHeaderSize.toNat + M.toNat - 1) / M.toNat
        + (h.userPayloadSize.toNat + M.toNat - 1) / M.toNat ∧
      ∀ c ∈ hc ++ pc, c.header.submessageCount
        = divideAndRoundUp h.userHeaderSize M + divideAndRoundUp h.userPayloadSize M := by
  obtain ⟨hc', pc', hsub', hlen, hlen', htiles, htiles'⟩ :=
    submessages_cut h userHeader userPayload hM hpos hlt
  obtain ⟨rfl, rfl⟩ : hc' = hc ∧ pc' = pc := by
    rw [hsub] at hsub'
    simpa [eq_comm] using hsub'
  refine ⟨by rw [List.length_append, hlen, hlen'], fun c hmem => ?_⟩
  rcases List.mem_append.mp hmem with hmem | hmem
  · exact (message_eq_iff.mp (htiles.message c hmem)).2.2.1
  · exact (message_eq_iff.mp (htiles'.message c hmem)).2.2.1

/-- **When the segment count is exact.**  For every message of less than `2 ^ 32` bytes and every
transport that can send more than a header: the two loops end, with as many datagrams as they say,
at least one, which tile the message, do not cross the end of the user header and are not too long,
exactly when `CountFits` holds. -/
theorem segment_count_exact_iff (h : IoxChunkDatagramHeader) (userHeader userPayload : List Byte)
    {maxMessageSize : Nat} (hmax : maxIoxChunkDatagramHeaderSerializationSize < maxMessageSize)
    (hlt : h.userHeaderSize.toNat + h.userPayloadSize.toNat < 2 ^ 32) :
    (∃ hc pc, submessages h userHeader userPayload maxMessageSize = some (hc, pc) ∧
        SegmentedExactly h maxMessageSize (hc ++ pc)) ↔
      CountFits h maxMessageSize := by
  obtain ⟨M, hM⟩ : ∃ M, UInt32.ofNat
    (maxMessageSize - maxIoxChunkDatagramHeaderSerializationSize) = M := ⟨_, rfl⟩
  have hroom : dataRoom maxMessageSize = M.toNat := by
    rw [← hM]
    rfl
  rcases Nat.eq_zero_or_pos M.toNat with hzero | hpos
  · -- no room for a byte: nothing is sent, or the loops do not end
    refine iff_of_false ?_ fun hfits => ?_
    · rintro ⟨hc, pc, hsub, hexact⟩
      have := hexact.some
      rw [submessages_noRoom (hroom.trans hzero) hsub] at this
      cases this
    · have := hfits.room
      omega
  · obtain ⟨hc, pc, hsub, -, -, htiles, htiles'⟩ :=
      submessages_cut h userHeader userPayload hM hpos hlt
    obtain ⟨hlength, hcount⟩ := submessages_counted h userHeader userPayload hM hpos hlt hsub
    have hiff := count_eq_iff hpos hlt
    constructor
    · rintro ⟨hc', pc', hsub', hexact⟩
      obtain ⟨rfl, rfl⟩ : hc = hc' ∧ pc = pc' := by
        rw [hsub] at hsub'
        simpa using hsub'
      obtain ⟨c, hmem⟩ := List.exists_mem_of_length_pos hexact.some
      have hwrap := hexact.count c hmem
      rw [hcount c hmem, hlength, hiff] at hwrap
      refine ⟨by omega, ?_, by omega, by omega⟩
      by_contra hnone
      have h₁ : h.userHeaderSize.toNat = 0 := by omega
      have h₂ : h.userPayloadSize.toNat = 0 := by omega
      have := hexact.some
      rw [hlength, h₁, h₂, roundUp_zero hpos] at this
      omega
    · intro hfits
      obtain ⟨-, hsome, hheader, hpayload⟩ := hfits
      rw [hroom] at hheader hpayload
      refine ⟨hc, pc, hsub, ⟨fun c hmem => ?_, ?_, ?_, fun c hmem => ?_, fun c hmem => ?_⟩⟩
      · rw [hcount c hmem, hlength, hiff]
        exact ⟨hheader, hpayload⟩
      · rw [hlength]
        rcases Nat.eq_zero_or_pos h.userHeaderSize.toNat with hz | hz
        · have hp : 0 < h.userPayloadSize.toNat := by omega
          exact Nat.le_add_left_of_le (roundUp_pos hpos hp)
        · exact Nat.le_add_right_of_le (roundUp_pos hpos hz)
      · exact (htiles.consecutive (Nat.zero_le _)).append
          (htiles'.consecutive (Nat.le_add_right _ _))
      · rcases List.mem_append.mp hmem with hmem | hmem
        · exact Or.inl (htiles.le_stop c hmem)
        · exact Or.inr (htiles'.start_le c hmem)
      · rw [← hroom] at htiles htiles'
        rcases List.mem_append.mp hmem with hmem | hmem
        · exact htiles.datagram_le hmax hmem
        · exact htiles'.datagram_le hmax hmem

/-- A header for a message of these sizes. -/
def demoSizes (userHeaderSize userPayloadSize : UInt32) : IoxChunkDatagramHeader :=
  ⟨⟨1, 2, 3, 4⟩, 7, 0, 0, 0, userPayloadSize, 8, userHeaderSize⟩

/-- A message of three and five bytes, four to a datagram. -/
theorem segment_count_exact_demo :
    CountFits (demoSizes 3 5) 48 ∧
      ∃ hc pc, submessages (demoSizes 3 5) [1, 2, 3] [4, 5, 6, 7, 8] 48 = some (hc, pc) ∧
        SegmentedExactly (demoSizes 3 5) 48 (hc ++ pc) := by
  have hfits : CountFits (demoSizes 3 5) 48 := ⟨by decide, by decide, by decide, by decide⟩
  exact ⟨hfits, (segment_count_exact_iff _ _ _ (by decide) (by decide)).mpr hfits⟩

/-- A payload of `2 ^ 32 - 1` bytes over UDP: there are 131249 datagrams, which all say that there
are none.  An empty message is not sent. -/
theorem segment_count_wraps :
    (∃ hc pc, submessages (demoSizes 0 4294967295) [] (List.replicate 4294967295 0) 32768
        = some (hc, pc) ∧ (hc ++ pc).length = 131249 ∧
      (∀ c ∈ hc ++ pc, c.header.submessageCount = 0) ∧
      ¬ SegmentedExactly (demoSizes 0 4294967295) 32768 (hc ++ pc)) ∧
    submessages (demoSizes 0 0) [] [] 32768 = some ([], []) := by
  refine ⟨?_, rfl⟩
  have hM : UInt32.ofNat (32768 - maxIoxChunkDatagramHeaderSerializationSize) = 32724 := rfl
  obtain ⟨hc, pc, hsub, -⟩ := submessages_cut (demoSizes 0 4294967295) []
    (List.replicate 4294967295 0) hM (by decide) (by decide)
  obtain ⟨hlength, hcount⟩ := submessages_counted _ _ _ hM (by decide) (by decide) hsub
  have hzero : ∀ c ∈ hc ++ pc, c.header.submessageCount = 0 := hcount
  refine ⟨hc, pc, hsub, hlength, hzero, fun hexact => ?_⟩
  obtain ⟨c, hmem⟩ := List.exists_mem_of_length_pos hexact.some
  have := hexact.count c hmem
  rw [hzero c hmem, hlength] at this
  exact absurd this (by decide)

end P3com
