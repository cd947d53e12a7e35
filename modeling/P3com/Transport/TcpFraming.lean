/-
# Framing of messages on a TCP stream

`source/tcp/tcp_transport_session.cpp`.  `sendData` writes the size of the message, eight bytes,
and then the message, with two calls of `asio::write`.  `receiveTcpData` reads eight bytes and then
as many bytes as they say.

A session is used by two threads, the one of `Iceoryx2Transport` and the one of
`TransportForwarder`, and `sendUserData` takes no lock.  When one of them writes between the two
writes of the other, the reader takes the wrong bytes for a message and does not find a size again
(`interleaved_writes_desynchronise`).  When it never does (unless the other's message is empty and
has nothing left to write) the reader delivers an interleaving of the two sequences of messages,
however the stream is cut (`tcp_framing_survives`).
-/
import P3com.Generic.Types
import P3com.Lib.Interleaving
import P3com.Lib.LittleEndian
import P3com.Lib.Run

namespace P3com.TcpFraming

open LittleEndian

/-- `TCPTransportSession::MAX_PACKET_SIZE`. -/
def maxPacketSize : Nat := 65535

/-! ## The writers -/

/-- The threads that call `sendUserData`. -/
inductive Sender
  | iceoryx2Transport
  | transportForwarder
deriving DecidableEq

structure State where
  /-- The message of a thread that is between the two writes of `sendData`. -/
  writing : Sender → Option (List Byte)
  /-- What has been written to the socket. -/
  stream : List Byte
  /-- The messages of each thread, in order, for the statement only. -/
  sent : Sender → List (List Byte)

def State.init : State := ⟨fun _ => none, [], fun _ => []⟩

/-- A label is one call of `asio::write`. -/
inductive Label
  /-- The first write of `sendData(data1, size1, data2, size2)`. -/
  | writeSize (t : Sender) (data1 data2 : List Byte)
  /-- The second write. -/
  | writeData (t : Sender)
deriving DecidableEq

def step (s : State) : Label → Option State
  | .writeSize t data1 data2 =>
    let totalSize := data1.length + data2.length
    if s.writing t = none ∧ totalSize ≤ maxPacketSize then
      some
        { writing := Function.update s.writing t (some (data1 ++ data2))
          stream := s.stream ++ leBytes 8 totalSize
          sent := Function.update s.sent t (s.sent t ++ [data1 ++ data2]) }
    else none
  | .writeData t =>
    (s.writing t).map fun data =>
      { s with
        writing := Function.update s.writing t none
        stream := s.stream ++ data }

/-! ## The reader -/

/-- Which `async_read` of `receiveTcpData` is under way.  `data` has `m_readBufferSize`. -/
inductive Phase
  | size
  | data (readBufferSize : Nat)
deriving DecidableEq

/-- `buffer` is what the `async_read` has read so far, `delivered` what was passed to
`m_dataCallback`. -/
structure Reader where
  phase : Phase
  buffer : List Byte
  delivered : List (List Byte)
deriving DecidableEq

/-- Before the next message. -/
def Reader.start (delivered : List (List Byte)) : Reader := ⟨.size, [], delivered⟩

/-- `readOuter`: read the message into `asio::buffer(m_readBuffer, m_readBufferSize)`, which is not
longer than the array.  A read of no bytes completes at once. -/
def Reader.readOuter (r : Reader) (readBufferSize : Nat) : Reader :=
  if min readBufferSize maxPacketSize = 0 then .start (r.delivered ++ [[]])
  else ⟨.data readBufferSize, [], r.delivered⟩

/-- The number of bytes that the `async_read` waits for. -/
def Phase.wanted : Phase → Nat
  | .size => 8
  | .data readBufferSize => min readBufferSize maxPacketSize

/-- The `async_read` has what it waited for: `readOuter` or `readInner`. -/
def Reader.complete (r : Reader) (buffer : List Byte) : Reader :=
  match r.phase with
  | .size => r.readOuter (leValue buffer)
  | .data _ => .start (r.delivered ++ [buffer])

/-- One byte comes in. -/
def Reader.byte (r : Reader) (b : Byte) : Reader :=
  let buffer := r.buffer ++ [b]
  if buffer.length < r.phase.wanted then { r with buffer } else r.complete buffer

def Reader.bytes (r : Reader) (bs : List Byte) : Reader := bs.foldl Reader.byte r

/-- `receiveTcpData`, on a stream that comes in in pieces. -/
def receiveTcpData (chunks : List (List Byte)) : Reader := chunks.foldl Reader.bytes (.start [])

/-! ## The condition -/

/-- A thread starts a message only when no other thread still has data of a message to write. -/
def Unbroken (s : State) : Label → Prop
  | .writeSize _ _ _ => ∀ t, ∀ data ∈ s.writing t, data = []
  | .writeData _ => True

instance (s : State) : (l : Label) → Decidable (Unbroken s l)
  | .writeSize _ _ _ =>
    decidable_of_iff ((∀ data ∈ s.writing .iceoryx2Transport, data = []) ∧
        ∀ data ∈ s.writing .transportForwarder, data = []) <| by
      constructor
      · rintro ⟨h₁, h₂⟩ t
        cases t
        · exact h₁
        · exact h₂
      · exact fun h => ⟨h _, h _⟩
  | .writeData _ => isTrue trivial

/-! ## What the reader makes of a stream -/

/-- What `sendData` writes for a message. -/
def frame (message : List Byte) : List Byte := leBytes 8 message.length ++ message

section Reading

variable {r : Reader} {delivered : List (List Byte)} {message : List Byte}

theorem bytes_append (r : Reader) (as bs : List Byte) :
    r.bytes (as ++ bs) = (r.bytes as).bytes bs :=
  List.foldl_append

/-- It does not matter how the stream is cut. -/
theorem receiveTcpData_eq (chunks : List (List Byte)) :
    receiveTcpData chunks = (Reader.start []).bytes chunks.flatten := by
  unfold receiveTcpData
  generalize Reader.start [] = r
  induction chunks generalizing r with
  | nil => rfl
  | cons chunk chunks ih => rw [List.foldl_cons, ih, List.flatten_cons, bytes_append]

/-- An `async_read` completes with exactly the bytes that it waited for. -/
theorem bytes_complete {bs : List Byte} (hne : bs ≠ [])
    (h : r.buffer.length + bs.length = r.phase.wanted) :
    r.bytes bs = r.complete (r.buffer ++ bs) := by
  induction bs generalizing r with
  | nil => exact absurd rfl hne
  | cons b bs ih =>
    have hbyte : r.bytes (b :: bs) = (r.byte b).bytes bs := rfl
    rw [hbyte]
    unfold Reader.byte
    cases bs with
    | nil =>
      have hlast : ¬ (r.buffer ++ [b]).length < r.phase.wanted := by
        rw [List.length_append]
        omega
      simp only [hlast, if_false]
      rfl
    | cons b' bs =>
      have hmore : (r.buffer ++ [b]).length < r.phase.wanted := by
        rw [List.length_append]
        simp only [List.length_cons, List.length_nil] at h ⊢
        omega
      have hrest : (r.buffer ++ [b]).length + (b' :: bs).length = r.phase.wanted := by
        rw [← h, List.length_append]
        simp only [List.length_cons, List.length_nil]
        omega
      simp only [hmore, if_true]
      rw [ih (by simp) hrest]
      simp [Reader.complete, Reader.readOuter]

/-- The size of a message is read. -/
theorem bytes_size (h : message.length ≤ maxPacketSize) :
    (Reader.start delivered).bytes (leBytes 8 message.length) =
      (Reader.start delivered).readOuter message.length := by
  have hvalue : leValue (leBytes 8 message.length) = message.length := by
    rw [leValue_leBytes, Nat.mod_eq_of_lt]
    unfold maxPacketSize at h
    omega
  rw [bytes_complete (List.ne_nil_of_length_pos (by simp)) (by simp [Reader.start, Phase.wanted])]
  show (Reader.start delivered).readOuter (leValue (leBytes 8 message.length)) = _
  rw [hvalue]

/-- A whole message is read and delivered. -/
theorem bytes_frame (h : message.length ≤ maxPacketSize) :
    (Reader.start delivered).bytes (frame message) = .start (delivered ++ [message]) := by
  unfold frame
  rw [bytes_append, bytes_size h]
  unfold Reader.readOuter
  rw [Nat.min_eq_left h]
  cases message with
  | nil => rfl
  | cons b bs =>
    rw [if_neg (by simp), bytes_complete (by simp)]
    · rfl
    · simpa [Phase.wanted] using (Nat.min_eq_left h).symm

theorem bytes_frames {messages : List (List Byte)}
    (h : ∀ message ∈ messages, message.length ≤ maxPacketSize) :
    (Reader.start delivered).bytes (messages.flatMap frame) =
      .start (delivered ++ messages) := by
  induction messages generalizing delivered with
  | nil => simp [Reader.bytes]
  | cons message messages ih =>
    rw [List.flatMap_cons, bytes_append, bytes_frame (h message List.mem_cons_self),
      ih fun m hm => h m (List.mem_cons_of_mem _ hm)]
    simp

/-- What has been delivered stays delivered. -/
theorem delivered_prefix (r : Reader) (bs : List Byte) :
    r.delivered <+: (r.bytes bs).delivered := by
  induction bs generalizing r with
  | nil => exact List.prefix_rfl
  | cons b bs ih =>
    have hbyte : r.delivered <+: (r.byte b).delivered := by
      unfold Reader.byte Reader.complete Reader.readOuter Reader.start
      simp only
      split
      · exact List.prefix_rfl
      · split
        · split
          · exact List.prefix_append _ _
          · exact List.prefix_rfl
        · exact List.prefix_append _ _
    exact hbyte.trans (ih (r.byte b))

end Reading

/-! ## The invariant of the writers -/

/-- The message of which only the size has been written, and has more than that. -/
abbrev Half := Option (Sender × List Byte)

/-- The bytes of it. -/
def Half.stream : Half → List Byte
  | none => []
  | some (_, message) => leBytes 8 message.length

/-- The messages of each thread, with this one. -/
def Half.addTo (seqs : Sender → List (List Byte)) : Half → Sender → List (List Byte)
  | none => seqs
  | some (t, message) => Function.update seqs t (seqs t ++ [message])

/-- The stream has whole messages, an interleaving of those of the threads, and at the end perhaps
the size of one more. -/
structure Written (s : State) (messages : List (List Byte)) (seqs : Sender → List (List Byte))
    (half : Half) : Prop where
  interleaves : Interleaves seqs messages
  fits : ∀ message ∈ messages, message.length ≤ maxPacketSize
  stream : s.stream = messages.flatMap frame ++ half.stream
  sent : s.sent = half.addTo seqs
  writing : ∀ t data, s.writing t = some data → data = [] ∨ half = some (t, data)
  half_writing : ∀ t data, half = some (t, data) →
    s.writing t = some data ∧ data ≠ [] ∧ data.length ≤ maxPacketSize

def Inv (s : State) : Prop := ∃ messages seqs half, Written s messages seqs half

variable {s s' : State} {t : Sender} {data1 data2 : List Byte} {messages : List (List Byte)}
  {seqs : Sender → List (List Byte)} {half : Half}

theorem inv_init : Inv State.init :=
  ⟨[], fun _ => [], none, .nil, by simp, rfl, rfl, by simp [State.init], by simp⟩

/-- The stream ends with a whole message of the thread. -/
theorem Written.message (h : Written s messages seqs half) (t : Sender) {message : List Byte}
    (hfits : message.length ≤ maxPacketSize)
    (hstream : s'.stream = messages.flatMap frame ++ frame message)
    (hsent : s'.sent = Function.update seqs t (seqs t ++ [message]))
    (hwriting : ∀ t data, s'.writing t = some data → data = []) : Inv s' := by
  refine ⟨messages ++ [message], _, none, h.interleaves.concat t message, ?_, ?_, hsent,
    fun t data ht => .inl (hwriting t data ht), by simp⟩
  · intro m hm
    rcases List.mem_append.mp hm with hm | hm
    · exact h.fits m hm
    · rw [List.mem_singleton.mp hm]
      exact hfits
  · rw [hstream]
    simp [Half.stream]

/-- What a thread is writing after one of them has moved. -/
theorem update_eq_some {f : Sender → Option (List Byte)} {v : Option (List Byte)} {t' : Sender}
    {data : List Byte} (h : Function.update f t v t' = some data) :
    (t' = t ∧ v = some data) ∨ (t' ≠ t ∧ f t' = some data) := by
  by_cases hne : t' = t
  · subst hne
    rw [Function.update_self] at h
    exact .inl ⟨rfl, h⟩
  · rw [Function.update_of_ne hne] at h
    exact .inr ⟨hne, h⟩

theorem inv_writeSize (hs : Inv s) (hg : Unbroken s (.writeSize t data1 data2))
    (h : step s (.writeSize t data1 data2) = some s') : Inv s' := by
  obtain ⟨messages, seqs, half, hw⟩ := hs
  simp only [step] at h
  split at h
  case isFalse => cases h
  case isTrue hcond =>
    obtain ⟨-, hfits⟩ := hcond
    obtain ⟨data, hdata⟩ : ∃ data, data1 ++ data2 = data := ⟨_, rfl⟩
    have hlen : data1.length + data2.length = data.length := by rw [← hdata, List.length_append]
    rw [hlen, hdata] at h
    rw [hlen] at hfits
    obtain rfl := Option.some.inj h
    -- nobody has data left to write, so the stream ends with a whole message
    obtain rfl : half = none := by
      cases half with
      | none => rfl
      | some m =>
        obtain ⟨hm, hne, -⟩ := hw.half_writing m.1 m.2 rfl
        exact absurd (hg m.1 m.2 hm) hne
    have hsent : s.sent = seqs := hw.sent
    have hstream : s.stream = messages.flatMap frame := by simpa [Half.stream] using hw.stream
    by_cases hempty : data = []
    · subst hempty
      refine hw.message t hfits ?_ (by rw [hsent]) fun t' data' ht' => ?_
      · rw [hstream]
        simp [frame]
      · rcases update_eq_some ht' with ⟨-, hnew⟩ | ⟨-, hold⟩
        · exact (Option.some.inj hnew).symm
        · exact hg t' data' hold
    · refine ⟨messages, seqs, some (t, data), hw.interleaves, hw.fits, ?_, ?_, ?_, ?_⟩
      · rw [hstream]
        rfl
      · rw [hsent]
        rfl
      · intro t' data' ht'
        rcases update_eq_some ht' with ⟨rfl, hnew⟩ | ⟨-, hold⟩
        · exact .inr (by rw [Option.some.inj hnew])
        · exact .inl (hg t' data' hold)
      · rintro t' data' ht'
        obtain ⟨rfl, rfl⟩ := Prod.mk.inj (Option.some.inj ht')
        exact ⟨Function.update_self _ _ _, hempty, hfits⟩

theorem inv_writeData (hs : Inv s) (h : step s (.writeData t) = some s') : Inv s' := by
  obtain ⟨messages, seqs, half, hw⟩ := hs
  simp only [step] at h
  obtain ⟨data, hdata, rfl⟩ := Option.map_eq_some_iff.mp h
  rcases hw.writing t data hdata with rfl | rfl
  · -- an empty message was complete with its size
    refine ⟨messages, seqs, half, hw.interleaves, hw.fits, ?_, hw.sent, ?_, ?_⟩
    · rw [List.append_nil]
      exact hw.stream
    · intro t' data' ht'
      rcases update_eq_some ht' with ⟨-, hnew⟩ | ⟨-, hold⟩
      · cases hnew
      · exact hw.writing t' data' hold
    · intro t' data' ht'
      obtain ⟨hwriting, hne, hfits⟩ := hw.half_writing t' data' ht'
      have hother : t' ≠ t := by
        rintro rfl
        rw [hdata] at hwriting
        exact hne (Option.some.inj hwriting).symm
      exact ⟨(Function.update_of_ne hother _ _).trans hwriting, hne, hfits⟩
  · obtain ⟨-, -, hfits⟩ := hw.half_writing t data rfl
    refine hw.message t hfits ?_ hw.sent fun t' data' ht' => ?_
    · rw [hw.stream]
      simp [Half.stream, frame]
    · rcases update_eq_some ht' with ⟨-, hnew⟩ | ⟨hne, hold⟩
      · cases hnew
      · rcases hw.writing t' data' hold with hempty | heq
        · exact hempty
        · exact absurd (congrArg Prod.fst (Option.some.inj heq)).symm hne

/-- **One write.** -/
theorem inv_step {l : Label} (hs : Inv s) (hg : Unbroken s l) (h : step s l = some s') :
    Inv s' := by
  cases l with
  | writeSize t data1 data2 => exact inv_writeSize hs hg h
  | writeData t => exact inv_writeData hs h

/-! ## The result -/

/-- The whole stream delivers the whole messages. -/
theorem Written.delivered (hw : Written s messages seqs half) :
    ((Reader.start []).bytes s.stream).delivered = messages := by
  rw [hw.stream, bytes_append, bytes_frames hw.fits]
  cases half with
  | none => rfl
  | some m =>
    obtain ⟨t, data⟩ := m
    obtain ⟨-, hne, hfits⟩ := hw.half_writing t data rfl
    show ((Reader.start ([] ++ messages)).bytes (leBytes 8 data.length)).delivered = messages
    rw [bytes_size hfits]
    unfold Reader.readOuter
    rw [Nat.min_eq_left hfits, if_neg (by simpa using hne)]
    rfl

theorem Written.interleaves_sent (hw : Written s messages seqs half) :
    ∃ l, Interleaves s.sent l ∧ messages <+: l ∧ (half = none → messages = l) := by
  rw [hw.sent]
  cases half with
  | none => exact ⟨messages, hw.interleaves, List.prefix_rfl, fun _ => rfl⟩
  | some m =>
    exact ⟨messages ++ [m.2], hw.interleaves.concat m.1 m.2, List.prefix_append _ _, by simp⟩

/-- **Framing survives concurrent senders, as long as no write breaks a message.**  Whatever part
of the stream has come in, in whatever pieces, what is delivered is the beginning of an
interleaving of the messages of the two threads; with the whole stream of finished calls it is the
whole interleaving. -/
theorem tcp_framing_survives (ls : List Label) (s : State)
    (hg : Run.Guarded step Unbroken State.init ls) (h : Run.exec step State.init ls = some s)
    (chunks : List (List Byte)) (hchunks : chunks.flatten <+: s.stream) :
    ∃ l, Interleaves s.sent l ∧ (receiveTcpData chunks).delivered <+: l ∧
      (chunks.flatten = s.stream → (∀ t, s.writing t = none) →
        (receiveTcpData chunks).delivered = l) := by
  obtain ⟨messages, seqs, half, hw⟩ :=
    Run.invariant_guarded Inv (fun _ _ _ => inv_step) inv_init hg h
  obtain ⟨l, hl, hprefix, hwhole⟩ := hw.interleaves_sent
  rw [receiveTcpData_eq]
  refine ⟨l, hl, ?_, fun hall hidle => ?_⟩
  · obtain ⟨rest, hrest⟩ := hchunks
    have hmore := delivered_prefix ((Reader.start []).bytes chunks.flatten) rest
    rw [← bytes_append, hrest, hw.delivered] at hmore
    exact hmore.trans hprefix
  · rw [hall, hw.delivered]
    refine hwhole ?_
    cases half with
    | none => rfl
    | some m =>
      have hwriting := (hw.half_writing m.1 m.2 rfl).1
      rw [hidle m.1] at hwriting
      cases hwriting

/-! ## Two runs -/

/-- A header of 44 bytes. -/
def demoHeader (b : Byte) : List Byte := List.replicate 44 b

/-- Both threads send a message of one payload byte, one after the other. -/
def demoRun : List Label :=
  [.writeSize .iceoryx2Transport (demoHeader 7) [10], .writeData .iceoryx2Transport,
    .writeSize .transportForwarder (demoHeader 8) [20], .writeData .transportForwarder]

/-- The second thread writes its size before the first one has written its message. -/
def demoBroken : List Label :=
  [.writeSize .iceoryx2Transport (demoHeader 7) [10],
    .writeSize .transportForwarder (demoHeader 8) [20], .writeData .iceoryx2Transport,
    .writeData .transportForwarder]

/-- What the two threads are writing. -/
def State.writings (s : State) : Option (List Byte) × Option (List Byte) :=
  (s.writing .iceoryx2Transport, s.writing .transportForwarder)

/-- What they have sent. -/
def State.allSent (s : State) : List (List Byte) × List (List Byte) :=
  (s.sent .iceoryx2Transport, s.sent .transportForwarder)

/-- The stream comes in cut after its third byte. -/
def demoChunks (stream : List Byte) : List (List Byte) := [stream.take 3, stream.drop 3]

theorem flatten_demoChunks (stream : List Byte) : (demoChunks stream).flatten = stream := by
  simp [demoChunks]

theorem tcp_framing_survives_demo : ∃ s, Run.exec step State.init demoRun = some s ∧
    (receiveTcpData (demoChunks s.stream)).delivered =
      [demoHeader 7 ++ [10], demoHeader 8 ++ [20]] ∧
    Interleaves s.sent (receiveTcpData (demoChunks s.stream)).delivered := by
  have hrun : (Run.exec step State.init demoRun).map
      (fun s => ((receiveTcpData (demoChunks s.stream)).delivered, s.writings)) =
      some ([demoHeader 7 ++ [10], demoHeader 8 ++ [20]], (none, none)) := by
    decide +kernel
  obtain ⟨s, hs, hview⟩ := Option.map_eq_some_iff.mp hrun
  obtain ⟨hdelivered, hwriting⟩ := Prod.mk.inj hview
  obtain ⟨hfirst, hsecond⟩ := Prod.mk.inj hwriting
  have hflatten := flatten_demoChunks s.stream
  obtain ⟨l, hl, -, hwhole⟩ := tcp_framing_survives demoRun s (by decide +kernel) hs
    (demoChunks s.stream) (by rw [hflatten])
  refine ⟨s, hs, hdelivered, ?_⟩
  rw [hwhole hflatten fun t => by cases t <;> assumption]
  exact hl

/-- **A write between the two writes of a message desynchronises the stream.**  The reader takes
the size of the second message for the beginning of the first one. -/
theorem interleaved_writes_desynchronise : ∃ s, Run.exec step State.init demoBroken = some s ∧
    (∀ t, s.writing t = none) ∧
    (receiveTcpData [s.stream]).delivered = [leBytes 8 45 ++ List.replicate 37 7] ∧
    ¬ Interleaves s.sent (receiveTcpData [s.stream]).delivered := by
  have hrun : (Run.exec step State.init demoBroken).map
      (fun s => ((receiveTcpData [s.stream]).delivered, s.writings)) =
      some ([leBytes 8 45 ++ List.replicate 37 7], (none, none)) := by
    decide +kernel
  have hmessages : (Run.exec step State.init demoBroken).map State.allSent =
      some ([demoHeader 7 ++ [10]], [demoHeader 8 ++ [20]]) := by
    decide +kernel
  obtain ⟨s, hs, hview⟩ := Option.map_eq_some_iff.mp hrun
  obtain ⟨hdelivered, hwriting⟩ := Prod.mk.inj hview
  obtain ⟨hfirst, hsecond⟩ := Prod.mk.inj hwriting
  rw [hs] at hmessages
  obtain ⟨hsent₁, hsent₂⟩ := Prod.mk.inj (Option.some.inj hmessages)
  refine ⟨s, hs, fun t => by cases t <;> assumption, hdelivered, fun h => ?_⟩
  rw [hdelivered] at h
  obtain ⟨t, ht⟩ := h.mem List.mem_cons_self
  cases t with
  | iceoryx2Transport =>
    rw [hsent₁] at ht
    exact absurd ht (by decide +kernel)
  | transportForwarder =>
    rw [hsent₂] at ht
    exact absurd ht (by decide +kernel)

end P3com.TcpFraming
