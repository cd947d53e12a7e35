/-
# `Transport2Iceoryx` and `SegmentedMessageManager` as one machine

`source/p3com/gateway/transport_to_iox.cpp` and `source/p3com/generic/segmented_messages.cpp`.

`receive`, `loanBuffer`, `releaseBuffer` and `updateChannels` run with the endpoints mutex held
from their first look at the endpoints to their end, so at any moment at most one of them is under
way: the `holder`.  It advances one section at a time, and between two of its sections the table
of segmented messages, which has a mutex of its own, may change under it.  The only handler that
can do this is `checkSegmentedMessages`: it takes an expired message out of the table under the
table's mutex alone and releases the payload later, under the endpoints mutex.  Any number of
sweeps may be under way.

A step is one such section.  The label says who moves and what the environment answers (the clock,
the result of `loan`).  `step` is `none` where the move is impossible: the mutex is taken, or an
`Expects` fails in `deserialize` and the process is gone.

Chunks are numbered by loan, so a chunk id is never reused; iceoryx promises that a loan returns a
buffer that nobody else holds.  Every call of `loan`, `publish` and `release` and every access to
a chunk is recorded in `log`, newest first.
-/
import P3com.Gateway.Gateway
import P3com.Generic.DataReader
import P3com.Generic.Serialization
import P3com.Lib.Run
import Mathlib.Tactic.Simps.Basic

namespace P3com.TransportToIox

/-! ## State -/

/-- What the run has done, newest first in the log. -/
inductive Event
  /-- `receive` accepted a datagram and found its channel. -/
  | delivered (datagram : List Byte)
  /-- `receive` accepted a datagram of this message but there is no channel for it. -/
  | noChannel (messageHash : Hash)
  | loaned (c : ChunkId) (publisher : PublisherId)
  | loanFailed (messageHash : Hash)
  /-- `push` found the table full. -/
  | rejected (messageHash : Hash) (c : ChunkId)
  /-- `checkSegmentedMessages` took the message out of the table. -/
  | timedOut (messageHash : Hash) (c : ChunkId)
  /-- `releaseAll` took the message out of the table. -/
  | discarded (messageHash : Hash) (c : ChunkId)
  /-- `takeNext` copied into the chunk. -/
  | written (c : ChunkId) (range : Range)
  /-- `loanBuffer` returned a pointer into the chunk. -/
  | bufferReturned (c : ChunkId) (part : Part)
  /-- `TransportForwarder::push`. -/
  | forwarded (c : ChunkId) (serviceHash : ClassHash) (device : DeviceIndex)
  /-- `publish` in a handler for this message, with the chunk as it was then. -/
  | published (c : ChunkId) (publisher : PublisherId) (messageHash : Hash) (content : Option Chunk)
  | released (c : ChunkId) (publisher : PublisherId)
deriving DecidableEq

/-- The local variables of a handler: the datagram header, the bytes after it, the device and the
publisher of the channel. -/
structure Call where
  header : IoxChunkDatagramHeader
  data : List Byte
  device : DeviceIndex
  publisher : PublisherId
deriving DecidableEq

/-- The section that the holder of the endpoints mutex runs next. -/
inductive Handler
  | receiveFind (x : Call)
  | receiveLoan (x : Call)
  | receivePush (x : Call) (c : ChunkId)
  | receiveTake (x : Call) (userHeader : Option ChunkId) (userPayload : ChunkId)
      (shouldPublish : Bool)
  | receivePublish (x : Call) (userPayload : ChunkId)
  | loanFind (x : Call)
  | loanLoan (x : Call)
  | loanPush (x : Call) (c : ChunkId)
  | loanReturn (x : Call) (userHeader : Option ChunkId) (userPayload : ChunkId)
  | releaseRelease (x : Call)
  | releaseDecrement (x : Call)
  | releasePublish (x : Call) (userPayload : ChunkId)
  | updateChannels (servicesToDelete servicesToSetup : List ServiceDescription)
deriving DecidableEq

/-- A run of `checkSegmentedMessages`: its `now`, and `msgToRelease` once a section has taken a
message out of the table. -/
structure Sweep where
  now : Time
  msgToRelease : Option SegmentedMessage
deriving DecidableEq

structure State where
  endpoints : Endpoints
  /-- The identity of the next publisher object. -/
  nextEndpoint : Nat
  segmented : SegmentedTable
  holder : Option Handler
  sweeps : List Sweep
  /-- Every chunk loaned so far. -/
  chunks : List Chunk
  log : List Event
deriving DecidableEq

/-- The gateway after its construction. -/
def State.init : State where
  endpoints := VectorMap.empty
  nextEndpoint := 0
  segmented := VectorMap.empty
  holder := none
  sweeps := []
  chunks := []
  log := []

inductive Label
  | receive (datagram : List Byte) (device : DeviceIndex)
  | loanBuffer (serializedHeader : List Byte)
  | releaseBuffer (serializedHeader : List Byte) (shouldRelease : Bool) (device : DeviceIndex)
  | updateChannels (services : ServiceVector)
  | checkSegmentedMessages (now : Time)
  /-- The holder of the endpoints mutex runs its next section.  `now` is what the clock reads and
  `loan` what a loan finds: no chunk, or a chunk with the given bytes left over in it. -/
  | proceed (now : Time) (loan : Option (Nat → Byte))
  /-- The `i`-th sweep runs its next section. -/
  | sweep (i : Nat)

/-! ## Sections -/

namespace State

/-- The holder moves on to its next section, or returns and unlocks the mutex. -/
@[simps] def goto (s : State) (next : Option Handler) : State := { s with holder := next }

@[simps] def record (s : State) (e : Event) : State := { s with log := e :: s.log }

/-- `NS_PER_BYTE * (userHeaderSize + userPayloadSize)` after now, the sum in 32 bits. -/
def deadline (h : IoxChunkDatagramHeader) (now : Time) : Time :=
  now + 500 * (h.userHeaderSize + h.userPayloadSize).toNat

/-- The user header pointer of a chunk loaned for this datagram. -/
def userHeaderOf (h : IoxChunkDatagramHeader) (c : ChunkId) : Option ChunkId :=
  if h.userHeaderSize ≠ 0 then some c else none

/-- What `publisher.loan` returns for this datagram: buffers of the requested sizes, with whatever
bytes were in them. -/
def loanedChunk (x : Call) (fill : Nat → Byte) : Chunk where
  publisher := x.publisher
  userHeader :=
    if x.header.userHeaderSize ≠ 0 then
      some ((List.range x.header.userHeaderSize.toNat).map fill)
    else none
  userPayload := (List.range x.header.userPayloadSize.toNat).map fill

/-- A successful loan. -/
@[simps] def loan (s : State) (x : Call) (fill : Nat → Byte) : State :=
  { s with
    chunks := s.chunks ++ [loanedChunk x fill]
    log := .loaned s.chunks.length x.publisher :: s.log }

/-- `SegmentedMessageManager::push`: a full table releases the payload at once. -/
def pushSegmented (s : State) (x : Call) (remaining : UInt32) (c : ChunkId) (now : Time) : State :=
  match s.segmented.push x.header.messageHash
      ⟨remaining, userHeaderOf x.header c, c, x.publisher, deadline x.header now⟩ with
  | some t => { s with segmented := t }
  | none => (s.record (.rejected x.header.messageHash c)).record (.released c x.publisher)

/-- The chunk into whose buffer `takeNext` writes: none through a null user header. -/
def takeNextTarget (h : IoxChunkDatagramHeader) (userHeader : Option ChunkId)
    (userPayload : ChunkId) : Option ChunkId :=
  match (takeNextRange h).part with
  | .userHeader => userHeader
  | .userPayload => some userPayload

/-- `takeNext`. -/
def takeNext (s : State) (x : Call) (userHeader : Option ChunkId) (userPayload : ChunkId) :
    State :=
  match takeNextTarget x.header userHeader userPayload with
  | none => s
  | some c =>
    { s with
      chunks := s.chunks.modify c fun chunk =>
        chunk.write (takeNextRange x.header).part (takeNextRange x.header).offset x.data
      log := .written c (takeNextRange x.header) :: s.log }

/-- `m_transportForwarder.push` and `publisher.publish`. -/
def publish (s : State) (x : Call) (c : ChunkId) : State :=
  (s.record (.forwarded c x.header.serviceHash x.device)).record
    (.published c x.publisher x.header.messageHash s.chunks[c]?)

/-- `deleteChannel`: release the segmented messages of the publisher, then erase the endpoint. -/
def deleteChannel (getClassHash : ServiceDescription → ClassHash) (s : State)
    (service : ServiceDescription) : State :=
  match s.endpoints.discardChannel getClassHash service with
  | (none, _) => s
  | (some e, endpoints) =>
    let (segmented, released) := s.segmented.releaseAll e.id
    { s with
      endpoints
      segmented
      log := (released.map fun msg => Event.released msg.userPayload e.id).reverse ++
        ((s.segmented.entries.filter fun m => m.2.publisher = e.id).map
          fun m => Event.discarded m.1 m.2.userPayload) ++ s.log }

/-- `setupChannel`: a new publisher object. -/
def setupChannel (getClassHash : ServiceDescription → ClassHash) (s : State)
    (service : ServiceDescription) : State :=
  { s with
    endpoints := s.endpoints.addChannel getClassHash s.nextEndpoint service
    nextEndpoint := s.nextEndpoint + 1 }

/-! The fields that these functions leave alone. -/

@[simp] theorem pushSegmented_sweeps (s : State) (x : Call) (r : UInt32) (c : ChunkId)
    (now : Time) : (s.pushSegmented x r c now).sweeps = s.sweeps := by
  unfold pushSegmented
  split <;> rfl

@[simp] theorem takeNext_sweeps (s : State) (x : Call) (userHeader : Option ChunkId)
    (c : ChunkId) : (s.takeNext x userHeader c).sweeps = s.sweeps := by
  unfold takeNext
  split <;> rfl

@[simp] theorem pushSegmented_chunks (s : State) (x : Call) (r : UInt32) (c : ChunkId)
    (now : Time) : (s.pushSegmented x r c now).chunks = s.chunks := by
  unfold pushSegmented
  split <;> rfl

@[simp] theorem length_takeNext_chunks (s : State) (x : Call) (userHeader : Option ChunkId)
    (c : ChunkId) : (s.takeNext x userHeader c).chunks.length = s.chunks.length := by
  unfold takeNext
  split
  · rfl
  · simp

@[simp] theorem publish_chunks (s : State) (x : Call) (c : ChunkId) :
    (s.publish x c).chunks = s.chunks := rfl

@[simp] theorem deleteChannel_chunks (getClassHash : ServiceDescription → ClassHash) (s : State)
    (service : ServiceDescription) :
    (s.deleteChannel getClassHash service).chunks = s.chunks := by
  unfold deleteChannel
  split <;> rfl

@[simp] theorem publish_sweeps (s : State) (x : Call) (c : ChunkId) :
    (s.publish x c).sweeps = s.sweeps := rfl

@[simp] theorem deleteChannel_sweeps (getClassHash : ServiceDescription → ClassHash) (s : State)
    (service : ServiceDescription) :
    (s.deleteChannel getClassHash service).sweeps = s.sweeps := by
  unfold deleteChannel
  split <;> rfl

/-- One section of the handler that holds the endpoints mutex. -/
def proceed (getClassHash : ServiceDescription → ClassHash) (s : State) (now : Time)
    (answer : Option (Nat → Byte)) : Handler → State
  | .receiveFind x =>
    match s.segmented.findAndDecrement x.header.messageHash with
    | none => s.goto (some (.receiveLoan x))
    | some (msg, shouldPublish, t) =>
      { s with segmented := t }.goto
        (some (.receiveTake x msg.userHeader msg.userPayload shouldPublish))
  | .receiveLoan x =>
    match answer with
    | none => (s.record (.loanFailed x.header.messageHash)).goto none
    | some fill =>
      let c := s.chunks.length
      (s.loan x fill).goto <|
        if x.header.submessageCount > 1 then some (.receivePush x c)
        else some (.receiveTake x (userHeaderOf x.header c) c true)
  | .receivePush x c =>
    (s.pushSegmented x (x.header.submessageCount - 1) c now).goto
      (some (.receiveTake x (userHeaderOf x.header c) c false))
  | .receiveTake x userHeader userPayload shouldPublish =>
    (s.takeNext x userHeader userPayload).goto
      (if shouldPublish then some (.receivePublish x userPayload) else none)
  | .receivePublish x c => (s.publish x c).goto none
  | .loanFind x =>
    match s.segmented.findElem x.header.messageHash with
    | none => s.goto (some (.loanLoan x))
    | some (_, msg) => s.goto (some (.loanReturn x msg.userHeader msg.userPayload))
  | .loanLoan x =>
    match answer with
    | none => (s.record (.loanFailed x.header.messageHash)).goto none
    | some fill => (s.loan x fill).goto (some (.loanPush x s.chunks.length))
  | .loanPush x c =>
    (s.pushSegmented x x.header.submessageCount c now).goto
      (some (.loanReturn x (userHeaderOf x.header c) c))
  | .loanReturn x userHeader userPayload =>
    if x.header.submessageOffset < x.header.userHeaderSize then
      match userHeader with
      | none => s.goto none
      | some c => (s.record (.bufferReturned c .userHeader)).goto none
    else
      (s.record (.bufferReturned userPayload .userPayload)).goto none
  | .releaseRelease x =>
    match s.segmented.release x.header.messageHash with
    | none => s.goto none
    | some (msg, t) =>
      ({ s with segmented := t }.record (.released msg.userPayload msg.publisher)).goto none
  | .releaseDecrement x =>
    match s.segmented.findAndDecrement x.header.messageHash with
    | none => s.goto none
    | some (msg, shouldPublish, t) =>
      { s with segmented := t }.goto
        (if shouldPublish then some (.releasePublish x msg.userPayload) else none)
  | .releasePublish x c => (s.publish x c).goto none
  | .updateChannels (service :: toDelete) toSetup =>
    (s.deleteChannel getClassHash service).goto (some (.updateChannels toDelete toSetup))
  | .updateChannels [] (service :: toSetup) =>
    (s.setupChannel getClassHash service).goto (some (.updateChannels [] toSetup))
  | .updateChannels [] [] => s.goto none

/-- One section of a sweep: take an expired message out of the table, or release the one taken
out before.  Releasing needs the endpoints mutex. -/
def proceedSweep (s : State) (i : Nat) (w : Sweep) : Option State :=
  match w.msgToRelease with
  | none =>
    match s.segmented.takeExpired w.now with
    | none => some { s with sweeps := s.sweeps.eraseIdx i }
    | some (h, msg, t) =>
      some { s with
        segmented := t
        sweeps := s.sweeps.set i ⟨w.now, some msg⟩
        log := .timedOut h msg.userPayload :: s.log }
  | some msg =>
    if s.holder = none then
      some { s with
        sweeps := s.sweeps.set i ⟨w.now, none⟩
        log := .released msg.userPayload msg.publisher :: s.log }
    else none

end State

/-- The size check of `receive`, in the 32-bit arithmetic of the source. -/
def sizeCheck (datagram : List Byte) (h : IoxChunkDatagramHeader) (headerSize : Nat) : Bool :=
  datagram.length = (h.submessageSize + UInt32.ofNat headerSize).toNat

/-- The beginning of `receive`: deserialize, check the size, look up the channel. -/
def receive (s : State) (datagram : List Byte) (device : DeviceIndex) : Option State :=
  match deserialize datagram with
  | none => none
  | some (h, n) =>
    if sizeCheck datagram h n then
      match s.endpoints.doForChannel h.serviceHash with
      | none => some (s.record (.noChannel h.messageHash))
      | some e => some ((s.record (.delivered datagram)).goto
          (some (.receiveFind ⟨h, datagram.drop n, device, e.id⟩)))
    else some s

/-- The beginning of `loanBuffer`. -/
def loanBuffer (s : State) (serializedHeader : List Byte) : Option State :=
  match deserialize serializedHeader with
  | none => none
  | some (h, _) =>
    match s.endpoints.doForChannel h.serviceHash with
    | none => some s
    | some e => some (s.goto (some (.loanFind ⟨h, [], ⟨.none, 0⟩, e.id⟩)))

/-- The beginning of `releaseBuffer`. -/
def releaseBuffer (s : State) (serializedHeader : List Byte) (shouldRelease : Bool)
    (device : DeviceIndex) : Option State :=
  match deserialize serializedHeader with
  | none => none
  | some (h, _) =>
    match s.endpoints.doForChannel h.serviceHash with
    | none => some s
    | some e =>
      let x : Call := ⟨h, [], device, e.id⟩
      some (s.goto (some (if shouldRelease then .releaseRelease x else .releaseDecrement x)))

/-- One step of the machine. -/
def step (getClassHash : ServiceDescription → ClassHash) (s : State) : Label → Option State
  | .receive datagram device => if s.holder = none then receive s datagram device else none
  | .loanBuffer header => if s.holder = none then loanBuffer s header else none
  | .releaseBuffer header shouldRelease device =>
    if s.holder = none then releaseBuffer s header shouldRelease device else none
  | .updateChannels services =>
    if s.holder = none then
      some (s.goto (some (.updateChannels (s.endpoints.servicesToDelete services).toList
        (s.endpoints.servicesToSetup getClassHash services).toList)))
    else none
  | .checkSegmentedMessages now => some { s with sweeps := s.sweeps ++ [⟨now, none⟩] }
  | .proceed now answer => s.holder.map (s.proceed getClassHash now answer)
  | .sweep i => s.sweeps[i]?.bind (s.proceedSweep i)

/-- The states that some run of the machine reaches. -/
def Reachable (getClassHash : ServiceDescription → ClassHash) (s : State) : Prop :=
  ∃ ls, Run.exec (step getClassHash) State.init ls = some s

/-! ## What a step can do -/

variable {getClassHash : ServiceDescription → ClassHash} {s s' : State}

/-- The handler has not run a section since it took the mutex. -/
def Handler.isFirst : Handler → Bool
  | .receiveFind _ => true
  | .loanFind _ => true
  | .releaseRelease _ => true
  | .releaseDecrement _ => true
  | .updateChannels _ _ => true
  | _ => false

/-- The event records that a datagram came in. -/
def Event.isArrival : Event → Bool
  | .delivered _ => true
  | .noChannel _ => true
  | _ => false

/-- The beginning of a handler: it takes the mutex, or gives up at once. -/
def Begins (s s' : State) : Prop :=
  s.holder = none ∧ ∃ events next, s' = { s with holder := next, log := events ++ s.log } ∧
    (∀ h, next = some h → h.isFirst = true) ∧ ∀ e ∈ events, e.isArrival = true

/-- What the first section of `receive` can do: discard the datagram, find no channel for it, or
take the mutex. -/
theorem receive_eq_some {datagram : List Byte} {device : DeviceIndex}
    (h : receive s datagram device = some s') :
    ∃ hd n, deserialize datagram = some (hd, n) ∧
      ((sizeCheck datagram hd n = false ∧ s' = s) ∨
        (sizeCheck datagram hd n = true ∧ s.endpoints.doForChannel hd.serviceHash = none ∧
          s' = s.record (.noChannel hd.messageHash)) ∨
        (∃ e, sizeCheck datagram hd n = true ∧
          s.endpoints.doForChannel hd.serviceHash = some e ∧
          s' = (s.record (.delivered datagram)).goto
            (some (.receiveFind ⟨hd, datagram.drop n, device, e.id⟩)))) := by
  unfold receive at h
  split at h
  · cases h
  · rename_i hd n hdes
    refine ⟨hd, n, hdes, ?_⟩
    split at h
    · rename_i hcheck
      split at h
      · rename_i hchan
        exact Or.inr (Or.inl ⟨hcheck, hchan, (Option.some.inj h).symm⟩)
      · rename_i e hchan
        exact Or.inr (Or.inr ⟨e, hcheck, hchan, (Option.some.inj h).symm⟩)
    · rename_i hcheck
      exact Or.inl ⟨by simpa using hcheck, (Option.some.inj h).symm⟩

/-- A handler that finds nothing to do leaves the state as it is. -/
theorem Begins.stay (hfree : s.holder = none) : Begins s s :=
  ⟨hfree, [], none, by simp [← hfree], by simp, by simp⟩

theorem Begins.take (hfree : s.holder = none) {h : Handler} (hfirst : h.isFirst = true) :
    Begins s (s.goto (some h)) :=
  ⟨hfree, [], some h, rfl, fun _ heq => Option.some.inj heq ▸ hfirst, by simp⟩

theorem begins_receive {datagram : List Byte} {device : DeviceIndex} (hfree : s.holder = none)
    (h : receive s datagram device = some s') : Begins s s' := by
  obtain ⟨hd, n, -, ⟨-, rfl⟩ | ⟨-, -, rfl⟩ | ⟨e, -, -, rfl⟩⟩ := receive_eq_some h
  · exact Begins.stay hfree
  · exact ⟨hfree, [.noChannel hd.messageHash], none, by simp [State.record, ← hfree], by simp,
      by simp [Event.isArrival]⟩
  · exact ⟨hfree, [.delivered datagram], some _, rfl, by simp [Handler.isFirst],
      by simp [Event.isArrival]⟩

/-- **The steps.**  A handler begins, a sweep begins, the holder of the mutex runs a section, or a
sweep runs one. -/
theorem step_cases {l : Label} (h : step getClassHash s l = some s') :
    Begins s s' ∨
      (∃ now, l = .checkSegmentedMessages now ∧
        s' = { s with sweeps := s.sweeps ++ [⟨now, none⟩] }) ∨
      (∃ hd now answer, l = .proceed now answer ∧ s.holder = some hd ∧
        s' = s.proceed getClassHash now answer hd) ∨
      ∃ i w, l = .sweep i ∧ s.sweeps[i]? = some w ∧ s.proceedSweep i w = some s' := by
  cases l with
  | receive datagram device =>
    simp only [step] at h
    split at h
    · exact Or.inl (begins_receive ‹_› h)
    · cases h
  | loanBuffer header =>
    simp only [step, loanBuffer] at h
    split at h
    · rename_i hfree
      split at h
      · cases h
      · split at h
        · exact Or.inl (Option.some.inj h ▸ Begins.stay hfree)
        · exact Or.inl (Option.some.inj h ▸ Begins.take hfree rfl)
    · cases h
  | releaseBuffer header shouldRelease device =>
    simp only [step, releaseBuffer] at h
    split at h
    · rename_i hfree
      split at h
      · cases h
      · split at h
        · exact Or.inl (Option.some.inj h ▸ Begins.stay hfree)
        · refine Or.inl (Option.some.inj h ▸ Begins.take hfree ?_)
          cases shouldRelease <;> rfl
    · cases h
  | updateChannels services =>
    simp only [step] at h
    split at h
    · exact Or.inl (Option.some.inj h ▸ Begins.take ‹_› rfl)
    · cases h
  | checkSegmentedMessages now => exact Or.inr (Or.inl ⟨now, rfl, (Option.some.inj h).symm⟩)
  | proceed now answer =>
    obtain ⟨hd, hh, rfl⟩ := Option.map_eq_some_iff.mp h
    exact Or.inr (Or.inr (Or.inl ⟨hd, now, answer, rfl, hh, rfl⟩))
  | sweep i =>
    obtain ⟨w, hw, hstep⟩ := Option.bind_eq_some_iff.mp h
    exact Or.inr (Or.inr (Or.inr ⟨i, w, rfl, hw, hstep⟩))

/-- The sections of a sweep: the last one, taking a message out of the table, and releasing it. -/
theorem proceedSweep_cases {i : Nat} {w : Sweep} (h : s.proceedSweep i w = some s') :
    (w.msgToRelease = none ∧ s.segmented.takeExpired w.now = none ∧
        s' = { s with sweeps := s.sweeps.eraseIdx i }) ∨
      (∃ k msg t, w.msgToRelease = none ∧ s.segmented.takeExpired w.now = some (k, msg, t) ∧
        s' = { s with
          segmented := t
          sweeps := s.sweeps.set i ⟨w.now, some msg⟩
          log := .timedOut k msg.userPayload :: s.log }) ∨
      (∃ msg, w.msgToRelease = some msg ∧ s.holder = none ∧
        s' = { s with
          sweeps := s.sweeps.set i ⟨w.now, none⟩
          log := .released msg.userPayload msg.publisher :: s.log }) := by
  unfold State.proceedSweep at h
  split at h
  · rename_i hnone
    split at h
    · rename_i ht
      exact Or.inl ⟨hnone, ht, (Option.some.inj h).symm⟩
    · rename_i k msg t ht
      exact Or.inr (Or.inl ⟨k, msg, t, hnone, ht, (Option.some.inj h).symm⟩)
  · rename_i msg hsome
    split at h
    · rename_i hfree
      exact Or.inr (Or.inr ⟨msg, hsome, hfree, (Option.some.inj h).symm⟩)
    · cases h

/-- What `push` records: nothing, or that the table was full. -/
theorem pushSegmented_log (s : State) (x : Call) (remaining : UInt32) (c : ChunkId) (now : Time) :
    (s.pushSegmented x remaining c now).log = s.log ∨
      (s.pushSegmented x remaining c now).log
        = .released c x.publisher :: .rejected x.header.messageHash c :: s.log := by
  unfold State.pushSegmented
  split
  · exact Or.inl rfl
  · exact Or.inr rfl

/-- A section only adds to the log.  No section of the holder records an arrival, the only one that
writes to a chunk is that of `takeNext`, and the last ones publish. -/
theorem proceed_log (getClassHash : ServiceDescription → ClassHash) (s : State) (now : Time)
    (answer : Option (Nat → Byte)) (h : Handler) :
    ∃ events, (s.proceed getClassHash now answer h).log = events ++ s.log ∧
      ∀ e ∈ events, e.isArrival = false ∧
        (∀ c r, e = .written c r → ∃ x userHeader userPayload shouldPublish,
          h = .receiveTake x userHeader userPayload shouldPublish ∧
          State.takeNextTarget x.header userHeader userPayload = some c ∧
          r = takeNextRange x.header) ∧
        ∀ c p k content, e = .published c p k content →
          ∃ x, h = .receivePublish x c ∨ h = .releasePublish x c := by
  cases h with
  | receiveFind x =>
    simp only [State.proceed]
    split <;> exact ⟨[], rfl, by simp⟩
  | receiveLoan x =>
    cases answer with
    | none => exact ⟨[.loanFailed x.header.messageHash], rfl, by simp [Event.isArrival]⟩
    | some fill => exact ⟨[.loaned s.chunks.length x.publisher], rfl, by simp [Event.isArrival]⟩
  | receivePush x c =>
    rcases pushSegmented_log s x (x.header.submessageCount - 1) c now with hlog | hlog
    · exact ⟨[], hlog, by simp⟩
    · exact ⟨[.released c x.publisher, .rejected x.header.messageHash c], hlog,
        by simp [Event.isArrival]⟩
  | receiveTake x userHeader userPayload shouldPublish =>
    simp only [State.proceed, State.goto_log, State.takeNext]
    split
    · exact ⟨[], rfl, by simp⟩
    · rename_i c' htarget
      refine ⟨[.written c' (takeNextRange x.header)], rfl, fun e he => ?_⟩
      obtain rfl := List.mem_singleton.mp he
      refine ⟨rfl, fun c r heq => ?_, by simp⟩
      obtain ⟨rfl, rfl⟩ : c' = c ∧ takeNextRange x.header = r := by simpa using heq
      exact ⟨x, userHeader, userPayload, shouldPublish, rfl, htarget, rfl⟩
  | receivePublish x c => exact ⟨[_, _], rfl, by simp +contextual [Event.isArrival]⟩
  | loanFind x =>
    simp only [State.proceed]
    split <;> exact ⟨[], rfl, by simp⟩
  | loanLoan x =>
    cases answer with
    | none => exact ⟨[.loanFailed x.header.messageHash], rfl, by simp [Event.isArrival]⟩
    | some fill => exact ⟨[.loaned s.chunks.length x.publisher], rfl, by simp [Event.isArrival]⟩
  | loanPush x c =>
    rcases pushSegmented_log s x x.header.submessageCount c now with hlog | hlog
    · exact ⟨[], hlog, by simp⟩
    · exact ⟨[.released c x.publisher, .rejected x.header.messageHash c], hlog,
        by simp [Event.isArrival]⟩
  | loanReturn x userHeader userPayload =>
    simp only [State.proceed]
    split
    · cases userHeader with
      | none => exact ⟨[], rfl, by simp⟩
      | some c => exact ⟨[.bufferReturned c .userHeader], rfl, by simp [Event.isArrival]⟩
    · exact ⟨[.bufferReturned userPayload .userPayload], rfl, by simp [Event.isArrival]⟩
  | releaseRelease x =>
    simp only [State.proceed]
    split
    · exact ⟨[], rfl, by simp⟩
    · exact ⟨[_], rfl, by simp [Event.isArrival]⟩
  | releaseDecrement x =>
    simp only [State.proceed]
    split <;> exact ⟨[], rfl, by simp⟩
  | releasePublish x c => exact ⟨[_, _], rfl, by simp +contextual [Event.isArrival]⟩
  | updateChannels toDelete toSetup =>
    cases toDelete with
    | cons service toDelete =>
      simp only [State.proceed, State.goto_log, State.deleteChannel]
      split
      · exact ⟨[], rfl, by simp⟩
      · refine ⟨_, rfl, fun e he => ?_⟩
        simp only [List.mem_append, List.mem_reverse, List.mem_map] at he
        rcases he with ⟨msg, -, rfl⟩ | ⟨m, -, rfl⟩ <;> exact ⟨rfl, by simp⟩
    | nil =>
      cases toSetup with
      | cons service toSetup => exact ⟨[], rfl, by simp⟩
      | nil => exact ⟨[], rfl, by simp⟩

end P3com.TransportToIox
