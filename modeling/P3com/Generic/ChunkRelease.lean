/-
# When a sent chunk is released

`writeSegmented` (`source/p3com/generic/data_writer.cpp`) hands a taken chunk to the transports of
a list of devices and gives it back to its subscriber.  Here it runs together with the table of
pending messages: a step is one call of the writer (a `sendUserData`, a section under a mutex), or
one section of a buffer-sent callback, or a move of the surroundings (a transport fails, another
message is pushed or released).

The decision to release is taken inside the loop over the devices, once for every device.  So the
chunk is released as often as there are devices in the list, and with two of them the first
release is too early or the total is wrong: `chunk_released_once` says that the chunk is released
exactly once and not too early if and only if there is one device, as long as the table takes the
message and the transport answers pending for the last submessage only.
-/
import P3com.Generic.DataReader
import P3com.Generic.DataWriter
import P3com.Generic.PendingMessages
import P3com.Transport.TransportInfo
import P3com.Lib.Run

namespace P3com

namespace ChunkRelease

/-! ## The machine -/

/-- The arguments of `writeSegmented` that do not change: the datagram header, the bytes of the
chunk, the address of its user payload and the subscriber that took it. -/
structure Message where
  header : IoxChunkDatagramHeader
  userHeader : List Byte
  userPayload : List Byte
  address : UserPayload
  subscriber : Nat
deriving DecidableEq

/-- Where the writer is.  `rest` are the devices after the current one.  `answered` says whether
`sendUserData` has returned true for a submessage of the current device. -/
inductive Stage
  /-- At the head of the loop over the devices; with none left, `writeSegmented` has returned. -/
  | loop (rest : List DeviceIndex)
  /-- Before `writeSegmentedInternal`. -/
  | write (i : DeviceIndex) (rest : List DeviceIndex) (shouldBePending : Bool)
  /-- In one of its loops, with the calls of `sendUserData` that are left. -/
  | send (i : DeviceIndex) (rest : List DeviceIndex) (shouldBePending : Bool)
      (calls : List (Part × Submessage)) (pendingCount : UInt32) (answered : Bool)
  /-- After `writeSegmentedInternal`. -/
  | conclude (rest : List DeviceIndex) (shouldBePending isPending : Bool)
  /-- Before a release of the chunk by the writer itself. -/
  | release (rest : List DeviceIndex)
  /-- Between the two sections of `PendingMessageManager::release`. -/
  | releasePending (rest : List DeviceIndex) (msgToRelease : Option PendingMessage)
  /-- The message could not be pushed: before the release, and after it. -/
  | discard (rest : List DeviceIndex)
  | discarded (rest : List DeviceIndex)
deriving DecidableEq

/-- The devices that the writer has not begun with. -/
def Stage.rest : Stage → List DeviceIndex
  | .loop rest | .write _ rest _ | .send _ rest _ _ _ _ | .conclude rest _ _ | .release rest
  | .releasePending rest _ | .discard rest | .discarded rest => rest

/-- The chunk has been handed to `sendUserData` for every device. -/
def Stage.allHanded : Stage → Bool
  | .loop rest | .conclude rest _ _ | .release rest | .releasePending rest _ => rest.isEmpty
  | .send _ rest _ calls _ _ => rest.isEmpty && calls.isEmpty
  | .write _ _ _ | .discard _ | .discarded _ => false

/-- The writer, the table, the transports and the buffer-sent callbacks between their two sections.
`outstanding` counts the transfers of the chunk that the transports have not reported yet,
`releases` the calls of `subscriber.release` on the chunk, and `early` records whether one of them
came too early. -/
structure State where
  transports : TransportInfo
  pending : PendingMessageManager
  stage : Stage
  callbacks : List PendingMessage
  outstanding : Nat
  releases : Nat
  early : Bool

/-- The call of `writeSegmented`.  The table is empty; what other messages have left in it comes
from the steps of the surroundings before the first one of the writer. -/
def State.start (transports : TransportInfo) (deviceIndices : List DeviceIndex) : State :=
  ⟨transports, .empty, .loop deviceIndices, [], 0, 0, false⟩

/-- `writeSegmented` has returned, and every transfer has been reported and its callback has
returned. -/
def State.Complete (s : State) : Prop :=
  ((∃ rest, s.stage = .discarded rest) ∨ s.stage = .loop []) ∧ s.outstanding = 0 ∧ s.callbacks = []

inductive Label
  /-- The writer, with the answer of the transport if it asks one: `willBePending` or
  `sendUserData`. -/
  | writer (answer : Bool)
  /-- A transport calls back for the chunk: the first section of `release`. -/
  | bufferSent
  /-- The second section, of the `i`-th callback. -/
  | bufferSentRelease (i : Nat)
  | setFailed (type : TransportType)
  | otherPush (address : UserPayload) (subscriber : Nat)
  | otherRelease (address : UserPayload)
deriving DecidableEq

/-- The end of `doFor`. -/
def State.endDoFor (s : State) (type : TransportType) : State :=
  { s with transports := (s.transports.disableFailed type).getD s.transports }

section

variable (msg : Message) (maxMessageSize : TransportType → Nat)

/-- `release` of the chunk, by a subscriber. -/
def State.subscriberRelease (s : State) (subscriber : Nat) : State :=
  if subscriber = msg.subscriber then
    { s with
      releases := s.releases + 1
      early := s.early || !s.stage.allHanded || s.outstanding ≠ 0 }
  else s

/-- The calls of `sendUserData` for a transport, in their order. -/
def calls (type : TransportType) : Option (List (Part × Submessage)) :=
  (submessages msg.header msg.userHeader msg.userPayload (maxMessageSize type)).map fun r =>
    r.1.map (Part.userHeader, ·) ++ r.2.map (Part.userPayload, ·)

/-- The first `doFor` of an iteration of `writeSegmented`. -/
def State.prepare (s : State) (i : DeviceIndex) (rest : List DeviceIndex)
    (willBePending : Bool) : State :=
  if s.transports.isGood i.type && willBePending then
    match s.pending.push msg.address msg.subscriber with
    | none => { s with stage := .discard rest }
    | some pending => { s with pending, stage := .write i rest true }
  else { s with stage := .write i rest false }

/-- One step of the writer. -/
def State.writer (s : State) (answer : Bool) : Option State :=
  match s.stage with
  | .loop [] => none
  | .loop (i :: rest) => some ((s.prepare msg i rest answer).endDoFor i.type)
  | .write i rest shouldBePending =>
    if s.transports.isGood i.type then
      (calls msg maxMessageSize i.type).map fun calls =>
        { s with stage := .send i rest shouldBePending calls 0 false }
    else some ({ s with stage := .conclude rest shouldBePending false }.endDoFor i.type)
  | .send i rest shouldBePending [] pendingCount _ =>
    some ({ s with
      stage := .conclude rest shouldBePending (pendingCount = 1) }.endDoFor i.type)
  | .send i rest shouldBePending ((part, _) :: calls) pendingCount answered =>
    -- a pending user header is logged as a fatal error, and not counted
    some { s with
      stage := .send i rest shouldBePending calls
        (if part = .userPayload ∧ answer = true then pendingCount + 1 else pendingCount)
        (answered || answer)
      outstanding := if answer then s.outstanding + 1 else s.outstanding }
  | .conclude rest shouldBePending isPending =>
    if isPending then some { s with stage := .loop rest }
    else if shouldBePending then
      let (pending, msgToRelease) := s.pending.release msg.address
      some { s with pending, stage := .releasePending rest msgToRelease }
    else some { s with stage := .release rest }
  | .release rest => some { s.subscriberRelease msg msg.subscriber with stage := .loop rest }
  | .releasePending rest none => some { s with stage := .loop rest }
  | .releasePending rest (some found) =>
    some { s.subscriberRelease msg found.subscriber with stage := .loop rest }
  | .discard rest => some { s.subscriberRelease msg msg.subscriber with stage := .discarded rest }
  | .discarded _ => none

/-- One step. -/
def step (s : State) : Label → Option State
  | .writer answer => s.writer msg maxMessageSize answer
  | .bufferSent =>
    if s.outstanding = 0 then none
    else
      let (pending, msgToRelease) := s.pending.release msg.address
      some { s with
        pending
        outstanding := s.outstanding - 1
        callbacks := s.callbacks ++ msgToRelease.toList }
  | .bufferSentRelease i =>
    s.callbacks[i]?.map fun found =>
      { s.subscriberRelease msg found.subscriber with callbacks := s.callbacks.eraseIdx i }
  | .setFailed type => some { s with transports := s.transports.setFailed type }
  | .otherPush address subscriber =>
    some { s with pending := (s.pending.push address subscriber).getD s.pending }
  | .otherRelease address => some { s with pending := (s.pending.release address).1 }

/-! ## What is assumed, and the condition -/

/-- `sendUserData` may answer true here. -/
def Stage.MayAnswer : Stage → Prop
  | .send _ _ shouldBePending (_ :: _) _ answered => shouldBePending = true ∧ answered = false
  | _ => True

instance : DecidablePred Stage.MayAnswer := fun stage =>
  match stage with
  | .send _ _ _ (_ :: _) _ _ => inferInstanceAs (Decidable (_ ∧ _))
  | .send _ _ _ [] _ _ | .loop _ | .write _ _ _ | .conclude _ _ _ | .release _
  | .releasePending _ _ | .discard _ | .discarded _ => isTrue trivial

/-- A transport answers true for at most one submessage of a message, and only when it has said
that the message will be pending. -/
def TransportOk (s : State) : Label → Prop
  | .writer true => s.stage.MayAnswer
  | _ => True

instance {s : State} : DecidablePred (TransportOk s) := fun l =>
  match l with
  | .writer true => inferInstanceAs (Decidable s.stage.MayAnswer)
  | .writer false | .bufferSent | .bufferSentRelease _ | .setFailed _ | .otherPush _ _
  | .otherRelease _ => isTrue trivial

/-- Other messages do not get in the way: the subscriber has taken the chunk once, and no callback
for another message reports its payload. -/
def Apart : Label → Prop
  | .otherPush address subscriber => ¬ (address = msg.address ∧ subscriber = msg.subscriber)
  | .otherRelease address => address ≠ msg.address
  | _ => True

instance : DecidablePred (Apart msg) := fun l =>
  match l with
  | .otherPush _ _ => inferInstanceAs (Decidable (¬ (_ ∧ _)))
  | .otherRelease _ => inferInstanceAs (Decidable (_ ≠ _))
  | .writer _ | .bufferSent | .bufferSentRelease _ | .setFailed _ => isTrue trivial

/-- If the transport answers true, the table takes the message, or this is the last submessage and
one of the user payload. -/
def State.AnswersInOrder (s : State) : Stage → Prop
  | .loop (i :: _) => s.transports.isGood i.type = true →
      msg.address ∉ s.pending.pendingMessages.keys ∧
        s.pending.pendingMessages.size < maxPendingMessageCount
  | .send _ _ _ (call :: calls) _ _ => call.1 = .userPayload ∧ calls = []
  | _ => True

instance {s : State} : DecidablePred (s.AnswersInOrder msg) := fun stage =>
  match stage with
  | .loop (_ :: _) => inferInstanceAs (Decidable (_ → _ ∧ _))
  | .send _ _ _ (_ :: _) _ _ => inferInstanceAs (Decidable (_ ∧ _))
  | .send _ _ _ [] _ _ | .loop [] | .write _ _ _ | .conclude _ _ _ | .release _
  | .releasePending _ _ | .discard _ | .discarded _ => isTrue trivial

/-- The table takes the message, and the transport answers pending only for the last submessage,
one of the user payload. -/
def InOrder (s : State) : Label → Prop
  | .writer true => s.AnswersInOrder msg s.stage
  | _ => True

instance {s : State} : DecidablePred (InOrder msg s) := fun l =>
  match l with
  | .writer true => inferInstanceAs (Decidable (s.AnswersInOrder msg s.stage))
  | .writer false | .bufferSent | .bufferSentRelease _ | .setFailed _ | .otherPush _ _
  | .otherRelease _ => isTrue trivial

end

variable {msg : Message} {maxMessageSize : TransportType → Nat} {s s' : State} {l : Label}

/-! ## Counting the releases -/

/-- The releases that are up to the writer alone. -/
def held (msg : Message) : Stage → Nat
  | .write _ _ shouldBePending | .send _ _ shouldBePending _ _ _ | .conclude _ shouldBePending _ =>
    if shouldBePending then 0 else 1
  | .release _ | .discard _ => 1
  | .releasePending _ found => found.toList.countP fun m => m.subscriber = msg.subscriber
  | .loop _ | .discarded _ => 0

/-- The message is in the table and no transfer has begun. -/
def unsettled : Stage → Nat
  | .write _ _ true | .conclude _ true false => 1
  | .send _ _ true _ pendingCount _ => if pendingCount = 0 then 1 else 0
  | _ => 0

/-- The answers that the writer has seen for the current device. -/
def Stage.Ok : Stage → Prop
  | .send _ _ shouldBePending _ pendingCount answered =>
    (shouldBePending = false → answered = false) ∧
      (pendingCount = 0 ∨ (pendingCount = 1 ∧ answered = true))
  | .conclude _ shouldBePending isPending => isPending = true → shouldBePending = true
  | _ => True

/-- The callbacks that will release the chunk. -/
def State.returning (msg : Message) (s : State) : Nat :=
  s.callbacks.countP fun m => m.subscriber = msg.subscriber

/-- The entries of the table for the chunk. -/
def State.entered (msg : Message) (s : State) : Nat :=
  s.pending.pendingOf msg.address msg.subscriber

/-- For every device that the writer has begun with there is one release: it has happened, it is
up to a callback, the chunk is in the table, or it is up to the writer. -/
structure Counted (msg : Message) (n : Nat) (s : State) : Prop where
  single : s.pending.Single
  stage : s.stage.Ok
  count : s.releases + s.returning msg + s.entered msg + held msg s.stage + s.stage.rest.length = n
  entered_le : s.entered msg ≤ s.outstanding + unsettled s.stage
  discarded : ∀ rest, s.stage = .discarded rest → s.early = true

theorem counted_start (transports : TransportInfo) (deviceIndices : List DeviceIndex) :
    Counted msg deviceIndices.length (State.start transports deviceIndices) where
  single := by
    intro k m hmem
    cases hmem
  stage := trivial
  count := by simp [State.start, State.returning, State.entered, held, Stage.rest,
    PendingMessageManager.pendingOf, PendingMessageManager.empty]
  entered_le := by simp [State.start, State.entered, PendingMessageManager.pendingOf,
    PendingMessageManager.empty]
  discarded := by
    intro rest h
    cases h

/-! ### What a release changes -/

section Release

variable (msg) (s) (subscriber : Nat)

@[simp] theorem stage_subscriberRelease : (s.subscriberRelease msg subscriber).stage = s.stage := by
  unfold State.subscriberRelease
  split <;> rfl

@[simp] theorem pending_subscriberRelease :
    (s.subscriberRelease msg subscriber).pending = s.pending := by
  unfold State.subscriberRelease
  split <;> rfl

@[simp] theorem callbacks_subscriberRelease :
    (s.subscriberRelease msg subscriber).callbacks = s.callbacks := by
  unfold State.subscriberRelease
  split <;> rfl

@[simp] theorem outstanding_subscriberRelease :
    (s.subscriberRelease msg subscriber).outstanding = s.outstanding := by
  unfold State.subscriberRelease
  split <;> rfl

theorem releases_subscriberRelease : (s.subscriberRelease msg subscriber).releases
    = s.releases + if subscriber = msg.subscriber then 1 else 0 := by
  unfold State.subscriberRelease
  split <;> simp [*]

theorem early_of_subscriberRelease (h : (s.subscriberRelease msg subscriber).early = false) :
    s.early = false := by
  unfold State.subscriberRelease at h
  split at h
  · simp only [Bool.or_eq_false_iff] at h
    exact h.1.1
  · exact h

end Release

/-- A step that changes only the place of the writer. -/
theorem Counted.move {n : Nat} (h : Counted msg n s) (hpending : s'.pending = s.pending)
    (hcallbacks : s'.callbacks = s.callbacks) (hstage : s'.stage.Ok)
    (hcount : s'.releases + held msg s'.stage + s'.stage.rest.length
      = s.releases + held msg s.stage + s.stage.rest.length)
    (hunsettled : s.outstanding + unsettled s.stage ≤ s'.outstanding + unsettled s'.stage)
    (hdiscarded : ∀ rest, s'.stage = .discarded rest → s'.early = true) :
    Counted msg n s' where
  single := hpending ▸ h.single
  stage := hstage
  count := by
    have := h.count
    unfold State.returning State.entered at *
    rw [hpending, hcallbacks]
    omega
  entered_le := by
    have := h.entered_le
    unfold State.entered at *
    rw [hpending]
    omega
  discarded := hdiscarded

/-! ### Every step keeps the count -/

/-- The first `doFor` for a device: the release becomes an entry of the table, or it stays with
the writer. -/
theorem Counted.prepare {n : Nat} (h : Counted msg n s) {i : DeviceIndex}
    {rest : List DeviceIndex} (hst : s.stage = .loop (i :: rest)) (answer : Bool) :
    Counted msg n (s.prepare msg i rest answer) := by
  have hcount := h.count
  have hle := h.entered_le
  rw [hst] at hcount hle
  simp only [held, Stage.rest, List.length_cons, unsettled] at hcount hle
  unfold State.prepare
  split
  · split
    · refine h.move rfl rfl trivial ?_ ?_ (by intro _ h; cases h)
      · simp only [hst, held, Stage.rest, List.length_cons]
        omega
      · simp only [hst, unsettled]
        omega
    · rename_i pending hpush
      have hp := PendingMessageManager.pendingOf_push hpush msg.address msg.subscriber
      rw [if_pos ⟨rfl, rfl⟩] at hp
      constructor
      case single => exact h.single.push hpush
      case stage => trivial
      case count =>
        simp only [State.returning, State.entered, hp, held, Stage.rest, if_true] at hcount ⊢
        omega
      case entered_le =>
        simp only [State.entered, hp, unsettled] at hle ⊢
        omega
      case discarded =>
        intro _ h
        cases h
  · refine h.move rfl rfl trivial ?_ ?_ (by intro _ h; cases h)
    · simp only [hst, held, Stage.rest, List.length_cons, Bool.false_eq_true, if_false]
      omega
    · simp only [hst, unsettled]
      omega

/-- The first section of `release`, by the writer or by a callback. -/
theorem Counted.released {n : Nat} (h : Counted msg n s)
    (hpending : s'.pending = (s.pending.release msg.address).1) (hstage : s'.stage.Ok)
    (hcount : s'.releases + s'.returning msg + held msg s'.stage + s'.stage.rest.length
      = s.releases + s.returning msg + held msg s.stage + s.stage.rest.length
        + (s.pending.release msg.address).2.toList.countP fun m => m.subscriber = msg.subscriber)
    (hdiscarded : ∀ rest, s'.stage = .discarded rest → s'.early = true) :
    Counted msg n s' where
  single := hpending ▸ h.single.release msg.address
  stage := hstage
  count := by
    have h₁ := h.count
    have h₂ := PendingMessageManager.pendingOf_release h.single msg.address msg.subscriber
    unfold State.entered at *
    rw [hpending]
    omega
  entered_le := by
    unfold State.entered
    rw [hpending, PendingMessageManager.pendingOf_release_eq_zero h.single]
    omega
  discarded := hdiscarded

theorem Counted.conclude {n : Nat} (h : Counted msg n s) {rest : List DeviceIndex}
    {shouldBePending isPending answer : Bool}
    (hst : s.stage = .conclude rest shouldBePending isPending)
    (hstep : s.writer msg maxMessageSize answer = some s') : Counted msg n s' := by
  have hok := h.stage
  rw [hst] at hok
  simp only [State.writer, hst] at hstep
  split at hstep
  · -- the chunk is pending: its release is left to the callback
    rename_i hp
    obtain rfl := Option.some.inj hstep
    have hsbp : shouldBePending = true := hok hp
    refine h.move rfl rfl trivial ?_ ?_ (by intro _ h; cases h)
    · simp [hst, held, Stage.rest, hsbp]
    · simp [hst, unsettled, hsbp, hp]
  · split at hstep
    · rename_i hsbp
      obtain rfl := Option.some.inj hstep
      refine h.released rfl trivial ?_ (by intro _ h; cases h)
      simp [hst, held, Stage.rest, hsbp, State.returning]
      omega
    · rename_i hsbp
      obtain rfl := Option.some.inj hstep
      refine h.move rfl rfl trivial ?_ ?_ (by intro _ h; cases h)
      · simp [hst, held, Stage.rest, hsbp]
      · simp [hst, unsettled, hsbp]

theorem Counted.writer {n : Nat} {answer : Bool} (h : Counted msg n s)
    (hok : TransportOk s (.writer answer))
    (hstep : s.writer msg maxMessageSize answer = some s') : Counted msg n s' := by
  cases hst : s.stage with
  | loop rest =>
    cases rest with
    | nil => simp [State.writer, hst] at hstep
    | cons i rest =>
      simp only [State.writer, hst, Option.some.injEq] at hstep
      subst hstep
      have hp := h.prepare hst answer
      exact ⟨hp.single, hp.stage, hp.count, hp.entered_le, hp.discarded⟩
  | write i rest shouldBePending =>
    simp only [State.writer, hst] at hstep
    split at hstep
    · obtain ⟨calls, -, rfl⟩ := Option.map_eq_some_iff.mp hstep
      refine h.move rfl rfl ⟨fun _ => rfl, Or.inl rfl⟩ ?_ ?_ (by intro _ h; cases h)
      · simp only [hst, held, Stage.rest]
      · cases shouldBePending <;> simp [hst, unsettled]
    · obtain rfl := Option.some.inj hstep
      refine h.move rfl rfl (fun h => by cases h) ?_ ?_ (by intro _ h; cases h)
      · simp only [State.endDoFor, hst, held, Stage.rest]
      · cases shouldBePending <;> simp [State.endDoFor, hst, unsettled]
  | send i rest shouldBePending calls pendingCount answered =>
    have hsok := h.stage
    rw [hst] at hsok
    cases calls with
    | nil =>
      simp only [State.writer, hst, Option.some.injEq] at hstep
      subst hstep
      refine h.move rfl rfl ?_ ?_ ?_ (by intro _ h; cases h)
      · intro hone
        rcases hsok.2 with h0 | ⟨-, hans⟩
        · simp [h0] at hone
        · cases hb : shouldBePending with
          | true => rfl
          | false => simp [hsok.1 hb] at hans
      · simp only [State.endDoFor, hst, held, Stage.rest]
      · rcases hsok.2 with h0 | ⟨h1, -⟩
        · cases shouldBePending <;> simp [State.endDoFor, hst, unsettled, h0]
        · cases shouldBePending <;> simp [State.endDoFor, hst, unsettled, h1]
    | cons call calls =>
      obtain ⟨part, sub⟩ := call
      simp only [State.writer, hst, Option.some.injEq] at hstep
      subst hstep
      cases answer with
      | false =>
        refine h.move rfl rfl ?_ ?_ ?_ (by intro _ h; cases h)
        · simpa [Stage.Ok] using hsok
        · simp only [hst, held, Stage.rest]
        · cases shouldBePending <;> simp [hst, unsettled]
      | true =>
        -- the only true answer, and the message was expected to be pending
        obtain ⟨hsbp, hans⟩ : shouldBePending = true ∧ answered = false := by
          simpa [TransportOk, hst, Stage.MayAnswer] using hok
        have h0 : pendingCount = 0 := hsok.2.resolve_right fun h => by simp [hans] at h
        refine h.move rfl rfl ?_ ?_ ?_ (by intro _ h; cases h)
        · cases part <;> simp [Stage.Ok, hsbp, h0]
        · simp only [hst, held, Stage.rest]
        · cases part <;> simp [hst, unsettled, hsbp, h0]
  | conclude rest shouldBePending isPending => exact h.conclude hst hstep
  | release rest =>
    simp only [State.writer, hst, Option.some.injEq] at hstep
    subst hstep
    refine h.move (by simp) (by simp) trivial ?_ ?_ (by intro _ h; cases h)
    · simp only [hst, held, Stage.rest, releases_subscriberRelease, if_true]
    · simp [hst, unsettled]
  | releasePending rest found =>
    cases found with
    | none =>
      simp only [State.writer, hst, Option.some.injEq] at hstep
      subst hstep
      refine h.move rfl rfl trivial ?_ ?_ (by intro _ h; cases h)
      · simp [hst, held, Stage.rest]
      · simp [hst, unsettled]
    | some found =>
      simp only [State.writer, hst, Option.some.injEq] at hstep
      subst hstep
      refine h.move (by simp) (by simp) trivial ?_ ?_ (by intro _ h; cases h)
      · simp [hst, held, Stage.rest, releases_subscriberRelease]
      · simp [hst, unsettled]
  | discard rest =>
    simp only [State.writer, hst, Option.some.injEq] at hstep
    subst hstep
    refine h.move (by simp) (by simp) trivial ?_ ?_ ?_
    · simp only [hst, held, Stage.rest, releases_subscriberRelease, if_true]
    · simp [hst, unsettled]
    · intro _ _
      simp [State.subscriberRelease, hst, Stage.allHanded]
  | discarded rest => simp [State.writer, hst] at hstep

/-- **One step.** -/
theorem counted_step {n : Nat} (h : Counted msg n s) (hok : TransportOk s l) (ha : Apart msg l)
    (hstep : step msg maxMessageSize s l = some s') : Counted msg n s' := by
  cases l with
  | writer answer => exact h.writer hok hstep
  | bufferSent =>
    simp only [step] at hstep
    split at hstep
    · cases hstep
    · obtain rfl := Option.some.inj hstep
      refine h.released rfl h.stage ?_ h.discarded
      simp only [State.returning, List.countP_append]
      omega
  | bufferSentRelease i =>
    obtain ⟨found, hi, rfl⟩ := Option.map_eq_some_iff.mp hstep
    have hcount := h.count
    have hc := List.countP_eraseIdx hi fun m => m.subscriber = msg.subscriber
    constructor
    case single => simpa using h.single
    case stage => simpa using h.stage
    case count =>
      simp only [State.returning, State.entered, stage_subscriberRelease,
        pending_subscriberRelease, releases_subscriberRelease, hc] at hcount ⊢
      simp only [decide_eq_true_eq] at hcount
      omega
    case entered_le => simpa [State.entered] using h.entered_le
    case discarded =>
      intro rest hrest
      by_contra hearly
      have := early_of_subscriberRelease msg s found.subscriber (by simpa using hearly)
      rw [h.discarded rest (by simpa using hrest)] at this
      cases this
  | setFailed type =>
    obtain rfl := Option.some.inj hstep
    exact h.move rfl rfl h.stage rfl (Nat.le_refl _) h.discarded
  | otherPush address subscriber =>
    obtain rfl := Option.some.inj hstep
    cases hp : s.pending.push address subscriber with
    | none => exact h.move rfl rfl h.stage rfl (Nat.le_refl _) h.discarded
    | some pending =>
      have heq := PendingMessageManager.pendingOf_push hp msg.address msg.subscriber
      rw [if_neg ha, Nat.add_zero] at heq
      refine ⟨h.single.push hp, h.stage, ?_, ?_, h.discarded⟩
      · simpa [State.returning, State.entered, heq] using h.count
      · simpa [State.entered, heq] using h.entered_le
  | otherRelease address =>
    obtain rfl := Option.some.inj hstep
    have heq := PendingMessageManager.pendingOf_release_other h.single
      (show address ≠ msg.address from ha) msg.subscriber
    refine ⟨h.single.release address, h.stage, ?_, ?_, h.discarded⟩
    · simpa [State.returning, State.entered, heq] using h.count
    · simpa [State.entered, heq] using h.entered_le

/-- **As many releases as devices.**  When everything is over, the chunk has been released once
for each device, unless the writer gave up; and then it released the chunk too early. -/
theorem Counted.complete {n : Nat} (h : Counted msg n s) (hc : s.Complete) :
    (s.stage = .loop [] ∧ s.releases = n) ∨ s.early = true := by
  obtain ⟨hstage | hstage, hout, hcall⟩ := hc
  · obtain ⟨rest, hstage⟩ := hstage
    exact Or.inr (h.discarded rest hstage)
  · have hcount := h.count
    have hle := h.entered_le
    rw [hstage, hout] at hle
    rw [hstage] at hcount
    simp only [State.returning, hcall, List.countP_nil, held, Stage.rest, List.length_nil,
      unsettled] at hcount hle
    exact Or.inl ⟨hstage, by omega⟩

/-! ## Not too early -/

/-- The writer has handed the chunk over and leaves its release to the callback. -/
def Stage.Passed : Stage → Prop
  | .send _ rest shouldBePending calls pendingCount _ =>
    rest = [] ∧ shouldBePending = true ∧ calls = [] ∧ pendingCount = 1
  | .conclude rest shouldBePending isPending =>
    rest = [] ∧ shouldBePending = true ∧ isPending = true
  | .loop rest => rest = []
  | _ => False

/-- One device, and the message has not been refused. -/
def Stage.Only : Stage → Prop
  | .loop rest => rest.length ≤ 1
  | .discard _ | .discarded _ => False
  | stage => stage.rest = []

/-- With one device, nothing is in flight before the chunk has been handed over, and then at most
one callback. -/
structure Ordered (s : State) : Prop where
  stage : s.stage.Only
  flight_le : s.outstanding + s.callbacks.length ≤ 1
  passed : s.outstanding + s.callbacks.length ≠ 0 → s.stage.Passed
  early : s.early = false

theorem Stage.Passed.allHanded {stage : Stage} (h : stage.Passed) : stage.allHanded = true := by
  cases stage with
  | loop rest => simpa [Stage.Passed, Stage.allHanded] using h
  | send i rest sbp calls n a =>
    obtain ⟨hr, -, hc, -⟩ := h
    simp [Stage.allHanded, hr, hc]
  | conclude rest sbp isPending => simp [Stage.allHanded, h.1]
  | _ => exact h.elim

theorem ordered_start (transports : TransportInfo) (i : DeviceIndex) :
    Ordered (State.start transports [i]) where
  stage := Nat.le_refl 1
  flight_le := Nat.zero_le 1
  passed := fun h => absurd rfl h
  early := rfl

/-- A release after the handing over and with no transfer outstanding is not too early. -/
theorem early_subscriberRelease (h : s.early = false) (hall : s.stage.allHanded = true)
    (hout : s.outstanding = 0) (subscriber : Nat) :
    (s.subscriberRelease msg subscriber).early = false := by
  unfold State.subscriberRelease
  split
  · simp [h, hall, hout]
  · exact h

/-- A step of the writer before anything is in flight. -/
theorem ordered_of_quiet (hout : s'.outstanding = 0) (hcall : s'.callbacks = [])
    (hstage : s'.stage.Only) (hearly : s'.early = false) : Ordered s' where
  stage := hstage
  flight_le := by simp [hout, hcall]
  passed := by simp [hout, hcall]
  early := hearly

theorem Ordered.quiet (h : Ordered s) (hn : ¬ s.stage.Passed) :
    s.outstanding = 0 ∧ s.callbacks = [] := by
  have : s.outstanding + s.callbacks.length = 0 := by
    by_contra hne
    exact hn (h.passed hne)
  exact ⟨by omega, List.length_eq_zero_iff.mp (by omega)⟩

/-- The first `doFor`, for the only device: the message is not refused. -/
theorem Ordered.prepare (h : Ordered s) {i : DeviceIndex} {rest : List DeviceIndex}
    (hst : s.stage = .loop (i :: rest)) {answer : Bool} (hin : InOrder msg s (.writer answer)) :
    Ordered (s.prepare msg i rest answer) := by
  have hrest : rest = [] := by
    have := h.stage
    rw [hst] at this
    simpa [Stage.Only] using this
  obtain ⟨hout, hcall⟩ := h.quiet (by simp [hst, Stage.Passed])
  unfold State.prepare
  split
  · rename_i hcond
    obtain ⟨hgood, rfl⟩ : s.transports.isGood i.type = true ∧ answer = true := by
      simpa using hcond
    have hroom := hin
    simp only [InOrder, hst, State.AnswersInOrder] at hroom
    obtain ⟨m', hpush⟩ := PendingMessageManager.push_isSome (hroom hgood).1 (hroom hgood).2
      msg.subscriber
    rw [hpush]
    exact ordered_of_quiet hout hcall hrest h.early
  · exact ordered_of_quiet hout hcall hrest h.early

theorem Ordered.writer {n : Nat} {answer : Bool} (h : Ordered s) (hcounted : Counted msg n s)
    (hok : TransportOk s (.writer answer)) (hin : InOrder msg s (.writer answer))
    (hstep : s.writer msg maxMessageSize answer = some s') : Ordered s' := by
  have honly := h.stage
  cases hst : s.stage with
  | loop rest =>
    cases rest with
    | nil => simp [State.writer, hst] at hstep
    | cons i rest =>
      simp only [State.writer, hst, Option.some.injEq] at hstep
      subst hstep
      have hp := h.prepare hst hin
      exact ⟨hp.stage, hp.flight_le, hp.passed, hp.early⟩
  | write i rest shouldBePending =>
    rw [hst] at honly
    obtain ⟨hout, hcall⟩ := h.quiet (by simp [hst, Stage.Passed])
    simp only [State.writer, hst] at hstep
    split at hstep
    · obtain ⟨calls, -, rfl⟩ := Option.map_eq_some_iff.mp hstep
      exact ordered_of_quiet hout hcall honly h.early
    · obtain rfl := Option.some.inj hstep
      exact ordered_of_quiet hout hcall honly h.early
  | send i rest shouldBePending calls pendingCount answered =>
    rw [hst] at honly
    cases calls with
    | nil =>
      simp only [State.writer, hst, Option.some.injEq] at hstep
      subst hstep
      refine ⟨honly, h.flight_le, fun hne => ?_, h.early⟩
      have hpassed := h.passed hne
      rw [hst] at hpassed
      obtain ⟨hr, hsbp, -, hone⟩ := hpassed
      exact ⟨hr, hsbp, by simp [hone]⟩
    | cons call calls =>
      obtain ⟨part, sub⟩ := call
      obtain ⟨hout, hcall⟩ := h.quiet (by simp [hst, Stage.Passed])
      simp only [State.writer, hst, Option.some.injEq] at hstep
      subst hstep
      cases answer with
      | false => exact ordered_of_quiet hout hcall honly h.early
      | true =>
        -- the last submessage is pending: now there is one transfer
        obtain ⟨hsbp, hans⟩ : shouldBePending = true ∧ answered = false := by
          simpa [TransportOk, hst, Stage.MayAnswer] using hok
        obtain ⟨rfl, rfl⟩ : part = .userPayload ∧ calls = [] := by
          simpa [InOrder, hst, State.AnswersInOrder] using hin
        have hsok := hcounted.stage
        rw [hst] at hsok
        have h0 : pendingCount = 0 := hsok.2.resolve_right fun h => by simp [hans] at h
        refine ⟨honly, ?_, fun _ => ⟨honly, hsbp, rfl, ?_⟩, h.early⟩
        · simp [hout, hcall]
        · simp [h0]
  | conclude rest shouldBePending isPending =>
    rw [hst] at honly
    have hr : rest = [] := honly
    simp only [State.writer, hst] at hstep
    split at hstep
    · obtain rfl := Option.some.inj hstep
      exact ⟨by simp [Stage.Only, hr], h.flight_le, fun _ => hr, h.early⟩
    · rename_i hp
      obtain ⟨hout, hcall⟩ := h.quiet (by simp [hst, Stage.Passed, hp])
      split at hstep
      · obtain rfl := Option.some.inj hstep
        exact ordered_of_quiet hout hcall honly h.early
      · obtain rfl := Option.some.inj hstep
        exact ordered_of_quiet hout hcall honly h.early
  | release rest =>
    rw [hst] at honly
    have hr : rest = [] := honly
    obtain ⟨hout, hcall⟩ := h.quiet (by simp [hst, Stage.Passed])
    simp only [State.writer, hst, Option.some.injEq] at hstep
    subst hstep
    refine ordered_of_quiet (by simpa using hout) (by simpa using hcall)
      (by simp [Stage.Only, hr]) ?_
    exact early_subscriberRelease h.early (by simp [hst, Stage.allHanded, hr]) hout _
  | releasePending rest found =>
    rw [hst] at honly
    have hr : rest = [] := honly
    obtain ⟨hout, hcall⟩ := h.quiet (by simp [hst, Stage.Passed])
    cases found with
    | none =>
      simp only [State.writer, hst, Option.some.injEq] at hstep
      subst hstep
      exact ordered_of_quiet hout hcall (by simp [Stage.Only, hr]) h.early
    | some found =>
      simp only [State.writer, hst, Option.some.injEq] at hstep
      subst hstep
      refine ordered_of_quiet (by simpa using hout) (by simpa using hcall)
        (by simp [Stage.Only, hr]) ?_
      exact early_subscriberRelease h.early (by simp [hst, Stage.allHanded, hr]) hout _
  | discard rest =>
    rw [hst] at honly
    exact honly.elim
  | discarded rest =>
    rw [hst] at honly
    exact honly.elim

/-- **One step**, with one device. -/
theorem ordered_step {n : Nat} (h : Ordered s) (hcounted : Counted msg n s)
    (hok : TransportOk s l) (hin : InOrder msg s l)
    (hstep : step msg maxMessageSize s l = some s') : Ordered s' := by
  cases l with
  | writer answer => exact h.writer hcounted hok hin hstep
  | bufferSent =>
    simp only [step] at hstep
    split at hstep
    · cases hstep
    · rename_i hne
      obtain rfl := Option.some.inj hstep
      have hle := h.flight_le
      have hlen : (s.pending.release msg.address).2.toList.length ≤ 1 :=
        Option.length_toList_le
      refine ⟨h.stage, ?_, fun _ => h.passed (by omega), h.early⟩
      simp only [List.length_append]
      omega
  | bufferSentRelease i =>
    obtain ⟨found, hi, rfl⟩ := Option.map_eq_some_iff.mp hstep
    have hpos : 0 < s.callbacks.length := List.length_pos_of_mem (List.mem_of_getElem? hi)
    have hle := h.flight_le
    have hlen := List.length_eraseIdx_le s.callbacks i
    have hpassed := h.passed (by omega)
    refine ⟨by simpa using h.stage, ?_, fun _ => by simpa using hpassed, ?_⟩
    · simp only [outstanding_subscriberRelease]
      omega
    · exact early_subscriberRelease h.early hpassed.allHanded (by omega) _
  | setFailed type =>
    obtain rfl := Option.some.inj hstep
    exact ⟨h.stage, h.flight_le, h.passed, h.early⟩
  | otherPush address subscriber =>
    obtain rfl := Option.some.inj hstep
    exact ⟨h.stage, h.flight_le, h.passed, h.early⟩
  | otherRelease address =>
    obtain rfl := Option.some.inj hstep
    exact ⟨h.stage, h.flight_le, h.passed, h.early⟩

/-! ## The writer and the callbacks come to an end -/

/-- A step of the writer or of a callback. -/
def Label.own : Label → Bool
  | .writer _ | .bufferSent | .bufferSentRelease _ => true
  | .setFailed _ | .otherPush _ _ | .otherRelease _ => false

/-- The number of submessages for a transport. -/
def callCount (msg : Message) (maxMessageSize : TransportType → Nat) (type : TransportType) : Nat :=
  ((calls msg maxMessageSize type).map List.length).getD 0

/-- A bound on the steps that the devices cost.  Every submessage may cost three: its
`sendUserData` and the two sections of a callback. -/
def devicesCost (msg : Message) (maxMessageSize : TransportType → Nat) : List DeviceIndex → Nat
  | [] => 0
  | i :: rest => 5 + 3 * callCount msg maxMessageSize i.type + devicesCost msg maxMessageSize rest

def stageCost (msg : Message) (maxMessageSize : TransportType → Nat) : Stage → Nat
  | .loop rest => devicesCost msg maxMessageSize rest
  | .write i rest _ =>
    4 + 3 * callCount msg maxMessageSize i.type + devicesCost msg maxMessageSize rest
  | .send _ rest _ calls _ _ => 3 + 3 * calls.length + devicesCost msg maxMessageSize rest
  | .conclude rest _ _ => 2 + devicesCost msg maxMessageSize rest
  | .release rest | .releasePending rest _ => 1 + devicesCost msg maxMessageSize rest
  | .discard _ => 1
  | .discarded _ => 0

/-- A bound on the steps of the writer and of the callbacks that are left. -/
def cost (msg : Message) (maxMessageSize : TransportType → Nat) (s : State) : Nat :=
  stageCost msg maxMessageSize s.stage + 2 * s.outstanding + s.callbacks.length

theorem cost_prepare {i : DeviceIndex} {rest : List DeviceIndex}
    (hst : s.stage = .loop (i :: rest)) (answer : Bool) :
    cost msg maxMessageSize (s.prepare msg i rest answer) < cost msg maxMessageSize s := by
  unfold State.prepare
  split
  · split
    · simp only [cost, hst, stageCost, devicesCost]
      omega
    · simp only [cost, hst, stageCost, devicesCost]
      omega
  · simp only [cost, hst, stageCost, devicesCost]
    omega

theorem cost_writer {answer : Bool} (hstep : s.writer msg maxMessageSize answer = some s') :
    cost msg maxMessageSize s' < cost msg maxMessageSize s := by
  cases hst : s.stage with
  | loop rest =>
    cases rest with
    | nil => simp [State.writer, hst] at hstep
    | cons i rest =>
      simp only [State.writer, hst, Option.some.injEq] at hstep
      subst hstep
      exact cost_prepare hst answer
  | write i rest shouldBePending =>
    simp only [State.writer, hst] at hstep
    split at hstep
    · obtain ⟨cs, hcs, rfl⟩ := Option.map_eq_some_iff.mp hstep
      simp only [cost, hst, stageCost, callCount, hcs, Option.map_some, Option.getD_some]
      omega
    · obtain rfl := Option.some.inj hstep
      simp only [cost, State.endDoFor, hst, stageCost]
      omega
  | send i rest shouldBePending calls pendingCount answered =>
    cases calls with
    | nil =>
      simp only [State.writer, hst, Option.some.injEq] at hstep
      subst hstep
      simp only [cost, State.endDoFor, hst, stageCost, List.length_nil]
      omega
    | cons call calls =>
      simp only [State.writer, hst, Option.some.injEq] at hstep
      subst hstep
      simp only [cost, hst, stageCost, List.length_cons]
      split <;> omega
  | conclude rest shouldBePending isPending =>
    simp only [State.writer, hst] at hstep
    split at hstep
    · obtain rfl := Option.some.inj hstep
      simp only [cost, hst, stageCost]
      omega
    · split at hstep
      · obtain rfl := Option.some.inj hstep
        simp only [cost, hst, stageCost]
        omega
      · obtain rfl := Option.some.inj hstep
        simp only [cost, hst, stageCost]
        omega
  | release rest =>
    simp only [State.writer, hst, Option.some.injEq] at hstep
    subst hstep
    simp only [cost, hst, stageCost, outstanding_subscriberRelease, callbacks_subscriberRelease]
    omega
  | releasePending rest found =>
    cases found with
    | none =>
      simp only [State.writer, hst, Option.some.injEq] at hstep
      subst hstep
      simp only [cost, hst, stageCost]
      omega
    | some found =>
      simp only [State.writer, hst, Option.some.injEq] at hstep
      subst hstep
      simp only [cost, hst, stageCost, outstanding_subscriberRelease, callbacks_subscriberRelease]
      omega
  | discard rest =>
    simp only [State.writer, hst, Option.some.injEq] at hstep
    subst hstep
    simp only [cost, hst, stageCost, outstanding_subscriberRelease, callbacks_subscriberRelease]
    omega
  | discarded rest => simp [State.writer, hst] at hstep

/-- Every step of the writer and of the callbacks is paid for. -/
theorem cost_step (hstep : step msg maxMessageSize s l = some s') :
    (if l.own then 1 else 0) + cost msg maxMessageSize s' ≤ cost msg maxMessageSize s := by
  cases l with
  | writer answer =>
    have := cost_writer hstep
    simp only [Label.own, if_true]
    omega
  | bufferSent =>
    simp only [step] at hstep
    split at hstep
    · cases hstep
    · obtain rfl := Option.some.inj hstep
      have hlen : (s.pending.release msg.address).2.toList.length ≤ 1 := Option.length_toList_le
      simp only [Label.own, if_true, cost, List.length_append]
      omega
  | bufferSentRelease i =>
    obtain ⟨found, hi, rfl⟩ := Option.map_eq_some_iff.mp hstep
    have hlen := List.length_eraseIdx_add_one (List.getElem?_eq_some_iff.mp hi).1
    simp only [Label.own, if_true, cost, stage_subscriberRelease, outstanding_subscriberRelease]
    omega
  | setFailed type =>
    obtain rfl := Option.some.inj hstep
    simp [Label.own, cost]
  | otherPush address subscriber =>
    obtain rfl := Option.some.inj hstep
    simp [Label.own, cost]
  | otherRelease address =>
    obtain rfl := Option.some.inj hstep
    simp [Label.own, cost]

/-- A run has boundedly many steps of the writer and of the callbacks. -/
theorem countP_own_le {ls : List Label} {t : State}
    (h : Run.exec (step msg maxMessageSize) s ls = some t) :
    ls.countP Label.own + cost msg maxMessageSize t ≤ cost msg maxMessageSize s := by
  induction ls generalizing s with
  | nil =>
    obtain rfl : s = t := by simpa using h
    simp
  | cons l ls ih =>
    obtain ⟨s', h₁, h₂⟩ := Run.exec_cons.mp h
    have hl := cost_step h₁
    have hls := ih h₂
    rw [List.countP_cons]
    omega

/-- Until everything is over, the writer or a callback can go on. -/
theorem exists_own_step (hcalls : ∀ type, ∃ cs, calls msg maxMessageSize type = some cs)
    (hc : ¬ s.Complete) : ∃ l s', l.own = true ∧ step msg maxMessageSize s l = some s' := by
  by_cases hout : s.outstanding = 0
  · by_cases hcall : s.callbacks = []
    · refine ⟨.writer false, ?_⟩
      have hstage : (¬ ∃ rest, s.stage = .discarded rest) ∧ s.stage ≠ .loop [] :=
        not_or.mp fun h => hc ⟨h, hout, hcall⟩
      simp only [Label.own, true_and, step]
      cases hst : s.stage with
      | loop rest =>
        cases rest with
        | nil => exact absurd hst hstage.2
        | cons i rest => exact ⟨_, by simp only [State.writer, hst]; rfl⟩
      | write i rest shouldBePending =>
        obtain ⟨cs, hcs⟩ := hcalls i.type
        simp only [State.writer, hst]
        split
        · exact ⟨_, by rw [hcs]; rfl⟩
        · exact ⟨_, rfl⟩
      | send i rest shouldBePending calls pendingCount answered =>
        cases calls with
        | nil => exact ⟨_, by simp only [State.writer, hst]; rfl⟩
        | cons call calls => exact ⟨_, by simp only [State.writer, hst]; rfl⟩
      | conclude rest shouldBePending isPending =>
        simp only [State.writer, hst]
        split
        · exact ⟨_, rfl⟩
        · split
          · exact ⟨_, rfl⟩
          · exact ⟨_, rfl⟩
      | release rest => exact ⟨_, by simp only [State.writer, hst]; rfl⟩
      | releasePending rest found =>
        cases found with
        | none => exact ⟨_, by simp only [State.writer, hst]; rfl⟩
        | some found => exact ⟨_, by simp only [State.writer, hst]; rfl⟩
      | discard rest => exact ⟨_, by simp only [State.writer, hst]; rfl⟩
      | discarded rest => exact absurd ⟨rest, hst⟩ hstage.1
    · obtain ⟨found, rest, heq⟩ := List.exists_cons_of_ne_nil hcall
      exact ⟨.bufferSentRelease 0, _, rfl, by simp only [step, heq]; rfl⟩
  · exact ⟨.bufferSent, _, rfl, by simp only [step, if_neg hout]; rfl⟩

/-- The loops over the submessages end. -/
theorem calls_isSome (msg : Message)
    (hmax : ∀ type, maxIoxChunkDatagramHeaderSerializationSize < maxMessageSize type ∧
      maxMessageSize type - maxIoxChunkDatagramHeaderSerializationSize < 2 ^ 32)
    (type : TransportType) : ∃ cs, calls msg maxMessageSize type = some cs := by
  obtain ⟨r, hr⟩ := submessages_isSome msg.header msg.userHeader msg.userPayload
    (hmax type).1 (hmax type).2
  unfold calls
  rw [hr]
  exact ⟨_, rfl⟩

/-! ## The result -/

theorem counted_of_run {transports : TransportInfo} {deviceIndices : List DeviceIndex}
    {ls : List Label}
    (hok : Run.Guarded (step msg maxMessageSize) TransportOk
      (State.start transports deviceIndices) ls)
    (ha : ∀ l ∈ ls, Apart msg l)
    (h : Run.exec (step msg maxMessageSize) (State.start transports deviceIndices) ls = some s) :
    Counted msg deviceIndices.length s := by
  refine Run.invariant_guarded (Counted msg deviceIndices.length) ?_
    (counted_start transports deviceIndices) (hok.and (Run.guarded_of_forall ha _)) h
  intro s l s' hs hg hstep
  exact counted_step hs hg.1 hg.2 hstep

theorem ordered_of_run {transports : TransportInfo} {i : DeviceIndex} {ls : List Label}
    (hok : Run.Guarded (step msg maxMessageSize) TransportOk (State.start transports [i]) ls)
    (ha : ∀ l ∈ ls, Apart msg l)
    (hin : Run.Guarded (step msg maxMessageSize) (InOrder msg) (State.start transports [i]) ls)
    (h : Run.exec (step msg maxMessageSize) (State.start transports [i]) ls = some s) :
    Ordered s := by
  have hboth : Counted msg 1 s ∧ Ordered s := by
    refine Run.invariant_guarded (fun s => Counted msg 1 s ∧ Ordered s) ?_
      ⟨counted_start transports [i], ordered_start transports i⟩
      ((hok.and (Run.guarded_of_forall ha _)).and hin) h
    rintro s l s' ⟨hc, ho⟩ ⟨⟨hok, ha⟩, hin⟩ hstep
    exact ⟨counted_step hc hok ha hstep, ordered_step ho hc hok hin hstep⟩
  exact hboth.2

/-- **A sent chunk is released exactly once and not too early**, if there is one device, the table
takes the message, and the transport answers pending for the last submessage only.  The end is
always reached: the writer and the callbacks make boundedly many steps, and they can go on until
everything is over.  And one device is necessary: whenever the chunk has been released once and
not too early, there was one device and the message was not refused. -/
theorem chunk_released_once (transports : TransportInfo) (deviceIndices : List DeviceIndex)
    (hmax : ∀ type, maxIoxChunkDatagramHeaderSerializationSize < maxMessageSize type ∧
      maxMessageSize type - maxIoxChunkDatagramHeaderSerializationSize < 2 ^ 32)
    {ls : List Label}
    (hok : Run.Guarded (step msg maxMessageSize) TransportOk
      (State.start transports deviceIndices) ls)
    (ha : ∀ l ∈ ls, Apart msg l)
    (h : Run.exec (step msg maxMessageSize) (State.start transports deviceIndices) ls = some s) :
    (ls.countP Label.own ≤ cost msg maxMessageSize (State.start transports deviceIndices) ∧
      (¬ s.Complete → ∃ l s', l.own = true ∧ step msg maxMessageSize s l = some s')) ∧
    (deviceIndices.length = 1 →
      Run.Guarded (step msg maxMessageSize) (InOrder msg) (State.start transports deviceIndices) ls →
      s.releases ≤ 1 ∧ s.early = false ∧ (s.Complete → s.releases = 1)) ∧
    (s.Complete → s.releases = 1 → s.early = false →
      deviceIndices.length = 1 ∧ s.stage = .loop []) := by
  have hcounted := counted_of_run hok ha h
  refine ⟨⟨?_, exists_own_step (calls_isSome msg hmax)⟩, fun hone hin => ?_, fun hc hr he => ?_⟩
  · have := countP_own_le h
    omega
  · obtain ⟨i, rfl⟩ := List.length_eq_one_iff.mp hone
    have hearly := (ordered_of_run hok ha hin h).early
    have hcount := hcounted.count
    rw [hone] at hcount
    refine ⟨by omega, hearly, fun hc => ?_⟩
    rcases hcounted.complete hc with ⟨-, hreleases⟩ | hlate
    · rw [hreleases, hone]
    · simp [hearly] at hlate
  · rcases hcounted.complete hc with ⟨hstage, hreleases⟩ | hlate
    · exact ⟨hreleases.symm.trans hr, hstage⟩
    · simp [he] at hlate

/-! ## Two runs -/

/-- A message of one byte. -/
def demoMessage : Message :=
  ⟨⟨⟨1, 2, 3, 4⟩, 9, 0, 0, 0, 1, 1, 0⟩, [], [7], 4096, 3⟩

/-- PCIe and UDP are enabled. -/
def demoTransports : TransportInfo := ⟨some .good, some .good, none, 6⟩

def demoMaxMessageSize : TransportType → Nat := fun _ => 1024

/-- PCIe keeps the chunk, and reports the transfer after `writeSegmented` has returned. -/
def demoPending : List Label :=
  [.writer true, .writer false, .writer true, .writer false, .writer false, .bufferSent,
    .bufferSentRelease 0]

/-- UDP keeps nothing. -/
def demoDirect : List Label := List.replicate 12 (.writer false)

theorem chunk_released_once_demo :
    ∃ s, Run.exec (step demoMessage demoMaxMessageSize)
        (State.start demoTransports [⟨.pcie, 0⟩]) demoPending = some s ∧
      s.Complete ∧ s.releases = 1 ∧ s.early = false := by
  have hok : Run.Guarded (step demoMessage demoMaxMessageSize) TransportOk
      (State.start demoTransports [⟨.pcie, 0⟩]) demoPending := by decide +kernel
  have hin : Run.Guarded (step demoMessage demoMaxMessageSize) (InOrder demoMessage)
      (State.start demoTransports [⟨.pcie, 0⟩]) demoPending := by decide +kernel
  have hmax : ∀ type, maxIoxChunkDatagramHeaderSerializationSize < demoMaxMessageSize type ∧
      demoMaxMessageSize type - maxIoxChunkDatagramHeaderSerializationSize < 2 ^ 32 :=
    fun _ => by unfold demoMaxMessageSize; decide
  obtain ⟨-, hone, -⟩ := chunk_released_once demoTransports [⟨.pcie, 0⟩] hmax hok (by decide) rfl
  obtain ⟨-, hearly, hreleases⟩ := hone rfl hin
  refine ⟨_, rfl, ⟨Or.inr rfl, rfl, rfl⟩, hreleases ⟨Or.inr rfl, rfl, rfl⟩, hearly⟩

/-- With two devices, the chunk is released before it is sent to the second one, and then once
more. -/
theorem chunk_released_twice :
    ∃ s, Run.exec (step demoMessage demoMaxMessageSize)
        (State.start demoTransports [⟨.udp, 0⟩, ⟨.udp, 1⟩]) demoDirect = some s ∧
      Run.Guarded (step demoMessage demoMaxMessageSize) TransportOk
        (State.start demoTransports [⟨.udp, 0⟩, ⟨.udp, 1⟩]) demoDirect ∧
      s.Complete ∧ s.releases = 2 ∧ s.early = true := by
  refine ⟨_, rfl, ?_, ?_, ?_, ?_⟩
  · decide +kernel
  · exact ⟨Or.inr rfl, rfl, rfl⟩
  · decide
  · decide

end ChunkRelease

end P3com
