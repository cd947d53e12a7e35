/-
# `Iceoryx2Transport`: its channels, its waitset and the pending messages

`source/p3com/gateway/iox_to_transport.cpp` and `source/p3com/generic/pending_messages.cpp`.

`updateChannels` runs with the endpoints mutex held from its beginning to its end: `updater` says
where it is.  To delete a channel it raises `m_suspendFlag`, detaches the subscriber from the
waitset under the waitset mutex, lowers the flag, unsubscribes, polls `anyPending` until it is
false, and erases the endpoint, which destroys the subscriber.

`PendingMessageManager::release` has two sections.  Under the mutex of the table it takes the
message out; then it locks the mutex that stands in the entry, which for the subscribers of this
gateway is the endpoints mutex, and calls `release` on the subscriber.  The calls that are between
their sections are kept in `releases`.

A step is one section.  The table of pending messages has a mutex of its own, so `push`, the first
section of `release` and `anyPending` may run while `updateChannels` is under way; the second
section of `release` may not.

Subscriber objects are numbered.  The first numbers are the subscribers of the `TransportForwarder`,
which are constructed before and never destroyed; they have a mutex of their own.  The waitset
thread is the subject of `SendLoop.lean`.
-/
import P3com.Gateway.Gateway
import P3com.Generic.PendingMessages
import P3com.Lib.Run

namespace P3com.IoxToTransport

/-! ## State -/

/-- A subscriber object. -/
abbrev SubscriberId := Nat

/-- The number of subscribers of the `TransportForwarder` is at most `MAX_FORWARDED_SERVICES`. -/
def forwarderSubscribers : Nat := 8

/-- What the run has done, newest first in the log. -/
inductive Event
  /-- `PendingMessageManager::push` returned true. -/
  | pushed (userPayload : UserPayload) (subscriber : SubscriberId)
  /-- `release` of the subscriber, in the second section of `PendingMessageManager::release`. -/
  | released (userPayload : UserPayload) (subscriber : SubscriberId)
  /-- `anyPending` returned this. -/
  | polled (subscriber : SubscriberId) (result : Bool)
  /-- `discardChannel` erased the channel of the subscriber. -/
  | erased (subscriber : SubscriberId)
deriving DecidableEq

/-- Where `updateChannelsInternal` is.  The two lists are the services that it has still to delete
and to set up; `attach` says whether the channel is being set up, and `i` is the iterator of the
endpoint. -/
inductive Updater
  | select (toDelete toSetup : List ServiceDescription)
  /-- The flag has been raised; the waitset mutex is locked next. -/
  | change (attach : Bool) (i : Nat) (e : Endpoint) (toDelete toSetup : List ServiceDescription)
  /-- The waitset has been changed, and its mutex is still locked. -/
  | resume (attach : Bool) (i : Nat) (e : Endpoint) (toDelete toSetup : List ServiceDescription)
  /-- `anyPending` is called next. -/
  | poll (i : Nat) (e : Endpoint) (toDelete toSetup : List ServiceDescription)
  /-- The endpoint is erased next. -/
  | erase (i : Nat) (e : Endpoint) (toDelete toSetup : List ServiceDescription)
deriving DecidableEq

/-- The subscriber whose polling is over, and which is erased next. -/
def Updater.erasing : Updater → Option SubscriberId
  | .erase _ e _ _ => some e.id
  | _ => none

structure State where
  endpoints : Endpoints
  /-- The number of the next subscriber object. -/
  nextEndpoint : Nat
  /-- The subscribers attached to `m_waitset`. -/
  waitset : List SubscriberId
  suspendFlag : Bool
  updater : Option Updater
  pending : PendingMessageManager
  /-- The calls of `PendingMessageManager::release` that are between their sections. -/
  releases : List (UserPayload × SubscriberId)
  log : List Event

/-- The gateway after its construction. -/
def State.init : State where
  endpoints := VectorMap.empty
  nextEndpoint := forwarderSubscribers
  waitset := []
  suspendFlag := false
  updater := none
  pending := PendingMessageManager.empty
  releases := []
  log := []

namespace State

/-- The subscribers that have a channel. -/
def subscribers (s : State) : List SubscriberId := s.endpoints.elems.map Endpoint.id

/-! ## Sections -/

/-- `updateChannelsInternal` takes the endpoints mutex and looks for the differences. -/
def updateChannels (getClassHash : ServiceDescription → ClassHash) (s : State)
    (services : ServiceVector) : State :=
  { s with updater := some (.select (s.endpoints.servicesToDelete services).toList
      (s.endpoints.servicesToSetup getClassHash services).toList) }

/-- The beginning of `deleteChannel`: find the endpoint, raise the flag. -/
def deleteChannel (getClassHash : ServiceDescription → ClassHash) (s : State)
    (service : ServiceDescription) (toDelete toSetup : List ServiceDescription) : State :=
  match s.endpoints.findElem (getClassHash service) with
  | none => { s with updater := some (.select toDelete toSetup) }
  | some (i, e) =>
    { s with suspendFlag := true, updater := some (.change false i e toDelete toSetup) }

/-- The beginning of `setupChannel`: construct the subscriber, emplace it, raise the flag. -/
def setupChannel (getClassHash : ServiceDescription → ClassHash) (s : State)
    (service : ServiceDescription) (toSetup : List ServiceDescription) : State :=
  let e : Endpoint := ⟨s.nextEndpoint, service⟩
  let s := { s with nextEndpoint := s.nextEndpoint + 1 }
  match s.endpoints.emplace (getClassHash service) e with
  | none => { s with updater := some (.select [] toSetup) }
  | some endpoints =>
    { s with
      endpoints
      suspendFlag := true
      updater := some (.change true (endpoints.size - 1) e [] toSetup) }

/-- The next section of `updateChannelsInternal`. -/
def proceed (getClassHash : ServiceDescription → ClassHash) (s : State) : Updater → State
  | .select (service :: toDelete) toSetup => s.deleteChannel getClassHash service toDelete toSetup
  | .select [] (service :: toSetup) => s.setupChannel getClassHash service toSetup
  | .select [] [] => { s with updater := none }
  | .change true i e toDelete toSetup =>
    { s with
      waitset := s.waitset ++ [e.id]
      updater := some (.resume true i e toDelete toSetup) }
  | .change false i e toDelete toSetup =>
    { s with
      waitset := s.waitset.filter (· ≠ e.id)
      updater := some (.resume false i e toDelete toSetup) }
  | .resume true _ _ toDelete toSetup =>
    { s with suspendFlag := false, updater := some (.select toDelete toSetup) }
  | .resume false i e toDelete toSetup =>
    { s with suspendFlag := false, updater := some (.poll i e toDelete toSetup) }
  | .poll i e toDelete toSetup =>
    { s with
      log := .polled e.id (s.pending.anyPending e.id) :: s.log
      updater := some (if s.pending.anyPending e.id then .poll i e toDelete toSetup
        else .erase i e toDelete toSetup) }
  | .erase i e toDelete toSetup =>
    { s with
      endpoints := s.endpoints.erase i
      log := .erased e.id :: s.log
      updater := some (.select toDelete toSetup) }

/-- `PendingMessageManager::push`: what it returns, and the state afterwards. -/
def push (s : State) (userPayload : UserPayload) (subscriber : SubscriberId) : Bool × State :=
  match s.pending.push userPayload subscriber with
  | none => (false, s)
  | some pending =>
    (true, { s with pending, log := .pushed userPayload subscriber :: s.log })

/-- The first section of `PendingMessageManager::release`: the subscriber on which the second one
calls `release`. -/
def release (s : State) (userPayload : UserPayload) : Option SubscriberId × State :=
  let (pending, msg) := s.pending.release userPayload
  (msg.map PendingMessage.subscriber, { s with pending })

/-- The mutex in the entry of the subscriber is free. -/
def mutexFree (s : State) (subscriber : SubscriberId) : Bool :=
  s.updater.isNone || subscriber < forwarderSubscribers

end State

inductive Label
  | push (userPayload : UserPayload) (subscriber : SubscriberId)
  /-- A transport reports the message as sent, or the sender gives it back. -/
  | release (userPayload : UserPayload)
  /-- The second section of the `i`-th call of `release`. -/
  | finishRelease (i : Nat)
  | updateChannels (services : ServiceVector)
  /-- `updateChannels` runs its next section. -/
  | proceed

/-- One step. -/
def step (getClassHash : ServiceDescription → ClassHash) (s : State) : Label → Option State
  | .push userPayload subscriber => some (s.push userPayload subscriber).2
  | .release userPayload =>
    match s.release userPayload with
    | (none, s) => some s
    | (some subscriber, s) => some { s with releases := s.releases ++ [(userPayload, subscriber)] }
  | .finishRelease i =>
    s.releases[i]?.bind fun r =>
      if s.mutexFree r.2 then
        some { s with releases := s.releases.eraseIdx i, log := .released r.1 r.2 :: s.log }
      else none
  | .updateChannels services =>
    if s.updater.isNone then some (s.updateChannels getClassHash services) else none
  | .proceed => s.updater.map (s.proceed getClassHash)

/-! ## What the sections do -/

variable {s s' : State} {p : UserPayload} {q : SubscriberId}

theorem mem_subscribers : q ∈ s.subscribers ↔ ∃ k e, (k, e) ∈ s.endpoints.entries ∧ e.id = q := by
  unfold State.subscribers
  rw [VectorMap.elems_eq]
  simp

theorem not_anyPending_iff {m : PendingMessageManager} :
    m.anyPending q = false ↔
      ∀ k msg, (k, msg) ∈ m.pendingMessages.entries → msg.subscriber ≠ q := by
  unfold PendingMessageManager.anyPending
  rw [VectorMap.elems_eq]
  simp

theorem pendingOf_eq_zero {m : PendingMessageManager} (h : m.anyPending q = false)
    (p : UserPayload) : m.pendingOf p q = 0 := by
  refine List.countP_eq_zero.mpr ?_
  rintro ⟨k, msg⟩ hmem
  simp [not_anyPending_iff.mp h k msg hmem]

/-- `updateChannels` leaves the pending messages alone. -/
theorem proceed_pending (getClassHash : ServiceDescription → ClassHash) (s : State) (u : Updater) :
    (s.proceed getClassHash u).pending = s.pending := by
  cases u with
  | select toDelete toSetup =>
    cases toDelete with
    | cons service toDelete =>
      simp only [State.proceed, State.deleteChannel]
      split <;> rfl
    | nil =>
      cases toSetup with
      | cons service toSetup =>
        simp only [State.proceed, State.setupChannel]
        split <;> rfl
      | nil => rfl
  | change attach i e toDelete toSetup => cases attach <;> rfl
  | resume attach i e toDelete toSetup => cases attach <;> rfl
  | poll i e toDelete toSetup => rfl
  | erase i e toDelete toSetup => rfl

/-- A push is refused, or it adds an entry. -/
theorem push_cases (s : State) (p : UserPayload) (q : SubscriberId) :
    s.push p q = (false, s) ∨
      ∃ pending, s.pending.push p q = some pending ∧
        s.push p q = (true, { s with pending, log := .pushed p q :: s.log }) := by
  unfold State.push
  cases h : s.pending.push p q with
  | none => exact Or.inl rfl
  | some pending => exact Or.inr ⟨pending, rfl, rfl⟩

/-- The first section of `release` finds nothing, or takes the entry out. -/
theorem release_cases (hs : s.pending.Single) (p : UserPayload) :
    s.release p = (none, s) ∨
      ∃ i msg pending, s.pending.pendingMessages.entries[i]? = some (p, msg) ∧
        pending.pendingMessages = s.pending.pendingMessages.erase i ∧ pending.Single ∧
        s.release p = (some msg.subscriber, { s with pending }) := by
  have hsingle := hs.release p
  unfold State.release
  rcases PendingMessageManager.release_cases hs p with ⟨-, heq⟩ | ⟨i, msg, m', hi, hm', heq⟩
  · rw [heq]
    exact Or.inl rfl
  · rw [heq] at hsingle ⊢
    exact Or.inr ⟨i, msg, m', hi, hm', hsingle, rfl⟩

end P3com.IoxToTransport
