/-
# The mutexes of the gateway

The gateway has a main thread, a waitset thread in each of `DiscoveryManager`, `Iceoryx2Transport`
and `TransportForwarder`, and the threads of the transports, which run the callbacks registered with
them.  They share ten mutexes, and two conditions that are polled: `m_suspendFlag`, and the pending
messages of a subscriber that is to be destroyed.

A function is modelled here by what it does with the mutexes, in the order of the source.  What
depends on data is a parameter: the branches taken, how often a loop runs, which transports fail
meanwhile.  The programs of the threads are all programs of this form, of any length.

There is one order of the mutexes that every thread keeps to.  "`m_segmentedMessageMutex` is always
locked *after* internal gateway mutex" (`transport_to_iox.cpp`) is a part of it; the mutex of the
TCP sessions comes first, because a discovery message is handled while it is held, and the one of
`DiscoveryManager`, which is recursive because a transport may fail in the middle of a broadcast,
comes after those of the endpoints.  So no schedule leads to a deadlock, whatever the shutdown in
`GatewayApp::run` waits for (`gateway_never_stuck`).

No transport keeps a buffer after `sendUserData` here: those of the repository return `false` there,
so `writeSegmented` takes a message that it has pushed out of the table of pending messages again.
With a buffer that is kept, the wait in `deleteChannel` is for a callback of the transport, and does
not end when it is that thread of the transport which deletes the channel.  What the functions do to
the state that the mutexes guard is not part of this, nor what they do without a mutex.
-/
import P3com.Lib.LockOrder
import Mathlib.Data.Fintype.Card
import Mathlib.Data.Fintype.Sum
import Mathlib.Tactic.DeriveFintype

namespace P3com.Locks

open LockOrder

/-! ## Mutexes and threads -/

inductive Mutex
  /-- `TCPTransport::m_transportSessionsMutex`. -/
  | transportSessions
  /-- `m_endpointsMutex` of `Transport2Iceoryx` and of `Iceoryx2Transport`. -/
  | publishers
  | subscribers
  /-- `TransportForwarder::m_forwardedServiceSubscribersMutex`. -/
  | forwardedServiceSubscribers
  /-- `Iceoryx2Transport::m_suspendFlag` is set. -/
  | suspendFlag
  /-- A message of the thread is in `m_pendingMessages`, and is given back by the thread. -/
  | pendingOfIceoryx2Transport
  | pendingOfTransportForwarder
  /-- `Iceoryx2Transport::m_waitsetMutex`. -/
  | waitset
  /-- `DiscoveryManager::m_mutex`. -/
  | discovery
  /-- `m_mutex` of `SegmentedMessageManager` and of `PendingMessageManager`. -/
  | segmentedMessages
  | pendingMessages
  /-- `TransportForwarder::m_messagesToForwardMutex`. -/
  | messagesToForward
  /-- `UDPTransport::m_socketMutex`. -/
  | socket
deriving DecidableEq

/-- The threads of a gateway whose transports have `n` threads. -/
inductive Thread (n : Nat)
  | main
  | discoveryManager
  | iceoryx2Transport
  | transportForwarder
  | transport (i : Fin n)
deriving DecidableEq, Fintype

variable {n : Nat}

/-- The order of the mutexes. -/
def rank : Mutex → Nat
  | .transportSessions => 0
  | .publishers => 1
  | .subscribers => 1
  | .forwardedServiceSubscribers => 1
  | .suspendFlag => 2
  | .pendingOfIceoryx2Transport => 2
  | .pendingOfTransportForwarder => 2
  | .waitset => 3
  | .discovery => 3
  | .segmentedMessages => 4
  | .pendingMessages => 4
  | .messagesToForward => 4
  | .socket => 4

/-- Only the main thread joins others. -/
def order (n : Nat) : Order (Thread n) Mutex where
  rank := rank
  bound := 5
  rank_lt := by
    intro m
    cases m <;> decide
  recursive := fun m => m = .discovery
  level
    | .main => 1
    | _ => 0

abbrev Code (n : Nat) := List (Op (Thread n) Mutex)

/-! ## The functions of the source -/

/-- The transports that `doFor` and `doForAllEnabled` find failed: each of them makes the fail
callback broadcast, and others may fail in this. -/
inductive Failures
  | none
  | fail (inBroadcast next : Failures)

/-- The calls of `s_failCallback`: it clears the cache and broadcasts, under `m_mutex`.
`sendBroadcast` takes no mutex. -/
def failCallbacks : Failures → Code n
  | .none => []
  | .fail inBroadcast next =>
    locked .discovery (failCallbacks inBroadcast) ++ failCallbacks next

/-- `TransportInfo::doFor` and `doForAllEnabled`. -/
def doFor (fn : Code n) (failures : Failures) : Code n := fn ++ failCallbacks failures

/-! `segmented_messages.cpp` and `pending_messages.cpp`. -/

/-- `push`, `findAndDecrement`, `find`, `release` and `releaseAll`. -/
def segmentedMessages : Code n := locked .segmentedMessages []

/-- `checkSegmentedMessages`, which finds so many expired messages. -/
def checkSegmentedMessages (expired : Nat) : Code n :=
  (List.replicate expired ()).flatMap
    (fun _ => segmentedMessages ++ locked .publishers []) ++ segmentedMessages

/-- `push` and `anyPending`. -/
def pendingMessages : Code n := locked .pendingMessages []

/-- The subscribers of a gateway direction: their mutex, and the pending messages of the thread. -/
structure Subscribers where
  mutex : Mutex
  pending : Mutex

def Subscribers.ofIceoryx2Transport : Subscribers := ⟨.subscribers, .pendingOfIceoryx2Transport⟩

def Subscribers.ofTransportForwarder : Subscribers :=
  ⟨.forwardedServiceSubscribers, .pendingOfTransportForwarder⟩

/-- `take` or `release` of a subscriber. -/
def useSubscriber (x : Subscribers) : Code n := locked x.mutex []

/-- `PendingMessageManager::release`: whether the counter has reached zero. -/
def release (x : Subscribers) (last : Bool) : Code n :=
  pendingMessages ++ if last then useSubscriber x else []

/-! `transport_forwarder.cpp`, called from `Transport2Iceoryx`. -/

/-- The section in which a message is stored in `m_messagesToForward`, or looked up there. -/
def messagesToForward : Code n := locked .messagesToForward []

/-- `TransportForwarder::push`: whether the service is a forwarded one. -/
def push (forwarded : Bool) : Code n := if forwarded then messagesToForward else []

/-! `gateway.inl`. -/

/-- `updateChannelsInternal`. -/
def updateChannelsInternal (mutex : Mutex) (toDelete toSetup : List (Code n)) : Code n :=
  locked mutex (toDelete.flatMap id ++ toSetup.flatMap id)

/-! `transport_to_iox.cpp`. -/

/-- What `receive` does in `doForChannel`. -/
inductive Receive
  | noChannel
  | loanFailed
  /-- `push` or not, `shouldPublish` or not, a forwarded service or not. -/
  | taken (pushed shouldPublish forwarded : Bool)

/-- `Transport2Iceoryx::receive`. -/
def receive (r : Receive) : Code n :=
  locked .publishers <|
    match r with
    | .noChannel => []
    | .loanFailed => segmentedMessages
    | .taken pushed shouldPublish forwarded =>
      segmentedMessages ++ (if pushed then segmentedMessages else []) ++
        if shouldPublish then push forwarded else []

/-- `loanBuffer`: whether there is a channel, and whether the message is pushed. -/
def loanBuffer (channel pushed : Bool) : Code n :=
  locked .publishers <|
    if channel then segmentedMessages ++ if pushed then segmentedMessages else [] else []

/-- `releaseBuffer`. -/
def releaseBuffer (channel shouldPublish forwarded : Bool) : Code n :=
  locked .publishers <|
    if channel then segmentedMessages ++ if shouldPublish then push forwarded else [] else []

/-- `Transport2Iceoryx::updateChannels`: for each channel to delete whether it is found.
`setupChannel` takes no other mutex. -/
def toIoxUpdateChannels (found : List Bool) : Code n :=
  updateChannelsInternal .publishers (found.map fun b => if b then segmentedMessages else []) []

/-! `iox_to_transport.cpp`. -/

/-- The section of `setupChannel` and `deleteChannel` with `m_suspendFlag` set.  The flag is cleared
before the mutex is unlocked. -/
def suspended : Code n :=
  [.lock .suspendFlag, .lock .waitset, .unlock .suspendFlag, .unlock .waitset]

/-- The end of `deleteChannel`, with so many polls before the last: wait until no message of the
subscriber is pending. -/
def awaitPending (polls : Nat) : Code n :=
  (List.replicate polls ()).flatMap (fun _ => pendingMessages) ++
    [.await .pendingOfIceoryx2Transport] ++ pendingMessages

/-- `Iceoryx2Transport::updateChannels`: for each channel to delete the polls, if it is found, and
for each channel to set up whether there is room for it. -/
def toTransportUpdateChannels (polls : List (Option Nat)) (emplaced : List Bool) : Code n :=
  updateChannelsInternal .subscribers
    (polls.map fun found =>
      match found with
      | none => []
      | some k => suspended ++ awaitPending k)
    (emplaced.map fun b => if b then suspended else [])

/-! `data_writer.cpp`. -/

/-- What `writeSegmented` does for a device index: how many datagrams are sent, whether over UDP,
which transports are found failed before and after that, whether the message should be pending, and
whether `release` finds the counter at zero. -/
structure Write where
  sends : Nat
  udp : Bool
  before : Failures
  after : Failures
  shouldBePending : Bool
  last : Bool

/-- `sendUserData`. -/
def sendUserData (udp : Bool) : Code n := if udp then locked .socket [] else []

def sends (count : Nat) (udp : Bool) : Code n :=
  (List.replicate count ()).flatMap fun _ => sendUserData udp

/-- `writeSegmentedInternal` and the check for a pending message before it. -/
def writeSegmentedInternal (w : Write) : Code n :=
  doFor (if w.shouldBePending then pendingMessages else []) w.before ++
    doFor (sends w.sends w.udp) w.after

/-- One round of `writeSegmented`.  No transport keeps the buffer, so a message that has been pushed
is not pending after all, and is released; until then it is in the table. -/
def write (x : Subscribers) (w : Write) : Code n :=
  if w.shouldBePending then
    locked x.pending (writeSegmentedInternal w ++ pendingMessages) ++
      if w.last then useSubscriber x else []
  else writeSegmentedInternal w ++ useSubscriber x

/-- `writeSegmented`.  It returns when there is no room for a pending message (`discarded`). -/
def writeSegmented (x : Subscribers) (writes : List Write) (discarded : Option Failures) :
    Code n :=
  writes.flatMap (write x) ++
    match discarded with
    | none => []
    | some failures => doFor pendingMessages failures ++ useSubscriber x

/-! `discovery.cpp`. -/

/-- What `m_updateCallback` does to the channels of both directions. -/
structure Update where
  found : List Bool
  polls : List (Option Nat)
  emplaced : List Bool

def updateCallback (u : Update) : Code n :=
  toIoxUpdateChannels u.found ++ toTransportUpdateChannels u.polls u.emplaced

/-- A section of `DiscoveryManager` that sends discovery info: `initialize`, the end of
`deinitialize`, `resendDiscoveryInfoToTransport`. -/
def sendDiscoveryInfo (failures : Failures) : Code n :=
  locked .discovery (doFor [] failures)

/-- A section that sends nothing: `generateDeviceIndices`, `generateDeviceIndicesForwarding`, the
publication of the introspection sample. -/
def discoverySection : Code n := locked .discovery []

/-- `readPortSubscriber`: when something has changed, the update and the failures of the send. -/
def readPortSubscriber (changed : Option (Update × Failures)) : Code n :=
  discoverySection ++
    match changed with
    | none => []
    | some (u, failures) => updateCallback u ++ sendDiscoveryInfo failures

/-- `receiveRemoteDiscoveryInfo`: the failures of the reply, and the update but for a termination
message. -/
def receiveRemoteDiscoveryInfo (failures : Failures) (update : Option Update) : Code n :=
  sendDiscoveryInfo failures ++
    match update with
    | none => []
    | some u => updateCallback u

/-! ## The threads -/

/-- A notification in `Iceoryx2Transport::waitsetLoop`. -/
inductive Notification
  | noMessage
  | noDevice
  | forwarded (writes : List Write) (discarded : Option Failures)

def iceoryx2TransportNotification : Notification → Code n
  | .noMessage => useSubscriber .ofIceoryx2Transport
  | .noDevice =>
    useSubscriber .ofIceoryx2Transport ++ discoverySection ++ useSubscriber .ofIceoryx2Transport
  | .forwarded writes discarded =>
    useSubscriber .ofIceoryx2Transport ++ discoverySection ++
      writeSegmented .ofIceoryx2Transport writes discarded

/-- `Iceoryx2Transport::waitsetLoop`: the notifications of each round. -/
def iceoryx2TransportLoop (rounds : List (List Notification)) : Code n :=
  rounds.flatMap fun notifications =>
    locked .waitset [] ++ [.await .suspendFlag] ++
      notifications.flatMap iceoryx2TransportNotification

/-- The same for the forwarder, which first looks up where the message came from. -/
def transportForwarderNotification : Notification → Code n
  | .noMessage => useSubscriber .ofTransportForwarder
  | .noDevice =>
    useSubscriber .ofTransportForwarder ++ messagesToForward ++ discoverySection ++
      useSubscriber .ofTransportForwarder
  | .forwarded writes discarded =>
    useSubscriber .ofTransportForwarder ++ messagesToForward ++ discoverySection ++
      writeSegmented .ofTransportForwarder writes discarded

/-- `TransportForwarder::waitsetLoop`. -/
def transportForwarderLoop (notifications : List Notification) : Code n :=
  notifications.flatMap transportForwarderNotification

/-- `DiscoveryManager::waitsetLoop`: for each notification what has changed, and whether an
introspection sample could be loaned. -/
def discoveryLoop (notifications : List (Option (Update × Failures) × Bool)) : Code n :=
  notifications.flatMap fun x => readPortSubscriber x.1 ++ if x.2 then discoverySection else []

/-- The callbacks that a transport runs in its threads. -/
inductive Callback
  | userData (r : Receive)
  | bufferNeeded (channel pushed : Bool)
  | bufferReleased (channel shouldPublish forwarded : Bool)
  | bufferSent (ofForwarder last : Bool)
  /-- A discovery message over UDP, or the report of a session that a client has opened. -/
  | discovery (failures : Failures) (update : Option Update)
  /-- `udpDiscoveryCallback` and the handler of `startAccept`: the mutex of the sessions is held,
  also while a message is reported. -/
  | withSessions (report : Option (Failures × Option Update))

def callback : Callback → Code n
  | .userData r => receive r
  | .bufferNeeded channel pushed => loanBuffer channel pushed
  | .bufferReleased channel shouldPublish forwarded =>
    releaseBuffer channel shouldPublish forwarded
  | .bufferSent ofForwarder last =>
    release (if ofForwarder then .ofTransportForwarder else .ofIceoryx2Transport) last
  | .discovery failures update => receiveRemoteDiscoveryInfo failures update
  | .withSessions report =>
    locked .transportSessions <|
      match report with
      | none => []
      | some (failures, update) => receiveRemoteDiscoveryInfo failures update

/-- A round of the loop in `GatewayApp::run`: the expired messages, and the failures of each
broadcast to a lossy transport. -/
structure MainRound where
  expired : Nat
  resends : List Failures

/-- The constructors of `DiscoveryManager`, `PendingMessageManager` and `Transport2Iceoryx` register
callbacks with `doForAllEnabled`.  The first one does this before there is a fail callback. -/
def constructors (inPendingMessageManager inTransport2Iceoryx : Failures) : Code n :=
  doFor [] .none ++ doFor [] inPendingMessageManager ++ doFor [] inTransport2Iceoryx

/-- `GatewayApp::run`: the constructors, `initialize`, the loop, `deinitialize`, the two `join`s and
`TransportInfo::terminate`, whose destructors join the threads of the transports. -/
def run (atConstruction : Failures × Failures) (atStart : Failures) (rounds : List MainRound)
    (atEnd : Failures) : Code n :=
  constructors atConstruction.1 atConstruction.2 ++ sendDiscoveryInfo atStart ++
    (rounds.flatMap fun r =>
      checkSegmentedMessages r.expired ++ r.resends.flatMap sendDiscoveryInfo) ++
    [.join .discoveryManager] ++ sendDiscoveryInfo atEnd ++
    [.join .iceoryx2Transport] ++ [.join .transportForwarder] ++
    (List.finRange n).flatMap fun i => [.join (.transport i)]

/-- What the threads do in a run of the gateway. -/
structure Programs (n : Nat) where
  atConstruction : Failures × Failures
  atStart : Failures
  rounds : List MainRound
  atEnd : Failures
  discoveryNotifications : List (Option (Update × Failures) × Bool)
  iceoryx2TransportRounds : List (List Notification)
  forwarderNotifications : List Notification
  callbacks : Fin n → List Callback

def Programs.code (p : Programs n) : Thread n → Code n
  | .main => run p.atConstruction p.atStart p.rounds p.atEnd
  | .discoveryManager => discoveryLoop p.discoveryNotifications
  | .iceoryx2Transport => iceoryx2TransportLoop p.iceoryx2TransportRounds
  | .transportForwarder => transportForwarderLoop p.forwarderNotifications
  | .transport i => (p.callbacks i).flatMap callback

/-! ## The programs keep to the order -/

section Keeps

variable {t : Thread n} {held : List Mutex}

/-- All of these mutexes have a lower rank. -/
def Below (r : Nat) (held : List Mutex) : Prop := ∀ k ∈ held, rank k < r

theorem Below.mono {r r' : Nat} (h : Below r held) (hr : r ≤ r') : Below r' held :=
  fun k hk => Nat.lt_of_lt_of_le (h k hk) hr

theorem Below.cons {r r' : Nat} {m : Mutex} (h : Below r held) (hm : rank m < r')
    (hr : r ≤ r') : Below r' (m :: held) := by
  intro k hk
  rcases List.mem_cons.mp hk with rfl | hk
  · exact hm
  · exact h.mono hr k hk

theorem Below.nil (r : Nat) : Below r [] := by
  intro k hk
  cases hk

/-- A section in which no other mutex is taken. -/
theorem keeps_section {m : Mutex} (h : Below (rank m) held) :
    Keeps (order n) t held (locked m []) :=
  Keeps.locked (Or.inl h) Keeps.nil

theorem keeps_failCallbacks (failures : Failures) (h : Below 3 held ∨ Mutex.discovery ∈ held) :
    Keeps (order n) t held (failCallbacks failures) := by
  induction failures generalizing held with
  | none => exact Keeps.nil
  | fail inBroadcast next ih ih' =>
    refine Keeps.append (Keeps.locked ?_ (ih ?_)) (ih' h)
    · exact h.imp_right fun hmem => ⟨rfl, hmem⟩
    · exact Or.inr List.mem_cons_self

theorem keeps_doFor {fn : Code n} (failures : Failures) (h : Below 3 held ∨ .discovery ∈ held)
    (hfn : Keeps (order n) t held fn) : Keeps (order n) t held (doFor fn failures) :=
  hfn.append (keeps_failCallbacks failures h)

theorem keeps_segmentedMessages (h : Below 4 held) :
    Keeps (order n) t held segmentedMessages := keeps_section h

theorem keeps_pendingMessages (h : Below 4 held) :
    Keeps (order n) t held pendingMessages := keeps_section h

theorem keeps_messagesToForward (h : Below 4 held) :
    Keeps (order n) t held messagesToForward := keeps_section h

theorem keeps_push (forwarded : Bool) (h : Below 4 held) :
    Keeps (order n) t held (push forwarded) :=
  Keeps.ite (keeps_messagesToForward h) Keeps.nil

theorem keeps_checkSegmentedMessages (expired : Nat) :
    Keeps (order n) t [] (checkSegmentedMessages expired) := by
  refine Keeps.append (Keeps.flatMap fun _ _ => ?_) (keeps_segmentedMessages (.nil 4))
  exact (keeps_segmentedMessages (.nil 4)).append (keeps_section (.nil 1))

/-- The place of the pending messages in the order. -/
def Subscribers.Fits (x : Subscribers) : Prop := rank x.pending = 2

theorem fits_iceoryx2Transport : Subscribers.ofIceoryx2Transport.Fits := rfl

theorem fits_transportForwarder : Subscribers.ofTransportForwarder.Fits := rfl

theorem keeps_useSubscriber (x : Subscribers) : Keeps (order n) t [] (useSubscriber x) :=
  keeps_section (.nil _)

theorem keeps_release (x : Subscribers) (last : Bool) :
    Keeps (order n) t [] (release x last) :=
  (keeps_pendingMessages (.nil 4)).append (Keeps.ite (keeps_useSubscriber x) Keeps.nil)

/-- The pieces of a `locked` section of `Transport2Iceoryx`. -/
theorem keeps_publishers {ops : Code n} (h : Below 1 held)
    (hops : Below 4 (.publishers :: held) → Keeps (order n) t (.publishers :: held) ops) :
    Keeps (order n) t held (locked .publishers ops) :=
  Keeps.locked (Or.inl h) (hops (h.cons (by decide) (by decide)))

theorem keeps_receive (r : Receive) (h : Below 1 held) :
    Keeps (order n) t held (receive r) := by
  refine keeps_publishers h fun hb => ?_
  cases r with
  | noChannel => exact Keeps.nil
  | loanFailed => exact keeps_segmentedMessages hb
  | taken pushed shouldPublish forwarded =>
    refine Keeps.append (Keeps.append (keeps_segmentedMessages hb) ?_) ?_
    · exact Keeps.ite (keeps_segmentedMessages hb) Keeps.nil
    · exact Keeps.ite (keeps_push forwarded hb) Keeps.nil

theorem keeps_loanBuffer (channel pushed : Bool) (h : Below 1 held) :
    Keeps (order n) t held (loanBuffer channel pushed) := by
  refine keeps_publishers h fun hb => Keeps.ite ((keeps_segmentedMessages hb).append ?_) Keeps.nil
  exact Keeps.ite (keeps_segmentedMessages hb) Keeps.nil

theorem keeps_releaseBuffer (channel shouldPublish forwarded : Bool) (h : Below 1 held) :
    Keeps (order n) t held (releaseBuffer channel shouldPublish forwarded) := by
  refine keeps_publishers h fun hb => Keeps.ite ((keeps_segmentedMessages hb).append ?_) Keeps.nil
  exact Keeps.ite (keeps_push forwarded hb) Keeps.nil

theorem keeps_updateChannelsInternal {mutex : Mutex} {toDelete toSetup : List (Code n)}
    (h : Below (rank mutex) held)
    (hdelete : ∀ ops ∈ toDelete, Keeps (order n) t (mutex :: held) ops)
    (hsetup : ∀ ops ∈ toSetup, Keeps (order n) t (mutex :: held) ops) :
    Keeps (order n) t held (updateChannelsInternal mutex toDelete toSetup) :=
  Keeps.locked (Or.inl h) ((Keeps.flatMap hdelete).append (Keeps.flatMap hsetup))

theorem keeps_toIoxUpdateChannels (found : List Bool) (h : Below 1 held) :
    Keeps (order n) t held (toIoxUpdateChannels found) := by
  refine keeps_updateChannelsInternal h (fun ops hops => ?_) fun ops hops => ?_
  · obtain ⟨b, -, rfl⟩ := List.mem_map.mp hops
    refine Keeps.ite (keeps_segmentedMessages ?_) Keeps.nil
    exact h.cons (by decide) (by decide)
  · cases hops

/-- The flag and the mutex overlap: the flag is cleared first. -/
theorem keeps_suspended (h : Below 2 held) : Keeps (order n) t held suspended := by
  intro rest hrest
  have hwaitset : Below 3 (.suspendFlag :: held) := h.cons (by decide) (by decide)
  refine ⟨Or.inl h, Or.inl hwaitset, List.mem_cons_of_mem _ List.mem_cons_self, ?_⟩
  have herase : (Mutex.waitset :: Mutex.suspendFlag :: held).erase .suspendFlag
      = .waitset :: held := by
    rw [List.erase_cons_tail (by decide), List.erase_cons_head]
  have hafter : Op.after (Mutex.waitset :: Mutex.suspendFlag :: held)
      (.unlock .suspendFlag : Op (Thread n) Mutex) = .waitset :: held :=
    herase
  change Ok (order n) t (Op.after (Mutex.waitset :: Mutex.suspendFlag :: held)
    (.unlock .suspendFlag : Op (Thread n) Mutex)) _
  rw [hafter]
  refine ⟨List.mem_cons_self, ?_⟩
  change Ok (order n) t ((Mutex.waitset :: held).erase .waitset) rest
  rw [List.erase_cons_head]
  exact hrest

theorem keeps_toTransportUpdateChannels (polls : List (Option Nat)) (emplaced : List Bool)
    (h : Below 1 held) :
    Keeps (order n) t held (toTransportUpdateChannels polls emplaced) := by
  have hb : Below 2 (.subscribers :: held) := h.cons (by decide) (by decide)
  have hpoll : Keeps (order n) t (.subscribers :: held) pendingMessages :=
    keeps_pendingMessages (hb.mono (by decide))
  refine keeps_updateChannelsInternal h (fun ops hops => ?_) fun ops hops => ?_
  · obtain ⟨found, -, rfl⟩ := List.mem_map.mp hops
    cases found with
    | none => exact Keeps.nil
    | some k =>
      refine (keeps_suspended hb).append ((Keeps.append ?_ ?_).append hpoll)
      · exact Keeps.flatMap fun _ _ => hpoll
      · exact Keeps.await hb
  · obtain ⟨b, -, rfl⟩ := List.mem_map.mp hops
    exact Keeps.ite (keeps_suspended hb) Keeps.nil

theorem keeps_updateCallback (u : Update) (h : Below 1 held) :
    Keeps (order n) t held (updateCallback u) :=
  (keeps_toIoxUpdateChannels _ h).append (keeps_toTransportUpdateChannels _ _ h)

theorem keeps_sends (count : Nat) (udp : Bool) (h : Below 4 held) :
    Keeps (order n) t held (sends count udp) :=
  Keeps.flatMap fun _ _ => Keeps.ite (keeps_section h) Keeps.nil

theorem keeps_writeSegmentedInternal (w : Write) (h : Below 3 held) :
    Keeps (order n) t held (writeSegmentedInternal w) := by
  have hb : Below 4 held := h.mono (by decide)
  refine Keeps.append (keeps_doFor w.before (Or.inl h) ?_) (keeps_doFor w.after (Or.inl h) ?_)
  · exact Keeps.ite (keeps_pendingMessages hb) Keeps.nil
  · exact keeps_sends w.sends w.udp hb

theorem keeps_write {x : Subscribers} (hx : x.Fits) (w : Write) :
    Keeps (order n) t [] (write x w) := by
  have hb : Below 3 [x.pending] := by
    refine (Below.nil 3).cons ?_ le_rfl
    rw [show rank x.pending = 2 from hx]
    decide
  refine Keeps.ite (Keeps.append ?_ ?_) ?_
  · refine Keeps.locked (Or.inl (Below.nil _)) ?_
    exact (keeps_writeSegmentedInternal w hb).append (keeps_pendingMessages (hb.mono (by decide)))
  · exact Keeps.ite (keeps_useSubscriber x) Keeps.nil
  · exact (keeps_writeSegmentedInternal w (.nil 3)).append (keeps_useSubscriber x)

theorem keeps_writeSegmented {x : Subscribers} (hx : x.Fits) (writes : List Write)
    (discarded : Option Failures) :
    Keeps (order n) t [] (writeSegmented x writes discarded) := by
  refine Keeps.append (Keeps.flatMap fun w _ => keeps_write hx w) ?_
  cases discarded with
  | none => exact Keeps.nil
  | some failures =>
    refine Keeps.append ?_ (keeps_useSubscriber x)
    exact keeps_doFor failures (Or.inl (.nil 3)) (keeps_pendingMessages (.nil 4))

theorem keeps_sendDiscoveryInfo (failures : Failures) (h : Below 3 held) :
    Keeps (order n) t held (sendDiscoveryInfo failures) := by
  refine Keeps.locked (Or.inl h) ?_
  exact keeps_doFor failures (Or.inr List.mem_cons_self) Keeps.nil

theorem keeps_discoverySection (h : Below 3 held) :
    Keeps (order n) t held discoverySection := keeps_section h

theorem keeps_readPortSubscriber (changed : Option (Update × Failures)) :
    Keeps (order n) t [] (readPortSubscriber changed) := by
  refine (keeps_discoverySection (.nil 3)).append ?_
  cases changed with
  | none => exact Keeps.nil
  | some x =>
    exact (keeps_updateCallback x.1 (.nil 1)).append (keeps_sendDiscoveryInfo x.2 (.nil 3))

/-- Also with the mutex of the sessions held. -/
theorem keeps_receiveRemoteDiscoveryInfo (failures : Failures) (update : Option Update)
    (h : Below 1 held) :
    Keeps (order n) t held (receiveRemoteDiscoveryInfo failures update) := by
  refine (keeps_sendDiscoveryInfo failures (h.mono (by decide))).append ?_
  cases update with
  | none => exact Keeps.nil
  | some u => exact keeps_updateCallback u h

theorem keeps_iceoryx2TransportNotification (x : Notification) :
    Keeps (order n) t [] (iceoryx2TransportNotification x) := by
  have htake := keeps_useSubscriber (n := n) (t := t) .ofIceoryx2Transport
  have hdisc := keeps_discoverySection (t := t) (.nil 3)
  cases x with
  | noMessage => exact htake
  | noDevice => exact (htake.append hdisc).append htake
  | forwarded writes discarded =>
    exact (htake.append hdisc).append (keeps_writeSegmented fits_iceoryx2Transport _ _)

theorem keeps_transportForwarderNotification (x : Notification) :
    Keeps (order n) t [] (transportForwarderNotification x) := by
  have htake := keeps_useSubscriber (n := n) (t := t) .ofTransportForwarder
  have hfind := (htake.append (keeps_messagesToForward (.nil 4))).append
    (keeps_discoverySection (.nil 3))
  cases x with
  | noMessage => exact htake
  | noDevice => exact hfind.append htake
  | forwarded writes discarded =>
    exact hfind.append (keeps_writeSegmented fits_transportForwarder _ _)

theorem keeps_callback (x : Callback) : Keeps (order n) t [] (callback x) := by
  cases x with
  | userData r => exact keeps_receive r (.nil 1)
  | bufferNeeded channel pushed => exact keeps_loanBuffer channel pushed (.nil 1)
  | bufferReleased channel shouldPublish forwarded =>
    exact keeps_releaseBuffer channel shouldPublish forwarded (.nil 1)
  | bufferSent ofForwarder last =>
    exact keeps_release _ last
  | discovery failures update => exact keeps_receiveRemoteDiscoveryInfo _ _ (.nil 1)
  | withSessions report =>
    refine Keeps.locked (Or.inl (Below.nil 0)) ?_
    cases report with
    | none => exact Keeps.nil
    | some x =>
      refine keeps_receiveRemoteDiscoveryInfo _ _ ?_
      exact (Below.nil 0).cons (by decide) (by decide)

theorem keeps_constructors (inPendingMessageManager inTransport2Iceoryx : Failures) :
    Keeps (order n) t [] (constructors inPendingMessageManager inTransport2Iceoryx) := by
  have hdo : ∀ failures, Keeps (order n) t [] (doFor [] failures) :=
    fun failures => keeps_doFor failures (Or.inl (.nil 3)) Keeps.nil
  exact ((hdo _).append (hdo _)).append (hdo _)

theorem keeps_run (atConstruction : Failures × Failures) (atStart : Failures)
    (rounds : List MainRound) (atEnd : Failures) :
    Keeps (order n) .main [] (run atConstruction atStart rounds atEnd) := by
  have hsend := fun failures => keeps_sendDiscoveryInfo (n := n) (t := .main) failures (.nil 3)
  have hjoin : ∀ u : Thread n, (order n).level u = 0 →
      Keeps (order n) .main [] [.join u] := by
    intro u hu
    refine Keeps.join rfl ?_
    rw [hu]
    exact Nat.zero_lt_one
  have hloop : Keeps (order n) .main [] (rounds.flatMap fun r =>
      checkSegmentedMessages r.expired ++ r.resends.flatMap sendDiscoveryInfo) := by
    refine Keeps.flatMap fun r _ => (keeps_checkSegmentedMessages r.expired).append ?_
    exact Keeps.flatMap fun failures _ => hsend failures
  have htransports : Keeps (order n) .main []
      ((List.finRange n).flatMap fun i => [.join (.transport i)]) :=
    Keeps.flatMap fun i _ => hjoin (.transport i) rfl
  have hconstruct := keeps_constructors (n := n) (t := .main) atConstruction.1 atConstruction.2
  have hsent := (hconstruct.append (hsend atStart)).append hloop
  have hstopped := (hsent.append (hjoin .discoveryManager rfl)).append (hsend atEnd)
  exact ((hstopped.append (hjoin _ rfl)).append (hjoin _ rfl)).append htransports

/-- **Every thread keeps to the order.** -/
theorem ok_code (p : Programs n) (t : Thread n) : Ok (order n) t [] (p.code t) := by
  refine Keeps.ok ?_
  cases t with
  | main => exact keeps_run _ _ _ _
  | discoveryManager =>
    refine Keeps.flatMap fun x _ => (keeps_readPortSubscriber x.1).append ?_
    exact Keeps.ite (keeps_discoverySection (.nil 3)) Keeps.nil
  | iceoryx2Transport =>
    refine Keeps.flatMap fun notifications _ => Keeps.append (Keeps.append ?_ ?_) ?_
    · exact keeps_section (.nil 3)
    · exact Keeps.await (Below.nil 2)
    · exact Keeps.flatMap fun x _ => keeps_iceoryx2TransportNotification x
  | transportForwarder => exact Keeps.flatMap fun x _ => keeps_transportForwarderNotification x
  | transport i => exact Keeps.flatMap fun x _ => keeps_callback x

end Keeps

/-! ## Every schedule -/

theorem inv_of_run (p : Programs n) {ls : List (Thread n)}
    {s : LockOrder.State (Thread n) Mutex}
    (h : Run.exec (step (order n)) (LockOrder.State.init p.code) ls = some s) :
    Inv (order n) s :=
  Run.invariant (Inv (order n)) (fun _ _ _ => inv_step) (inv_init (ok_code p)) h

/-- **No deadlock.**  Whatever the threads do and in whatever order they run: as long as one of them
has not ended, one of them can go on, and all of them can still run to their end. -/
theorem gateway_never_stuck (p : Programs n) {ls : List (Thread n)}
    {s : LockOrder.State (Thread n) Mutex}
    (h : Run.exec (step (order n)) (LockOrder.State.init p.code) ls = some s) :
    ((∃ t, (s t).todo ≠ []) → ∃ t s', step (order n) s t = some s') ∧
      ∃ ls' s', Run.exec (step (order n)) s ls' = some s' ∧ ∀ t, (s' t).todo = [] :=
  ⟨fun ⟨_, ht⟩ => progress (inv_of_run p h) ht, completes (inv_of_run p h)⟩

/-! ## A schedule -/

/-- A channel is deleted and another one set up, a message is sent over UDP, which fails, and a
discovery message comes in over TCP. -/
def demoPrograms : Programs 1 where
  atConstruction := (.none, .fail .none .none)
  atStart := .none
  rounds := [⟨1, [.none]⟩]
  atEnd := .none
  discoveryNotifications := [(some (⟨[true], [some 1], [true]⟩, .none), true)]
  iceoryx2TransportRounds :=
    [[.forwarded [⟨1, true, .none, .fail .none .none, true, true⟩] none]]
  forwarderNotifications := [.noDevice]
  callbacks := fun _ => [.withSessions (some (.none, none))]

/-- The transport has taken the mutexes of the sessions and of the discovery system. -/
def demoSchedule : List (Thread 1) := List.replicate 2 (.transport 0)

theorem demoSchedule_run : ∃ s,
    Run.exec (step (order 1)) (LockOrder.State.init demoPrograms.code) demoSchedule = some s ∧
      (s (.transport 0)).held = [.discovery, .transportSessions] ∧ step (order 1) s .main = none ∧
      (s .main).todo ≠ [] := by
  have hfacts : (Run.exec (step (order 1)) (LockOrder.State.init demoPrograms.code)
      demoSchedule).map (fun s => ((s (.transport 0)).held, (step (order 1) s .main).isNone,
        (s .main).todo.isEmpty)) = some ([.discovery, .transportSessions], true, false) := by
    decide +kernel
  obtain ⟨s, hrun, hs⟩ := Option.map_eq_some_iff.mp hfacts
  obtain ⟨hheld, hs⟩ := Prod.mk.inj hs
  obtain ⟨hmain, htodo⟩ := Prod.mk.inj hs
  refine ⟨s, hrun, hheld, Option.isNone_iff_eq_none.mp hmain, fun hnil => ?_⟩
  rw [hnil] at htodo
  cases htodo

/-- The main thread waits for the mutex, and another thread can go on. -/
theorem gateway_never_stuck_demo : ∃ s,
    Run.exec (step (order 1)) (LockOrder.State.init demoPrograms.code) demoSchedule = some s ∧
      step (order 1) s .main = none ∧ ∃ t s', step (order 1) s t = some s' := by
  obtain ⟨s, hrun, -, hmain, htodo⟩ := demoSchedule_run
  exact ⟨s, hrun, hmain, (gateway_never_stuck demoPrograms hrun).1 ⟨.main, htodo⟩⟩

end P3com.Locks
