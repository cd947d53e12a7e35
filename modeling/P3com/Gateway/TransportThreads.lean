/-
# The threads that use the transports

`GatewayApp::run` of `source/p3com/gateway/gateway_app.cpp`, from its first constructor to its
return, with the threads that it shares the transports with: the waitset threads of
`DiscoveryManager`, `Iceoryx2Transport` and `TransportForwarder`, and the threads of the transports,
which run the callbacks registered with them.

A thread is what it has still to do, a list of operations: an operation or a flag of
`DiscoveryManager::m_mutex`, a test of the status of a transport, a call of one of its methods.
What a test decides is put in front of the rest.  A transport may fail at any time.

The other mutexes are not needed here (`Locks`), nor are the bits of `TransportInfo`.
-/
import P3com.Gateway.Locks
import P3com.Transport.TransportInfo
import P3com.Lib.Run

namespace P3com.TransportThreads

open Locks (Thread)

/-! ## What the threads do -/

/-- The methods of a transport. -/
inductive Call
  | registerDiscoveryCallback
  | registerBufferSentCallback
  /-- `registerUserDataCallback`, with `registerBufferNeededCallback` and
  `registerBufferReleasedCallback`. -/
  | registerUserDataCallback
  | sendBroadcast (isTermination : Bool)
  | willBePending
  | maxMessageSize
  | sendUserData
deriving DecidableEq

inductive Op (n : Nat)
  /-- `DiscoveryManager::m_mutex`, which is recursive. -/
  | lock
  | unlock
  /-- `if (t && t->isGood())`, and what is called then. -/
  | ifGood (type : TransportType) (calls : List Call)
  | call (type : TransportType) (call : Call)
  /-- `if (t && t->hasFailedSetDisabled())`. -/
  | ifFailed (type : TransportType)
  /-- `if (s_failCallback) s_failCallback()`, for a transport that has been disabled. -/
  | failCallback (type : TransportType)
  /-- `if (!m_terminateFlag.load()) sendDiscoveryInfo(generateDiscoveryInfo())`. -/
  | ifNotTerminating
  /-- A use of `iox2tr`, `tr2iox` or one of the managers that `run` owns. -/
  | use
  | registerTransportFailCallback
  /-- A `std::thread` is constructed. -/
  | start (t : Thread n)
  /-- The test of a loop. -/
  | loop
  /-- `m_terminateFlag.store(true)` for the loop of this thread. -/
  | terminate (t : Thread n)
  | join (t : Thread n)
  /-- `m_updateCallback` is replaced in `deinitialize`. -/
  | clearUpdateCallback
  /-- The destructor of a transport stops its context. -/
  | stop (type : TransportType)
  /-- The slot of `s_transports` is null. -/
  | reset (type : TransportType)
  | returned
deriving DecidableEq

variable {n : Nat}

abbrev Code (n : Nat) := List (Op n)

/-! `transport_info.hpp`. -/

def doFor (type : TransportType) (calls : List Call) : Code n :=
  [.ifGood type calls, .ifFailed type]

def doForAllEnabled (calls : List Call) : Code n :=
  TransportInfo.types.map (.ifGood · calls) ++ TransportInfo.types.map .ifFailed

/-- The transports that `findMatchingType` looks at before it returns. -/
def findMatchingType (count : Nat) : Code n :=
  (TransportInfo.types.take count).map (.ifGood · [])

/-! `discovery.cpp`. -/

def sendDiscoveryInfo (isTermination : Bool) : Code n :=
  doForAllEnabled [.sendBroadcast isTermination]

/-- The fail callback that the constructor of `DiscoveryManager` registers. -/
def transportFailCallback : Code n := [.lock, .ifNotTerminating, .unlock]

def resendDiscoveryInfoToTransport (type : TransportType) : Code n :=
  [.lock] ++ doFor type [.sendBroadcast false] ++ [.unlock]

/-- `readPortSubscriber`: whether anything has changed, and whether the subscribers have. -/
def readPortSubscriber (changed subscribersChanged : Bool) : Code n :=
  [.lock, .unlock] ++
    if changed then
      [.use, .lock] ++ (if subscribersChanged then sendDiscoveryInfo false else []) ++ [.unlock]
    else []

/-- `receiveRemoteDiscoveryInfo`: whether it is a termination message, and whether the device is a
new one. -/
def receiveRemoteDiscoveryInfo (isTermination isNew : Bool) : Code n :=
  if isTermination then [.lock, .unlock]
  else [.lock] ++ (if isNew then [.ifNotTerminating] else []) ++ [.unlock, .use]

/-- `generateDeviceIndices` or `generateDeviceIndicesForwarding`: the lookups for its records. -/
def generateDeviceIndices (lookups : List Nat) : Code n :=
  [.lock] ++ lookups.flatMap findMatchingType ++ [.unlock]

/-! `data_writer.cpp`. -/

/-- The first `doFor` of a round of `writeSegmented`: whether the message is pushed to the pending
messages. -/
def preparePending (type : TransportType) (pushed : Bool) : Code n :=
  [.ifGood type [.willBePending]] ++ (if pushed then [.use] else []) ++ [.ifFailed type]

/-- A round of `writeSegmented`: the transport, whether the message is pushed, and the number of
submessages. -/
structure Write where
  type : TransportType
  pushed : Bool
  submessages : Nat

/-- One round.  At its end the message is released, as no transport keeps the buffer. -/
def write (w : Write) : Code n :=
  preparePending w.type w.pushed ++
    doFor w.type (.maxMessageSize :: List.replicate w.submessages .sendUserData) ++ [.use]

/-- `writeSegmented`.  It releases the message and returns when it is refused as a pending one
(`discarded`). -/
def writeSegmented (writes : List Write) (discarded : Option TransportType) : Code n :=
  writes.flatMap write ++
    match discarded with
    | none => []
    | some type => preparePending type true ++ [.use]

/-! ## The threads -/

/-- A notification of `Iceoryx2Transport` or `TransportForwarder`: the lookups, and what is sent. -/
inductive Notification
  | noMessage
  | noDevice (lookups : List Nat)
  | forwarded (lookups : List Nat) (writes : List Write) (discarded : Option TransportType)

/-- `take`, the lookups, and `release` or `writeSegmented`. -/
def senderNotification : Notification → Code n
  | .noMessage => [.use]
  | .noDevice lookups => [.use] ++ generateDeviceIndices lookups ++ [.use]
  | .forwarded lookups writes discarded =>
    [.use] ++ generateDeviceIndices lookups ++ [.use] ++ writeSegmented writes discarded

/-- A round of one of their loops. -/
def senderRound (notifications : List Notification) : Code n :=
  notifications.flatMap senderNotification

/-- A notification of `DiscoveryManager`: whether anything has changed, whether the subscribers
have, and whether an introspection sample could be loaned. -/
structure PortNotification where
  changed : Bool
  subscribersChanged : Bool
  loaned : Bool

/-- A round of `DiscoveryManager::waitsetLoop`.  The last section is that of the introspection
sample. -/
def discoveryRound (notifications : List PortNotification) : Code n :=
  notifications.flatMap fun x =>
    readPortSubscriber x.changed x.subscribersChanged ++ if x.loaned then [.lock, .unlock] else []

/-- The callbacks that a transport runs in its threads. -/
inductive Callback
  | discovery (isTermination isNew : Bool)
  | bufferSent
  /-- `receive`, `loanBuffer` or `releaseBuffer`. -/
  | userData

/-- The method that has registered it. -/
def Callback.registeredBy : Callback → Call
  | .discovery _ _ => .registerDiscoveryCallback
  | .bufferSent => .registerBufferSentCallback
  | .userData => .registerUserDataCallback

def Callback.code : Callback → Code n
  | .discovery isTermination isNew => receiveRemoteDiscoveryInfo isTermination isNew
  | .bufferSent => [.use]
  | .userData => [.use]

/-- A round of the loop in `run`: whether it is time to send to the lossy transports. -/
def mainRound (resend : Bool) : Code n :=
  [.use] ++ if resend then [TransportType.udp, .tcp].flatMap resendDiscoveryInfoToTransport else []

/-- What a run of the gateway starts with: the type of the transport that each thread belongs to,
whether any services are forwarded, and the transports that the constructor of `GatewayApp` has
enabled. -/
structure Config (n : Nat) where
  typeOf : Fin n → TransportType
  typeOf_mem : ∀ i, typeOf i ∈ TransportInfo.types
  forwards : Bool
  transports : TransportInfo

/-- The constructors of `DiscoveryManager`, `PendingMessageManager`, `TransportForwarder`,
`Transport2Iceoryx` and `Iceoryx2Transport`. -/
def constructors (cfg : Config n) : Code n :=
  doForAllEnabled [.registerDiscoveryCallback] ++ [.registerTransportFailCallback] ++
    doForAllEnabled [.registerBufferSentCallback] ++
    (if cfg.forwards then [.start .transportForwarder] else []) ++
    doForAllEnabled [.registerUserDataCallback] ++ [.start .iceoryx2Transport]

def initializeDiscovery : Code n :=
  [.lock, .start .discoveryManager] ++ sendDiscoveryInfo false ++ [.unlock]

def deinitializeDiscovery : Code n :=
  [.terminate .discoveryManager, .join .discoveryManager, .lock, .clearUpdateCallback] ++
    sendDiscoveryInfo true ++ [.unlock]

/-- `t.reset()`: the destructor stops the context and joins the threads. -/
def resetTransport (cfg : Config n) (type : TransportType) : Code n :=
  [.stop type] ++ ((List.finRange n).filter (cfg.typeOf · = type)).map (.join <| .transport ·) ++
    [.reset type]

/-- `GatewayApp::run`. -/
def run (cfg : Config n) : Code n :=
  constructors cfg ++ initializeDiscovery ++ [.loop] ++ deinitializeDiscovery ++
    [.terminate .iceoryx2Transport, .join .iceoryx2Transport] ++
    [.terminate .transportForwarder, .join .transportForwarder] ++
    TransportInfo.types.flatMap (resetTransport cfg) ++ [.returned]

/-! ## The machine -/

inductive Event (n : Nat)
  /-- A test of a transport, or a call. -/
  | access (t : Thread n) (type : TransportType) (call : Option Call)
  | disabled (t : Thread n) (type : TransportType)
  | failCallback (t : Thread n) (type : TransportType) (registered : Bool)
  | used (t : Thread n)
  | destroying (type : TransportType)
  | returned
deriving DecidableEq

structure State (n : Nat) where
  slot : TransportType → Option TransportStatus
  /-- The callbacks that are registered with a transport, by the methods for it. -/
  registered : TransportType → Call → Bool
  failCallback : Bool
  updateCallback : Bool
  /-- The flag that ends the loop of a thread. -/
  terminateFlag : Thread n → Bool
  stopped : TransportType → Bool
  /-- How often each thread has locked `m_mutex`. -/
  depth : Thread n → Nat
  /-- What a thread has still to do; `none` before it is started. -/
  todo : Thread n → Option (Code n)
  /-- The last event first. -/
  log : List (Event n)

def State.init (cfg : Config n) : State n where
  slot := cfg.transports.slot
  registered := fun _ _ => false
  failCallback := false
  updateCallback := true
  terminateFlag := fun _ => false
  stopped := fun _ => false
  depth := fun _ => 0
  todo
    | .main => some (run cfg)
    | .discoveryManager => none
    | .iceoryx2Transport => none
    | .transportForwarder => if cfg.forwards then none else some []
    | .transport _ => some []
  log := []

def State.setTodo (s : State n) (t : Thread n) (ops : Code n) : State n :=
  { s with todo := Function.update s.todo t (some ops) }

/-- `setFailed`. -/
def State.setFailed (s : State n) (type : TransportType) : State n :=
  if s.slot type = some .good then
    { s with slot := Function.update s.slot type (some .failed) }
  else s

/-- Whether a thread can go on with the operation. -/
def State.possible (s : State n) (t : Thread n) : Op n → Bool
  | .lock => ∀ u, u ≠ t → s.depth u = 0
  | .unlock => 0 < s.depth t
  | .start u => s.todo u = none
  | .join u => s.todo u = some []
  -- the loops have labels of their own
  | .loop => false
  | _ => true

/-- What the operation puts in front of the rest. -/
def State.pushes (s : State n) : Op n → Code n
  | .ifGood type calls => if s.slot type = some .good then calls.map (.call type) else []
  | .ifFailed type => if s.slot type = some .failed then [.failCallback type] else []
  | .failCallback _ => if s.failCallback then transportFailCallback else []
  | .ifNotTerminating =>
    if s.terminateFlag .discoveryManager then [] else sendDiscoveryInfo false
  | _ => []

def State.events (s : State n) (t : Thread n) : Op n → List (Event n)
  | .ifGood type _ => [.access t type none]
  | .call type call => [.access t type (some call)]
  | .ifFailed type =>
    (if s.slot type = some .failed then [.disabled t type] else []) ++ [.access t type none]
  | .failCallback type => [.failCallback t type s.failCallback]
  | .use => [.used t]
  | .stop type => [.destroying type]
  | .returned => [.returned]
  | _ => []

/-- How often `m_mutex` is held after the operation. -/
def Op.depth : Op n → Nat → Nat
  | .lock, k => k + 1
  | .unlock, k => k - 1
  | _, k => k

/-- The other effects of the operation. -/
def State.effect (s : State n) : Op n → State n
  | .call type call => { s with
      registered := Function.update s.registered type
        (Function.update (s.registered type) call true) }
  | .ifFailed type =>
    if s.slot type = some .failed then
      { s with slot := Function.update s.slot type (some .disabled) }
    else s
  | .registerTransportFailCallback => { s with failCallback := true }
  | .start u => s.setTodo u [.loop]
  | .terminate u => { s with terminateFlag := Function.update s.terminateFlag u true }
  | .clearUpdateCallback => { s with updateCallback := false }
  | .stop type => { s with stopped := Function.update s.stopped type true }
  | .reset type => { s with slot := Function.update s.slot type none }
  | _ => s

/-- One operation of a thread, with the rest of what it has to do. -/
def State.exec (s : State n) (t : Thread n) (op : Op n) (rest : Code n) : State n :=
  { (s.effect op).setTodo t (s.pushes op ++ rest) with
    depth := Function.update s.depth t (op.depth (s.depth t))
    log := s.events t op ++ s.log }

inductive Label (n : Nat)
  /-- The next operation of a thread, which is not the test of a loop. -/
  | run (t : Thread n)
  | mainRound (resend : Bool)
  /-- `hasTerminationRequested` ends the loop of `run`. -/
  | terminationRequested
  | discoveryRound (notifications : List PortNotification)
  | iceoryx2TransportRound (notifications : List Notification)
  | transportForwarderRound (notifications : List Notification)
  /-- The loop of a waitset thread ends. -/
  | endLoop (t : Thread n)
  /-- A thread of a transport begins a callback. -/
  | callback (i : Fin n) (x : Callback)
  | setFailed (type : TransportType)

/-- A waitset thread is at the test of its loop, and makes another round. -/
def State.round (s : State n) (t : Thread n) (ops : Code n) : Option (State n) :=
  if s.todo t = some [.loop] ∧ ¬ s.terminateFlag t then some (s.setTodo t (ops ++ [.loop]))
  else none

def step (cfg : Config n) (s : State n) : Label n → Option (State n)
  | .run t =>
    match s.todo t with
    | some (op :: rest) => if s.possible t op then some (s.exec t op rest) else none
    | _ => none
  | .mainRound resend =>
    match s.todo .main with
    | some (.loop :: rest) => some (s.setTodo .main (mainRound resend ++ .loop :: rest))
    | _ => none
  | .terminationRequested =>
    match s.todo .main with
    | some (.loop :: rest) => some (s.setTodo .main rest)
    | _ => none
  | .discoveryRound notifications => s.round .discoveryManager (discoveryRound notifications)
  | .iceoryx2TransportRound notifications =>
    s.round .iceoryx2Transport (senderRound notifications)
  | .transportForwarderRound notifications =>
    s.round .transportForwarder (senderRound notifications)
  | .endLoop t =>
    if s.todo t = some [.loop] ∧ s.terminateFlag t then some (s.setTodo t []) else none
  | .callback i x =>
    if s.todo (.transport i) = some [] ∧ s.registered (cfg.typeOf i) x.registeredBy ∧
        ¬ s.stopped (cfg.typeOf i) then
      some (s.setTodo (.transport i) x.code)
    else none
  | .setFailed type => some (s.setFailed type)

/-! ## The steps -/

/-- What a thread has still to do. -/
def State.code (s : State n) (t : Thread n) : Code n := (s.todo t).getD []

/-- A thread begins a round or a callback, or leaves a loop. -/
inductive Round (cfg : Config n) (s : State n) : Thread n → Code n → Code n → Prop
  | main (resend : Bool) (rest : Code n) :
    Round cfg s .main (.loop :: rest) (mainRound resend ++ .loop :: rest)
  | terminationRequested (rest : Code n) : Round cfg s .main (.loop :: rest) rest
  | discovery (notifications : List PortNotification) :
    Round cfg s .discoveryManager [.loop] (discoveryRound notifications ++ [.loop])
  | iceoryx2Transport (notifications : List Notification) :
    Round cfg s .iceoryx2Transport [.loop] (senderRound notifications ++ [.loop])
  | transportForwarder (notifications : List Notification) :
    Round cfg s .transportForwarder [.loop] (senderRound notifications ++ [.loop])
  | endLoop (t : Thread n) : Round cfg s t [.loop] []
  | callback (i : Fin n) (x : Callback) (hstopped : s.stopped (cfg.typeOf i) = false) :
    Round cfg s (.transport i) [] x.code

section Steps

variable {cfg : Config n} {s s' : State n} {t u : Thread n} {op : Op n} {rest old new : Code n}

theorem code_of_todo {ops : Code n} (h : s.todo t = some ops) : s.code t = ops := by
  rw [State.code, h]
  rfl

/-- **What a step can do.** -/
theorem step_cases {l : Label n} (h : step cfg s l = some s') :
    (∃ t op rest, s.todo t = some (op :: rest) ∧ s.possible t op = true ∧ s' = s.exec t op rest) ∨
    (∃ t old new, s.todo t = some old ∧ Round cfg s t old new ∧ s' = s.setTodo t new) ∨
    ∃ type, s' = s.setFailed type := by
  have hround : ∀ {t ops}, s.round t ops = some s' →
      s.todo t = some [.loop] ∧ s' = s.setTodo t (ops ++ [.loop]) := by
    intro t ops hr
    unfold State.round at hr
    split at hr
    · rename_i hc
      exact ⟨hc.1, (Option.some.inj hr).symm⟩
    · cases hr
  cases l with
  | run t =>
    dsimp only [step] at h
    split at h
    · rename_i op rest htodo
      split at h
      · exact Or.inl ⟨t, op, rest, htodo, ‹_›, (Option.some.inj h).symm⟩
      · cases h
    · cases h
  | mainRound resend =>
    dsimp only [step] at h
    split at h
    · rename_i rest htodo
      exact Or.inr (Or.inl ⟨_, _, _, htodo, .main resend rest, (Option.some.inj h).symm⟩)
    · cases h
  | terminationRequested =>
    dsimp only [step] at h
    split at h
    · rename_i rest htodo
      exact Or.inr (Or.inl ⟨_, _, _, htodo, .terminationRequested rest, (Option.some.inj h).symm⟩)
    · cases h
  | discoveryRound notifications =>
    obtain ⟨htodo, rfl⟩ := hround h
    exact Or.inr (Or.inl ⟨_, _, _, htodo, .discovery notifications, rfl⟩)
  | iceoryx2TransportRound notifications =>
    obtain ⟨htodo, rfl⟩ := hround h
    exact Or.inr (Or.inl ⟨_, _, _, htodo, .iceoryx2Transport notifications, rfl⟩)
  | transportForwarderRound notifications =>
    obtain ⟨htodo, rfl⟩ := hround h
    exact Or.inr (Or.inl ⟨_, _, _, htodo, .transportForwarder notifications, rfl⟩)
  | endLoop t =>
    dsimp only [step] at h
    split at h
    · rename_i hc
      exact Or.inr (Or.inl ⟨_, _, _, hc.1, .endLoop t, (Option.some.inj h).symm⟩)
    · cases h
  | callback i x =>
    dsimp only [step] at h
    split at h
    · rename_i hc
      exact Or.inr (Or.inl ⟨_, _, _, hc.1, .callback i x (Bool.eq_false_iff.mpr hc.2.2),
        (Option.some.inj h).symm⟩)
    · cases h
  | setFailed type => exact Or.inr (Or.inr ⟨type, (Option.some.inj h).symm⟩)

/-! ### The fields after a step -/

theorem todo_exec_self : (s.exec t op rest).todo t = some (s.pushes op ++ rest) :=
  Function.update_self _ _ _

/-- Another thread may be started. -/
theorem todo_exec_of_ne (rest : Code n) (hpos : s.possible t op = true) (hu : u ≠ t) :
    (s.exec t op rest).todo u = s.todo u ∨
      (s.todo u = none ∧ (s.exec t op rest).todo u = some [.loop]) := by
  have hexec : (s.exec t op rest).todo u = (s.effect op).todo u := Function.update_of_ne hu _ _
  rw [hexec]
  cases op with
  | start v =>
    have hnone : s.todo v = none := of_decide_eq_true hpos
    by_cases huv : u = v
    · subst huv
      exact Or.inr ⟨hnone, Function.update_self _ _ _⟩
    · exact Or.inl (Function.update_of_ne huv _ _)
  | ifFailed type =>
    refine Or.inl ?_
    dsimp only [State.effect]
    split <;> rfl
  | _ => exact Or.inl rfl

theorem depth_exec_of_ne (hu : u ≠ t) : (s.exec t op rest).depth u = s.depth u :=
  Function.update_of_ne hu _ _

theorem depth_exec_self : (s.exec t op rest).depth t = op.depth (s.depth t) :=
  Function.update_self _ _ _

theorem terminateFlag_exec (h : s.terminateFlag u = true) :
    (s.exec t op rest).terminateFlag u = true := by
  change (s.effect op).terminateFlag u = true
  cases op with
  | terminate v =>
    by_cases huv : u = v
    · subst huv
      exact Function.update_self _ _ _
    · exact (Function.update_of_ne huv _ _).trans h
  | ifFailed type =>
    dsimp only [State.effect]
    split <;> exact h
  | _ => exact h

theorem stopped_exec {type : TransportType} (h : s.stopped type = true) :
    (s.exec t op rest).stopped type = true := by
  change (s.effect op).stopped type = true
  cases op with
  | stop type' =>
    by_cases heq : type = type'
    · subst heq
      exact Function.update_self _ _ _
    · exact (Function.update_of_ne heq _ _).trans h
  | ifFailed type =>
    dsimp only [State.effect]
    split <;> exact h
  | _ => exact h

theorem updateCallback_exec (h : (s.exec t op rest).updateCallback = false) :
    s.updateCallback = false ∨ op = .clearUpdateCallback := by
  change (s.effect op).updateCallback = false at h
  cases op with
  | clearUpdateCallback => exact Or.inr rfl
  | ifFailed type =>
    dsimp only [State.effect] at h
    split at h <;> exact Or.inl h
  | _ => exact Or.inl h

theorem cleared_exec (h : s.updateCallback = false) :
    (s.exec t op rest).updateCallback = false := by
  change (s.effect op).updateCallback = false
  cases op with
  | clearUpdateCallback => rfl
  | ifFailed type =>
    dsimp only [State.effect]
    split <;> exact h
  | _ => exact h

theorem todo_setTodo_self : (s.setTodo t new).todo t = some new := Function.update_self _ _ _

theorem code_setTodo_self : (s.setTodo t new).code t = new := code_of_todo todo_setTodo_self

theorem code_setTodo_of_ne (hu : u ≠ t) : (s.setTodo t new).code u = s.code u := by
  have : (s.setTodo t new).todo u = s.todo u := Function.update_of_ne hu _ _
  rw [State.code, this]
  rfl

end Steps

/-! ## A gateway -/

/-- UDP only, with one thread. -/
def demoConfig : Config 1 where
  typeOf := fun _ => .udp
  typeOf_mem := fun _ => by decide
  forwards := false
  transports := ⟨none, some .good, none, 0b100⟩

def demoThread : Fin 1 := ⟨0, Nat.one_pos⟩

/-- A thread takes so many steps. -/
def demoSteps (t : Thread 1) (count : Nat) : List (Label 1) := List.replicate count (.run t)

end P3com.TransportThreads
