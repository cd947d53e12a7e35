/-
# The TCP transport

`source/tcp/tcp_transport.cpp`, with `source/udp/udp_transport_broadcast.cpp` for the discovery
datagrams.  Two tables say who is who.  `m_transportSessions` has the sessions, in the order in
which they were added; a closed session is erased.  `m_devices` of the broadcast has the endpoints
from which discovery datagrams came, in the order in which they were first seen; nothing is ever
erased.

All handlers run on the one thread of the asio context, so each of them is a function of the
state.  What the network does (which datagram comes in, which connection is accepted, which connect
completes, which session closes) is the label of a step.

A session is known by its pointer, here `id`.  The table has ten places, and `emplace_back` and
`push_back` of a full table do nothing; the code then starts the session at the back of the table
once more.
-/
import P3com.Generic.DiscoveryWire
import P3com.Lib.Run

namespace P3com.TcpTransport

/-! ## State -/

/-- `asio::ip::address`, of IPv4. -/
abbrev Address := UInt32

/-- `asio::ip::udp::endpoint`. -/
structure Endpoint where
  address : Address
  port : UInt16
deriving DecidableEq

/-- A default constructed endpoint. -/
def Endpoint.any : Endpoint := ⟨0, 0⟩

/-- `TCPClientTransportSession` or `TCPServerTransportSession`, with the address of its
`remoteEndpoint()`. -/
structure Session where
  id : Nat
  client : Bool
  address : Address
deriving DecidableEq

/-- An element of `m_infoToReport`.  `sender` is the address from which the datagram really came,
for the statements only. -/
structure InfoToReport where
  address : Address
  data : List Byte
  sender : Address
deriving DecidableEq

/-- A call of `m_remoteDiscoveryCallback`, or of `m_userDataCallback`. -/
structure Call where
  sender : Address
  data : List Byte
  device : Nat
deriving DecidableEq

/-- Which of `m_broadcast.m_remoteDiscoveryCallback`, `m_remoteDiscoveryCallback` and
`m_userDataCallback` have been registered. -/
structure Callbacks where
  broadcast : Bool
  remoteDiscovery : Bool
  userData : Bool
deriving DecidableEq

structure State where
  callbacks : Callbacks
  devices : CxxVector Endpoint maxDeviceCount
  transportSessions : CxxVector Session maxDeviceCount
  infoToReport : CxxVector InfoToReport maxDeviceCount
  /-- The calls of the two callbacks, the last one first. -/
  reports : List Call
  userData : List Call
deriving DecidableEq

def State.init : State := ⟨⟨false, false, false⟩, .empty, .empty, .empty, [], []⟩

/-! ## The broadcast -/

/-- `UDPBroadcast::getIndex`. -/
def State.getIndex (s : State) (address : Address) : Option Nat :=
  s.devices.toList.findIdx? fun e => e.address = address

/-- `UDPBroadcast::getEndpoint`. -/
def State.getEndpoint (s : State) (device : Nat) : Endpoint :=
  s.devices.toList[device]?.getD .any

/-- The middle of `discoverySocketCallback`: find the endpoint or add it.  With a full table the
index is that of `end()`. -/
def State.registerDevice (s : State) (e : Endpoint) : State × Nat :=
  match s.devices.toList.idxOf? e with
  | some device => (s, device)
  | none => ({ s with devices := s.devices.pushBack e }, s.devices.size)

/-! ## The handlers -/

/-- `findSession`: the position of the first session with the address. -/
def State.findSession (s : State) (address : Address) : Option Nat :=
  s.transportSessions.toList.findIdx? fun session => session.address = address

/-- `remoteDiscoveryHandler`. -/
def State.remoteDiscoveryHandler (s : State) (sender : Address) (data : List Byte) (device : Nat) :
    State :=
  if s.callbacks.remoteDiscovery then { s with reports := ⟨sender, data, device⟩ :: s.reports }
  else s

/-- `handleSessionOpen`. -/
def State.handleSessionOpen (s : State) (session : Session) : State :=
  match s.infoToReport.toList.findIdx? fun info => info.address = session.address with
  | none => s
  | some j =>
    match s.infoToReport.toList[j]? with
    | none => s
    | some info =>
      let deviceIdx := (s.findSession session.address).getD s.transportSessions.size
      { s.remoteDiscoveryHandler info.sender info.data deviceIdx with
        infoToReport := s.infoToReport.erase j }

/-- `udpDiscoveryCallback`.  The constructor of the vector `serializedInfo` terminates the gateway
when the datagram does not fit. -/
def State.udpDiscoveryCallback (s : State) (sender : Address) (data : List Byte) (device : Nat)
    (id : Nat) : Option State :=
  let address := (s.getEndpoint device).address
  match s.findSession address with
  | none =>
    if data.length ≤ DiscoveryWire.maxPubSubInfoSerializationSize then
      some { s with
        infoToReport := s.infoToReport.pushBack ⟨address, data, sender⟩
        transportSessions := s.transportSessions.pushBack ⟨id, true, address⟩ }
    else none
  | some p => some (s.remoteDiscoveryHandler sender data p)

/-- `UDPBroadcast::discoverySocketCallback`. -/
def State.discoverySocketCallback (interfaceEndpoints : List Endpoint) (s : State) (e : Endpoint)
    (data : List Byte) (id : Nat) : Option State :=
  if e ∈ interfaceEndpoints then some s
  else
    let (s, device) := s.registerDevice e
    if s.callbacks.broadcast then s.udpDiscoveryCallback e.address data device id else some s

/-- `addSession` of an accepted connection. -/
def State.addSession (s : State) (session : Session) : State :=
  let s := { s with transportSessions := s.transportSessions.pushBack session }
  match s.transportSessions.toList.getLast? with
  | none => s
  | some back => s.handleSessionOpen back

/-- The handler of `async_accept`, in `startAccept`. -/
def State.accept (s : State) (address : Address) (id : Nat) : State :=
  match s.findSession address with
  | none => s.addSession ⟨id, false, address⟩
  | some _ => s

/-- `handleSessionClose`. -/
def State.handleSessionClose (s : State) (id : Nat) : State :=
  match s.transportSessions.toList.findIdx? fun session => session.id = id with
  | none => s
  | some k => { s with transportSessions := s.transportSessions.erase k }

/-- `handleUserDataCallback`. -/
def State.handleUserDataCallback (s : State) (address : Address) (data : List Byte) : State :=
  match s.getIndex address with
  | none => s
  | some device =>
    if s.callbacks.userData then { s with userData := ⟨address, data, device⟩ :: s.userData } else s

/-- `sendUserData`: the session that is sent on. -/
def State.sendUserData (s : State) (deviceIndex : Nat) : Option Session :=
  s.transportSessions.toList[deviceIndex]?

/-! ## Steps -/

inductive Label
  | register (callbacks : Callbacks)
  /-- A discovery datagram; `id` is for the session that may be made. -/
  | datagram (e : Endpoint) (data : List Byte) (id : Nat)
  /-- A connection from the address is accepted. -/
  | accepted (address : Address) (id : Nat)
  /-- The connect of a client session completes. -/
  | opened (id : Nat)
  /-- A session ends, with an error or at the end of the stream. -/
  | closed (id : Nat)
  /-- A session has read a message. -/
  | received (id : Nat) (data : List Byte)
deriving DecidableEq

/-- The session at this pointer. -/
def State.session (s : State) (id : Nat) : Option Session :=
  s.transportSessions.toList.find? fun session => session.id = id

def step (interfaceEndpoints : List Endpoint) (s : State) : Label → Option State
  | .register callbacks => some { s with callbacks }
  | .datagram e data id =>
    if (s.session id).isSome then none
    else s.discoverySocketCallback interfaceEndpoints e data id
  | .accepted address id => if (s.session id).isSome then none else some (s.accept address id)
  | .opened id =>
    match s.session id with
    | some session => if session.client then some (s.handleSessionOpen session) else none
    | none => none
  | .closed id => some (s.handleSessionClose id)
  | .received id data => (s.session id).map fun session =>
    s.handleUserDataCallback session.address data

/-! ## What the handlers leave alone -/

variable {s : State}

theorem registerDevice_same (s : State) (e : Endpoint) :
    (s.registerDevice e).1.infoToReport = s.infoToReport ∧
      (s.registerDevice e).1.transportSessions = s.transportSessions ∧
      (s.registerDevice e).1.reports = s.reports ∧
      (s.registerDevice e).1.callbacks = s.callbacks := by
  unfold State.registerDevice
  split <;> exact ⟨rfl, rfl, rfl, rfl⟩

/-- A sender that is known, or for which there is room, is found again under its index. -/
theorem getEndpoint_registerDevice {e : Endpoint}
    (h : e ∈ s.devices.toList ∨ s.devices.size < maxDeviceCount) :
    (s.registerDevice e).1.getEndpoint (s.registerDevice e).2 = e := by
  unfold State.registerDevice
  split
  case h_1 device hdevice =>
    obtain ⟨hlt, he, -⟩ := List.idxOf?_eq_some_iff.mp hdevice
    unfold State.getEndpoint
    rw [List.getElem?_eq_getElem hlt, he]
    rfl
  case h_2 hdevice =>
    have hroom := h.resolve_left (by simpa using hdevice)
    unfold State.getEndpoint CxxVector.size
    rw [CxxVector.toList_pushBack hroom, List.getElem?_append_right (Nat.le_refl _)]
    simp

/-- The handlers that report touch neither the sessions nor the devices. -/
structure SameTables (s s' : State) : Prop where
  callbacks : s'.callbacks = s.callbacks
  devices : s'.devices = s.devices
  transportSessions : s'.transportSessions = s.transportSessions

theorem sameTables_remoteDiscoveryHandler (s : State) (sender : Address) (data : List Byte)
    (device : Nat) : SameTables s (s.remoteDiscoveryHandler sender data device) := by
  unfold State.remoteDiscoveryHandler
  split <;> exact ⟨rfl, rfl, rfl⟩

@[simp] theorem remoteDiscoveryHandler_infoToReport (sender : Address) (data : List Byte)
    (p : Nat) : (s.remoteDiscoveryHandler sender data p).infoToReport = s.infoToReport := by
  unfold State.remoteDiscoveryHandler
  split <;> rfl

theorem sameTables_handleSessionOpen (s : State) (session : Session) :
    SameTables s (s.handleSessionOpen session) := by
  unfold State.handleSessionOpen
  split
  · exact ⟨rfl, rfl, rfl⟩
  · split
    · exact ⟨rfl, rfl, rfl⟩
    · obtain ⟨hc, hd, ht⟩ := sameTables_remoteDiscoveryHandler s _ _ _
      exact ⟨hc, hd, ht⟩

/-! ## What the handlers do to the sessions -/

theorem accept_of_known {address : Address} {p : Nat} (id : Nat)
    (h : s.findSession address = some p) :
    s.accept address id = s := by
  unfold State.accept
  rw [h]

theorem accept_of_unknown {address : Address} (id : Nat) (h : s.findSession address = none) :
    SameTables { s with transportSessions := s.transportSessions.pushBack ⟨id, false, address⟩ }
      (s.accept address id) := by
  unfold State.accept State.addSession
  rw [h]
  simp only
  split
  · exact ⟨rfl, rfl, rfl⟩
  · exact sameTables_handleSessionOpen _ _

/-- A datagram of a sender that is known, or for which there is room: without a session, one is
added. -/
theorem discoverySocketCallback_tables {interfaceEndpoints : List Endpoint} {e : Endpoint}
    {data : List Byte} {id : Nat} {s' : State} (hown : e ∉ interfaceEndpoints)
    (hbroadcast : s.callbacks.broadcast = true)
    (hknown : e ∈ s.devices.toList ∨ s.devices.size < maxDeviceCount)
    (h : s.discoverySocketCallback interfaceEndpoints e data id = some s') :
    s'.callbacks = s.callbacks ∧ s'.devices = (s.registerDevice e).1.devices ∧
      s'.transportSessions = if s.findSession e.address = none
        then s.transportSessions.pushBack ⟨id, true, e.address⟩ else s.transportSessions := by
  obtain ⟨⟨s₁, device⟩, hs₁⟩ : ∃ r, s.registerDevice e = r := ⟨_, rfl⟩
  have hendpoint := getEndpoint_registerDevice hknown
  obtain ⟨-, hsessions, -, hcallbacks⟩ := registerDevice_same s e
  simp only [hs₁] at hendpoint hsessions hcallbacks ⊢
  have hfind : s₁.findSession e.address = s.findSession e.address := by
    unfold State.findSession
    rw [hsessions]
  have hbroadcast₁ : s₁.callbacks.broadcast = true := by
    rw [hcallbacks]
    exact hbroadcast
  unfold State.discoverySocketCallback at h
  simp only [hown, if_false, hs₁, hbroadcast₁, if_true, State.udpDiscoveryCallback,
    hendpoint, hfind] at h
  cases hsession : s.findSession e.address with
  | none =>
    rw [hsession] at h
    simp only at h
    split at h
    · obtain rfl := Option.some.inj h
      exact ⟨hcallbacks, rfl, by rw [if_pos rfl, hsessions]⟩
    · cases h
  | some p =>
    rw [hsession] at h
    obtain rfl := Option.some.inj h
    obtain ⟨hc, hd, ht⟩ := sameTables_remoteDiscoveryHandler s₁ e.address data p
    exact ⟨hc.trans hcallbacks, hd, by rw [ht, hsessions, if_neg (by simp)]⟩

end P3com.TcpTransport
