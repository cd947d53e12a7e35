/-
# The UDP transport

`source/udp/udp_transport.cpp` and `source/udp/udp_transport_broadcast.cpp`.  `UDPTransport` has a
socket for user data and a member `m_broadcast` with a socket for discovery.  Both classes derive
from `TransportLayerBase`, so there are two objects with a status: that of the transport, which
`TransportInfo` tests, and that of the member, which nobody tests.

1. *Indices.*  A sender of discovery datagrams is known by its position in `m_devices`.  The
   position is that of the whole endpoint when a discovery datagram comes in and that of the address
   when user data comes in; since all senders use one port, these agree.  Once the ten places are
   taken, a further sender is reported under the position of `end()`, which finds no endpoint
   (`udp_indices_stable`).
2. *Failures.*  The errors of the discovery socket, and an invalid device index, set the status of
   the member.  The transport itself stays good unless it has failed on its own
   (`discovery_failure_fails_transport`).

The handlers of both sockets run on the one thread of the asio context; `sendBroadcast` and
`sendUserData` may be called by any thread.  A step is one of these calls, `sendUserData` in two
sections: the lookup of the endpoint and the sending.  What the operating system answers is in the
label.
-/
import P3com.Transport.TcpTransport
import P3com.Transport.TransportInfo

namespace P3com

/-! ## The status of an object -/

/-- `TransportLayerBase::setFailed`. -/
def TransportStatus.setFailed : TransportStatus → TransportStatus
  | .good => .failed
  | .failed => .failed
  | .disabled => .disabled

/-- What `TransportLayerBase::hasFailedSetDisabled` leaves. -/
def TransportStatus.setDisabled : TransportStatus → TransportStatus
  | .good => .good
  | .failed => .disabled
  | .disabled => .disabled

theorem TransportStatus.setFailed_ne_good (status : TransportStatus) :
    status.setFailed ≠ .good := by
  cases status <;> decide

theorem TransportStatus.setDisabled_ne_good {status : TransportStatus} (h : status ≠ .good) :
    status.setDisabled = .disabled := by
  cases status with
  | good => exact absurd rfl h
  | _ => rfl

/-- `MAX_NETWORK_IFACE_COUNT`. -/
def maxNetworkIfaceCount : Nat := 10

namespace UdpTransport

abbrev Address := TcpTransport.Address

abbrev Endpoint := TcpTransport.Endpoint

/-- `DISCOVERY_PORT`. -/
def discoveryPort : UInt16 := 9332

/-- `DATA_PORT`. -/
def dataPort : UInt16 := 9333

/-! ## `UDPBroadcast` -/

/-- A call of `m_remoteDiscoveryCallback`, or of `m_userDataCallback`. -/
structure Report where
  sender : Endpoint
  data : List Byte
  device : UInt32
deriving DecidableEq

/-- The object `m_broadcast`.  `receiving` says that a receive is under way on its socket. -/
structure Broadcast where
  status : TransportStatus
  interfaceEndpoints : CxxVector Endpoint maxNetworkIfaceCount
  broadcastEndpoints : CxxVector Endpoint maxNetworkIfaceCount
  devices : CxxVector Endpoint maxDeviceCount
  remoteDiscoveryCallback : Bool
  receiving : Bool
  /-- The calls of the callback, the last one first. -/
  reports : List Report
deriving DecidableEq

/-- The entry of a network interface: its address and its broadcast address, 0 if not of IPv4. -/
structure Interface where
  addr : Address
  dstAddr : Address
deriving DecidableEq

/-- What the operating system answers to the constructors.  A `false` is an exception. -/
structure Setup where
  /-- The list of `getifaddrs`, if it succeeds. -/
  interfaces : Option (List Interface)
  discoveryOptions : Bool
  discoveryReceive : Bool
  dataOptions : Bool
  dataReceive : Bool
deriving DecidableEq

/-- `asio::ip::address::is_loopback`. -/
def isLoopback (address : Address) : Bool := address &&& 0xFF000000 = 0x7F000000

namespace Broadcast

def setFailed (b : Broadcast) : Broadcast := { b with status := b.status.setFailed }

/-- The body of the loop in `discoverBroadcastAddresses`; `iface_n` is the number of endpoints. -/
def addInterface (b : Broadcast) (iface : Interface) : Broadcast :=
  if b.interfaceEndpoints.size < maxNetworkIfaceCount ∧ 0 < iface.addr ∧
      ¬ isLoopback iface.dstAddr then
    { b with
      interfaceEndpoints := b.interfaceEndpoints.pushBack ⟨iface.addr, discoveryPort⟩
      broadcastEndpoints := b.broadcastEndpoints.pushBack ⟨iface.dstAddr, discoveryPort⟩ }
  else b

def discoverBroadcastAddresses (b : Broadcast) (interfaces : Option (List Interface)) :
    Broadcast :=
  (interfaces.getD []).foldl addInterface b

def discoveryAsyncReceive (b : Broadcast) (ok : Bool) : Broadcast :=
  if ok then { b with receiving := true } else { b.setFailed with receiving := false }

/-- The constructor. -/
def construct (setup : Setup) : Broadcast :=
  let b : Broadcast := ⟨.good, .empty, .empty, .empty, false, false, []⟩
  let b := b.discoverBroadcastAddresses setup.interfaces
  if setup.discoveryOptions then b.discoveryAsyncReceive setup.discoveryReceive else b.setFailed

/-- Find the endpoint or add it.  In a full table an unknown endpoint has the index of `end()`. -/
def register (b : Broadcast) (e : Endpoint) : Broadcast × UInt32 :=
  match b.devices.toList.idxOf? e with
  | some i => (b, UInt32.ofNat i)
  | none =>
    (if b.devices.size < maxDeviceCount then { b with devices := b.devices.pushBack e } else b,
      UInt32.ofNat b.devices.size)

/-- The call of `m_remoteDiscoveryCallback`. -/
def report (b : Broadcast) (r : Report) : Broadcast :=
  if b.remoteDiscoveryCallback then { b with reports := r :: b.reports } else b

/-- `discoverySocketCallback`, with an error or with a datagram. -/
def discoverySocketCallback (b : Broadcast) (received : Option (Endpoint × List Byte))
    (nextReceive : Bool) : Broadcast :=
  match received with
  | none => { b.setFailed with receiving := false }
  | some (e, data) =>
    let b :=
      if e ∈ b.interfaceEndpoints.toList then b
      else (b.register e).1.report ⟨e, data, (b.register e).2⟩
    b.discoveryAsyncReceive nextReceive

/-- `sendBroadcast`.  `send_to` may throw at one of the endpoints. -/
def sendBroadcast (b : Broadcast) (throwsAt : Option Nat) : Broadcast :=
  if throwsAt.any fun i => i < b.broadcastEndpoints.size then b.setFailed else b

/-- `getEndpoint`: the endpoint, and the object afterwards. -/
def getEndpoint (b : Broadcast) (deviceIndex : UInt32) : Endpoint × Broadcast :=
  match b.devices.toList[deviceIndex.toNat]? with
  | none => (.any, b.setFailed)
  | some e => (e, b)

/-- `getIndex`. -/
def getIndex (b : Broadcast) (address : Address) : Option UInt32 :=
  (b.devices.toList.findIdx? fun e => e.address = address).map UInt32.ofNat

end Broadcast

/-! ## `UDPTransport` -/

structure State where
  status : TransportStatus
  broadcast : Broadcast
  userDataCallback : Bool
  /-- The worker thread runs the asio context. -/
  running : Bool
  /-- A receive is under way on the data socket. -/
  receiving : Bool
  /-- The calls of `sendUserData` that have their endpoint and have not sent yet. -/
  sending : List Endpoint
  /-- The calls of `m_userDataCallback`, the last one first. -/
  userData : List Report
deriving DecidableEq

namespace State

/-- `setFailed` of the transport itself. -/
def setFailed (s : State) : State := { s with status := s.status.setFailed }

def dataAsyncReceive (s : State) (ok : Bool) : State :=
  if ok then { s with receiving := true } else { s.setFailed with receiving := false }

/-- `dataSocketCallback`, with an error or with a datagram. -/
def dataSocketCallback (s : State) (received : Option (Endpoint × List Byte))
    (nextReceive : Bool) : State :=
  match received with
  | none => { s.setFailed with receiving := false }
  | some (e, data) =>
    let s :=
      match s.broadcast.getIndex e.address with
      | none => s
      | some device =>
        if s.userDataCallback then { s with userData := ⟨e, data, device⟩ :: s.userData } else s
    s.dataAsyncReceive nextReceive

/-- The first section of `sendUserData`: the lookup of the endpoint. -/
def sendUserData (s : State) (deviceIndex : UInt32) : State :=
  let (endpoint, broadcast) := s.broadcast.getEndpoint deviceIndex
  { s with broadcast, sending := s.sending ++ [{ endpoint with port := dataPort }] }

/-- The second section of the `i`-th call of `sendUserData` under way: `send_to`. -/
def sendTo (s : State) (i : Nat) (ok : Bool) : State :=
  let s := { s with sending := s.sending.eraseIdx i }
  if ok then s else s.setFailed

end State

/-- The constructor.  With an exception there is no worker thread. -/
def construct (setup : Setup) : State :=
  let s : State := ⟨.good, .construct setup, false, false, false, [], []⟩
  if setup.dataOptions then { s with running := true }.dataAsyncReceive setup.dataReceive
  else s.setFailed

inductive Label
  | registerDiscoveryCallback
  | registerUserDataCallback
  /-- The receive on the discovery socket completes, with an error or a datagram; `nextReceive`
  says whether the next one can be started. -/
  | discoverySocketCallback (received : Option (Endpoint × List Byte)) (nextReceive : Bool)
  | dataSocketCallback (received : Option (Endpoint × List Byte)) (nextReceive : Bool)
  | sendBroadcast (throwsAt : Option Nat)
  | sendUserData (deviceIndex : UInt32)
  | sendTo (i : Nat) (ok : Bool)
  /-- `m_context.run()` throws. -/
  | runThrows
  /-- `TransportInfo` tests the transport. -/
  | hasFailedSetDisabled
deriving DecidableEq

def step (s : State) : Label → Option State
  | .registerDiscoveryCallback =>
    some { s with broadcast := { s.broadcast with remoteDiscoveryCallback := true } }
  | .registerUserDataCallback => some { s with userDataCallback := true }
  | .discoverySocketCallback received nextReceive =>
    if s.running ∧ s.broadcast.receiving then
      some { s with broadcast := s.broadcast.discoverySocketCallback received nextReceive }
    else none
  | .dataSocketCallback received nextReceive =>
    if s.running ∧ s.receiving then
      some (s.dataSocketCallback received nextReceive)
    else none
  | .sendBroadcast throwsAt => some { s with broadcast := s.broadcast.sendBroadcast throwsAt }
  | .sendUserData deviceIndex => some (s.sendUserData deviceIndex)
  | .sendTo i ok => if i < s.sending.length then some (s.sendTo i ok) else none
  | .runThrows => if s.running then some { s with running := false }.setFailed else none
  | .hasFailedSetDisabled => some { s with status := s.status.setDisabled }

/-! ## What a step does -/

/-- The sender that is reported is known, or there is room for it. -/
def HasRoom (s : State) : Label → Prop
  | .discoverySocketCallback received _ =>
    ∀ d ∈ received, d.1 ∉ s.broadcast.interfaceEndpoints.toList →
      s.broadcast.remoteDiscoveryCallback = true →
      d.1 ∈ s.broadcast.devices.toList ∨ s.broadcast.devices.size < maxDeviceCount
  | _ => True

instance (s : State) : (l : Label) → Decidable (HasRoom s l)
  | .discoverySocketCallback _ _ => inferInstanceAs (Decidable (∀ d ∈ _, _ → _ → _ ∨ _))
  | .registerDiscoveryCallback | .registerUserDataCallback | .dataSocketCallback _ _
  | .sendBroadcast _ | .sendUserData _ | .sendTo _ _ | .runThrows | .hasFailedSetDisabled =>
    isTrue trivial

/-- The transport has failed already, or the discovery socket does its work and the device index
is one of a device. -/
def MemberNotFirst (s : State) : Label → Prop
  | .discoverySocketCallback received nextReceive =>
    s.status ≠ .good ∨ (received.isSome = true ∧ nextReceive = true)
  | .sendBroadcast throwsAt =>
    s.status ≠ .good ∨ ∀ i ∈ throwsAt, s.broadcast.broadcastEndpoints.size ≤ i
  | .sendUserData deviceIndex =>
    s.status ≠ .good ∨ deviceIndex.toNat < s.broadcast.devices.size
  | _ => True

instance (s : State) : (l : Label) → Decidable (MemberNotFirst s l)
  | .discoverySocketCallback _ _ => inferInstanceAs (Decidable (_ ∨ (_ ∧ _)))
  | .sendBroadcast _ => inferInstanceAs (Decidable (_ ∨ ∀ i ∈ _, _))
  | .sendUserData _ => inferInstanceAs (Decidable (_ ∨ _))
  | .registerDiscoveryCallback | .registerUserDataCallback | .dataSocketCallback _ _
  | .sendTo _ _ | .runThrows | .hasFailedSetDisabled => isTrue trivial

/-- The three ways in which the status of an object goes on. -/
def StatusFollows (status status' : TransportStatus) : Prop :=
  status' = status ∨ status' = status.setFailed ∨ status' = status.setDisabled

theorem StatusFollows.ne_good {status status' : TransportStatus}
    (h : StatusFollows status status') (hne : status ≠ .good) : status' ≠ .good := by
  rcases h with rfl | rfl | rfl
  · exact hne
  · exact TransportStatus.setFailed_ne_good status
  · rw [TransportStatus.setDisabled_ne_good hne]
    decide

variable {b b' : Broadcast} {s s' : State} {l : Label} {e : Endpoint}

namespace Broadcast

/-- The devices and the reports are those of `b`. -/
def SameTable (b b' : Broadcast) : Prop := b'.devices = b.devices ∧ b'.reports = b.reports

theorem sameTable_discoveryAsyncReceive (b : Broadcast) (ok : Bool) :
    b.SameTable (b.discoveryAsyncReceive ok) := by
  cases ok <;> exact ⟨rfl, rfl⟩

end Broadcast

/-- User data does not concern the discovery socket. -/
theorem State.dataSocketCallback_broadcast (s : State) (received : Option (Endpoint × List Byte))
    (nextReceive : Bool) : (s.dataSocketCallback received nextReceive).broadcast = s.broadcast := by
  cases received with
  | none => rfl
  | some d =>
    obtain ⟨e, data⟩ := d
    simp only [State.dataSocketCallback, State.dataAsyncReceive]
    split <;> split <;> first | rfl | (split <;> rfl)

theorem State.dataSocketCallback_status (s : State) (received : Option (Endpoint × List Byte))
    (nextReceive : Bool) :
    StatusFollows s.status (s.dataSocketCallback received nextReceive).status := by
  cases received with
  | none => exact Or.inr (Or.inl rfl)
  | some d =>
    obtain ⟨e, data⟩ := d
    simp only [State.dataSocketCallback, State.dataAsyncReceive]
    split
    · left
      split
      · rfl
      · split <;> rfl
    · right
      left
      split
      · rfl
      · split <;> rfl

/-- **What a step does to the member and to the two statuses**: the member does nothing that
matters; or it fails, and then the transport keeps its own status; or it takes a discovery datagram
of another gateway. -/
theorem step_cases (h : step s l = some s') :
    (s.broadcast.SameTable s'.broadcast ∧ s'.broadcast.status = s.broadcast.status ∧
        StatusFollows s.status s'.status ∧ HasRoom s l ∧ MemberNotFirst s l) ∨
      (s.broadcast.SameTable s'.broadcast ∧
        s'.broadcast.status = s.broadcast.status.setFailed ∧ s'.status = s.status ∧
        HasRoom s l ∧ (MemberNotFirst s l ↔ s.status ≠ .good)) ∨
      ∃ e data nextReceive, l = .discoverySocketCallback (some (e, data)) nextReceive ∧
        e ∉ s.broadcast.interfaceEndpoints.toList ∧ s'.status = s.status ∧
        s'.broadcast = ((s.broadcast.register e).1.report
          ⟨e, data, (s.broadcast.register e).2⟩).discoveryAsyncReceive nextReceive := by
  cases l with
  | registerDiscoveryCallback =>
    obtain rfl := Option.some.inj h
    exact Or.inl ⟨⟨rfl, rfl⟩, rfl, Or.inl rfl, trivial, trivial⟩
  | registerUserDataCallback =>
    obtain rfl := Option.some.inj h
    exact Or.inl ⟨⟨rfl, rfl⟩, rfl, Or.inl rfl, trivial, trivial⟩
  | discoverySocketCallback received nextReceive =>
    simp only [step] at h
    split at h
    · obtain rfl := Option.some.inj h
      cases received with
      | none =>
        exact Or.inr (Or.inl ⟨⟨rfl, rfl⟩, rfl, rfl, by simp [HasRoom], by simp [MemberNotFirst]⟩)
      | some d =>
        obtain ⟨e, data⟩ := d
        by_cases hown : e ∈ s.broadcast.interfaceEndpoints.toList
        · have hroom : HasRoom s (.discoverySocketCallback (some (e, data)) nextReceive) := by
            intro d hd hother
            obtain rfl := Option.some.inj hd
            exact absurd hown hother
          have hmember : s.broadcast.discoverySocketCallback (some (e, data)) nextReceive
              = s.broadcast.discoveryAsyncReceive nextReceive := by
            simp only [Broadcast.discoverySocketCallback, if_pos hown]
          rw [hmember]
          cases nextReceive with
          | true => exact Or.inl ⟨⟨rfl, rfl⟩, rfl, Or.inl rfl, hroom, Or.inr ⟨rfl, rfl⟩⟩
          | false =>
            exact Or.inr (Or.inl ⟨⟨rfl, rfl⟩, rfl, rfl, hroom, by simp [MemberNotFirst]⟩)
        · refine Or.inr (Or.inr ⟨e, data, nextReceive, rfl, hown, rfl, ?_⟩)
          simp only [Broadcast.discoverySocketCallback, if_neg hown]
    · cases h
  | dataSocketCallback received nextReceive =>
    simp only [step] at h
    split at h
    · obtain rfl := Option.some.inj h
      rw [State.dataSocketCallback_broadcast]
      exact Or.inl ⟨⟨rfl, rfl⟩, rfl, s.dataSocketCallback_status received nextReceive, trivial,
        trivial⟩
    · cases h
  | sendBroadcast throwsAt =>
    obtain rfl := Option.some.inj h
    cases throwsAt with
    | none => exact Or.inl ⟨⟨rfl, rfl⟩, rfl, Or.inl rfl, trivial, Or.inr (by simp)⟩
    | some i =>
      by_cases hlt : i < s.broadcast.broadcastEndpoints.size
      · have hmember : s.broadcast.sendBroadcast (some i) = s.broadcast.setFailed := by
          simp [Broadcast.sendBroadcast, hlt]
        rw [hmember]
        refine Or.inr (Or.inl ⟨⟨rfl, rfl⟩, rfl, rfl, trivial, ?_⟩)
        exact or_iff_left fun h => absurd (h i rfl) (Nat.not_le.mpr hlt)
      · have hmember : s.broadcast.sendBroadcast (some i) = s.broadcast := by
          simp [Broadcast.sendBroadcast, hlt]
        rw [hmember]
        exact Or.inl ⟨⟨rfl, rfl⟩, rfl, Or.inl rfl, trivial, Or.inr (by simpa using hlt)⟩
  | sendUserData deviceIndex =>
    obtain rfl := Option.some.inj h
    have hmember : (s.sendUserData deviceIndex).broadcast
        = (s.broadcast.getEndpoint deviceIndex).2 := rfl
    rw [hmember, Broadcast.getEndpoint]
    split
    · rename_i hnone
      have hge : s.broadcast.devices.size ≤ deviceIndex.toNat := List.getElem?_eq_none_iff.mp hnone
      exact Or.inr (Or.inl ⟨⟨rfl, rfl⟩, rfl, rfl, trivial, or_iff_left (Nat.not_lt.mpr hge)⟩)
    · rename_i e hsome
      exact Or.inl ⟨⟨rfl, rfl⟩, rfl, Or.inl rfl, trivial,
        Or.inr (List.getElem?_eq_some_iff.mp hsome).1⟩
  | sendTo i ok =>
    simp only [step] at h
    split at h
    · obtain rfl := Option.some.inj h
      cases ok with
      | true => exact Or.inl ⟨⟨rfl, rfl⟩, rfl, Or.inl rfl, trivial, trivial⟩
      | false => exact Or.inl ⟨⟨rfl, rfl⟩, rfl, Or.inr (Or.inl rfl), trivial, trivial⟩
    · cases h
  | runThrows =>
    simp only [step] at h
    split at h
    · obtain rfl := Option.some.inj h
      exact Or.inl ⟨⟨rfl, rfl⟩, rfl, Or.inr (Or.inl rfl), trivial, trivial⟩
    · cases h
  | hasFailedSetDisabled =>
    obtain rfl := Option.some.inj h
    exact Or.inl ⟨⟨rfl, rfl⟩, rfl, Or.inr (Or.inr rfl), trivial, trivial⟩

/-! ## Indices -/

/-- Every index that has been reported finds the sender again, and is found by its address. -/
def Broadcast.IndicesValid (b : Broadcast) : Prop :=
  ∀ r ∈ b.reports,
    (b.getEndpoint r.device).1 = r.sender ∧ b.getIndex r.sender.address = some r.device

/-- A discovery datagram comes from the discovery port. -/
def Label.FromDiscoveryPort : Label → Prop
  | .discoverySocketCallback received _ => ∀ d ∈ received, d.1.port = discoveryPort
  | _ => True

instance : (l : Label) → Decidable l.FromDiscoveryPort
  | .discoverySocketCallback _ _ => inferInstanceAs (Decidable (∀ d ∈ _, _))
  | .registerDiscoveryCallback | .registerUserDataCallback | .dataSocketCallback _ _
  | .sendBroadcast _ | .sendUserData _ | .sendTo _ _ | .runThrows | .hasFailedSetDisabled =>
    isTrue trivial

/-- The devices are distinct and of one port, and the reported indices are their positions. -/
structure Broadcast.Indexed (b : Broadcast) : Prop where
  ports : ∀ e ∈ b.devices.toList, e.port = discoveryPort
  nodup : b.devices.toList.Nodup
  reports : ∀ r ∈ b.reports, b.devices.toList[r.device.toNat]? = some r.sender

namespace Broadcast

theorem Indexed.of_sameTable (h : b.Indexed) (hsame : b.SameTable b') : b'.Indexed := by
  obtain ⟨hdevices, hreports⟩ := hsame
  refine ⟨?_, ?_, ?_⟩
  · rw [hdevices]
    exact h.ports
  · rw [hdevices]
    exact h.nodup
  · rw [hdevices, hreports]
    exact h.reports

theorem eq_of_address_of_port {e e' : Endpoint} (ha : e.address = e'.address)
    (hp : e.port = e'.port) : e = e' := by
  cases e
  cases e'
  exact congrArg₂ TcpTransport.Endpoint.mk ha hp

/-- Endpoints of one port are told apart by their addresses. -/
theorem Indexed.indicesValid (h : b.Indexed) : b.IndicesValid := by
  intro r hr
  have hget := h.reports r hr
  refine ⟨?_, ?_⟩
  · unfold getEndpoint
    rw [hget]
  · obtain ⟨hlt, hsender⟩ := List.getElem?_eq_some_iff.mp hget
    have hidx : (b.devices.toList.findIdx? fun e => e.address = r.sender.address)
        = some r.device.toNat := by
      refine List.findIdx?_eq_some_iff_getElem.mpr ⟨hlt, by simp [hsender], fun j hj hj' => ?_⟩
      have hports := h.ports _ (List.getElem_mem (Nat.lt_trans hj hlt))
      have hport := h.ports _ (List.getElem_mem hlt)
      have heq : b.devices.toList[j] = b.devices.toList[r.device.toNat] := by
        rw [hsender] at hport ⊢
        exact eq_of_address_of_port (by simpa using hj') (hports.trans hport.symm)
      exact absurd ((h.nodup.getElem_inj_iff).mp heq) (Nat.ne_of_lt hj)
    unfold getIndex
    rw [hidx, Option.map_some, UInt32.ofNat_toNat]

theorem devices_lt (b : Broadcast) {i : Nat} (h : i ≤ b.devices.size) : i < 2 ^ 32 :=
  Nat.lt_of_le_of_lt (Nat.le_trans h b.devices.size_le) (by decide)

/-- What `register` does to the table: the endpoint is at its index, unless it is unknown and the
table is full. -/
theorem register_cases (b : Broadcast) (e : Endpoint) :
    (e ∈ b.devices.toList ∧ (b.register e).1 = b ∧
        b.devices.toList[(b.register e).2.toNat]? = some e) ∨
      (e ∉ b.devices.toList ∧ b.devices.size < maxDeviceCount ∧
        (b.register e).1 = { b with devices := b.devices.pushBack e } ∧
        (b.register e).2.toNat = b.devices.size) ∨
      (e ∉ b.devices.toList ∧ ¬ b.devices.size < maxDeviceCount ∧ (b.register e).1 = b ∧
        (b.register e).2.toNat = b.devices.size) := by
  have hsize : (UInt32.ofNat b.devices.size).toNat = b.devices.size :=
    UInt32.toNat_ofNat_of_lt' (b.devices_lt (Nat.le_refl _))
  unfold register
  split
  · rename_i i hi
    obtain ⟨hlt, he, -⟩ := List.idxOf?_eq_some_iff.mp hi
    refine Or.inl ⟨he ▸ List.getElem_mem hlt, rfl, ?_⟩
    rw [UInt32.toNat_ofNat_of_lt' (b.devices_lt (Nat.le_of_lt hlt)),
      List.getElem?_eq_getElem hlt, he]
  · rename_i hi
    have hmem : e ∉ b.devices.toList := by simpa using hi
    split
    · rename_i hroom
      exact Or.inr (Or.inl ⟨hmem, hroom, rfl, hsize⟩)
    · rename_i hfull
      exact Or.inr (Or.inr ⟨hmem, hfull, rfl, hsize⟩)

/-- The table after a datagram of the discovery port. -/
theorem Indexed.register (h : b.Indexed) (hport : e.port = discoveryPort) :
    (b.register e).1.Indexed := by
  rcases b.register_cases e with ⟨-, heq, -⟩ | ⟨hnew, hroom, heq, -⟩ | ⟨-, -, heq, -⟩
  · rw [heq]
    exact h
  · have hlist : (b.register e).1.devices.toList = b.devices.toList ++ [e] := by
      rw [heq]
      exact CxxVector.toList_pushBack hroom e
    have hreports : (b.register e).1.reports = b.reports := by rw [heq]
    refine ⟨?_, ?_, fun r hr => ?_⟩
    · rw [hlist]
      exact List.forall_mem_append.mpr ⟨h.ports, by simpa using hport⟩
    · rw [hlist]
      exact h.nodup.append (List.nodup_singleton e) (List.disjoint_singleton.mpr hnew)
    · rw [hreports] at hr
      obtain ⟨hlt, hget⟩ := List.getElem?_eq_some_iff.mp (h.reports r hr)
      rw [hlist, List.getElem?_append_left hlt, List.getElem?_eq_getElem hlt, hget]
  · rw [heq]
    exact h

/-- The index of an endpoint that is known or for which there is room. -/
theorem register_getElem (h : e ∈ b.devices.toList ∨ b.devices.size < maxDeviceCount) :
    (b.register e).1.devices.toList[(b.register e).2.toNat]? = some e := by
  rcases b.register_cases e with ⟨-, heq, hget⟩ | ⟨-, hroom, heq, hidx⟩ | ⟨hnew, hfull, -, -⟩
  · rwa [heq]
  · rw [hidx, heq]
    simp only
    rw [CxxVector.toList_pushBack hroom, CxxVector.size, List.getElem?_append_right (Nat.le_refl _)]
    simp
  · rcases h with h | h
    · exact absurd h hnew
    · exact absurd h hfull

theorem register_frame (b : Broadcast) (e : Endpoint) :
    (b.register e).1.remoteDiscoveryCallback = b.remoteDiscoveryCallback ∧
      (b.register e).1.status = b.status := by
  rcases b.register_cases e with ⟨-, heq, -⟩ | ⟨-, -, heq, -⟩ | ⟨-, -, heq, -⟩ <;>
    (rw [heq]; exact ⟨rfl, rfl⟩)

/-- Without a callback nothing is reported. -/
theorem report_of_not (hcallback : b.remoteDiscoveryCallback = false) (data : List Byte) :
    (b.register e).1.report ⟨e, data, (b.register e).2⟩ = (b.register e).1 := by
  unfold report
  rw [(b.register_frame e).1, hcallback]
  rfl

/-- A sender that is known, or for which there is room, is reported rightly. -/
theorem Indexed.report (h : b.Indexed) (hport : e.port = discoveryPort) (data : List Byte)
    (hroom : b.remoteDiscoveryCallback = true →
      e ∈ b.devices.toList ∨ b.devices.size < maxDeviceCount) :
    ((b.register e).1.report ⟨e, data, (b.register e).2⟩).Indexed := by
  have hreg := h.register hport
  cases hcallback : b.remoteDiscoveryCallback with
  | false =>
    rw [report_of_not hcallback]
    exact hreg
  | true =>
    unfold Broadcast.report
    rw [(b.register_frame e).1, hcallback, if_pos rfl]
    refine ⟨hreg.ports, hreg.nodup, List.forall_mem_cons.mpr ⟨?_, hreg.reports⟩⟩
    exact register_getElem (hroom hcallback)

/-- Another sender is reported under an index that has no endpoint. -/
theorem not_indicesValid_report (hport : e.port = discoveryPort)
    (hcallback : b.remoteDiscoveryCallback = true) (data : List Byte)
    (hfull : ¬ (e ∈ b.devices.toList ∨ b.devices.size < maxDeviceCount)) :
    ¬ ((b.register e).1.report ⟨e, data, (b.register e).2⟩).IndicesValid := by
  rcases b.register_cases e with ⟨hmem, -⟩ | ⟨-, hroom, -⟩ | ⟨-, -, heq, hidx⟩
  · exact absurd (Or.inl hmem) hfull
  · exact absurd (Or.inr hroom) hfull
  · unfold Broadcast.report
    rw [(b.register_frame e).1, hcallback, if_pos rfl, heq]
    intro hvalid
    have hget := (hvalid _ List.mem_cons_self).1
    have hnone : b.devices.toList[(b.register e).2.toNat]? = none := by
      rw [hidx]
      exact List.getElem?_eq_none (Nat.le_refl _)
    unfold getEndpoint at hget
    simp only [hnone] at hget
    rw [← hget] at hport
    exact absurd hport (by decide)

theorem IndicesValid.of_sameTable (h : b.IndicesValid) (hsame : b.SameTable b') :
    b'.IndicesValid := by
  obtain ⟨hdevices, hreports⟩ := hsame
  have hget : ∀ i, (b'.getEndpoint i).1 = (b.getEndpoint i).1 := by
    intro i
    unfold getEndpoint
    rw [hdevices]
    split <;> rfl
  intro r hr
  rw [hreports] at hr
  unfold getIndex
  rw [hget, hdevices]
  exact h r hr

end Broadcast

/-- **One step**: the indices stay valid if and only if the sender is known or there is room. -/
theorem indexed_step (hs : s.broadcast.Indexed) (hport : l.FromDiscoveryPort)
    (h : step s l = some s') :
    (HasRoom s l → s'.broadcast.Indexed) ∧ (s'.broadcast.IndicesValid ↔ HasRoom s l) := by
  have hkeep : s.broadcast.SameTable s'.broadcast → HasRoom s l →
      (HasRoom s l → s'.broadcast.Indexed) ∧ (s'.broadcast.IndicesValid ↔ HasRoom s l) := by
    intro hsame hroom
    have hs' := hs.of_sameTable hsame
    exact ⟨fun _ => hs', iff_of_true hs'.indicesValid hroom⟩
  rcases step_cases h with ⟨hsame, -, -, hroom, -⟩ | ⟨hsame, -, -, hroom, -⟩ |
    ⟨e, data, nextReceive, rfl, hother, -, hmember⟩
  · exact hkeep hsame hroom
  · exact hkeep hsame hroom
  · have hport' : e.port = discoveryPort := hport _ rfl
    have hsame := Broadcast.sameTable_discoveryAsyncReceive
      ((s.broadcast.register e).1.report ⟨e, data, (s.broadcast.register e).2⟩) nextReceive
    rw [← hmember] at hsame
    have hindexed : HasRoom s (.discoverySocketCallback (some (e, data)) nextReceive) →
        s'.broadcast.Indexed := by
      intro hroom
      exact (hs.report hport' data (hroom _ rfl hother)).of_sameTable hsame
    refine ⟨hindexed, fun hvalid => ?_, fun hroom => (hindexed hroom).indicesValid⟩
    intro d hd _ hcallback
    obtain rfl := Option.some.inj hd
    by_contra hfull
    have hback := hvalid.of_sameTable ⟨hsame.1.symm, hsame.2.symm⟩
    exact Broadcast.not_indicesValid_report hport' hcallback data hfull hback

/-! ## Construction -/

theorem Broadcast.foldl_addInterface (b : Broadcast) (interfaces : List Interface) :
    b.SameTable (interfaces.foldl addInterface b) ∧
      (interfaces.foldl addInterface b).status = b.status := by
  induction interfaces generalizing b with
  | nil => exact ⟨⟨rfl, rfl⟩, rfl⟩
  | cons iface interfaces ih =>
    have hadd : b.SameTable (b.addInterface iface) ∧ (b.addInterface iface).status = b.status := by
      unfold addInterface
      split <;> exact ⟨⟨rfl, rfl⟩, rfl⟩
    obtain ⟨⟨hdevices, hreports⟩, hstatus⟩ := ih (b.addInterface iface)
    exact ⟨⟨hdevices.trans hadd.1.1, hreports.trans hadd.1.2⟩, hstatus.trans hadd.2⟩

/-- A new object knows no device and has reported nothing; it has failed if its socket could not be
set up. -/
theorem Broadcast.construct_spec (setup : Setup) :
    (construct setup).devices = .empty ∧ (construct setup).reports = [] ∧
      ((construct setup).status = .good ↔
        setup.discoveryOptions = true ∧ setup.discoveryReceive = true) := by
  obtain ⟨⟨hdevices, hreports⟩, hstatus⟩ := Broadcast.foldl_addInterface
    ⟨.good, .empty, .empty, .empty, false, false, []⟩ (setup.interfaces.getD [])
  unfold construct discoverBroadcastAddresses
  cases hoptions : setup.discoveryOptions with
  | false =>
    refine ⟨hdevices, hreports, iff_of_false ?_ (by simp)⟩
    exact TransportStatus.setFailed_ne_good _
  | true =>
    cases hreceive : setup.discoveryReceive with
    | false =>
      refine ⟨hdevices, hreports, iff_of_false ?_ (by simp)⟩
      exact TransportStatus.setFailed_ne_good _
    | true => exact ⟨hdevices, hreports, iff_of_true hstatus ⟨rfl, rfl⟩⟩

theorem construct_broadcast (setup : Setup) :
    (construct setup).broadcast = .construct setup := by
  unfold construct State.dataAsyncReceive
  split
  · split <;> rfl
  · rfl

theorem indexed_construct (setup : Setup) : (construct setup).broadcast.Indexed := by
  obtain ⟨hdevices, hreports, -⟩ := Broadcast.construct_spec setup
  rw [construct_broadcast]
  refine ⟨?_, ?_, ?_⟩
  · rw [hdevices]
    simp
  · rw [hdevices]
    exact List.nodup_nil
  · rw [hreports]
    simp

/-- **UDP device indices are valid and stable**, in every run in which a sender that is reported is
known or finds room in `m_devices`.  A datagram of any other sender is reported under an index that
has no endpoint. -/
theorem udp_indices_stable (setup : Setup) {ls : List Label}
    (hports : ∀ l ∈ ls, l.FromDiscoveryPort) (hroom : Run.Guarded step HasRoom (construct setup) ls)
    (h : Run.exec step (construct setup) ls = some s) :
    s.broadcast.IndicesValid ∧
      (∀ r ∈ s.broadcast.reports, ∀ r' ∈ s.broadcast.reports,
        r.device = r'.device → r.sender = r'.sender) ∧
      ∀ l s', l.FromDiscoveryPort → step s l = some s' →
        (s'.broadcast.IndicesValid ↔ HasRoom s l) := by
  have hguard := hroom.and (Run.guarded_of_forall hports (construct setup))
  have hs : s.broadcast.Indexed := by
    refine Run.invariant_guarded (fun s => s.broadcast.Indexed) (fun s l s' hs hg hstep => ?_)
      (indexed_construct setup) hguard h
    exact (indexed_step hs hg.2 hstep).1 hg.1
  refine ⟨hs.indicesValid, fun r hr r' hr' heq => ?_, fun l s' hport hstep => ?_⟩
  · have hget := hs.reports r hr
    rw [heq, hs.reports r' hr'] at hget
    exact (Option.some.inj hget).symm
  · exact (indexed_step hs hport hstep).2

/-- A gateway with one interface, and no error so far. -/
def demoSetup : Setup := ⟨some [⟨0x0A000001, 0x0A0000FF⟩], true, true, true, true⟩

/-- A discovery datagram from the address. -/
def demoDatagram (address : Address) : Label :=
  .discoverySocketCallback (some (⟨address, discoveryPort⟩, [])) true

/-- Discovery datagrams from these addresses, in their order. -/
def demoDatagrams (addresses : List Address) : List Label :=
  .registerDiscoveryCallback :: addresses.map demoDatagram

/-- Two gateways, the first of which sends once more. -/
theorem udp_indices_stable_demo :
    ∃ s, Run.exec step (construct demoSetup) (demoDatagrams [7, 8, 7]) = some s ∧
      s.broadcast.reports.map Report.device = [0, 1, 0] ∧ s.broadcast.IndicesValid := by
  have hports : ∀ l ∈ demoDatagrams [7, 8, 7], l.FromDiscoveryPort := by decide
  refine ⟨_, rfl, by decide, (udp_indices_stable demoSetup hports (by decide) rfl).1⟩

/-- With ten gateways known, two further ones are reported under one index, which has no
endpoint. -/
theorem eleventh_device_has_no_endpoint :
    (∀ l ∈ demoDatagrams [1, 2, 3, 4, 5, 6, 7, 8, 9, 10, 11, 12], l.FromDiscoveryPort) ∧
      ∃ s, Run.exec step (construct demoSetup)
          (demoDatagrams [1, 2, 3, 4, 5, 6, 7, 8, 9, 10, 11, 12]) = some s ∧
        ⟨⟨11, discoveryPort⟩, [], 10⟩ ∈ s.broadcast.reports ∧
        ⟨⟨12, discoveryPort⟩, [], 10⟩ ∈ s.broadcast.reports ∧
        (s.broadcast.getEndpoint 10).1 = .any ∧ s.broadcast.getIndex 11 = none ∧
        ¬ s.broadcast.IndicesValid := by
  refine ⟨by decide, _, rfl, by decide, by decide, by decide, by decide, fun h => ?_⟩
  exact absurd (h ⟨⟨11, discoveryPort⟩, [], 10⟩ (by decide)).2 (by decide)

/-! ## Failures -/

/-- Whenever the member has failed, the transport is not good. -/
def State.MemberSeen (s : State) : Prop := s.broadcast.status ≠ .good → s.status ≠ .good

/-- The discovery socket was set up, or the data socket was not. -/
def Setup.MemberNotFirst (setup : Setup) : Prop :=
  (setup.discoveryOptions = true ∧ setup.discoveryReceive = true) ∨
    ¬ (setup.dataOptions = true ∧ setup.dataReceive = true)

instance (setup : Setup) : Decidable setup.MemberNotFirst :=
  inferInstanceAs (Decidable ((_ ∧ _) ∨ ¬ (_ ∧ _)))

theorem memberSeen_construct_iff (setup : Setup) :
    (construct setup).MemberSeen ↔ setup.MemberNotFirst := by
  have hown : (construct setup).status ≠ .good ↔
      ¬ (setup.dataOptions = true ∧ setup.dataReceive = true) := by
    unfold construct State.dataAsyncReceive State.setFailed
    cases setup.dataOptions <;> cases setup.dataReceive <;> simp [TransportStatus.setFailed]
  unfold State.MemberSeen Setup.MemberNotFirst
  rw [hown, construct_broadcast, Ne, (Broadcast.construct_spec setup).2.2]
  tauto

/-- **The two statuses after a step.**  The member keeps its status; or it fails, and then the
transport keeps its own. -/
theorem step_status (h : step s l = some s') :
    (s'.broadcast.status = s.broadcast.status ∧ MemberNotFirst s l ∧
        StatusFollows s.status s'.status) ∨
      (s'.broadcast.status = s.broadcast.status.setFailed ∧ s'.status = s.status ∧
        (MemberNotFirst s l ↔ s.status ≠ .good)) := by
  rcases step_cases h with ⟨-, hmember, hown, -, hfirst⟩ | ⟨-, hmember, hown, -, hfirst⟩ |
    ⟨e, data, nextReceive, rfl, -, hown, hmember⟩
  · exact Or.inl ⟨hmember, hfirst, hown⟩
  · exact Or.inr ⟨hmember, hown, hfirst⟩
  · have hreport : ((s.broadcast.register e).1.report
        ⟨e, data, (s.broadcast.register e).2⟩).status = s.broadcast.status := by
      unfold Broadcast.report
      split
      · exact (s.broadcast.register_frame e).2
      · exact (s.broadcast.register_frame e).2
    cases nextReceive with
    | true => exact Or.inl ⟨hmember ▸ hreport, Or.inr ⟨rfl, rfl⟩, Or.inl hown⟩
    | false =>
      refine Or.inr ⟨?_, hown, by simp [MemberNotFirst]⟩
      rw [hmember, ← hreport]
      rfl

/-- A transport that is not good stays so. -/
theorem status_step (h : step s l = some s') (hs : s.status ≠ .good) : s'.status ≠ .good := by
  rcases step_status h with ⟨-, -, hfollows⟩ | ⟨-, heq, -⟩
  · exact hfollows.ne_good hs
  · rwa [heq]

/-- **One step**: the failure of the member is seen if and only if the transport has failed
before. -/
theorem memberSeen_step_iff (hs : s.MemberSeen) (h : step s l = some s') :
    s'.MemberSeen ↔ MemberNotFirst s l := by
  rcases step_status h with ⟨hmember, hnotFirst, hfollows⟩ | ⟨hmember, hown, hiff⟩
  · refine iff_of_true (fun hfailed => ?_) hnotFirst
    rw [hmember] at hfailed
    exact hfollows.ne_good (hs hfailed)
  · rw [hiff, ← hown]
    refine ⟨fun hseen => hseen ?_, fun hne _ => hne⟩
    rw [hmember]
    exact TransportStatus.setFailed_ne_good _

/-- What the second part of `doFor` leaves of the transport in the slot of UDP. -/
theorem disabled_of_not_good {t : TransportInfo} {status : TransportStatus}
    (ht : t.slot .udp = some status) (hne : status ≠ .good) :
    ((t.disableFailed .udp).getD t).slot .udp = some .disabled := by
  cases status with
  | good => exact absurd rfl hne
  | disabled =>
    rw [TransportInfo.disableFailed, if_neg (by rw [ht]; decide)]
    exact ht
  | failed =>
    rw [TransportInfo.disableFailed, if_pos ht]
    rfl

/-- **A failed discovery socket fails the transport**, in every run in which the member is never the
first of the two to fail: from then on the transport is not good, and the next test by
`TransportInfo` leaves it disabled.  A step in which the member is the first to fail is not seen. -/
theorem discovery_failure_fails_transport {setup : Setup} (hsetup : setup.MemberNotFirst)
    {ls : List Label} (hg : Run.Guarded step MemberNotFirst (construct setup) ls)
    (h : Run.exec step (construct setup) ls = some s) :
    (s.broadcast.status ≠ .good → ∀ ls' s', Run.exec step s ls' = some s' →
        s'.status ≠ .good ∧
          ∀ t : TransportInfo, t.slot .udp = some s'.status →
            ((t.disableFailed .udp).getD t).slot .udp = some .disabled) ∧
      ∀ l s', step s l = some s' → (s'.MemberSeen ↔ MemberNotFirst s l) := by
  have hs : s.MemberSeen := by
    refine Run.invariant_guarded State.MemberSeen (fun s l s' hs hg hstep => ?_)
      ((memberSeen_construct_iff setup).mpr hsetup) hg h
    exact (memberSeen_step_iff hs hstep).mpr hg
  refine ⟨fun hfailed ls' s' hrun => ?_, fun l s' hstep => memberSeen_step_iff hs hstep⟩
  have hne : s'.status ≠ .good :=
    Run.invariant (fun s => s.status ≠ .good) (fun s l s' hs hstep => status_step hstep hs)
      (hs hfailed) hrun
  exact ⟨hne, fun t ht => disabled_of_not_good ht hne⟩

/-- The receive on the data socket fails, and then a broadcast. -/
theorem discovery_failure_fails_transport_demo :
    ∃ s, Run.exec step (construct demoSetup)
        [.dataSocketCallback none true, .sendBroadcast (some 0)] = some s ∧
      s.broadcast.status = .failed ∧ s.status ≠ .good := by
  have hg : Run.Guarded step MemberNotFirst (construct demoSetup)
      [.dataSocketCallback none true, .sendBroadcast (some 0)] := by decide
  have hsetup : demoSetup.MemberNotFirst := by decide
  refine ⟨_, rfl, by decide, ?_⟩
  exact ((discovery_failure_fails_transport hsetup hg rfl).1 (by decide) [] _ rfl).1

/-- A broadcast fails: the discovery socket is out of use, and the transport is good also after
`TransportInfo` has tested it. -/
theorem broadcast_failure_unseen :
    ∃ s, Run.exec step (construct demoSetup) [.sendBroadcast (some 0), .hasFailedSetDisabled]
        = some s ∧
      s.broadcast.status = .failed ∧ s.status = .good :=
  ⟨_, rfl, by decide, by decide⟩

end UdpTransport

end P3com
