/-
# Discovery over UDP: devices and records

`source/udp/udp_transport_broadcast.cpp`, `discoverySocketCallback`, with the handler of the
discovery manager that it calls.  A device is known by the position of its endpoint in `m_devices`;
a gateway is known by its hash.  The records are one for each hash, the destinations of samples are
device indices, and nothing ties the two together: a gateway that has been restarted is a new
gateway on an old device, and its old record stays unless it said goodbye.  Two records with one
device index make every sample of a common service go there twice.

Over UDP a record gets its only device index with the message that creates it.  So the message to
look at is the one of a gateway without a record: `no_device_addressed_twice` says that all is well
as long as each of these comes from a device that no record has.  Once `m_devices` is full, all
further endpoints have the same index, that of `end()`.
-/
import P3com.Generic.Forwarding
import P3com.Transport.TcpTransport

namespace P3com.UdpBroadcast

/-! ## State and steps -/

/-- `asio::ip::udp::endpoint`. -/
abbrev UdpEndpoint := TcpTransport.Endpoint

/-- `m_devices`, whether `m_remoteDiscoveryCallback` has been registered, and the discovery
manager. -/
structure State where
  devices : CxxVector UdpEndpoint maxDeviceCount
  registered : Bool
  discovery : Discovery
deriving DecidableEq

def State.init (gatewayHash : Hash) (preferredType : TransportType) : State :=
  ⟨.empty, false, Discovery.construct gatewayHash preferredType⟩

inductive Label
  | registerDiscoveryCallback
  /-- A discovery datagram, with the info in it. -/
  | datagram (outputEndpoint : UdpEndpoint) (info : PubSubInfo)
deriving DecidableEq

/-- The index of an endpoint: that of `end()` if it is not in the vector and there is no room. -/
def State.indexOf (s : State) (e : UdpEndpoint) : Nat :=
  (s.devices.toList.idxOf? e).getD s.devices.size

/-- The device index under which a message of the endpoint is reported. -/
def State.deviceIndex (s : State) (e : UdpEndpoint) : DeviceIndex :=
  ⟨.udp, UInt32.ofNat (s.indexOf e)⟩

/-- Add the endpoint if it is not registered. -/
def State.register (s : State) (e : UdpEndpoint) : State :=
  match s.devices.toList.idxOf? e with
  | some _ => s
  | none => { s with devices := s.devices.pushBack e }

/-- `discoverySocketCallback`. -/
def State.discoverySocketCallback (interfaceEndpoints : List UdpEndpoint) (s : State)
    (e : UdpEndpoint) (info : PubSubInfo) : State :=
  if e ∈ interfaceEndpoints then s
  else if s.registered then
    { s.register e with discovery := (s.discovery.receiveInfo info (s.deviceIndex e)).1 }
  else s.register e

def step (interfaceEndpoints : List UdpEndpoint) (s : State) : Label → Option State
  | .registerDiscoveryCallback => some { s with registered := true }
  | .datagram e info => some (s.discoverySocketCallback interfaceEndpoints e info)

/-- A message that makes a new record comes from a device that no record has. -/
def NewDevice (interfaceEndpoints : List UdpEndpoint) (s : State) : Label → Prop
  | .registerDiscoveryCallback => True
  | .datagram e info =>
    e ∉ interfaceEndpoints → s.registered = true → info.isTermination = false →
      info.gatewayHash ∉ s.discovery.records.hashes →
      s.discovery.records.size < maxDeviceCount →
      ∀ r ∈ s.discovery.records.toList, s.deviceIndex e ∉ r.deviceIndices.toList

instance (interfaceEndpoints : List UdpEndpoint) (s : State) :
    DecidablePred (NewDevice interfaceEndpoints s) := fun l =>
  match l with
  | .registerDiscoveryCallback => isTrue trivial
  | .datagram _ _ => inferInstanceAs (Decidable (_ → _ → _ → _ → _ → ∀ r ∈ _, _))

/-- No list of device indices that samples or forwarded messages are sent to has one twice,
whatever transports are enabled and preferred. -/
def State.NoDeviceTwice (getClassHash : ServiceDescription → ClassHash) (s : State) : Prop :=
  ∀ t preferredType serviceHash,
    (computeDeviceIndices getClassHash t preferredType serviceHash
      s.discovery.records).toList.Nodup ∧
    ∀ fromDeviceIndex, (generateDeviceIndicesForwarding getClassHash t preferredType serviceHash
      s.discovery.records fromDeviceIndex).toList.Nodup

/-! ## The device indices of all records -/

/-- All stored device indices. -/
def indices (records : Records) : List DeviceIndex :=
  records.toList.flatMap fun r => r.deviceIndices.toList

variable {getClassHash : ServiceDescription → ClassHash} {interfaceEndpoints : List UdpEndpoint}
  {records : Records} {info : PubSubInfo} {i : DeviceIndex} {s s' : State} {l : Label}

/-- One element out of each list, at most. -/
theorem filterMap_sublist_flatMap {α β : Type} {f : α → Option β} {g : α → List β}
    (h : ∀ a b, f a = some b → b ∈ g a) (as : List α) :
    (as.filterMap f).Sublist (as.flatMap g) := by
  induction as with
  | nil => exact List.Sublist.refl _
  | cons a as ih =>
    rw [List.flatMap_cons]
    cases hf : f a with
    | none =>
      rw [List.filterMap_cons_none hf]
      exact ih.trans (List.sublist_append_right _ _)
    | some b =>
      rw [List.filterMap_cons_some hf]
      exact (List.singleton_sublist.mpr (h a b hf)).append ih

/-- Records without a common device index are not addressed twice. -/
theorem noDeviceTwice_of_nodup (getClassHash : ServiceDescription → ClassHash)
    (h : (indices s.discovery.records).Nodup) : s.NoDeviceTwice getClassHash := by
  have hnodup : ∀ f : DeviceRecord → Option DeviceIndex,
      (∀ r i, f r = some i → i ∈ r.deviceIndices.toList) →
      ((CxxVector.empty : DeviceIndexVector).pushAll
        (s.discovery.records.toList.filterMap f)).toList.Nodup := by
    intro f hf
    rw [CxxVector.toList_pushAll_take, CxxVector.toList_empty, List.nil_append]
    exact h.sublist ((List.take_sublist _ _).trans (filterMap_sublist_flatMap hf _))
  intro t preferredType serviceHash
  refine ⟨hnodup _ fun r i hr => (Forwarding.routeOf_eq_some hr).1, fun fromDeviceIndex => ?_⟩
  unfold generateDeviceIndicesForwarding
  dsimp only
  split
  · exact List.nodup_nil
  · refine hnodup _ fun r i hr => ?_
    unfold forwardOf at hr
    split at hr
    · exact (Forwarding.routeOf_eq_some hr).1
    · cases hr

/-- Every record has the device index of UDP. -/
def Indexed (records : Records) : Prop :=
  ∀ r ∈ records.toList, ∃ i ∈ r.deviceIndices.toList, i.type = .udp

/-- A record that has the index of UDP keeps its indices. -/
theorem storeDeviceIndex_of_indexed {v : CxxVector DeviceIndex transportTypeCount}
    (h : ∃ i ∈ v.toList, i.type = .udp) (hi : i.type = .udp) :
    Records.storeDeviceIndex v i = v := by
  refine if_pos ?_
  rw [hi]
  simpa using h

/-- **What a message over UDP does to the device indices.**  A message that makes a record adds its
own; any other adds none. -/
theorem indices_receive (info : PubSubInfo) (hidx : Indexed records) (hi : i.type = .udp) :
    Indexed (records.receive info i) ∧
      ((info.isTermination = false ∧ info.gatewayHash ∉ records.hashes ∧
          records.size < maxDeviceCount ∧
          indices (records.receive info i) = indices records ++ [i]) ∨
        (¬ (info.isTermination = false ∧ info.gatewayHash ∉ records.hashes ∧
            records.size < maxDeviceCount) ∧
          (indices (records.receive info i)).Sublist (indices records))) := by
  have hupdate : ∀ r ∈ records.toList,
      (Records.update r info i).deviceIndices = r.deviceIndices :=
    fun r hr => storeDeviceIndex_of_indexed (hidx r hr) hi
  refine ⟨?_, ?_⟩
  · refine Records.forall_deviceIndices_receive (P := fun v => ∃ i ∈ v.toList, i.type = .udp)
      ⟨i, List.mem_singleton_self i, hi⟩ (fun v hv => ?_) hidx
    rwa [storeDeviceIndex_of_indexed hv hi]
  unfold indices
  rcases Records.receive_cases records info i with
    ⟨front, old, back, hrec, hhash, hcases⟩ |
    ⟨hnew, ⟨hterm, heq⟩ | ⟨hterm, hroom, heq⟩ | ⟨-, hfull, front, last, hrec, heq⟩⟩
  · have hseen : info.gatewayHash ∈ records.hashes := by
      unfold Records.hashes
      rw [hrec, ← hhash]
      exact List.mem_map_of_mem (List.mem_append_right _ List.mem_cons_self)
    refine Or.inr ⟨fun h => h.2.1 hseen, ?_⟩
    rcases hcases with ⟨-, heq⟩ | ⟨-, heq⟩
    · rw [heq, hrec, List.flatMap_append, List.flatMap_append, List.flatMap_cons]
      exact List.Sublist.append_left (List.sublist_append_right _ _) _
    · have hold := hupdate old (by rw [hrec]; simp)
      rw [heq, hrec, List.flatMap_append, List.flatMap_append, List.flatMap_cons,
        List.flatMap_cons, hold]
  · refine Or.inr ⟨fun h => ?_, by rw [heq]⟩
    rw [h.1] at hterm
    cases hterm
  · refine Or.inl ⟨hterm, hnew, hroom, ?_⟩
    rw [heq, List.flatMap_append]
    rfl
  · have hlast := hupdate last (by rw [hrec]; simp)
    refine Or.inr ⟨fun h => by have := h.2.2; omega, ?_⟩
    rw [heq, hrec, List.flatMap_append, List.flatMap_append, List.flatMap_singleton,
      List.flatMap_singleton, hlast]

/-! ## Every run -/

/-- What every run keeps, as long as new records are for new devices. -/
structure Inv (s : State) : Prop where
  indexed : Indexed s.discovery.records
  nodup : (indices s.discovery.records).Nodup

theorem inv_init (gatewayHash : Hash) (preferredType : TransportType) :
    Inv (State.init gatewayHash preferredType) := by
  constructor
  · intro r hr
    cases hr
  · exact List.nodup_nil

/-- What a step does to the records. -/
theorem step_records (h : step interfaceEndpoints s l = some s') :
    (s'.discovery.records = s.discovery.records ∧ NewDevice interfaceEndpoints s l) ∨
      ∃ e info, l = .datagram e info ∧ e ∉ interfaceEndpoints ∧ s.registered = true ∧
        s'.discovery.records = s.discovery.records.receive info (s.deviceIndex e) := by
  have hregister : ∀ e, (s.register e).discovery = s.discovery := by
    intro e
    unfold State.register
    split <;> rfl
  cases l with
  | registerDiscoveryCallback =>
    obtain rfl := Option.some.inj h
    exact Or.inl ⟨rfl, trivial⟩
  | datagram e info =>
    obtain rfl := Option.some.inj h
    unfold State.discoverySocketCallback
    split
    · rename_i hown
      exact Or.inl ⟨rfl, fun h => absurd hown h⟩
    · rename_i hown
      split
      · rename_i hreg
        refine Or.inr ⟨e, info, rfl, hown, hreg, ?_⟩
        simp only [Discovery.receiveInfo]
        split <;> rfl
      · rename_i hreg
        exact Or.inl ⟨by rw [hregister], fun _ h => absurd h hreg⟩

/-- **One step**: the device indices stay distinct if and only if a new record is for a new
device. -/
theorem inv_step_iff (hs : Inv s) (h : step interfaceEndpoints s l = some s') :
    Inv s' ↔ NewDevice interfaceEndpoints s l := by
  rcases step_records h with ⟨heq, hnew⟩ | ⟨e, info, rfl, hown, hreg, heq⟩
  · refine iff_of_true ⟨?_, ?_⟩ hnew
    · rw [heq]
      exact hs.indexed
    · rw [heq]
      exact hs.nodup
  · obtain ⟨hindexed, ⟨hterm, hhash, hroom, hadded⟩ | ⟨hnot, hsub⟩⟩ :=
      indices_receive info hs.indexed (i := s.deviceIndex e) rfl
    · have hnodup : (indices s'.discovery.records).Nodup ↔
          s.deviceIndex e ∉ indices s.discovery.records := by
        rw [heq, hadded]
        simp [List.nodup_append, hs.nodup]
        exact ⟨fun h hmem => h _ hmem rfl, fun h a ha hae => h (hae ▸ ha)⟩
      have hmem : s.deviceIndex e ∉ indices s.discovery.records ↔
          ∀ r ∈ s.discovery.records.toList, s.deviceIndex e ∉ r.deviceIndices.toList := by
        simp [indices]
      constructor
      · intro hs' _ _ _ _ _
        exact hmem.mp (hnodup.mp hs'.nodup)
      · intro hnew
        refine ⟨by rw [heq]; exact hindexed, hnodup.mpr (hmem.mpr ?_)⟩
        exact hnew hown hreg hterm hhash hroom
    · refine iff_of_true ⟨by rw [heq]; exact hindexed, ?_⟩ ?_
      · rw [heq]
        exact hs.nodup.sublist hsub
      · intro _ _ hterm hhash hroom
        exact absurd ⟨hterm, hhash, hroom⟩ hnot

/-- **No device is addressed twice**, in every run in which a new record is always for a new
device.  Any other message leaves two records with one device index. -/
theorem no_device_addressed_twice (getClassHash : ServiceDescription → ClassHash)
    (interfaceEndpoints : List UdpEndpoint) (gatewayHash : Hash) (preferredType : TransportType)
    (ls : List Label)
    (hg : Run.Guarded (step interfaceEndpoints) (NewDevice interfaceEndpoints)
      (State.init gatewayHash preferredType) ls)
    (hrun : Run.exec (step interfaceEndpoints) (State.init gatewayHash preferredType) ls
      = some s) :
    s.NoDeviceTwice getClassHash ∧
      ∀ l s', step interfaceEndpoints s l = some s' →
        ((indices s'.discovery.records).Nodup ↔ NewDevice interfaceEndpoints s l) := by
  have hinv : Inv s := by
    refine Run.invariant_guarded Inv ?_ (inv_init gatewayHash preferredType) hg hrun
    intro s l s' hs hg hstep
    exact (inv_step_iff hs hstep).mpr hg
  refine ⟨noDeviceTwice_of_nodup getClassHash hinv.nodup, fun l s' hstep => ?_⟩
  rw [← inv_step_iff hinv hstep]
  refine ⟨fun hnodup => ⟨?_, hnodup⟩, Inv.nodup⟩
  rcases step_records hstep with ⟨heq, -⟩ | ⟨e, info, -, -, -, heq⟩
  · rw [heq]
    exact hinv.indexed
  · rw [heq]
    exact (indices_receive info hinv.indexed rfl).1

/-! ## A restart -/

/-- A gateway with UDP announces its subscriber. -/
def demoInfo (gatewayHash : Hash) : PubSubInfo := ⟨demoServices, 4, gatewayHash, 0, false⟩

/-- The gateways 5 and 6, on the devices of the endpoints `e` and `e'`. -/
def demoRun (e e' : UdpEndpoint) : List Label :=
  [.registerDiscoveryCallback, .datagram e (demoInfo 5), .datagram e' (demoInfo 6)]

/-- Two gateways on two devices. -/
theorem no_device_addressed_twice_demo :
    ∃ s, Run.exec (step []) (State.init 1 .none) (demoRun ⟨7, 9332⟩ ⟨8, 9332⟩) = some s ∧
      s.NoDeviceTwice demoClassHash := by
  refine ⟨_, rfl, (no_device_addressed_twice demoClassHash [] 1 .none
    (demoRun ⟨7, 9332⟩ ⟨8, 9332⟩) (by decide) rfl).1⟩

/-- The gateway is restarted with a new hash, on the same device. -/
theorem restarted_gateway_addressed_twice :
    ∃ s, Run.exec (step []) (State.init 1 .none) (demoRun ⟨7, 9332⟩ ⟨7, 9332⟩) = some s ∧
      (computeDeviceIndices demoClassHash RoutingCache.demoTransports .none ⟨1, 2, 3, 4⟩
        s.discovery.records).toList = [⟨.udp, 0⟩, ⟨.udp, 0⟩] ∧
      ¬ s.NoDeviceTwice demoClassHash := by
  refine ⟨_, rfl, by decide, fun h => ?_⟩
  have := (h RoutingCache.demoTransports .none ⟨1, 2, 3, 4⟩).1
  revert this
  decide

end P3com.UdpBroadcast
