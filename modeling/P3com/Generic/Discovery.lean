/-
# The discovery system

`include/p3com/generic/discovery.hpp` and `source/p3com/generic/discovery.cpp`.  The handlers of
`DiscoveryManager` run in sections under `m_mutex`; the functions here are these sections, as
functions of the manager's state.  What a section makes the handler do afterwards (call
`m_updateCallback`, send discovery info) is part of its result.

The introspection sample comes from iceoryx: it is a parameter, `none` when `take` fails, and then
the new local state is empty.
-/
import P3com.Transport.TransportInfo

namespace P3com

/-! ## State -/

/-- `LocalState_t`. -/
structure LocalState where
  userPublishers : ServiceVector
  userSubscribers : ServiceVector
  userPublisherPorts : CxxVector UInt64 maxTopics
deriving DecidableEq

def LocalState.empty : LocalState := ⟨.empty, .empty, .empty⟩

/-- `DeviceRecord_t`. -/
structure DeviceRecord where
  info : PubSubInfo
  deviceIndices : CxxVector DeviceIndex transportTypeCount
deriving DecidableEq

abbrev Records := CxxVector DeviceRecord maxDeviceCount

abbrev DeviceIndexVector := CxxVector DeviceIndex maxDeviceCount

abbrev DeviceIndicesCache := VectorMap ClassHash DeviceIndexVector maxTopics

/-- A default constructed `PubSubInfo_t`. -/
def PubSubInfo.default : PubSubInfo := ⟨.empty, 0, 0, 0, false⟩

/-- `DiscoveryManager`.  `updateCallback` says whether `m_updateCallback` has been set. -/
structure Discovery where
  gatewayHash : Hash
  preferredType : TransportType
  updateCallback : Bool
  records : Records
  deviceIndicesCache : DeviceIndicesCache
  localState : LocalState
  lastSentDiscoveryInfo : PubSubInfo
  terminateFlag : Bool
deriving DecidableEq

/-- The manager after its construction. -/
def Discovery.construct (gatewayHash : Hash) (preferredType : TransportType) : Discovery where
  gatewayHash := gatewayHash
  preferredType := preferredType
  updateCallback := false
  records := .empty
  deviceIndicesCache := .empty
  localState := .empty
  lastSentDiscoveryInfo := .default
  terminateFlag := false

/-! ## Remote records -/

namespace Records

/-- The `find_if` over the records: the index of the gateway's record. -/
def findHash (r : Records) (gatewayHash : Hash) : Option Nat :=
  r.toList.findIdx? fun record => record.info.gatewayHash = gatewayHash

/-- Store device index: at most one index for each transport type. -/
def storeDeviceIndex (v : CxxVector DeviceIndex transportTypeCount) (deviceIndex : DeviceIndex) :
    CxxVector DeviceIndex transportTypeCount :=
  if v.toList.any fun i => i.type = deviceIndex.type then v else v.pushBack deviceIndex

/-- Update the information in a record. -/
def update (record : DeviceRecord) (info : PubSubInfo) (deviceIndex : DeviceIndex) :
    DeviceRecord :=
  ⟨info, storeDeviceIndex record.deviceIndices deviceIndex⟩

/-- A message of a gateway without a record: `emplace_back`, whose result is not looked at, and
then an update through `back()`. -/
def register (r : Records) (info : PubSubInfo) (deviceIndex : DeviceIndex) : Records :=
  let r := r.pushBack ⟨.default, .empty⟩
  match r.toList.getLast? with
  | none => r
  | some record => r.set (r.size - 1) (update record info deviceIndex)

/-- What `receiveRemoteDiscoveryInfo` does to the records. -/
def receive (r : Records) (info : PubSubInfo) (deviceIndex : DeviceIndex) : Records :=
  match r.findHash info.gatewayHash with
  | some i =>
    if info.isTermination then r.erase i
    else match r.toList[i]? with
      | none => r
      | some record => r.set i (update record info deviceIndex)
  | none =>
    if info.isTermination then r else r.register info deviceIndex

end Records

/-! ## Local ports -/

/-- The fields of the introspection data of a port that the gateway reads. -/
structure PortData where
  node : IdString
  service : ServiceDescription
  portID : UInt64
deriving DecidableEq

/-- `PortIntrospectionFieldTopic`. -/
structure PortIntrospection where
  publisherList : List PortData
  subscriberList : List PortData
deriving DecidableEq

/-- `IOX_GW_NODE_NAME`. -/
def ioxGwNodeName : IdString := .ofString "p3com-gw" (by decide)

/-- The instance id of the ports of RouDi. -/
def roudiInstance : IdString := .ofString "RouDi_ID" (by decide)

/-- Ignore ports from gateway and introspection. -/
def PortData.isUser (p : PortData) : Bool :=
  p.node ≠ ioxGwNodeName && p.service.instanceID ≠ roudiInstance

/-- The local state that `readPortSubscriber` reads from a sample. -/
def LocalState.ofSample : Option PortIntrospection → LocalState
  | none => .empty
  | some sample =>
    let publishers := sample.publisherList.filter PortData.isUser
    let subscribers := sample.subscriberList.filter PortData.isUser
    { userPublishers := CxxVector.empty.pushAll (publishers.map PortData.service)
      userSubscribers := CxxVector.empty.pushAll (subscribers.map PortData.service)
      userPublisherPorts := CxxVector.empty.pushAll (publishers.map PortData.portID) }

/-- None of the four differences between the old and the new local state has an element. -/
def LocalState.unchanged (old new : LocalState) : Bool :=
  (old.userPublishers.deleteElements new.userPublishers).toList.isEmpty &&
  (old.userSubscribers.deleteElements new.userSubscribers).toList.isEmpty &&
  (new.userPublishers.deleteElements old.userPublishers).toList.isEmpty &&
  (new.userSubscribers.deleteElements old.userSubscribers).toList.isEmpty

namespace LocalState

variable {old new : LocalState}

theorem mem_of_deleteElements_isEmpty {a b : ServiceVector}
    (h : (a.deleteElements b).toList.isEmpty = true) {x : ServiceDescription}
    (hx : x ∈ a.toList) : x ∈ b.toList := by
  by_contra hb
  rw [List.isEmpty_iff, CxxVector.toList_deleteElements] at h
  have := List.mem_diff_of_mem hx hb
  rw [h] at this
  cases this

/-- When nothing has changed, the same services are published and subscribed. -/
theorem mem_iff_of_unchanged (h : old.unchanged new = true) (x : ServiceDescription) :
    (x ∈ new.userPublishers.toList ↔ x ∈ old.userPublishers.toList) ∧
      (x ∈ new.userSubscribers.toList ↔ x ∈ old.userSubscribers.toList) := by
  unfold unchanged at h
  simp only [Bool.and_eq_true] at h
  obtain ⟨⟨⟨hp, hs⟩, hp'⟩, hs'⟩ := h
  exact ⟨⟨mem_of_deleteElements_isEmpty hp', mem_of_deleteElements_isEmpty hp⟩,
    ⟨mem_of_deleteElements_isEmpty hs', mem_of_deleteElements_isEmpty hs⟩⟩

end LocalState

namespace Discovery

/-- `generateDiscoveryInfo`, with the bits of the enabled transports and a generated hash. -/
def generateDiscoveryInfo (d : Discovery) (bitset : Bitset) (infoHash : Hash) : PubSubInfo where
  userSubscribers := CxxVector.empty.pushUnique d.localState.userSubscribers
  gatewayBitset := bitset
  gatewayHash := d.gatewayHash
  infoHash := infoHash
  isTermination := false

/-- `updateNeededChannels`. -/
def updateNeededChannels (d : Discovery) : ServiceVector :=
  d.records.toList.foldl (fun needed record => needed.pushUnique record.info.userSubscribers)
    ((CxxVector.empty.pushUnique d.localState.userSubscribers).pushUnique
      d.localState.userPublishers)

/-! ## Sections -/

/-- The first section of `readPortSubscriber`.  The needed services are `none` when nothing has
changed; then the handler returns. -/
def readPorts (d : Discovery) (sample : Option PortIntrospection) :
    Discovery × Option ServiceVector :=
  let new := LocalState.ofSample sample
  let d' := { d with localState := new }
  (d', if d.localState.unchanged new then none else some d'.updateNeededChannels)

/-- The last section of `readPortSubscriber`: send only if the subscribers have changed since the
last send from here. -/
def sendIfChanged (d : Discovery) (bitset : Bitset) (infoHash : Hash) :
    Discovery × Option PubSubInfo :=
  let info := d.generateDiscoveryInfo bitset infoHash
  if info.userSubscribers ≠ d.lastSentDiscoveryInfo.userSubscribers then
    ({ d with lastSentDiscoveryInfo := info }, some info)
  else (d, none)

/-- Whether `receiveRemoteDiscoveryInfo` sends discovery info in reply. -/
def replies (d : Discovery) (info : PubSubInfo) : Bool :=
  !info.isTermination && (d.records.findHash info.gatewayHash).isNone && !d.terminateFlag

/-- The section of `receiveRemoteDiscoveryInfo`.  The needed services are `none` after a
termination message. -/
def receiveInfo (d : Discovery) (info : PubSubInfo) (deviceIndex : DeviceIndex) :
    Discovery × Option ServiceVector :=
  let d' := { d with records := d.records.receive info deviceIndex }
  if info.isTermination then (d', none)
  else
    let d' := { d' with deviceIndicesCache := d.deviceIndicesCache.clear }
    (d', some d'.updateNeededChannels)

end Discovery

end P3com
