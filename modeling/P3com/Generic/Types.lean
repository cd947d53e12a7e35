/-
# Configuration constants and message types

`include/p3com/generic/config.hpp`, `types.hpp` and `transport/transport_type.hpp`, for the
build without `__FREERTOS__`.  Fixed-width fields keep their width (`UInt32`, `UInt64`), so that
decrements and sums wrap as they do in the source.

`iox::capro::ServiceDescription` is determined by its three id strings.  Its class hash is
computed by iceoryx; wherever it is needed it is a parameter `getClassHash`.
-/
import P3com.Utility.CxxVector
import P3com.Utility.VectorMap

namespace P3com

/-! ## Constants -/

def maxTopics : Nat := 32

def transportTypeCount : Nat := 4

def maxDeviceCount : Nat := 10

/-- `iox::capro::IdString_t::capacity()`. -/
def idStringCapacity : Nat := 100

/-! ## Services -/

abbrev Byte := UInt8

/-- `hash_t`. -/
abbrev Hash := UInt32

/-- `iox::capro::IdString_t`, a bounded string of bytes. -/
structure IdString where
  bytes : List Byte
  size_le : bytes.length ≤ idStringCapacity
deriving DecidableEq

/-- The id string with the characters of a literal. -/
def IdString.ofString (s : String) (h : (s.toList.map fun c => c.toNat.toUInt8).length ≤
    idStringCapacity) : IdString :=
  ⟨s.toList.map fun c => c.toNat.toUInt8, h⟩

/-- `iox::capro::ServiceDescription`. -/
structure ServiceDescription where
  serviceID : IdString
  instanceID : IdString
  eventID : IdString
deriving DecidableEq

/-- `ServiceDescription::ClassHash`, of `CLASS_HASH_ELEMENT_COUNT = 4` words. -/
structure ClassHash where
  w0 : UInt32
  w1 : UInt32
  w2 : UInt32
  w3 : UInt32
deriving DecidableEq

abbrev ServiceVector := CxxVector ServiceDescription maxTopics

/-! ## Transports and devices -/

/-- `TransportType`. -/
inductive TransportType
  | pcie
  | udp
  | tcp
  | none
deriving DecidableEq

/-- `index`: the numeric value of the enumerator. -/
def TransportType.index : TransportType → Nat
  | .pcie => 1
  | .udp => 2
  | .tcp => 3
  | .none => 4

/-- `DeviceIndex_t`. -/
structure DeviceIndex where
  type : TransportType
  device : UInt32
deriving DecidableEq

/-! ## Messages -/

/-- `bitset_t`. -/
abbrev Bitset := BitVec 64

/-- `PubSubInfo_t`, the discovery message. -/
structure PubSubInfo where
  userSubscribers : ServiceVector
  gatewayBitset : Bitset
  gatewayHash : Hash
  infoHash : Hash
  isTermination : Bool
deriving DecidableEq

/-- `IoxChunkDatagramHeader_t`, the header of every user data datagram. -/
structure IoxChunkDatagramHeader where
  serviceHash : ClassHash
  messageHash : Hash
  submessageCount : UInt32
  submessageOffset : UInt32
  submessageSize : UInt32
  userPayloadSize : UInt32
  userPayloadAlignment : UInt32
  userHeaderSize : UInt32
deriving DecidableEq

/-! ## Values for concrete runs -/

/-- A service. -/
def demoService : ServiceDescription :=
  ⟨.ofString "Radar" (by decide), .ofString "FrontLeft" (by decide), .ofString "Object" (by decide)⟩

def demoServices : ServiceVector := ⟨[demoService], by decide⟩

/-- The node of an application. -/
def demoNode : IdString := .ofString "app" (by decide)

/-- Every service has the same class hash; the runs that use it have one service only. -/
def demoClassHash : ServiceDescription → ClassHash := fun _ => ⟨1, 2, 3, 4⟩

end P3com
