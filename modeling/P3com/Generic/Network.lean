/-
# A network of gateways

Several gateways run the discovery system of `source/p3com/generic/discovery.cpp` over transports
that connect them.  A step of the network is one section under the mutex of one manager, one
`sendBroadcast`, or the construction of a gateway.

A section that sends discovery info holds the mutex until it has sent on every enabled transport.
Here it leaves the messages in the outbox of the gateway: as long as the outbox is not empty, the
mutex is taken, and the messages go out one transport at a time.  A message goes into the link of
every gateway that is constructed by then and has the transport enabled; a gateway ignores its own
messages (`source/udp/udp_transport_broadcast.cpp`).

`deinitialize` sets the terminate flag without the mutex, waits for the waitset thread, and then
sends the termination message: two steps.  `readPortSubscriber` runs in the waitset thread, which
lives from `initialize` to the second step of `deinitialize`; `initialize`, the periodic
`resendDiscoveryInfoToTransport` and `deinitialize` run in the main thread, one after the other.
-/
import P3com.Generic.RecordTable
import P3com.Lib.Run
import Mathlib.Logic.Function.Basic

namespace P3com

namespace Network

/-! ## Gateways -/

/-- The gateways of a run: their hashes, which are distinct, and their transports. -/
structure Setup (n : Nat) where
  gatewayHash : Fin n → Hash
  transports : Fin n → TransportInfo
  distinct : Function.Injective gatewayHash
  size_le : n ≤ maxDeviceCount + 1

/-- Both gateways have the transport. -/
def Setup.Share {n : Nat} (cfg : Setup n) (g r : Fin n) (type : TransportType) : Prop :=
  (cfg.transports g).isGood type = true ∧ (cfg.transports r).isGood type = true

instance {n : Nat} (cfg : Setup n) (g r : Fin n) (type : TransportType) :
    Decidable (cfg.Share g r type) :=
  inferInstanceAs (Decidable (_ ∧ _))

/-- Every two gateways share a transport. -/
structure Config (n : Nat) extends Setup n where
  shared : ∀ g r, g ≠ r → ∃ type, toSetup.Share g r type

instance {n : Nat} : Coe (Config n) (Setup n) := ⟨Config.toSetup⟩

/-- A gateway that has been constructed.  `reading` says that `readPortSubscriber` is between its
two sections, `terminated` that `deinitialize` has sent its message. -/
structure Gateway where
  discovery : Discovery
  reading : Bool
  terminated : Bool
  outbox : List (TransportType × PubSubInfo)
deriving DecidableEq

/-- `sendBroadcast` on every enabled transport. -/
def broadcast (t : TransportInfo) (info : PubSubInfo) : List (TransportType × PubSubInfo) :=
  (TransportInfo.types.filter t.isGood).map fun type => (type, info)

namespace Gateway

def construct (gatewayHash : Hash) (preferredType : TransportType) : Gateway :=
  ⟨Discovery.construct gatewayHash preferredType, false, false, []⟩

/-- The mutex is free. -/
def idle (a : Gateway) : Bool := a.outbox.isEmpty

/-- What a gateway does of its own accord. -/
inductive Action
  | initializeDiscovery (infoHash : Hash)
  /-- The two sections of `readPortSubscriber`. -/
  | readPorts (sample : PortIntrospection)
  | sendIfChanged (infoHash : Hash)
  | resendDiscoveryInfoToTransport (type : TransportType) (infoHash : Hash)
  /-- The two halves of `deinitialize`. -/
  | setTerminateFlag
  | sendTermination (infoHash : Hash)
deriving DecidableEq

/-- One action, with the transports of the gateway. -/
def act (t : TransportInfo) (a : Gateway) : Action → Option Gateway
  | .initializeDiscovery infoHash =>
    if a.idle && !a.discovery.updateCallback then
      let d := { a.discovery with updateCallback := true }
      some { a with
        discovery := d
        outbox := broadcast t (d.generateDiscoveryInfo t.bitset infoHash) }
    else none
  | .readPorts sample =>
    if a.idle && a.discovery.updateCallback && !a.reading && !a.terminated then
      match a.discovery.readPorts (some sample) with
      | (d, none) => some { a with discovery := d }
      | (d, some _) => some { a with discovery := d, reading := true }
    else none
  | .sendIfChanged infoHash =>
    if a.idle && a.reading then
      match a.discovery.sendIfChanged t.bitset infoHash with
      | (d, none) => some { a with discovery := d, reading := false }
      | (d, some info) =>
        some { a with discovery := d, reading := false, outbox := broadcast t info }
    else none
  | .resendDiscoveryInfoToTransport type infoHash =>
    if a.idle && a.discovery.updateCallback && !a.discovery.terminateFlag then
      some { a with
        outbox :=
          if t.isGood type then [(type, a.discovery.generateDiscoveryInfo t.bitset infoHash)]
          else [] }
    else none
  | .setTerminateFlag =>
    if a.discovery.updateCallback && !a.discovery.terminateFlag then
      some { a with discovery := { a.discovery with terminateFlag := true } }
    else none
  | .sendTermination infoHash =>
    if a.idle && a.discovery.terminateFlag && !a.reading && !a.terminated then
      let info := a.discovery.generateDiscoveryInfo t.bitset infoHash
      some { a with
        terminated := true
        outbox := broadcast t { info with isTermination := true } }
    else none

/-- The section of `receiveRemoteDiscoveryInfo`. -/
def receive (t : TransportInfo) (a : Gateway) (info : PubSubInfo) (deviceIndex : DeviceIndex)
    (infoHash : Hash) : Option Gateway :=
  if a.idle then
    some { a with
      discovery := (a.discovery.receiveInfo info deviceIndex).1
      outbox :=
        if a.discovery.replies info then
          broadcast t (a.discovery.generateDiscoveryInfo t.bitset infoHash)
        else [] }
  else none

/-- The messages of the outbox for a transport. -/
def out (a : Gateway) (type : TransportType) : List PubSubInfo :=
  (a.outbox.filter fun p => p.1 = type).map Prod.snd

/-- Initialized and running. -/
def Running (a : Gateway) : Prop :=
  a.discovery.updateCallback = true ∧ a.discovery.terminateFlag = false

/-- No handler of the gateway is running. -/
def Quiet (a : Gateway) : Prop :=
  a.outbox = [] ∧ a.reading = false ∧ (a.discovery.terminateFlag = true → a.terminated = true)

end Gateway

/-! ## The network -/

/-- The gateways, `none` before their construction, and for every pair of gateways and every
transport the messages in flight. -/
structure State (n : Nat) where
  gateways : Fin n → Option Gateway
  queue : Fin n → Fin n → TransportType → List PubSubInfo

def State.init (n : Nat) : State n := ⟨fun _ => none, fun _ _ _ => []⟩

inductive Label (n : Nat)
  | construct (g : Fin n) (preferredType : TransportType)
  | act (g : Fin n) (action : Gateway.Action)
  /-- The next `sendBroadcast` of a gateway. -/
  | send (g : Fin n)
  /-- Gateway `r` receives the next message of gateway `g` over a transport. -/
  | receive (g r : Fin n) (type : TransportType) (device : UInt32) (infoHash : Hash)
deriving DecidableEq

section

variable {n : Nat}

def State.set (s : State n) (g : Fin n) (a : Gateway) : State n :=
  { s with gateways := Function.update s.gateways g (some a) }

/-- A message of `g` reaches the links of a transport. -/
def State.deliver (cfg : Setup n) (s : State n) (g : Fin n) (type : TransportType)
    (info : PubSubInfo) : State n :=
  { s with queue := fun g' r type' =>
      if g' = g ∧ r ≠ g ∧ type' = type ∧ (s.gateways r).isSome ∧
          (cfg.transports r).isGood type = true then
        s.queue g' r type' ++ [info]
      else s.queue g' r type' }

/-- The first message of a link is taken. -/
def State.pop (s : State n) (g r : Fin n) (type : TransportType) : State n :=
  { s with queue := fun g' r' type' =>
      if g' = g ∧ r' = r ∧ type' = type then (s.queue g' r' type').tail
      else s.queue g' r' type' }

def step (cfg : Setup n) (s : State n) : Label n → Option (State n)
  | .construct g preferredType =>
    match s.gateways g with
    | none => some (s.set g (.construct (cfg.gatewayHash g) preferredType))
    | some _ => none
  | .act g action =>
    match s.gateways g with
    | none => none
    | some a => (a.act (cfg.transports g) action).map (s.set g)
  | .send g =>
    match s.gateways g with
    | none => none
    | some a =>
      match a.outbox with
      | [] => none
      | (type, info) :: outbox => some ((s.deliver cfg g type info).set g { a with outbox })
  | .receive g r type device infoHash =>
    match s.queue g r type, s.gateways r with
    | info :: _, some b =>
      (b.receive (cfg.transports r) info ⟨type, device⟩ infoHash).map ((s.pop g r type).set r)
    | _, _ => none

/-- No message is in flight and no handler is running. -/
def State.Quiet (s : State n) : Prop :=
  (∀ g r type, s.queue g r type = []) ∧ ∀ g a, s.gateways g = some a → a.Quiet

end

end Network

end P3com
