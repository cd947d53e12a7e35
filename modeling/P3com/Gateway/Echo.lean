/-
# No echo

A chunk that came in over a transport is published by a publisher of `Transport2Iceoryx`, and the
subscriber of `Iceoryx2Transport` for the same service gets it like any other chunk.  What keeps it
from being sent out again are two tests at the beginning of `generateDeviceIndices`: the origin must
not be one of the publishers of `Transport2Iceoryx`, and it must be one of the known user
publishers.

The list of the first test shrinks when a channel is deleted, while a chunk of its publisher may
still wait in a queue.  The second test does not depend on that: `readPortSubscriber` skips every
port with the node name of the gateway, `setupChannel` creates publishers with exactly this node
name, and iceoryx neither reuses a port id nor reports a port under another name.  So the ports in
`userPublisherPorts` were never created by `Transport2Iceoryx` (`Inv`).

`ports` is the history of all publisher ports, and `sent` that of the chunks that
`Iceoryx2Transport` has passed to `writeSegmented`.
-/
import P3com.Generic.RoutingCache
import P3com.Gateway.Gateway

namespace P3com.Echo

/-! ## The machine -/

/-- A publisher port that was created at some time. -/
structure Port where
  uid : UInt64
  node : IdString
  /-- `Transport2Iceoryx` has created it. -/
  isGateway : Bool
deriving DecidableEq

/-- The discovery manager, the publishers of `Transport2Iceoryx`, and the two histories.  A
publisher object is identified by its port. -/
structure State (maxPublishers : Nat) where
  routing : RoutingCache.State maxPublishers
  endpoints : Endpoints
  ports : List Port
  /-- The origin and the service of every chunk sent. -/
  sent : List (UInt64 × ClassHash)
deriving DecidableEq

inductive Label
  /-- An application creates a publisher. -/
  | createPublisher (uid : UInt64) (node : IdString)
  /-- `Transport2Iceoryx::setupChannel`, whose publisher gets the port id. -/
  | setupChannel (service : ServiceDescription) (uid : UInt64)
  | deleteChannel (service : ServiceDescription)
  | readPortSubscriber (sample : Option PortIntrospection) (infoHash : Hash)
  | receiveRemoteDiscoveryInfo (info : PubSubInfo) (deviceIndex : DeviceIndex)
  | setFailed (type : TransportType)
  | transportFailed (type : TransportType)
  /-- `Iceoryx2Transport::waitsetLoop` takes a chunk of the given origin. -/
  | take (uid : UInt64) (serviceHash : ClassHash)

section

variable {maxPublishers : Nat} (getClassHash : ServiceDescription → ClassHash)

def State.init (gatewayHash : Hash) (preferredType : TransportType) (transports : TransportInfo) :
    State maxPublishers :=
  ⟨.init gatewayHash preferredType transports, .empty, [], []⟩

/-- The port id has never been used. -/
def State.isFresh (s : State maxPublishers) (uid : UInt64) : Bool :=
  s.ports.all fun port => port.uid ≠ uid

/-- The sample reports only ports that were created, each with the node name it was created
with. -/
def State.isReported (s : State maxPublishers) (sample : Option PortIntrospection) : Bool :=
  sample.all fun sample => sample.publisherList.all fun p =>
    s.ports.any fun port => port.uid = p.portID ∧ port.node = p.node

/-- `setupChannel`: the publisher is created first, and `addGatewayPublisher` is called if there is
room for the channel. -/
def State.setupChannel (s : State maxPublishers) (service : ServiceDescription) (uid : UInt64) :
    State maxPublishers :=
  let s := { s with ports := ⟨uid, ioxGwNodeName, true⟩ :: s.ports }
  match s.endpoints.emplace (getClassHash service) ⟨uid.toNat, service⟩ with
  | none => s
  | some endpoints =>
    { s with
      endpoints
      routing := { s.routing with
        gatewayPublisherUids := s.routing.gatewayPublisherUids.pushBack uid } }

/-- `deleteChannel`. -/
def State.deleteChannel (s : State maxPublishers) (service : ServiceDescription) :
    State maxPublishers :=
  match s.endpoints.discardChannel getClassHash service with
  | (none, _) => s
  | (some e, endpoints) =>
    { s with
      endpoints
      routing := { s.routing with
        gatewayPublisherUids :=
          s.routing.gatewayPublisherUids.deleteElement (UInt64.ofNat e.id) } }

/-- `waitsetLoop` with a chunk of the given origin: the chunk is sent or released. -/
def State.take (s : State maxPublishers) (uid : UInt64) (serviceHash : ClassHash) :
    State maxPublishers :=
  let (deviceIndices, routing) :=
    RoutingCache.generateDeviceIndices getClassHash s.routing uid serviceHash
  if deviceIndices.toList.isEmpty then { s with routing }
  else { s with routing, sent := (uid, serviceHash) :: s.sent }

def step (s : State maxPublishers) : Label → Option (State maxPublishers)
  | .createPublisher uid node =>
    if s.isFresh uid then some { s with ports := ⟨uid, node, false⟩ :: s.ports } else none
  | .setupChannel service uid =>
    if s.isFresh uid then some (s.setupChannel getClassHash service uid) else none
  | .deleteChannel service => some (s.deleteChannel getClassHash service)
  | .readPortSubscriber sample infoHash =>
    if s.isReported sample then
      (RoutingCache.step getClassHash s.routing (.readPortSubscriber sample infoHash)).map
        fun routing => { s with routing }
    else none
  | .receiveRemoteDiscoveryInfo info deviceIndex =>
    (RoutingCache.step getClassHash s.routing (.receiveRemoteDiscoveryInfo info deviceIndex)).map
      fun routing => { s with routing }
  | .setFailed type =>
    (RoutingCache.step getClassHash s.routing (.setFailed type)).map
      fun routing => { s with routing }
  | .transportFailed type =>
    (RoutingCache.step getClassHash s.routing (.transportFailed type)).map
      fun routing => { s with routing }
  | .take uid serviceHash =>
    if s.isFresh uid then none else some (s.take getClassHash uid serviceHash)

end

/-! ## The invariant -/

variable {maxPublishers : Nat} {getClassHash : ServiceDescription → ClassHash}
  {s s' : State maxPublishers}

/-- The known user publishers. -/
def State.userPorts (s : State maxPublishers) : List UInt64 :=
  s.routing.discovery.localState.userPublisherPorts.toList

structure Inv (s : State maxPublishers) : Prop where
  /-- Port ids are not reused. -/
  uids : (s.ports.map Port.uid).Nodup
  /-- The publishers of `Transport2Iceoryx` have the node name of the gateway. -/
  named : ∀ port ∈ s.ports, port.isGateway = true → port.node = ioxGwNodeName
  /-- The known user publishers have another one. -/
  users : ∀ uid ∈ s.userPorts, ∃ port ∈ s.ports, port.uid = uid ∧ port.node ≠ ioxGwNodeName
  /-- Nothing was sent that came from a publisher of `Transport2Iceoryx`. -/
  sent : ∀ e ∈ s.sent, ∃ port ∈ s.ports, port.uid = e.1 ∧ port.isGateway = false

theorem inv_init (gatewayHash : Hash) (preferredType : TransportType)
    (transports : TransportInfo) :
    Inv (State.init gatewayHash preferredType transports : State maxPublishers) where
  uids := List.nodup_nil
  named := by simp [State.init]
  users := by
    intro uid huid
    cases huid
  sent := by simp [State.init]

/-- A publisher of `Transport2Iceoryx` is not among the known user publishers. -/
theorem Inv.not_user (hs : Inv s) {port : Port} (hport : port ∈ s.ports)
    (hgw : port.isGateway = true) : port.uid ∉ s.userPorts := by
  intro hmem
  obtain ⟨port', hport', huid, hnode⟩ := hs.users _ hmem
  obtain rfl : port' = port := List.inj_on_of_nodup_map hs.uids hport' hport huid
  exact hnode (hs.named port' hport hgw)

/-- **A chunk of a publisher of `Transport2Iceoryx` goes nowhere.** -/
theorem Inv.generateDeviceIndices_eq (hs : Inv s) {port : Port} (hport : port ∈ s.ports)
    (hgw : port.isGateway = true) (serviceHash : ClassHash) :
    (RoutingCache.generateDeviceIndices getClassHash s.routing port.uid serviceHash).1
      = .empty := by
  have hnot : s.routing.discovery.localState.userPublisherPorts.containsElement port.uid
      = false := by
    have := hs.not_user hport hgw
    simpa [CxxVector.containsElement, State.userPorts] using this
  unfold RoutingCache.generateDeviceIndices
  split
  · rfl
  · rw [hnot]
    rfl

/-! ## Every step keeps it -/

/-- A new port with a fresh id. -/
theorem Inv.create (hs : Inv s) (port : Port) (hfresh : s.isFresh port.uid = true)
    (hnamed : port.isGateway = true → port.node = ioxGwNodeName)
    (hports : s'.ports = port :: s.ports) (husers : s'.userPorts = s.userPorts)
    (hsent : s'.sent = s.sent) : Inv s' where
  uids := by
    rw [hports, List.map_cons, List.nodup_cons]
    refine ⟨fun hmem => ?_, hs.uids⟩
    obtain ⟨port', hport', heq⟩ := List.mem_map.mp hmem
    unfold State.isFresh at hfresh
    have := List.all_eq_true.mp hfresh port' hport'
    simp [heq] at this
  named := by
    rw [hports]
    intro port' hmem hgw
    rcases List.mem_cons.mp hmem with rfl | hmem
    · exact hnamed hgw
    · exact hs.named port' hmem hgw
  users := by
    rw [husers, hports]
    intro uid huid
    obtain ⟨port', hport', h⟩ := hs.users uid huid
    exact ⟨port', List.mem_cons_of_mem _ hport', h⟩
  sent := by
    rw [hsent, hports]
    intro e he
    obtain ⟨port', hport', h⟩ := hs.sent e he
    exact ⟨port', List.mem_cons_of_mem _ hport', h⟩

/-- A step that neither creates a port nor reads a sample nor sends. -/
theorem Inv.keep (hs : Inv s) (hports : s'.ports = s.ports) (husers : s'.userPorts = s.userPorts)
    (hsent : s'.sent = s.sent) : Inv s' where
  uids := hports ▸ hs.uids
  named := hports ▸ hs.named
  users := by
    rw [husers, hports]
    exact hs.users
  sent := by
    rw [hsent, hports]
    exact hs.sent

/-- The ports that are read from a sample are ports of the sample that pass the filter. -/
theorem mem_ofSample {sample : Option PortIntrospection} {uid : UInt64}
    (h : uid ∈ (LocalState.ofSample sample).userPublisherPorts.toList) :
    ∃ sm p, sample = some sm ∧ p ∈ sm.publisherList ∧ p.isUser = true ∧ p.portID = uid := by
  cases sample with
  | none => cases h
  | some sm =>
    have hmem : uid ∈ (sm.publisherList.filter PortData.isUser).map PortData.portID :=
      (CxxVector.mem_of_mem_pushAll h).resolve_left (by simp)
    obtain ⟨p, hp, rfl⟩ := List.mem_map.mp hmem
    obtain ⟨hp, huser⟩ := List.mem_filter.mp hp
    exact ⟨sm, p, rfl, hp, huser, rfl⟩

/-- A sample is read: the filter keeps the ports of the gateway out. -/
theorem Inv.read (hs : Inv s) {sample : Option PortIntrospection}
    (hrep : s.isReported sample = true) (hports : s'.ports = s.ports) (hsent : s'.sent = s.sent)
    (husers : s'.userPorts = (LocalState.ofSample sample).userPublisherPorts.toList) : Inv s' where
  uids := hports ▸ hs.uids
  named := hports ▸ hs.named
  users := by
    rw [husers, hports]
    intro uid huid
    obtain ⟨sm, p, rfl, hp, huser, rfl⟩ := mem_ofSample huid
    unfold State.isReported at hrep
    rw [Option.all_some, List.all_eq_true] at hrep
    obtain ⟨port, hport, heq⟩ := List.any_eq_true.mp (hrep p hp)
    obtain ⟨huid, hnode⟩ := of_decide_eq_true heq
    refine ⟨port, hport, huid, ?_⟩
    rw [hnode]
    unfold PortData.isUser at huser
    rw [Bool.and_eq_true] at huser
    exact of_decide_eq_true huser.1
  sent := by
    rw [hsent, hports]
    exact hs.sent

/-- `generateDeviceIndices` changes at most the cache. -/
theorem generateDeviceIndices_localState (getClassHash : ServiceDescription → ClassHash)
    (r : RoutingCache.State maxPublishers) (uid : UInt64) (serviceHash : ClassHash) :
    (RoutingCache.generateDeviceIndices getClassHash r uid serviceHash).2.discovery.localState
      = r.discovery.localState := by
  unfold RoutingCache.generateDeviceIndices
  split
  · rfl
  · split
    · rfl
    · split
      · rfl
      · dsimp only
        split <;> rfl

/-- A chunk is taken and sent or released. -/
theorem Inv.take (hs : Inv s) {uid : UInt64} (hused : s.isFresh uid = false)
    (serviceHash : ClassHash) : Inv (s.take getClassHash uid serviceHash) := by
  have hlocal := generateDeviceIndices_localState getClassHash s.routing uid serviceHash
  unfold State.take
  dsimp only
  split
  · exact hs.keep rfl (by rw [State.userPorts, hlocal]; rfl) rfl
  · rename_i hsend
    refine ⟨hs.uids, hs.named, ?_, ?_⟩
    · rw [State.userPorts, hlocal]
      exact hs.users
    · intro e he
      rcases List.mem_cons.mp he with rfl | he
      · -- the origin is a port, and not one whose chunks go nowhere
        unfold State.isFresh at hused
        rw [List.all_eq_false] at hused
        obtain ⟨port, hport, heq⟩ := hused
        obtain rfl : port.uid = uid := by simpa using heq
        refine ⟨port, hport, rfl, ?_⟩
        by_contra hgw
        rw [Bool.not_eq_false] at hgw
        rw [hs.generateDeviceIndices_eq hport hgw] at hsend
        exact hsend rfl
      · exact hs.sent e he

/-- `readPortSubscriber` replaces the local state by that of the sample. -/
theorem readPortSubscriber_localState {r r' : RoutingCache.State maxPublishers}
    {sample : Option PortIntrospection} {infoHash : Hash}
    (h : RoutingCache.step getClassHash r (.readPortSubscriber sample infoHash) = some r') :
    r'.discovery.localState = LocalState.ofSample sample := by
  simp only [RoutingCache.step, Discovery.readPorts] at h
  split at h
  · rename_i d heq
    obtain ⟨rfl, -⟩ := Prod.mk.inj heq
    rw [← Option.some.inj h]
  · rename_i d v heq
    obtain ⟨rfl, -⟩ := Prod.mk.inj heq
    rw [← Option.some.inj h]
    unfold Discovery.sendIfChanged
    dsimp only
    split <;> rfl

theorem receiveInfo_localState (d : Discovery) (info : PubSubInfo) (deviceIndex : DeviceIndex) :
    (d.receiveInfo info deviceIndex).1.localState = d.localState := by
  unfold Discovery.receiveInfo
  dsimp only
  split <;> rfl

/-- **One step keeps the invariant.** -/
theorem inv_step {l : Label} (hs : Inv s) (h : step getClassHash s l = some s') : Inv s' := by
  cases l with
  | createPublisher uid node =>
    simp only [step] at h
    split at h
    · rename_i hfresh
      obtain rfl := Option.some.inj h
      exact hs.create ⟨uid, node, false⟩ hfresh (fun hgw => by cases hgw) rfl rfl rfl
    · cases h
  | setupChannel service uid =>
    simp only [step] at h
    split at h
    · rename_i hfresh
      obtain rfl := Option.some.inj h
      refine hs.create ⟨uid, ioxGwNodeName, true⟩ hfresh (fun _ => rfl) ?_ ?_ ?_
      · unfold State.setupChannel
        dsimp only
        split <;> rfl
      · unfold State.setupChannel
        dsimp only
        split <;> rfl
      · unfold State.setupChannel
        dsimp only
        split <;> rfl
    · cases h
  | deleteChannel service =>
    obtain rfl := Option.some.inj h
    refine hs.keep ?_ ?_ ?_
    · unfold State.deleteChannel
      split <;> rfl
    · unfold State.deleteChannel
      split <;> rfl
    · unfold State.deleteChannel
      split <;> rfl
  | readPortSubscriber sample infoHash =>
    simp only [step] at h
    split at h
    · rename_i hrep
      obtain ⟨routing, hstep, rfl⟩ := Option.map_eq_some_iff.mp h
      refine hs.read hrep rfl rfl ?_
      rw [State.userPorts, readPortSubscriber_localState hstep]
    · cases h
  | receiveRemoteDiscoveryInfo info deviceIndex =>
    simp only [step] at h
    obtain ⟨routing, hstep, rfl⟩ := Option.map_eq_some_iff.mp h
    obtain rfl := Option.some.inj hstep
    refine hs.keep rfl ?_ rfl
    simp only [State.userPorts, receiveInfo_localState]
  | setFailed type =>
    simp only [step] at h
    obtain ⟨routing, hstep, rfl⟩ := Option.map_eq_some_iff.mp h
    obtain rfl := Option.some.inj hstep
    exact hs.keep rfl rfl rfl
  | transportFailed type =>
    simp only [step] at h
    obtain ⟨routing, hstep, rfl⟩ := Option.map_eq_some_iff.mp h
    obtain ⟨transports, -, rfl⟩ := Option.map_eq_some_iff.mp hstep
    exact hs.keep rfl rfl rfl
  | take uid serviceHash =>
    simp only [step] at h
    split at h
    · cases h
    · rename_i hused
      obtain rfl := Option.some.inj h
      exact hs.take (by simpa using hused) serviceHash

/-- **No echo.**  In every state that a run reaches, `generateDeviceIndices` returns no device for
the port of any publisher that `Transport2Iceoryx` has ever created, whether its channel still
exists or not, and nothing that came from such a publisher has been sent. -/
theorem no_echo (getClassHash : ServiceDescription → ClassHash) (gatewayHash : Hash)
    (preferredType : TransportType) (transports : TransportInfo) (ls : List Label)
    (s : State maxPublishers)
    (h : Run.exec (step getClassHash) (State.init gatewayHash preferredType transports) ls
      = some s) (port : Port) (hport : port ∈ s.ports) (hgw : port.isGateway = true) :
    (∀ serviceHash,
      (RoutingCache.generateDeviceIndices getClassHash s.routing port.uid serviceHash).1
        = .empty) ∧
    ∀ e ∈ s.sent, e.1 ≠ port.uid := by
  have hs : Inv s := by
    refine Run.invariant Inv ?_ (inv_init gatewayHash preferredType transports) h
    intro s l s' hs hstep
    exact inv_step hs hstep
  refine ⟨fun serviceHash => hs.generateDeviceIndices_eq hport hgw serviceHash, ?_⟩
  intro e he heq
  obtain ⟨port', hport', huid, huser⟩ := hs.sent e he
  obtain rfl : port' = port := List.inj_on_of_nodup_map hs.uids hport' hport (huid.trans heq)
  rw [hgw] at huser
  cases huser

/-! ## A run -/

/-- The application publisher and the gateway publisher of one service, with a remote subscriber.
The sample reports both ports; the channel is deleted, and then a chunk of each is taken. -/
def demoRun : List Label :=
  [.createPublisher 1 demoNode, .setupChannel demoService 2,
    .receiveRemoteDiscoveryInfo ⟨CxxVector.empty.pushAll [demoService], 4, 8, 0, false⟩ ⟨.udp, 0⟩,
    .readPortSubscriber (some ⟨[⟨demoNode, demoService, 1⟩,
      ⟨ioxGwNodeName, demoService, 2⟩], []⟩) 0,
    .deleteChannel demoService, .take 2 (demoClassHash demoService),
    .take 1 (demoClassHash demoService)]

/-- Only the chunk of the application is sent. -/
theorem no_echo_demo :
    ∃ s : State 512, Run.exec (step demoClassHash)
        (State.init 7 .none ⟨none, some .good, none, 4⟩) demoRun = some s ∧
      s.sent = [(1, demoClassHash demoService)] ∧ (⟨2, ioxGwNodeName, true⟩ : Port) ∈ s.ports ∧
      (RoutingCache.generateDeviceIndices demoClassHash s.routing 2
        (demoClassHash demoService)).1 = .empty := by
  refine ⟨_, rfl, by decide +kernel, List.mem_cons_self, ?_⟩
  exact (no_echo demoClassHash 7 .none ⟨none, some .good, none, 4⟩ demoRun _ rfl
    ⟨2, ioxGwNodeName, true⟩ List.mem_cons_self rfl).1 (demoClassHash demoService)

end P3com.Echo
