/-
# The routing cache

`generateDeviceIndices` answers to which devices the samples of a publisher go.  The answer is
computed from the records and the transports by `computeDeviceIndices` and kept in
`deviceIndicesCache`, under the class hash of the service.

The cache agrees with the computation as long as whatever changes the records or the transports
also empties it.  An ordinary discovery message does, and so does the fail callback of a
transport.  A termination message does not: it erases the record and returns.  And when the cache
is full a service without an entry gets the empty answer.

The machine here has one step for each call.  A send that fails inside a handler is the step
`setFailed` and, when `doFor` or `doForAllEnabled` notices it, the step `transportFailed`; between
the two there is a failed transport, and no statement is made about the cache.
-/
import P3com.Generic.RecordTable
import P3com.Lib.Run

namespace P3com

/-! ## The computation -/

section Compute

variable (getClassHash : ServiceDescription → ClassHash) (t : TransportInfo)
  (preferredType : TransportType) (serviceHash : ClassHash)

/-- The body of the loop of `computeDeviceIndices`: the device index that a record contributes. -/
def routeOf (r : DeviceRecord) : Option DeviceIndex :=
  if r.info.userSubscribers.toList.any fun service => getClassHash service = serviceHash then
    match t.findMatchingType r.info.gatewayBitset preferredType with
    | .none => none
    | type => r.deviceIndices.toList.find? fun i => i.type = type
  else none

/-- `computeDeviceIndices`. -/
def computeDeviceIndices (records : Records) : DeviceIndexVector :=
  CxxVector.empty.pushAll
    (records.toList.filterMap (routeOf getClassHash t preferredType serviceHash))

/-- There is room for a device index of every record. -/
theorem toList_computeDeviceIndices (records : Records) :
    (computeDeviceIndices getClassHash t preferredType serviceHash records).toList
      = records.toList.filterMap (routeOf getClassHash t preferredType serviceHash) := by
  rw [computeDeviceIndices, CxxVector.toList_pushAll, CxxVector.toList_empty, List.nil_append]
  rw [CxxVector.size, CxxVector.toList_empty, List.length_nil, Nat.zero_add]
  exact Nat.le_trans (List.length_filterMap_le _ _) records.size_le

end Compute

/-! ## The machine -/

namespace RoutingCache

/-- The discovery manager with its `m_gatewayPublisherUids`, and the transports.  Unique port ids
are 64-bit numbers. -/
structure State (maxPublishers : Nat) where
  discovery : Discovery
  gatewayPublisherUids : CxxVector UInt64 maxPublishers
  transports : TransportInfo
deriving DecidableEq

inductive Label
  | readPortSubscriber (sample : Option PortIntrospection) (infoHash : Hash)
  | receiveRemoteDiscoveryInfo (info : PubSubInfo) (deviceIndex : DeviceIndex)
  /-- The transport calls `setFailed`. -/
  | setFailed (type : TransportType)
  /-- The failure is noticed: the transport is disabled and the fail callback runs. -/
  | transportFailed (type : TransportType)
  | addGatewayPublisher (uid : UInt64)
  | discardGatewayPublisher (uid : UInt64)
  | generateDeviceIndices (uid : UInt64) (serviceHash : ClassHash)
deriving DecidableEq

section

variable {maxPublishers : Nat} (getClassHash : ServiceDescription → ClassHash)

/-- The gateway after the construction of the discovery manager. -/
def State.init (gatewayHash : Hash) (preferredType : TransportType) (transports : TransportInfo) :
    State maxPublishers :=
  ⟨Discovery.construct gatewayHash preferredType, .empty, transports⟩

/-- `computeDeviceIndices` on the current records and transports. -/
def State.compute (s : State maxPublishers) (serviceHash : ClassHash) : DeviceIndexVector :=
  computeDeviceIndices getClassHash s.transports s.discovery.preferredType serviceHash
    s.discovery.records

/-- `generateDeviceIndices`: the answer, and the state with the new cache entry. -/
def generateDeviceIndices (s : State maxPublishers) (uid : UInt64) (serviceHash : ClassHash) :
    DeviceIndexVector × State maxPublishers :=
  if s.gatewayPublisherUids.containsElement uid then (.empty, s)
  else if !s.discovery.localState.userPublisherPorts.containsElement uid then (.empty, s)
  else match s.discovery.deviceIndicesCache.findElem serviceHash with
    | some (_, v) => (v, s)
    | none =>
      let v := s.compute getClassHash serviceHash
      match s.discovery.deviceIndicesCache.emplace serviceHash v with
      | none => (.empty, s)
      | some cache => (v, { s with discovery := { s.discovery with deviceIndicesCache := cache } })

/-- One call. -/
def step (s : State maxPublishers) : Label → Option (State maxPublishers)
  | .readPortSubscriber sample infoHash =>
    match s.discovery.readPorts sample with
    | (d, none) => some { s with discovery := d }
    | (d, some _) =>
      some { s with discovery := (d.sendIfChanged s.transports.bitset infoHash).1 }
  | .receiveRemoteDiscoveryInfo info deviceIndex =>
    some { s with discovery := (s.discovery.receiveInfo info deviceIndex).1 }
  | .setFailed type => some { s with transports := s.transports.setFailed type }
  | .transportFailed type =>
    (s.transports.disableFailed type).map fun transports =>
      { s with
        transports
        discovery := { s.discovery with
          deviceIndicesCache := s.discovery.deviceIndicesCache.clear } }
  | .addGatewayPublisher uid =>
    some { s with gatewayPublisherUids := s.gatewayPublisherUids.pushBack uid }
  | .discardGatewayPublisher uid =>
    some { s with gatewayPublisherUids := s.gatewayPublisherUids.deleteElement uid }
  | .generateDeviceIndices uid serviceHash =>
    some (generateDeviceIndices getClassHash s uid serviceHash).2

/-- What `generateDeviceIndices` should return. -/
def expected (s : State maxPublishers) (uid : UInt64) (serviceHash : ClassHash) :
    DeviceIndexVector :=
  if uid ∈ s.gatewayPublisherUids.toList ∨
      uid ∉ s.discovery.localState.userPublisherPorts.toList then .empty
  else s.compute getClassHash serviceHash

/-- The cache holds what would be computed now. -/
def Coherent (s : State maxPublishers) : Prop :=
  ∀ h v, (h, v) ∈ s.discovery.deviceIndicesCache.entries → v = s.compute getClassHash h

/-- A termination message erases no record to which a cached service is routed. -/
def KeepsRoutes (s : State maxPublishers) : Label → Prop
  | .receiveRemoteDiscoveryInfo info _ => info.isTermination = true →
      ∀ r ∈ s.discovery.records.toList, r.info.gatewayHash = info.gatewayHash →
        ∀ h ∈ s.discovery.deviceIndicesCache.keys,
          routeOf getClassHash s.transports s.discovery.preferredType h r = none
  | _ => True

/-- The cache has no entry for the service, and no room for one. -/
def CacheRefuses (s : State maxPublishers) (uid : UInt64) (serviceHash : ClassHash) : Prop :=
  uid ∉ s.gatewayPublisherUids.toList ∧ uid ∈ s.discovery.localState.userPublisherPorts.toList ∧
    serviceHash ∉ s.discovery.deviceIndicesCache.keys ∧
    s.discovery.deviceIndicesCache.size = maxTopics

end

variable {maxPublishers : Nat} {getClassHash : ServiceDescription → ClassHash}
  {s s' : State maxPublishers}

/-! ## Every step keeps the cache coherent -/

/-- A step that touches neither the records, nor the transports, nor the cache. -/
theorem Coherent.of_eq (h : Coherent getClassHash s)
    (hrecords : s'.discovery.records = s.discovery.records)
    (hpref : s'.discovery.preferredType = s.discovery.preferredType)
    (hcache : s'.discovery.deviceIndicesCache = s.discovery.deviceIndicesCache)
    (htransports : s'.transports = s.transports) : Coherent getClassHash s' := by
  intro k v hmem
  rw [hcache] at hmem
  rw [h k v hmem]
  unfold State.compute
  rw [hrecords, hpref, htransports]

theorem coherent_of_clear (h : s.discovery.deviceIndicesCache = .empty) :
    Coherent getClassHash s := by
  intro k v hmem
  rw [h] at hmem
  cases hmem

/-- The cache after a query: as before, or with one more entry that was computed just now. -/
theorem generateDeviceIndices_state (getClassHash : ServiceDescription → ClassHash)
    (s : State maxPublishers) (uid : UInt64)
    (serviceHash : ClassHash) :
    (generateDeviceIndices getClassHash s uid serviceHash).2 = s ∨
      ∃ cache, s.discovery.deviceIndicesCache.emplace serviceHash
          (s.compute getClassHash serviceHash) = some cache ∧
        (generateDeviceIndices getClassHash s uid serviceHash).2
          = { s with discovery := { s.discovery with deviceIndicesCache := cache } } := by
  unfold generateDeviceIndices
  split
  · exact Or.inl rfl
  · split
    · exact Or.inl rfl
    · split
      · exact Or.inl rfl
      · dsimp only
        split
        · exact Or.inl rfl
        · exact Or.inr ⟨_, ‹_›, rfl⟩

/-- The state after a termination message. -/
theorem receiveInfo_termination {d : Discovery} {info : PubSubInfo} {deviceIndex : DeviceIndex}
    (hterm : info.isTermination = true) : (d.receiveInfo info deviceIndex).1
      = { d with records := d.records.receive info deviceIndex } := by
  simp [Discovery.receiveInfo, hterm]

/-- **A termination message keeps the cache coherent exactly when it erases no record to which a
cached service is routed.** -/
theorem coherent_terminate_iff {info : PubSubInfo} {deviceIndex : DeviceIndex}
    (hc : Coherent getClassHash s) (hn : s.discovery.records.hashes.Nodup)
    (hterm : info.isTermination = true) :
    Coherent getClassHash
        { s with discovery := (s.discovery.receiveInfo info deviceIndex).1 } ↔
      KeepsRoutes getClassHash s (.receiveRemoteDiscoveryInfo info deviceIndex) := by
  rw [receiveInfo_termination hterm]
  rcases Records.receive_cases s.discovery.records info deviceIndex with
    ⟨front, r, back, hr, hhash, ⟨-, heq⟩ | ⟨hf, -⟩⟩ | ⟨hnew, ⟨-, heq⟩ | ⟨hf, -⟩ | ⟨hf, -⟩⟩
  · -- the record of the gateway, the only one with its hash
    have hunique : ∀ r' ∈ s.discovery.records.toList,
        r'.info.gatewayHash = info.gatewayHash → r' = r := by
      intro r' hr' hhash'
      refine List.inj_on_of_nodup_map hn hr' ?_ (hhash'.trans hhash.symm)
      rw [hr]
      exact List.mem_append_right _ List.mem_cons_self
    have hcompute : ∀ k, s.compute getClassHash k = State.compute getClassHash
        { s with discovery := { s.discovery with
          records := s.discovery.records.receive info deviceIndex } } k ↔
        routeOf getClassHash s.transports s.discovery.preferredType k r = none := by
      intro k
      rw [State.compute, State.compute, CxxVector.ext_iff, toList_computeDeviceIndices,
        toList_computeDeviceIndices, hr, heq, List.filterMap_append, List.filterMap_append,
        List.append_cancel_left_eq, List.filterMap_cons]
      cases hroute : routeOf getClassHash s.transports s.discovery.preferredType k r with
      | none => simp
      | some i =>
        refine iff_of_false (fun h => ?_) (by simp)
        have := congrArg List.length h
        simp at this
    constructor
    · intro hc' _ r' hr' hhash' k hk
      obtain rfl := hunique r' hr' hhash'
      obtain ⟨v, hmem⟩ := VectorMap.exists_of_mem_keys hk
      exact (hcompute k).mp ((hc k v hmem).symm.trans (hc' k v hmem))
    · intro hg k v hmem
      have hroute := hg hterm r (by rw [hr]; simp) hhash k (VectorMap.mem_keys_of_mem_entries hmem)
      exact (hc k v hmem).trans ((hcompute k).mpr hroute)
  · rw [hterm] at hf
    cases hf
  · refine iff_of_true ?_ fun _ r' hr' hhash' => ?_
    · rw [heq]
      exact hc
    · exact absurd (hhash' ▸ List.mem_map_of_mem hr') hnew
  · rw [hterm] at hf
    cases hf
  · rw [hterm] at hf
    cases hf

theorem coherent_step {l : Label} (hs : s.transports.NoneFailed → Coherent getClassHash s)
    (hnodup : s.discovery.records.hashes.Nodup) (hg : KeepsRoutes getClassHash s l)
    (h : step getClassHash s l = some s')
    (hn : s'.transports.NoneFailed) : Coherent getClassHash s' := by
  cases l with
  | readPortSubscriber sample infoHash =>
    simp only [step, Discovery.readPorts] at h
    split at h
    · rename_i d heq
      obtain rfl := Option.some.inj h
      obtain ⟨rfl, -⟩ := Prod.mk.inj heq
      exact (hs hn).of_eq rfl rfl rfl rfl
    · rename_i d needed heq
      obtain rfl := Option.some.inj h
      obtain ⟨rfl, -⟩ := Prod.mk.inj heq
      refine (hs hn).of_eq ?_ ?_ ?_ rfl <;>
      · simp only [Discovery.sendIfChanged]
        split <;> rfl
  | receiveRemoteDiscoveryInfo info deviceIndex =>
    obtain rfl := Option.some.inj h
    have hc := hs hn
    cases hterm : info.isTermination with
    | false =>
      apply coherent_of_clear
      simp only [Discovery.receiveInfo, hterm]
      rfl
    | true => exact (coherent_terminate_iff hc hnodup hterm).mpr hg
  | setFailed type =>
    obtain rfl := Option.some.inj h
    cases hgood : s.transports.isGood type with
    | true => exact absurd hn (TransportInfo.not_noneFailed_setFailed hgood)
    | false =>
      have heq : s.transports.setFailed type = s.transports := by
        simp [TransportInfo.setFailed, hgood]
      simp only [heq] at hn
      exact (hs hn).of_eq rfl rfl rfl heq
  | transportFailed type =>
    obtain ⟨t, -, rfl⟩ := Option.map_eq_some_iff.mp h
    exact coherent_of_clear rfl
  | addGatewayPublisher uid =>
    obtain rfl := Option.some.inj h
    exact (hs hn).of_eq rfl rfl rfl rfl
  | discardGatewayPublisher uid =>
    obtain rfl := Option.some.inj h
    exact (hs hn).of_eq rfl rfl rfl rfl
  | generateDeviceIndices uid serviceHash =>
    obtain rfl := Option.some.inj h
    rcases generateDeviceIndices_state getClassHash s uid serviceHash with
      heq | ⟨cache, hcache, heq⟩
    · rw [heq] at hn ⊢
      exact hs hn
    · rw [heq] at hn ⊢
      intro k v hmem
      rw [VectorMap.entries_emplace hcache] at hmem
      rcases List.mem_append.mp hmem with hmem | hmem
      · exact hs hn k v hmem
      · obtain ⟨rfl, rfl⟩ := Prod.mk.inj (List.mem_singleton.mp hmem)
        rfl

/-- What a step can do to the records and to the transports. -/
theorem step_frame {l : Label} (h : step getClassHash s l = some s') :
    s'.discovery.preferredType = s.discovery.preferredType ∧
      (s'.discovery.records = s.discovery.records ∨ ∃ info deviceIndex,
        s'.discovery.records = s.discovery.records.receive info deviceIndex) ∧
      (s'.transports = s.transports ∨ (∃ type, s'.transports = s.transports.setFailed type) ∨
        ∃ type, s.transports.disableFailed type = some s'.transports) := by
  cases l with
  | readPortSubscriber sample infoHash =>
    simp only [step, Discovery.readPorts] at h
    split at h
    · rename_i d heq
      obtain rfl := Option.some.inj h
      obtain ⟨rfl, -⟩ := Prod.mk.inj heq
      exact ⟨rfl, Or.inl rfl, Or.inl rfl⟩
    · rename_i d needed heq
      obtain rfl := Option.some.inj h
      obtain ⟨rfl, -⟩ := Prod.mk.inj heq
      refine ⟨?_, Or.inl ?_, Or.inl rfl⟩ <;>
      · simp only [Discovery.sendIfChanged]
        split <;> rfl
  | receiveRemoteDiscoveryInfo info deviceIndex =>
    obtain rfl := Option.some.inj h
    refine ⟨?_, Or.inr ⟨info, deviceIndex, ?_⟩, Or.inl rfl⟩ <;>
    · simp only [Discovery.receiveInfo]
      split <;> rfl
  | setFailed type =>
    obtain rfl := Option.some.inj h
    exact ⟨rfl, Or.inl rfl, Or.inr (Or.inl ⟨type, rfl⟩)⟩
  | transportFailed type =>
    obtain ⟨t, ht, rfl⟩ := Option.map_eq_some_iff.mp h
    exact ⟨rfl, Or.inl rfl, Or.inr (Or.inr ⟨type, ht⟩)⟩
  | addGatewayPublisher uid =>
    obtain rfl := Option.some.inj h
    exact ⟨rfl, Or.inl rfl, Or.inl rfl⟩
  | discardGatewayPublisher uid =>
    obtain rfl := Option.some.inj h
    exact ⟨rfl, Or.inl rfl, Or.inl rfl⟩
  | generateDeviceIndices uid serviceHash =>
    obtain rfl := Option.some.inj h
    rcases generateDeviceIndices_state getClassHash s uid serviceHash with heq | ⟨cache, -, heq⟩ <;>
    · rw [heq]
      exact ⟨rfl, Or.inl rfl, Or.inl rfl⟩

theorem nodup_step {l : Label} (hs : s.discovery.records.hashes.Nodup)
    (h : step getClassHash s l = some s') : s'.discovery.records.hashes.Nodup := by
  obtain ⟨-, heq | ⟨info, deviceIndex, heq⟩, -⟩ := step_frame h
  · rw [heq]
    exact hs
  · rw [heq]
    exact Records.nodup_hashes_receive hs

/-! ## Every run -/

/-- The answer of a query in a state with a coherent cache. -/
theorem generateDeviceIndices_eq_iff (hc : Coherent getClassHash s) (uid : UInt64)
    (serviceHash : ClassHash) :
    (generateDeviceIndices getClassHash s uid serviceHash).1
        = expected getClassHash s uid serviceHash ↔
      ¬ (CacheRefuses s uid serviceHash ∧ ∃ r ∈ s.discovery.records.toList,
        (routeOf getClassHash s.transports s.discovery.preferredType serviceHash r).isSome) := by
  unfold generateDeviceIndices expected CacheRefuses CxxVector.containsElement
  by_cases hgw : uid ∈ s.gatewayPublisherUids.toList
  · simp [hgw]
  by_cases hport : uid ∈ s.discovery.localState.userPublisherPorts.toList
  · simp only [hgw, hport, decide_false, decide_true, Bool.not_true, Bool.false_eq_true, if_false,
      not_true, or_self, not_false_eq_true, true_and]
    cases hf : s.discovery.deviceIndicesCache.findElem serviceHash with
    | some e =>
      have hmem := VectorMap.mem_of_findElem hf
      refine iff_of_true (hc _ _ hmem) fun h => ?_
      exact h.1.1 (VectorMap.mem_keys_of_mem_entries hmem)
    | none =>
      have hkey := VectorMap.findElem_eq_none.mp hf
      cases he : s.discovery.deviceIndicesCache.emplace serviceHash
          (s.compute getClassHash serviceHash) with
      | some cache =>
        refine iff_of_true rfl fun h => ?_
        rw [VectorMap.emplace_eq_none.mpr h.1.2] at he
        cases he
      | none =>
        have hfull := VectorMap.emplace_eq_none.mp he
        simp only [hkey, hfull, not_false_eq_true, true_and]
        rw [CxxVector.ext_iff, State.compute, toList_computeDeviceIndices, eq_comm,
          CxxVector.toList_empty, List.filterMap_eq_nil_iff]
        simp [Option.isSome_iff_ne_none]
  · simp [hgw, hport]

/-- **The routing cache agrees with the plain computation**, in every run whose termination
messages erase no record to which a cached service is routed, and except for a service that has a
route, no entry in the cache, and no room for one.  The condition on termination messages is
exact: each other one leaves a stale entry. -/
theorem routing_cache_agrees (getClassHash : ServiceDescription → ClassHash)
    (gatewayHash : Hash) (preferredType : TransportType) (transports : TransportInfo)
    (ls : List Label) (s : State maxPublishers)
    (hrun : Run.exec (step getClassHash) (State.init gatewayHash preferredType transports) ls
      = some s)
    (hg : Run.Guarded (step getClassHash) (KeepsRoutes getClassHash)
      (State.init gatewayHash preferredType transports : State maxPublishers) ls)
    (hn : s.transports.NoneFailed) :
    (∀ uid serviceHash, (generateDeviceIndices getClassHash s uid serviceHash).1
        = expected getClassHash s uid serviceHash ↔
      ¬ (CacheRefuses s uid serviceHash ∧ ∃ r ∈ s.discovery.records.toList,
        (routeOf getClassHash s.transports s.discovery.preferredType serviceHash r).isSome)) ∧
    ∀ info deviceIndex, info.isTermination = true →
      (Coherent getClassHash
          { s with discovery := (s.discovery.receiveInfo info deviceIndex).1 } ↔
        KeepsRoutes getClassHash s (.receiveRemoteDiscoveryInfo info deviceIndex)) := by
  have hinv : s.discovery.records.hashes.Nodup ∧
      (s.transports.NoneFailed → Coherent getClassHash s) :=
    Run.invariant_guarded
      (fun s => s.discovery.records.hashes.Nodup ∧
        (s.transports.NoneFailed → Coherent getClassHash s))
      (fun _ _ _ hs hg hstep => ⟨nodup_step hs.1 hstep, coherent_step hs.2 hs.1 hg hstep⟩)
      ⟨List.nodup_nil, fun _ => coherent_of_clear rfl⟩ hg hrun
  have hc := hinv.2 hn
  exact ⟨generateDeviceIndices_eq_iff hc, fun info deviceIndex hterm =>
    coherent_terminate_iff hc hinv.1 hterm⟩

/-! ## A run -/

/-- UDP is enabled. -/
def demoTransports : TransportInfo := ⟨none, some .good, none, 4⟩

/-- Gateway 5 subscribes to the service, over UDP. -/
def demoInfo (isTermination : Bool) : PubSubInfo :=
  ⟨demoServices, 4, 5, 0, isTermination⟩

/-- A local publisher of the service is discovered, gateway 5 announces its subscriber, and the
publisher sends a sample. -/
def demoQuery : List Label :=
  [.readPortSubscriber (some ⟨[⟨demoNode, demoService, 1⟩], []⟩) 0,
    .receiveRemoteDiscoveryInfo (demoInfo false) ⟨.udp, 3⟩,
    .generateDeviceIndices 1 ⟨1, 2, 3, 4⟩]

theorem routing_cache_agrees_demo :
    ∃ s : State 8, Run.exec (step demoClassHash) (State.init 1 .none demoTransports) demoQuery
        = some s ∧
      (generateDeviceIndices demoClassHash s 1 ⟨1, 2, 3, 4⟩).1
        = expected demoClassHash s 1 ⟨1, 2, 3, 4⟩ := by
  refine ⟨_, rfl, ((routing_cache_agrees demoClassHash 1 .none demoTransports demoQuery _ rfl ?_
    (by decide)).1 1 ⟨1, 2, 3, 4⟩).mpr ?_⟩
  · refine ⟨trivial, fun _ _ => ⟨fun h => ?_, fun _ _ => ⟨trivial, fun _ _ => trivial⟩⟩⟩
    exact absurd h (by decide)
  · rintro ⟨⟨-, -, -, hfull⟩, -⟩
    exact absurd hfull (by decide)

/-- After the termination message of gateway 5 its device is still in the answer. -/
theorem routing_cache_stale :
    ∃ s : State 8, Run.exec (step demoClassHash) (State.init 1 .none demoTransports)
        (demoQuery ++ [.receiveRemoteDiscoveryInfo (demoInfo true) ⟨.udp, 3⟩]) = some s ∧
      s.transports.NoneFailed ∧
      (generateDeviceIndices demoClassHash s 1 ⟨1, 2, 3, 4⟩).1
        ≠ expected demoClassHash s 1 ⟨1, 2, 3, 4⟩ := by
  refine ⟨_, rfl, by decide, by decide⟩

end RoutingCache

end P3com
