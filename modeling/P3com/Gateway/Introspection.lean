/-
# The gateway introspection

`waitsetLoop` of `source/p3com/generic/discovery.cpp` reads a sample of the port introspection of
iceoryx and then publishes the uids of the user publishers in it.  A user who finds the uid of his
publisher there (`hasGwRegistered`, `waitForGwRegistration`) takes it that his samples are
forwarded.

The uids and the channels come from the same sample, but by two routes.  The uids are those of the
first `MAX_TOPICS` user publishers.  The channels are the first `MAX_TOPICS` different services out
of those of the local subscribers, the local publishers and the remote subscribers, in this order.
So a publisher can be registered and have no channel, when the local subscribers and publishers
have more than `MAX_TOPICS` services between them (`registered_publishers_forwarded`).

The second part is about a sample that cannot be taken.  The error is logged, and the new local
state stays empty; then the handler goes on as if there were no ports (`failed_read_harmless_iff`).
-/
import P3com.Gateway.Channels

namespace P3com

/-! ## Local services -/

namespace LocalState

/-- The services of the local subscribers and publishers, with repetitions. -/
def services (l : LocalState) : List ServiceDescription :=
  l.userSubscribers.toList ++ l.userPublishers.toList

/-- They are at most `MAX_TOPICS`. -/
def Fits (l : LocalState) : Prop := l.services.toFinset.card ≤ maxTopics

instance (l : LocalState) : Decidable l.Fits := inferInstanceAs (Decidable (_ ≤ _))

/-- The ports and the publishers are pushed together. -/
theorem ofSample_some (sample : PortIntrospection) :
    (ofSample (some sample)).userPublishers.toList
        = ((sample.publisherList.filter PortData.isUser).take maxTopics).map PortData.service ∧
      (ofSample (some sample)).userPublisherPorts.toList
        = ((sample.publisherList.filter PortData.isUser).take maxTopics).map PortData.portID := by
  unfold ofSample
  dsimp only
  rw [CxxVector.toList_pushAll_take, CxxVector.toList_pushAll_take, List.map_take, List.map_take]
  exact ⟨rfl, rfl⟩

theorem length_ports (sample : Option PortIntrospection) :
    (ofSample sample).userPublisherPorts.toList.length
      = (ofSample sample).userPublishers.toList.length := by
  cases sample with
  | none => rfl
  | some sample =>
    rw [(ofSample_some sample).1, (ofSample_some sample).2, List.length_map, List.length_map]

end LocalState

namespace Discovery

variable {d : Discovery}

/-- The local services come first, and are all needed if they fit. -/
theorem mem_updateNeededChannels_of_fits (h : d.localState.Fits) {x : ServiceDescription}
    (hx : x ∈ d.localState.services) : x ∈ d.updateNeededChannels.toList := by
  rw [updateNeededChannels_eq, neededServices, List.foldl_append]
  refine CxxVector.mem_foldl_pushNew_of_mem ?_ _
  exact (CxxVector.mem_foldl_pushNew_empty h x).mpr hx

/-- If the local services do not fit, the service of some publisher is left out. -/
theorem exists_not_needed (h : ¬ d.localState.Fits) :
    ∃ x ∈ d.localState.userPublishers.toList, x ∉ d.updateNeededChannels.toList := by
  by_contra hall
  push Not at hall
  have hsubs : ∀ x ∈ d.localState.userSubscribers.toList,
      x ∈ d.updateNeededChannels.toList := by
    intro x hx
    have hfit : d.localState.userSubscribers.toList.toFinset.card ≤ maxTopics :=
      Nat.le_trans (List.toFinset_card_le _) d.localState.userSubscribers.size_le
    rw [updateNeededChannels_eq, neededServices, List.append_assoc, List.foldl_append]
    refine CxxVector.mem_foldl_pushNew_of_mem ?_ _
    exact (CxxVector.mem_foldl_pushNew_empty hfit x).mpr hx
  refine h (Nat.le_trans (Finset.card_le_card fun x hx => ?_)
    (Nat.le_trans (List.toFinset_card_le d.updateNeededChannels.toList)
      d.updateNeededChannels.size_le))
  rw [List.mem_toFinset] at hx ⊢
  rcases List.mem_append.mp hx with hx | hx
  · exact hsubs x hx
  · exact hall x hx

end Discovery

/-! ## The machine -/

namespace Introspection

/-- `GwRegisteredData`. -/
structure GwRegisteredData where
  publisherUids : CxxVector UInt64 maxTopics
  subscriberServices : ServiceVector
deriving DecidableEq

/-- What `waitsetLoop` published, the sample that it had read, and the gateway at that moment. -/
structure Publication where
  data : GwRegisteredData
  sample : Option PortIntrospection
  gateway : Channels.State
deriving DecidableEq

/-- The gateway, and what has been published, the last one first. -/
structure State where
  gateway : Channels.State
  published : List Publication
deriving DecidableEq

def State.init (gatewayHash : Hash) (preferredType : TransportType) : State :=
  ⟨Channels.State.init gatewayHash preferredType, []⟩

inductive Label
  | initializeDiscovery
  | receiveRemoteDiscoveryInfo (info : PubSubInfo) (deviceIndex : DeviceIndex)
  /-- A round of `waitsetLoop`; `loaned` is the answer of `loan`. -/
  | notification (sample : Option PortIntrospection) (bitset : Bitset) (infoHash : Hash)
    (loaned : Bool)
deriving DecidableEq

/-- The data that `waitsetLoop` publishes. -/
def registeredData (d : Discovery) : GwRegisteredData where
  publisherUids := d.localState.userPublisherPorts
  subscriberServices := CxxVector.empty.pushUnique d.localState.userSubscribers

section

variable (getClassHash : ServiceDescription → ClassHash)

/-- One handler.  The thread of `waitsetLoop` is started by `initialize`. -/
def step (s : State) : Label → Option State
  | .initializeDiscovery =>
    (Channels.step getClassHash s.gateway .initializeDiscovery).map fun g =>
      { s with gateway := g }
  | .receiveRemoteDiscoveryInfo info deviceIndex =>
    (Channels.step getClassHash s.gateway (.receiveRemoteDiscoveryInfo info deviceIndex)).map
      fun g => { s with gateway := g }
  | .notification sample bitset infoHash loaned =>
    if s.gateway.discovery.updateCallback then
      (Channels.step getClassHash s.gateway (.readPortSubscriber sample bitset infoHash)).map
        fun g =>
          { gateway := g
            published := if loaned then ⟨registeredData g.discovery, sample, g⟩ :: s.published
              else s.published }
    else none

/-- The services that the step passes to `updateChannels`, if it does. -/
def passes (s : State) : Label → Option ServiceVector
  | .initializeDiscovery => none
  | .receiveRemoteDiscoveryInfo info deviceIndex =>
    (s.gateway.discovery.receiveInfo info deviceIndex).2
  | .notification sample _ _ _ => (s.gateway.discovery.readPorts sample).2

/-- No two services that have a channel or are to get one share a class hash. -/
def HashesApart (s : State) (l : Label) : Prop :=
  ∀ needed ∈ passes s l,
    Endpoints.HashesDistinct getClassHash (s.gateway.iox2tr.services ++ needed.toList)

instance : DecidablePred fun l => HashesApart getClassHash s l := fun l =>
  inferInstanceAs (Decidable (∀ needed ∈ passes s l, _))

end

/-- The messages are no termination messages, and the ports of a sample have different ids. -/
def Sequential : Label → Prop
  | .initializeDiscovery => True
  | .receiveRemoteDiscoveryInfo info _ => info.isTermination = false
  | .notification sample _ _ _ => ∀ sm ∈ sample, (sm.publisherList.map PortData.portID).Nodup

/-- The local services of a sample are at most `MAX_TOPICS`. -/
def LocalFits : Label → Prop
  | .initializeDiscovery => True
  | .receiveRemoteDiscoveryInfo _ _ => True
  | .notification sample _ _ _ => (LocalState.ofSample sample).Fits

instance : DecidablePred Sequential := fun l =>
  match l with
  | .initializeDiscovery => isTrue trivial
  | .receiveRemoteDiscoveryInfo _ _ => inferInstanceAs (Decidable (_ = _))
  | .notification _ _ _ _ => inferInstanceAs (Decidable (∀ sm ∈ _, _))

instance : DecidablePred LocalFits := fun l =>
  match l with
  | .initializeDiscovery => isTrue trivial
  | .receiveRemoteDiscoveryInfo _ _ => isTrue trivial
  | .notification sample _ _ _ => inferInstanceAs (Decidable (LocalState.ofSample sample).Fits)

/-- Every user publisher of the sample whose uid was published had an endpoint for its service, and
was known to `generateDeviceIndices`. -/
def Publication.Forwarded (pub : Publication) : Prop :=
  ∀ sm ∈ pub.sample, ∀ p ∈ sm.publisherList, p.isUser = true →
    p.portID ∈ pub.data.publisherUids.toList →
    p.service ∈ pub.gateway.iox2tr.services ∧
      p.portID ∈ pub.gateway.discovery.localState.userPublisherPorts.toList

instance : DecidablePred Publication.Forwarded := fun pub =>
  inferInstanceAs (Decidable (∀ sm ∈ pub.sample, ∀ p ∈ sm.publisherList, _ → _ → _ ∧ _))

/-! ## What a step does -/

variable {getClassHash : ServiceDescription → ClassHash} {s s' : State} {l : Label}
  {sample : Option PortIntrospection} {bitset : Bitset} {infoHash : Hash} {loaned : Bool}

/-- The callback gives `Iceoryx2Transport` an endpoint for every service that it passes. -/
theorem iox2tr_updateCallback {g : Channels.State} {needed : ServiceVector}
    (hk : Endpoints.Keyed getClassHash g.iox2tr) (hcb : g.discovery.updateCallback = true)
    (hn : needed.toList.Nodup)
    (hd : Endpoints.HashesDistinct getClassHash (g.iox2tr.services ++ needed.toList)) :
    Endpoints.Keyed getClassHash (g.updateCallback getClassHash needed).iox2tr ∧
      ∀ x, x ∈ (g.updateCallback getClassHash needed).iox2tr.services ↔ x ∈ needed.toList := by
  unfold Channels.State.updateCallback
  rw [if_pos hcb]
  exact Endpoints.services_updateChannels hk _ hn hd

/-- What holds between two steps of a run in which the local services fit. -/
structure Inv (getClassHash : ServiceDescription → ClassHash) (g : Channels.State) : Prop where
  keyed : Endpoints.Keyed getClassHash g.iox2tr
  fits : g.discovery.localState.Fits
  /-- Before `initialize` no sample has been read. -/
  idle : g.discovery.updateCallback = false → g.discovery.localState.services = []
  /-- Afterwards every local service has an endpoint. -/
  covered : g.discovery.updateCallback = true → ∀ x ∈ g.discovery.localState.services,
    x ∈ g.iox2tr.services

theorem inv_init (gatewayHash : Hash) (preferredType : TransportType) :
    Inv getClassHash (Channels.State.init gatewayHash preferredType) where
  keyed := Endpoints.keyed_empty
  fits := Nat.zero_le _
  idle := fun _ => rfl
  covered := fun _ _ hx => absurd hx List.not_mem_nil

/-- A round of `waitsetLoop`: the sample is the new local state.  Either it has the same services as
the old one, or the needed services, and no others, have an endpoint. -/
theorem step_notification (hs : Inv getClassHash s.gateway)
    (hd : HashesApart getClassHash s (.notification sample bitset infoHash loaned))
    (h : step getClassHash s (.notification sample bitset infoHash loaned) = some s') :
    s.gateway.discovery.updateCallback = true ∧
      s'.gateway.discovery.updateCallback = true ∧
      s'.gateway.discovery.localState = LocalState.ofSample sample ∧
      Endpoints.Keyed getClassHash s'.gateway.iox2tr ∧
      s'.published = (if loaned then ⟨registeredData s'.gateway.discovery, sample, s'.gateway⟩ ::
        s.published else s.published) ∧
      (((∀ x, x ∈ (LocalState.ofSample sample).services ↔
            x ∈ s.gateway.discovery.localState.services) ∧
          ∀ x, x ∈ s'.gateway.iox2tr.services ↔ x ∈ s.gateway.iox2tr.services) ∨
        ∃ d : Discovery, d.localState = LocalState.ofSample sample ∧
          ∀ x, x ∈ s'.gateway.iox2tr.services ↔ x ∈ d.updateNeededChannels.toList) := by
  simp only [step] at h
  split at h
  · rename_i hcb
    obtain ⟨g, hg, rfl⟩ := Option.map_eq_some_iff.mp h
    obtain ⟨d, rfl, ⟨hu, rfl⟩ | ⟨hu, rfl⟩⟩ := Channels.step_readPortSubscriber hg
    · refine ⟨hcb, hcb, rfl, hs.keyed, rfl, Or.inl ⟨fun x => ?_, fun x => Iff.rfl⟩⟩
      obtain ⟨hp, hsub⟩ := LocalState.mem_iff_of_unchanged hu x
      simp only [LocalState.services, List.mem_append]
      exact or_congr hsub hp
    · have hpass : passes s (.notification sample bitset infoHash loaned)
          = some (Discovery.updateNeededChannels
            { s.gateway.discovery with localState := LocalState.ofSample sample }) := by
        simp only [passes, Discovery.readPorts]
        rw [if_neg (by simpa using hu)]
      generalize hd' : ({ s.gateway.discovery with localState := LocalState.ofSample sample } :
        Discovery) = d at *
      have hlocal : d.localState = LocalState.ofSample sample := by rw [← hd']
      have hdcb : d.updateCallback = true := by
        rw [← hd']
        exact hcb
      obtain ⟨hk, hmem⟩ := iox2tr_updateCallback
        (g := ({ s.gateway with discovery := d } : Channels.State)) hs.keyed hdcb
        d.nodup_updateNeededChannels (hd _ hpass)
      obtain ⟨hl, -, hcb'⟩ := Discovery.sendIfChanged_frame d bitset infoHash
      exact ⟨hcb, hcb'.trans hdcb, hl.trans hlocal, hk, rfl, Or.inr ⟨d, hlocal, hmem⟩⟩
  · cases h

/-- **One step** of a run in which the local services fit. -/
theorem inv_step (hs : Inv getClassHash s.gateway) (hseq : Sequential l)
    (hd : HashesApart getClassHash s l) (hf : LocalFits l)
    (h : step getClassHash s l = some s') : Inv getClassHash s'.gateway := by
  cases l with
  | initializeDiscovery =>
    obtain ⟨g, hg, rfl⟩ := Option.map_eq_some_iff.mp h
    obtain ⟨hcb, rfl⟩ := Channels.step_initializeDiscovery hg
    refine ⟨hs.keyed, hs.fits, fun hcb' => Bool.noConfusion hcb', fun _ x hx => ?_⟩
    have hnil : x ∈ s.gateway.discovery.localState.services := hx
    rw [hs.idle hcb] at hnil
    cases hnil
  | receiveRemoteDiscoveryInfo info deviceIndex =>
    obtain ⟨g, hg, rfl⟩ := Option.map_eq_some_iff.mp h
    obtain ⟨d, hl, hr, hcb, ⟨ht, -⟩ | ⟨ht, rfl⟩⟩ := Channels.step_receiveRemoteDiscoveryInfo hg
    · rw [show info.isTermination = false from hseq] at ht
      cases ht
    · have hneeded : d.updateNeededChannels.toList.Nodup := d.nodup_updateNeededChannels
      have hfits : d.localState.Fits := by
        rw [hl]
        exact hs.fits
      cases hc : d.updateCallback with
      | false =>
        -- nothing is called before `initialize`
        have heq : ({ s.gateway with discovery := d } : Channels.State).updateCallback getClassHash
            d.updateNeededChannels = { s.gateway with discovery := d } := by
          unfold Channels.State.updateCallback
          rw [if_neg (by simp [hc])]
        rw [heq]
        refine ⟨hs.keyed, hfits, fun _ => ?_, fun hc' => ?_⟩
        · rw [hl]
          exact hs.idle (hcb.symm.trans hc)
        · exact absurd (hc.symm.trans hc') Bool.false_ne_true
      | true =>
        have hpass : passes s (.receiveRemoteDiscoveryInfo info deviceIndex)
            = some d.updateNeededChannels := by
          simp only [passes, Discovery.receiveInfo, ht, Bool.false_eq_true, if_false]
          have hsame : Discovery.neededServices
              { s.gateway.discovery with
                records := s.gateway.discovery.records.receive info deviceIndex
                deviceIndicesCache := s.gateway.discovery.deviceIndicesCache.clear }
              = d.neededServices := Discovery.neededServices_congr hl.symm hr.symm
          rw [Discovery.updateNeededChannels_eq, Discovery.updateNeededChannels_eq, hsame]
        obtain ⟨hk, hmem⟩ := iox2tr_updateCallback
          (g := ({ s.gateway with discovery := d } : Channels.State)) hs.keyed hc hneeded
          (hd _ hpass)
        refine ⟨hk, by simpa using hfits, fun hc' => ?_, fun _ x hx => (hmem x).mpr ?_⟩
        · simp [hc] at hc'
        · exact Discovery.mem_updateNeededChannels_of_fits hfits (by simpa using hx)
  | notification sample bitset infoHash loaned =>
    obtain ⟨hcb₀, hcb, hl, hk, -, hcases⟩ := step_notification hs hd h
    refine ⟨hk, by rw [hl]; exact hf, fun hcb' => ?_, fun _ x hx => ?_⟩
    · rw [hcb] at hcb'
      cases hcb'
    · rw [hl] at hx
      rcases hcases with ⟨hsame, hkept⟩ | ⟨d, hd', hmem⟩
      · exact (hkept x).mpr (hs.covered hcb₀ x ((hsame x).mp hx))
      · rw [hmem]
        exact Discovery.mem_updateNeededChannels_of_fits (by rw [hd']; exact hf) (hd' ▸ hx)

/-! ## Every run -/

/-- A round that publishes, from a state in which the local services fit: every registered
publisher is forwarded if and only if those of the new sample fit. -/
theorem forwarded_iff (hs : Inv getClassHash s.gateway)
    (hseq : Sequential (.notification sample bitset infoHash true))
    (hd : HashesApart getClassHash s (.notification sample bitset infoHash true))
    (h : step getClassHash s (.notification sample bitset infoHash true) = some s') :
    ∃ pub, s'.published = pub :: s.published ∧
      (pub.Forwarded ↔ LocalFits (.notification sample bitset infoHash true)) := by
  obtain ⟨hcb₀, -, hl, -, hpub, hcases⟩ := step_notification hs hd h
  refine ⟨_, hpub, fun hfwd => ?_, fun hf sm hsm p hp huser hport => ?_⟩
  · by_contra hnot
    change ¬ (LocalState.ofSample sample).Fits at hnot
    rcases hcases with ⟨hsame, -⟩ | ⟨d, hd', hmem⟩
    · -- the old services fitted
      apply hnot
      have heq : (LocalState.ofSample sample).services.toFinset
          = s.gateway.discovery.localState.services.toFinset := by
        ext x
        rw [List.mem_toFinset, List.mem_toFinset, hsame]
      unfold LocalState.Fits
      rw [heq]
      exact hs.fits
    · obtain ⟨x, hx, hxn⟩ := Discovery.exists_not_needed (d := d) (by rwa [hd'])
      rw [hd'] at hx
      cases sample with
      | none => cases hx
      | some sm =>
        rw [(LocalState.ofSample_some sm).1] at hx
        obtain ⟨p, hp, rfl⟩ := List.mem_map.mp hx
        have hport : p.portID ∈ (registeredData s'.gateway.discovery).publisherUids.toList := by
          change p.portID ∈ s'.gateway.discovery.localState.userPublisherPorts.toList
          rw [hl, (LocalState.ofSample_some sm).2]
          exact List.mem_map_of_mem hp
        obtain ⟨hin, huser⟩ := List.mem_filter.mp (List.mem_of_mem_take hp)
        exact hxn ((hmem _).mp (hfwd sm rfl p hin huser hport).1)
  · refine ⟨?_, hport⟩
    obtain rfl := Option.mem_def.mp hsm
    have hport' : p.portID ∈ (LocalState.ofSample (some sm)).userPublisherPorts.toList := by
      rw [← hl]
      exact hport
    rw [(LocalState.ofSample_some sm).2] at hport'
    obtain ⟨q, hq, hpq⟩ := List.mem_map.mp hport'
    -- the uid is that of one publisher of the sample only
    obtain rfl : q = p := by
      refine List.inj_on_of_nodup_map (hseq sm rfl) ?_ hp hpq
      exact (List.mem_filter.mp (List.mem_of_mem_take hq)).1
    refine (inv_step hs hseq hd hf h).covered (step_notification hs hd h).2.1 _ ?_
    rw [hl, LocalState.services, List.mem_append, (LocalState.ofSample_some sm).1]
    exact Or.inr (List.mem_map_of_mem hq)

/-- A step publishes nothing, or the data of a round. -/
theorem published_step (h : step getClassHash s l = some s') :
    s'.published = s.published ∨
      ∃ sample bitset infoHash, l = .notification sample bitset infoHash true := by
  cases l with
  | initializeDiscovery =>
    obtain ⟨g, -, rfl⟩ := Option.map_eq_some_iff.mp h
    exact Or.inl rfl
  | receiveRemoteDiscoveryInfo info deviceIndex =>
    obtain ⟨g, -, rfl⟩ := Option.map_eq_some_iff.mp h
    exact Or.inl rfl
  | notification sample bitset infoHash loaned =>
    cases loaned with
    | true => exact Or.inr ⟨sample, bitset, infoHash, rfl⟩
    | false =>
      simp only [step] at h
      split at h
      · obtain ⟨g, -, rfl⟩ := Option.map_eq_some_iff.mp h
        exact Or.inl rfl
      · cases h

/-- **A registered publisher is forwarded**, in every run in which the services of the local
subscribers and publishers are at most `MAX_TOPICS` in each sample.  The condition is exact: in any
other sample some publisher is registered and has no channel. -/
theorem registered_publishers_forwarded (gatewayHash : Hash) (preferredType : TransportType)
    {ls : List Label} (hseq : ∀ l ∈ ls, Sequential l)
    (hd : Run.Guarded (step getClassHash) (HashesApart getClassHash)
      (State.init gatewayHash preferredType) ls)
    (hf : ∀ l ∈ ls, LocalFits l)
    (h : Run.exec (step getClassHash) (State.init gatewayHash preferredType) ls = some s) :
    (∀ pub ∈ s.published, pub.Forwarded) ∧
      ∀ sample bitset infoHash s', Sequential (.notification sample bitset infoHash true) →
        HashesApart getClassHash s (.notification sample bitset infoHash true) →
        step getClassHash s (.notification sample bitset infoHash true) = some s' →
        ∃ pub, s'.published = pub :: s.published ∧
          (pub.Forwarded ↔ LocalFits (.notification sample bitset infoHash true)) := by
  have hinv : Inv getClassHash s.gateway ∧ ∀ pub ∈ s.published, pub.Forwarded := by
    refine Run.invariant_guarded
      (fun s : State => Inv getClassHash s.gateway ∧ ∀ pub ∈ s.published, pub.Forwarded) ?_
      ⟨inv_init gatewayHash preferredType, fun pub hpub => absurd hpub List.not_mem_nil⟩
      ((hd.and (Run.guarded_of_forall hseq _)).and (Run.guarded_of_forall hf _)) h
    rintro s l s' ⟨hs, hpubs⟩ ⟨⟨hd, hseq⟩, hf⟩ hstep
    refine ⟨inv_step hs hseq hd hf hstep, ?_⟩
    rcases published_step hstep with heq | ⟨sample, bitset, infoHash, rfl⟩
    · rw [heq]
      exact hpubs
    · obtain ⟨pub, heq, hiff⟩ := forwarded_iff hs hseq hd hstep
      rw [heq]
      intro pub' hpub'
      rcases List.mem_cons.mp hpub' with rfl | hpub'
      · exact hiff.mpr hf
      · exact hpubs pub' hpub'
  exact ⟨hinv.2, fun sample bitset infoHash s' hseq hd hstep =>
    forwarded_iff hinv.1 hseq hd hstep⟩

/-! ## Thirty-three services -/

/-- The hash of a service whose id is one byte. -/
def demoByteHash (service : ServiceDescription) : ClassHash :=
  ⟨(service.serviceID.bytes.headD 0).toUInt32, 0, 0, 0⟩

/-- The `n`-th service. -/
def demoServiceOf (n : Nat) : ServiceDescription :=
  { demoService with serviceID := ⟨[UInt8.ofNat n], Nat.succ_le_of_lt (Nat.zero_lt_succ 99)⟩ }

/-- Subscribers of `n` services, and a publisher of one more. -/
def demoSample (n : Nat) : PortIntrospection :=
  ⟨[⟨demoNode, demoServiceOf 0, 7⟩],
    (List.range n).map fun i => ⟨demoNode, demoServiceOf (i + 1), UInt64.ofNat (i + 8)⟩⟩

def demoRun (n : Nat) : List Label :=
  [.initializeDiscovery, .notification (some (demoSample n)) 4 0 true]

/-- With one subscriber the publisher has its channel. -/
theorem registered_publishers_forwarded_demo :
    ∃ s, Run.exec (step demoByteHash) (State.init 1 .none) (demoRun 1) = some s ∧
      s.published.length = 1 ∧ ∀ pub ∈ s.published, pub.Forwarded := by
  have hseq : ∀ l ∈ demoRun 1, Sequential l := by decide
  have hd : Run.Guarded (step demoByteHash) (HashesApart demoByteHash) (State.init 1 .none)
      (demoRun 1) := by decide
  exact ⟨_, rfl, by decide,
    (registered_publishers_forwarded 1 .none hseq hd (by decide) rfl).1⟩

/-- With subscribers of `MAX_TOPICS` other services the publisher is registered, and has none. -/
theorem registered_publisher_without_channel :
    ∃ s, Run.exec (step demoByteHash) (State.init 1 .none) (demoRun maxTopics) = some s ∧
      (∀ l ∈ demoRun maxTopics, Sequential l) ∧
      s.published.map (fun pub => pub.data.publisherUids.toList) = [[7]] ∧
      demoServiceOf 0 ∉ s.gateway.iox2tr.services ∧
      ¬ ∀ pub ∈ s.published, pub.Forwarded := by
  have hrun : (Run.exec (step demoByteHash) (State.init 1 .none) (demoRun maxTopics)).map
      (fun s => (s.published.map (fun pub => pub.data.publisherUids.toList),
        decide (demoServiceOf 0 ∈ s.gateway.iox2tr.services),
        decide (∀ pub ∈ s.published, pub.Forwarded))) = some ([[7]], false, false) := by
    decide +kernel
  obtain ⟨s, hs, hfacts⟩ := Option.map_eq_some_iff.mp hrun
  rw [Prod.mk.injEq, Prod.mk.injEq] at hfacts
  exact ⟨s, hs, by decide +kernel, hfacts.1, of_decide_eq_false hfacts.2.1,
    of_decide_eq_false hfacts.2.2⟩

/-! ## A sample that cannot be taken -/

section FailedRead

variable {g g' : Channels.State} {gl : Channels.Label}

/-- The discovery info that `readPortSubscriber` sends, if it does. -/
def sentInfo (d : Discovery) (sample : Option PortIntrospection) (bitset : Bitset)
    (infoHash : Hash) : Option PubSubInfo :=
  match d.readPorts sample with
  | (_, none) => none
  | (d, some _) => (d.sendIfChanged bitset infoHash).2

/-- The local state, the channels and what was sent last are as before, and nothing was sent. -/
structure Unaffected (g g' : Channels.State) (sent : Option PubSubInfo) : Prop where
  localState : g'.discovery.localState = g.discovery.localState
  needed : g'.discovery.updateNeededChannels = g.discovery.updateNeededChannels
  tr2iox : g'.tr2iox = g.tr2iox
  iox2tr : g'.iox2tr = g.iox2tr
  lastSent : g'.discovery.lastSentDiscoveryInfo = g.discovery.lastSentDiscoveryInfo
  sent : sent = none

/-- No port is known. -/
def NoPorts (l : LocalState) : Prop :=
  l.userPublishers.toList = [] ∧ l.userSubscribers.toList = []

instance (l : LocalState) : Decidable (NoPorts l) := inferInstanceAs (Decidable (_ ∧ _))

/-- The local state is always that of some sample. -/
theorem localState_step {sample : Option PortIntrospection}
    (hs : g.discovery.localState = LocalState.ofSample sample)
    (h : Channels.step getClassHash g gl = some g') :
    ∃ sample, g'.discovery.localState = LocalState.ofSample sample := by
  cases gl with
  | initializeDiscovery =>
    obtain ⟨-, rfl⟩ := Channels.step_initializeDiscovery h
    exact ⟨sample, hs⟩
  | readPortSubscriber sample' bitset infoHash =>
    obtain ⟨d, rfl, ⟨-, rfl⟩ | ⟨-, rfl⟩⟩ := Channels.step_readPortSubscriber h
    · exact ⟨sample', rfl⟩
    · exact ⟨sample', (Discovery.sendIfChanged_frame _ bitset infoHash).1⟩
  | receiveRemoteDiscoveryInfo info deviceIndex =>
    obtain ⟨d, hl, -, -, ⟨-, rfl⟩ | ⟨-, rfl⟩⟩ := Channels.step_receiveRemoteDiscoveryInfo h
    · exact ⟨sample, hl.trans hs⟩
    · refine ⟨sample, ?_⟩
      rw [Channels.discovery_updateCallback]
      exact hl.trans hs

/-- Without ports the local state is empty, the ids of the publishers included. -/
theorem eq_empty_of_noPorts {sample : Option PortIntrospection}
    (h : NoPorts (LocalState.ofSample sample)) : LocalState.ofSample sample = .empty := by
  have hports : (LocalState.ofSample sample).userPublisherPorts.toList = [] := by
    have := LocalState.length_ports sample
    rw [h.1, List.length_nil] at this
    exact List.eq_nil_of_length_eq_zero this
  generalize LocalState.ofSample sample = l at *
  obtain ⟨publishers, subscribers, ports⟩ := l
  simp only [LocalState.empty, LocalState.mk.injEq, CxxVector.ext_iff, CxxVector.toList_empty]
  exact ⟨h.1, h.2, hports⟩

/-- **When a failed read is harmless**, in every reachable state: exactly when no port is known. -/
theorem failed_read_harmless_iff (gatewayHash : Hash) (preferredType : TransportType)
    {gls : List Channels.Label}
    (h : Run.exec (Channels.step getClassHash) (Channels.State.init gatewayHash preferredType) gls
      = some g) (bitset : Bitset) (infoHash : Hash) :
    ∃ g', Channels.step getClassHash g (.readPortSubscriber none bitset infoHash) = some g' ∧
      (Unaffected g g' (sentInfo g.discovery none bitset infoHash) ↔
        NoPorts g.discovery.localState) := by
  obtain ⟨sample, hsample⟩ : ∃ sample, g.discovery.localState = LocalState.ofSample sample := by
    refine Run.invariant (fun g => ∃ sample, g.discovery.localState = LocalState.ofSample sample)
      ?_ ⟨none, rfl⟩ h
    rintro g l g' ⟨sample, hs⟩ hstep
    exact localState_step hs hstep
  by_cases hno : NoPorts g.discovery.localState
  · -- the empty state is read once more, and nothing has changed
    have hempty : g.discovery.localState = .empty := by
      rw [hsample] at hno ⊢
      exact eq_empty_of_noPorts hno
    have hread : g.discovery.readPorts none = (g.discovery, none) := by
      have hsame : ({ g.discovery with localState := LocalState.empty } : Discovery)
          = g.discovery := by
        rw [← hempty]
      simp only [Discovery.readPorts, LocalState.ofSample, hempty]
      rw [hsame]
      rfl
    refine ⟨g, ?_, iff_of_true ⟨rfl, rfl, rfl, rfl, rfl, ?_⟩ hno⟩
    · simp only [Channels.step, hread]
    · simp only [sentInfo, hread]
  · obtain ⟨g', hg'⟩ : ∃ g', Channels.step getClassHash g
        (.readPortSubscriber none bitset infoHash) = some g' := by
      simp only [Channels.step]
      split <;> exact ⟨_, rfl⟩
    refine ⟨g', hg', iff_of_false (fun hun => hno ?_) hno⟩
    have hlocal : g'.discovery.localState = .empty := by
      obtain ⟨d, rfl, ⟨-, rfl⟩ | ⟨-, rfl⟩⟩ := Channels.step_readPortSubscriber hg'
      · rfl
      · exact (Discovery.sendIfChanged_frame _ bitset infoHash).1
    rw [← hun.localState, hlocal]
    exact ⟨rfl, rfl⟩

/-- A gateway that knows of no port. -/
theorem failed_read_harmless_demo :
    ∃ g, Run.exec (Channels.step demoByteHash) (Channels.State.init 1 .none)
        [.initializeDiscovery] = some g ∧
      ∃ g', Channels.step demoByteHash g (.readPortSubscriber none 4 0) = some g' ∧
        Unaffected g g' (sentInfo g.discovery none 4 0) := by
  have hrun : Run.exec (Channels.step demoByteHash) (Channels.State.init 1 .none)
      [.initializeDiscovery] = some _ := rfl
  obtain ⟨g', hg', hiff⟩ := failed_read_harmless_iff 1 .none hrun 4 0
  exact ⟨_, rfl, g', hg', hiff.mpr (by decide)⟩

/-- A gateway that knows of one subscriber.  After the failed read it has forgotten it, deleted both
channels, and told everyone. -/
theorem failed_read_forgets :
    ∃ g g', Run.exec (Channels.step demoByteHash) (Channels.State.init 1 .none)
        [.initializeDiscovery,
          .readPortSubscriber (some ⟨[], [⟨demoNode, demoService, 1⟩]⟩) 4 0] = some g ∧
      Channels.step demoByteHash g (.readPortSubscriber none 4 0) = some g' ∧
      g.discovery.localState.userSubscribers = demoServices ∧
      g.iox2tr.services = [demoService] ∧
      g'.discovery.localState = .empty ∧ g'.iox2tr.services = [] ∧ g'.tr2iox.services = [] ∧
      sentInfo g.discovery none 4 0 = some ⟨.empty, 4, 1, 0, false⟩ ∧
      ¬ Unaffected g g' (sentInfo g.discovery none 4 0) := by
  refine ⟨_, _, rfl, rfl, by decide, by decide, by decide, by decide, by decide, by decide,
    fun h => ?_⟩
  exact absurd h.sent (by decide)

end FailedRead

end Introspection

end P3com
