/-
# Which gateways are served

`README.md`, Discovery system: a sample is forwarded "over the appropriate transport layer" to all
remote gateways with a matching subscriber.  What a gateway can be reached over is in its record:
the transports that it has enabled (`gatewayBitset`), and the device indices under which its
messages have arrived (`deviceIndices`), at most one for each transport.

`computeDeviceIndices` first chooses a transport from the two bitsets and looks for a device index
of that type afterwards.  There is no second choice.  So a record is served exactly when the choice
is one that works:

1. the preferred transport is chosen when both sides have its bit; then its index must be known if
   any usable index is, and the transport must not have failed in the meantime;
2. else the first good transport that the other side has is chosen; then its index must be known if
   any usable index is.

`subscribers_served_iff` says this for every reachable state.
-/
import P3com.Generic.RoutingCache

namespace P3com

namespace Routes

/-! ## What is asked -/

section

variable (getClassHash : ServiceDescription → ClassHash) (t : TransportInfo)
  (preferredType : TransportType) (serviceHash : ClassHash) (r : DeviceRecord)

/-- The record lists a subscriber with the hash. -/
def Lists : Prop := ∃ service ∈ r.info.userSubscribers.toList, getClassHash service = serviceHash

/-- The transport is enabled and good here, and enabled there. -/
def Usable (type : TransportType) : Prop :=
  t.bitset.getLsbD type.index = true ∧ t.isGood type = true ∧
    r.info.gatewayBitset.getLsbD type.index = true

/-- A device index of the type is stored. -/
def Stored (type : TransportType) : Prop := ∃ i ∈ r.deviceIndices.toList, i.type = type

/-- Some stored device index can be used. -/
def Reachable : Prop := ∃ i ∈ r.deviceIndices.toList, Usable t r i.type

/-- What a record should contribute to `computeDeviceIndices`. -/
structure Served : Prop where
  reached : Lists getClassHash serviceHash r → Reachable t r →
    ∃ i ∈ r.deviceIndices.toList, Usable t r i.type ∧
      routeOf getClassHash t preferredType serviceHash r = some i
  others : ¬ (Lists getClassHash serviceHash r ∧ Reachable t r) →
    routeOf getClassHash t preferredType serviceHash r = none

/-- Both sides have the bit of the preferred transport. -/
def PrefersBoth : Prop :=
  preferredType ≠ .none ∧ r.info.gatewayBitset.getLsbD preferredType.index = true ∧
    t.bitset.getLsbD preferredType.index = true

/-- The transport that the bitsets single out is one that works. -/
structure ChoiceWorks : Prop where
  preferred : PrefersBoth t preferredType r →
    (Stored r preferredType → t.isGood preferredType = true) ∧
      (Reachable t r → Stored r preferredType)
  first : ¬ PrefersBoth t preferredType r → Reachable t r → ∀ type, Usable t r type →
    (∀ type', type'.index < type.index → ¬ Usable t r type') → Stored r type

end

variable {getClassHash : ServiceDescription → ClassHash} {t : TransportInfo}
  {preferredType type : TransportType} {serviceHash : ClassHash} {r : DeviceRecord}
  {i : DeviceIndex}

theorem Usable.mem_types (h : Usable t r type) : type ∈ TransportInfo.types :=
  TransportInfo.mem_types_of_slot (of_decide_eq_true h.2.1)

theorem Usable.ne_none (h : Usable t r type) : type ≠ .none := by
  rintro rfl
  exact absurd h.mem_types (by decide)

/-! ## The choice -/

theorem findMatchingType_of_prefersBoth (h : PrefersBoth t preferredType r) :
    t.findMatchingType r.info.gatewayBitset preferredType = preferredType := if_pos h

/-- Without a preferred transport of both sides the first usable one is chosen. -/
theorem findMatchingType_of_not_prefersBoth (ht : t.Enabled)
    (h : ¬ PrefersBoth t preferredType r) :
    (t.findMatchingType r.info.gatewayBitset preferredType = .none ∧ ∀ type, ¬ Usable t r type) ∨
      ∃ type, t.findMatchingType r.info.gatewayBitset preferredType = type ∧ Usable t r type ∧
        ∀ type', type'.index < type.index → ¬ Usable t r type' := by
  have hfind : t.findMatchingType r.info.gatewayBitset preferredType
      = (TransportInfo.types.find? fun type =>
        t.isGood type && r.info.gatewayBitset.getLsbD type.index).getD .none := if_neg h
  have husable : ∀ type, Usable t r type ↔
      (t.isGood type && r.info.gatewayBitset.getLsbD type.index) = true := by
    intro type
    rw [Bool.and_eq_true]
    exact ⟨fun h => h.2, fun h => ⟨ht type h.1, h⟩⟩
  rw [hfind]
  generalize hp : (fun type => t.isGood type && r.info.gatewayBitset.getLsbD type.index) = p
  have husable' : ∀ type, Usable t r type ↔ p type = true := by
    intro type
    rw [← hp]
    exact husable type
  cases hres : TransportInfo.types.find? p with
  | none =>
    refine Or.inl ⟨rfl, fun type hu => ?_⟩
    exact List.find?_eq_none.mp hres type hu.mem_types ((husable' type).mp hu)
  | some type =>
    refine Or.inr ⟨type, rfl, (husable' type).mpr (List.find?_some hres), fun type' hlt hu => ?_⟩
    -- the types are searched in the order of their numbers
    have hp' := (husable' type').mp hu
    have hmem := hu.mem_types
    obtain ⟨-, as, bs, htypes, hnot⟩ := List.find?_eq_some_iff_append.mp hres
    have hsorted : (TransportInfo.types.map TransportType.index).Pairwise (· < ·) := by decide
    rw [htypes] at hmem hsorted
    rw [List.map_append, List.map_cons] at hsorted
    rcases List.mem_append.mp hmem with has | hbs
    · have := hnot type' has
      rw [hp'] at this
      cases this
    · rcases List.mem_cons.mp hbs with rfl | hbs
      · exact Nat.lt_irrefl _ hlt
      · have hgt := (List.pairwise_cons.mp (List.pairwise_append.mp hsorted).2.1).1 type'.index
          (List.mem_map_of_mem hbs)
        omega

/-! ## One record -/

theorem routeOf_of_not_lists (h : ¬ Lists getClassHash serviceHash r) :
    routeOf getClassHash t preferredType serviceHash r = none := by
  refine if_neg fun hany => h ?_
  simpa [Lists] using hany

/-- The route of a record with a matching subscriber is the stored index of the chosen type. -/
theorem routeOf_eq_some_iff (hl : Lists getClassHash serviceHash r)
    (hone : (r.deviceIndices.toList.map DeviceIndex.type).Nodup)
    (hchoice : t.findMatchingType r.info.gatewayBitset preferredType = type)
    (hne : type ≠ .none) :
    routeOf getClassHash t preferredType serviceHash r = some i ↔
      i ∈ r.deviceIndices.toList ∧ i.type = type := by
  have hany : (r.info.userSubscribers.toList.any fun service =>
      decide (getClassHash service = serviceHash)) = true := by
    simpa [Lists] using hl
  have hroute : routeOf getClassHash t preferredType serviceHash r
      = r.deviceIndices.toList.find? fun i => i.type = type := by
    unfold routeOf
    rw [if_pos hany, hchoice]
    cases type with
    | none => exact absurd rfl hne
    | _ => rfl
  rw [hroute]
  constructor
  · intro h
    exact ⟨List.mem_of_find?_eq_some h, by simpa using List.find?_some h⟩
  · rintro ⟨hmem, htype⟩
    cases hfind : r.deviceIndices.toList.find? fun i => i.type = type with
    | none => exact absurd htype (by simpa using List.find?_eq_none.mp hfind i hmem)
    | some j =>
      have hj : j.type = type := by simpa using List.find?_some hfind
      exact congrArg some (List.inj_on_of_nodup_map hone (List.mem_of_find?_eq_some hfind) hmem
        (hj.trans htype.symm))

theorem routeOf_eq_none_of_not_stored (hl : Lists getClassHash serviceHash r)
    (hone : (r.deviceIndices.toList.map DeviceIndex.type).Nodup)
    (hchoice : t.findMatchingType r.info.gatewayBitset preferredType = type)
    (hne : type ≠ .none) (hstored : ¬ Stored r type) :
    routeOf getClassHash t preferredType serviceHash r = none := by
  refine Option.eq_none_iff_forall_ne_some.mpr fun i hi => hstored ?_
  exact ⟨i, (routeOf_eq_some_iff hl hone hchoice hne).mp hi⟩

/-- The preferred transport is chosen. -/
theorem served_iff_of_prefersBoth (hl : Lists getClassHash serviceHash r)
    (hone : (r.deviceIndices.toList.map DeviceIndex.type).Nodup)
    (h : PrefersBoth t preferredType r) :
    Served getClassHash t preferredType serviceHash r ↔
      (Stored r preferredType → t.isGood preferredType = true) ∧
        (Reachable t r → Stored r preferredType) := by
  have hroute := fun i => routeOf_eq_some_iff (i := i) hl hone
    (findMatchingType_of_prefersBoth h) h.1
  constructor
  · intro hs
    refine ⟨fun ⟨i, hmem, htype⟩ => ?_, fun hr => ?_⟩
    · have hi := (hroute i).mpr ⟨hmem, htype⟩
      by_cases hr : Reachable t r
      · obtain ⟨j, -, hu, hj⟩ := hs.reached hl hr
        obtain rfl : i = j := Option.some.inj (hi.symm.trans hj)
        rw [← htype]
        exact hu.2.1
      · rw [hs.others fun h => hr h.2] at hi
        cases hi
    · obtain ⟨j, -, -, hj⟩ := hs.reached hl hr
      exact ⟨j, (hroute j).mp hj⟩
  · rintro ⟨hgood, hstored⟩
    refine ⟨fun _ hr => ?_, fun hno => ?_⟩
    · obtain ⟨i, hmem, htype⟩ := hstored hr
      refine ⟨i, hmem, ?_, (hroute i).mpr ⟨hmem, htype⟩⟩
      rw [htype]
      exact ⟨h.2.2, hgood ⟨i, hmem, htype⟩, h.2.1⟩
    · -- a stored index of the preferred type would make the record reachable
      refine routeOf_eq_none_of_not_stored hl hone (findMatchingType_of_prefersBoth h) h.1 ?_
      rintro ⟨i, hmem, htype⟩
      refine hno ⟨hl, i, hmem, ?_⟩
      rw [htype]
      exact ⟨h.2.2, hgood ⟨i, hmem, htype⟩, h.2.1⟩

/-- The first usable transport is chosen. -/
theorem served_iff_of_not_prefersBoth (ht : t.Enabled) (hl : Lists getClassHash serviceHash r)
    (hone : (r.deviceIndices.toList.map DeviceIndex.type).Nodup)
    (h : ¬ PrefersBoth t preferredType r) :
    Served getClassHash t preferredType serviceHash r ↔
      (Reachable t r → ∀ type, Usable t r type →
        (∀ type', type'.index < type.index → ¬ Usable t r type') → Stored r type) := by
  rcases findMatchingType_of_not_prefersBoth ht h with ⟨hnone, hun⟩ | ⟨type, hchoice, hu, hfirst⟩
  · -- nothing is usable, and nothing is asked
    have hroute : routeOf getClassHash t preferredType serviceHash r = none := by
      unfold routeOf
      rw [hnone]
      exact ite_self _
    refine iff_of_true ⟨fun _ ⟨i, _, hi⟩ => ?_, fun _ => hroute⟩ fun ⟨i, _, hi⟩ => ?_
    · exact absurd hi (hun i.type)
    · exact absurd hi (hun i.type)
  · have hroute := fun i => routeOf_eq_some_iff (i := i) hl hone hchoice hu.ne_none
    have hunique : ∀ type₂, Usable t r type₂ →
        (∀ type', type'.index < type₂.index → ¬ Usable t r type') → type₂ = type := by
      intro type₂ hu₂ hfirst₂
      refine TransportInfo.index_injective (Nat.le_antisymm ?_ ?_)
      · exact Nat.le_of_not_lt fun hlt => hfirst₂ type hlt hu
      · exact Nat.le_of_not_lt fun hlt => hfirst type₂ hlt hu₂
    constructor
    · intro hs hr type₂ hu₂ hfirst₂
      obtain ⟨j, -, -, hj⟩ := hs.reached hl hr
      rw [hunique type₂ hu₂ hfirst₂]
      exact ⟨j, (hroute j).mp hj⟩
    · intro hstored
      refine ⟨fun _ hr => ?_, fun hno => ?_⟩
      · obtain ⟨i, hmem, htype⟩ := hstored hr type hu hfirst
        exact ⟨i, hmem, htype ▸ hu, (hroute i).mpr ⟨hmem, htype⟩⟩
      · refine routeOf_eq_none_of_not_stored hl hone hchoice hu.ne_none ?_
        rintro ⟨i, hmem, htype⟩
        exact hno ⟨hl, i, hmem, htype ▸ hu⟩

/-- **One record is served exactly when the choice works.** -/
theorem served_iff (ht : t.Enabled)
    (hone : (r.deviceIndices.toList.map DeviceIndex.type).Nodup) :
    Served getClassHash t preferredType serviceHash r ↔
      (Lists getClassHash serviceHash r → ChoiceWorks t preferredType r) := by
  by_cases hl : Lists getClassHash serviceHash r
  · by_cases hp : PrefersBoth t preferredType r
    · rw [served_iff_of_prefersBoth hl hone hp]
      exact ⟨fun h _ => ⟨fun _ => h, fun hnp => absurd hp hnp⟩, fun h => (h hl).preferred hp⟩
    · rw [served_iff_of_not_prefersBoth ht hl hone hp]
      exact ⟨fun h _ => ⟨fun hp' => absurd hp' hp, fun _ => h⟩, fun h => (h hl).first hp⟩
  · refine iff_of_true ⟨fun hl' => absurd hl' hl, fun _ => ?_⟩ fun hl' => absurd hl' hl
    exact routeOf_of_not_lists hl

/-! ## Every reachable state -/

open RoutingCache in
/-- What the records and the transports keep in every run. -/
structure WellFormed {maxPublishers : Nat} (s : State maxPublishers) : Prop where
  enabled : s.transports.Enabled
  nodup : ∀ r ∈ s.discovery.records.toList, (r.deviceIndices.toList.map DeviceIndex.type).Nodup

open RoutingCache in
theorem wellFormed_init (gatewayHash : Hash) (preferredType : TransportType)
    (build : TransportInfo.Build) (args : TransportInfo.CmdLineArgs) {maxPublishers : Nat} :
    WellFormed (State.init gatewayHash preferredType
      (TransportInfo.enableTransports build args) : State maxPublishers) where
  enabled := TransportInfo.enabled_enableTransports build args
  nodup := fun _ hr => absurd hr List.not_mem_nil

open RoutingCache in
theorem WellFormed.step {maxPublishers : Nat} {s s' : State maxPublishers} {l : Label}
    (hs : WellFormed s) (h : step getClassHash s l = some s') : WellFormed s' := by
  obtain ⟨-, hrecords, htransports⟩ := step_frame h
  constructor
  · rcases htransports with heq | ⟨type, heq⟩ | ⟨type, heq⟩
    · rw [heq]
      exact hs.enabled
    · rw [heq]
      exact hs.enabled.setFailed type
    · exact hs.enabled.disableFailed heq
  · rcases hrecords with heq | ⟨info, deviceIndex, heq⟩
    · rw [heq]
      exact hs.nodup
    · rw [heq]
      exact Records.forall_deviceIndices_receive
        (P := fun v => (v.toList.map DeviceIndex.type).Nodup)
        (Records.nodup_types_storeDeviceIndex List.nodup_nil)
        (fun _ => Records.nodup_types_storeDeviceIndex) hs.nodup

open RoutingCache in
/-- **Which subscribers are served**, in every reachable state.  A record contributes what it
should to `computeDeviceIndices`, a usable device index if it has a matching subscriber and such an
index, and else nothing, if and only if the transport singled out by the bitsets works. -/
theorem subscribers_served_iff {maxPublishers : Nat}
    (getClassHash : ServiceDescription → ClassHash) (gatewayHash : Hash)
    (preferredType : TransportType) (build : TransportInfo.Build)
    (args : TransportInfo.CmdLineArgs) (ls : List Label) (s : State maxPublishers)
    (hrun : Run.exec (step getClassHash)
      (State.init gatewayHash preferredType (TransportInfo.enableTransports build args)) ls
        = some s) (serviceHash : ClassHash) :
    (s.compute getClassHash serviceHash).toList = s.discovery.records.toList.filterMap
        (routeOf getClassHash s.transports s.discovery.preferredType serviceHash) ∧
      ∀ r ∈ s.discovery.records.toList,
        Served getClassHash s.transports s.discovery.preferredType serviceHash r ↔
          (Lists getClassHash serviceHash r →
            ChoiceWorks s.transports s.discovery.preferredType r) := by
  have hwf : WellFormed s := by
    exact Run.invariant WellFormed (fun _ _ _ => WellFormed.step)
      (wellFormed_init gatewayHash preferredType build args) hrun
  refine ⟨toList_computeDeviceIndices _ _ _ _ _, fun r hr => ?_⟩
  exact served_iff hwf.enabled (hwf.nodup r hr)

/-! ## A run -/

/-- PCIe and UDP are compiled in, and both are enabled. -/
def demoBuild : TransportInfo.Build := ⟨true, true, false⟩

/-- No transport is named on the command line. -/
def demoArgs : TransportInfo.CmdLineArgs := ⟨fun _ => false, false⟩

/-- Gateway 5 has PCIe and UDP, and a subscriber. -/
def demoInfo : PubSubInfo := ⟨demoServices, 6, 5, 0, false⟩

/-- Its record, with the device indices under which its messages have arrived. -/
def demoRecord (deviceIndices : List DeviceIndex) : DeviceRecord :=
  ⟨demoInfo, CxxVector.empty.pushAll deviceIndices⟩

/-- A message of gateway 5 from each device index. -/
def demoRun (deviceIndices : List DeviceIndex) : List RoutingCache.Label :=
  deviceIndices.map fun i => .receiveRemoteDiscoveryInfo demoInfo i

open RoutingCache in
/-- Its messages have arrived over both transports. -/
theorem subscribers_served_demo :
    ∃ s : State 8, Run.exec (step demoClassHash)
        (State.init 1 .none (TransportInfo.enableTransports demoBuild demoArgs))
        (demoRun [⟨.udp, 3⟩, ⟨.pcie, 0⟩]) = some s ∧
      Served demoClassHash s.transports s.discovery.preferredType ⟨1, 2, 3, 4⟩
        (demoRecord [⟨.udp, 3⟩, ⟨.pcie, 0⟩]) := by
  refine ⟨_, rfl, ((subscribers_served_iff demoClassHash 1 .none demoBuild demoArgs
    (demoRun [⟨.udp, 3⟩, ⟨.pcie, 0⟩]) _ rfl ⟨1, 2, 3, 4⟩).2 _ (by decide)).mpr fun _ =>
      ⟨fun hp => ?_, fun _ _ type hu hfirst => ?_⟩⟩
  · exact absurd rfl hp.1
  · cases type with
    | pcie => exact ⟨⟨.pcie, 0⟩, by decide, rfl⟩
    | udp => exact absurd ⟨by decide, by decide, by decide⟩ (hfirst .pcie (by decide))
    | tcp => exact absurd hu.1 (by decide)
    | none => exact absurd hu.1 (by decide)

open RoutingCache in
/-- Its messages have arrived over UDP only.  PCIe is chosen, no device index of PCIe is stored, and
the subscriber gets nothing although UDP is good on both sides. -/
theorem subscriber_not_served :
    ∃ s : State 8, Run.exec (step demoClassHash)
        (State.init 1 .none (TransportInfo.enableTransports demoBuild demoArgs))
        (demoRun [⟨.udp, 3⟩]) = some s ∧
      demoRecord [⟨.udp, 3⟩] ∈ s.discovery.records.toList ∧
      Lists demoClassHash ⟨1, 2, 3, 4⟩ (demoRecord [⟨.udp, 3⟩]) ∧
      Reachable s.transports (demoRecord [⟨.udp, 3⟩]) ∧
      (s.compute demoClassHash ⟨1, 2, 3, 4⟩).toList = [] ∧
      ¬ Served demoClassHash s.transports s.discovery.preferredType ⟨1, 2, 3, 4⟩
        (demoRecord [⟨.udp, 3⟩]) := by
  have hlists : Lists demoClassHash ⟨1, 2, 3, 4⟩ (demoRecord [⟨.udp, 3⟩]) :=
    ⟨demoService, by decide, rfl⟩
  have hreach : Reachable (TransportInfo.enableTransports demoBuild demoArgs)
      (demoRecord [⟨.udp, 3⟩]) :=
    ⟨⟨.udp, 3⟩, by decide, by decide, by decide, by decide⟩
  have hroute : routeOf demoClassHash (TransportInfo.enableTransports demoBuild demoArgs) .none
      ⟨1, 2, 3, 4⟩ (demoRecord [⟨.udp, 3⟩]) = none := by decide
  refine ⟨_, rfl, by decide, hlists, hreach, by decide, fun h => ?_⟩
  obtain ⟨i, -, -, hi⟩ := h.reached hlists hreach
  cases hroute.symm.trans hi

end Routes

end P3com
