/-
# Forwarding between transports

`source/p3com/generic/discovery.cpp`, `generateDeviceIndicesForwarding`, over a set of gateways.  A
gateway that is configured to forward a service passes a message on to the subscribers that share
no transport with the gateway it came from (`README.md`, Forwarding mechanism).  The message
carries neither a hop count nor a list of the gateways it has visited.

That forwarding ends is a fact about the sets of transports.  Neighbours on the path of a message
share a transport, because `findMatchingType` found one, and gateways two hops apart share none,
because of the test at the gateway between them.  The four transports used by four successive hops
would be pairwise different, and there are only three (`four_le_card`).
-/
import P3com.Generic.RoutingCache
import Mathlib.Data.Finset.Card
import Mathlib.Data.Fin.VecNotation

namespace P3com

/-! ## The code -/

section Forwarding

variable (getClassHash : ServiceDescription → ClassHash) (t : TransportInfo)
  (preferredType : TransportType) (serviceHash : ClassHash)

/-- The first loop of `generateDeviceIndicesForwarding`: the bitset of the source device.  The last
record with the device index decides. -/
def fromDeviceBitset (records : Records) (fromDeviceIndex : DeviceIndex) : Bitset :=
  records.toList.foldl
    (fun bitset r =>
      if r.deviceIndices.containsElement fromDeviceIndex then r.info.gatewayBitset else bitset) 0

/-- The body of the second loop: as in `computeDeviceIndices`, but only for the devices that share
no transport with the source. -/
def forwardOf (bitset : Bitset) (r : DeviceRecord) : Option DeviceIndex :=
  if bitset &&& r.info.gatewayBitset = 0 then routeOf getClassHash t preferredType serviceHash r
  else none

/-- `generateDeviceIndicesForwarding`. -/
def generateDeviceIndicesForwarding (records : Records) (fromDeviceIndex : DeviceIndex) :
    DeviceIndexVector :=
  let bitset := fromDeviceBitset records fromDeviceIndex
  if bitset = 0 then .empty
  else
    CxxVector.empty.pushAll
      (records.toList.filterMap (forwardOf getClassHash t preferredType serviceHash bitset))

end Forwarding

namespace Forwarding

/-! ## Paths -/

/-- Gateways with fixed transports and with records of each other.  A gateway has at least one of
the three transports; its records reflect the transports of other gateways, and a device index
belongs to one record. -/
structure Topology (ι : Type) where
  gatewayHash : ι → Hash
  transports : ι → TransportInfo
  preferredType : ι → TransportType
  records : ι → Records
  /-- The hashes of the services that a gateway is configured to forward. -/
  forwarded : ι → List ClassHash
  distinct : Function.Injective gatewayHash
  good_iff : ∀ g, ∀ type ∈ TransportInfo.types, (transports g).isGood type = true ↔
    (transports g).bitset.getLsbD type.index = true
  nonempty : ∀ g, ∃ type ∈ TransportInfo.types, (transports g).bitset.getLsbD type.index = true
  reflects : ∀ g, ∀ r ∈ (records g).toList, ∃ h, h ≠ g ∧ r.info.gatewayHash = gatewayHash h ∧
    r.info.gatewayBitset = (transports h).bitset
  unique : ∀ g, ∀ r ∈ (records g).toList, ∀ r' ∈ (records g).toList,
    ∀ i ∈ r.deviceIndices.toList, i ∈ r'.deviceIndices.toList → r = r'

section Paths

variable {ι : Type} (getClassHash : ServiceDescription → ClassHash) (t : Topology ι)
  (serviceHash : ClassHash)

/-- At gateway `g`, the device index is that of gateway `h`. -/
def Topology.Leads (g : ι) (i : DeviceIndex) (h : ι) : Prop :=
  ∃ r ∈ (t.records g).toList, i ∈ r.deviceIndices.toList ∧ r.info.gatewayHash = t.gatewayHash h

/-- Gateway `g` sends the samples of its own publishers to gateway `h`. -/
def Direct (g h : ι) : Prop :=
  ∃ i ∈ (computeDeviceIndices getClassHash (t.transports g) (t.preferredType g) serviceHash
    (t.records g)).toList, t.Leads g i h

/-- Gateway `g` forwards to gateway `h` what it receives from gateway `p`. -/
def Forwards (p g h : ι) : Prop :=
  serviceHash ∈ t.forwarded g ∧ ∃ fromDeviceIndex, t.Leads g fromDeviceIndex p ∧
    ∃ i ∈ (generateDeviceIndicesForwarding getClassHash (t.transports g) (t.preferredType g)
      serviceHash (t.records g) fromDeviceIndex).toList, t.Leads g i h

/-- The message goes on from `g`, which has it from `p`. -/
def Continues : ι → ι → List ι → Prop
  | _, _, [] => True
  | p, g, h :: rest => Forwards getClassHash t serviceHash p g h ∧ Continues g h rest

/-- A path that a message takes from its origin. -/
def IsPath : List ι → Prop
  | [] => False
  | [_] => True
  | o :: g :: rest => Direct getClassHash t serviceHash o g ∧
      Continues getClassHash t serviceHash o g rest

end Paths

/-! ## Sets of transports -/

/-- Sets that meet from one to the next, and are disjoint two apart: four such meetings need four
elements. -/
theorem four_le_card {α : Type} [DecidableEq α] {U A B C D E : Finset α} (hA : A ⊆ U) (hC : C ⊆ U)
    (hE : E ⊆ U) (hAB : (A ∩ B).Nonempty) (hBC : (B ∩ C).Nonempty) (hCD : (C ∩ D).Nonempty)
    (hDE : (D ∩ E).Nonempty) (hAC : Disjoint A C) (hBD : Disjoint B D) (hCE : Disjoint C E) :
    4 ≤ U.card := by
  obtain ⟨a, ha⟩ := hAB
  obtain ⟨b, hb⟩ := hBC
  obtain ⟨c, hc⟩ := hCD
  obtain ⟨d, hd⟩ := hDE
  rw [Finset.mem_inter] at ha hb hc hd
  have hab : a ≠ b := fun h => Finset.disjoint_left.mp hAC ha.1 (h ▸ hb.2)
  have hac : a ≠ c := fun h => Finset.disjoint_left.mp hBD ha.2 (h ▸ hc.2)
  have had : a ≠ d := fun h => Finset.disjoint_left.mp hBD ha.2 (h ▸ hd.1)
  have hbc : b ≠ c := fun h => Finset.disjoint_left.mp hBD hb.1 (h ▸ hc.2)
  have hbd : b ≠ d := fun h => Finset.disjoint_left.mp hBD hb.1 (h ▸ hd.1)
  have hcd : c ≠ d := fun h => Finset.disjoint_left.mp hCE hc.1 (h ▸ hd.2)
  have hcard : ({a, b, c, d} : Finset α).card = 4 := by
    simp [hab, hac, had, hbc, hbd, hcd]
  rw [← hcard]
  refine Finset.card_le_card fun x hx => ?_
  simp only [Finset.mem_insert, Finset.mem_singleton] at hx
  rcases hx with rfl | rfl | rfl | rfl
  · exact hA ha.1
  · exact hC hb.2
  · exact hC hc.1
  · exact hE hd.2

/-- The transports whose bit is set. -/
def typesOf (bitset : Bitset) : Finset TransportType :=
  {type ∈ TransportInfo.types.toFinset | bitset.getLsbD type.index = true}

theorem mem_typesOf {bitset : Bitset} {type : TransportType} :
    type ∈ typesOf bitset ↔
      type ∈ TransportInfo.types ∧ bitset.getLsbD type.index = true := by
  simp [typesOf]

theorem disjoint_typesOf {b b' : Bitset} (h : b &&& b' = 0) :
    Disjoint (typesOf b) (typesOf b') := by
  refine Finset.disjoint_left.mpr fun type hb hb' => ?_
  have hbit : (b &&& b').getLsbD type.index = true := by
    rw [BitVec.getLsbD_and, (mem_typesOf.mp hb).2, (mem_typesOf.mp hb').2]
    rfl
  rw [h] at hbit
  simp at hbit

theorem mem_types {type : TransportType} (h : type ≠ .none) : type ∈ TransportInfo.types := by
  cases type with
  | none => exact absurd rfl h
  | _ => decide

/-- `findMatchingType` finds a transport of both sides, or none. -/
theorem findMatchingType_mem {t : TransportInfo} {remote : Bitset} {preferredType : TransportType}
    (hgood : ∀ type ∈ TransportInfo.types, t.isGood type = true ↔
      t.bitset.getLsbD type.index = true)
    (h : t.findMatchingType remote preferredType ≠ .none) :
    (typesOf t.bitset ∩ typesOf remote).Nonempty := by
  refine ⟨t.findMatchingType remote preferredType, ?_⟩
  rw [Finset.mem_inter, mem_typesOf, mem_typesOf]
  have htypes := mem_types h
  unfold TransportInfo.findMatchingType at h htypes ⊢
  split at h
  · rename_i hpref
    rw [if_pos hpref] at htypes ⊢
    exact ⟨⟨htypes, hpref.2.2⟩, htypes, hpref.2.1⟩
  · rename_i hpref
    rw [if_neg hpref] at htypes ⊢
    cases hfind : TransportInfo.types.find? fun type =>
        t.isGood type && remote.getLsbD type.index with
    | none => simp [hfind] at h
    | some type =>
      rw [hfind, Option.getD_some] at htypes
      have hbits := List.find?_some hfind
      rw [Bool.and_eq_true] at hbits
      rw [Option.getD_some]
      exact ⟨⟨htypes, (hgood type htypes).mp hbits.1⟩, htypes, hbits.2⟩

/-! ## One hop -/

section Hops

variable {ι : Type} {getClassHash : ServiceDescription → ClassHash} {t : Topology ι}
  {serviceHash : ClassHash} {o p g h : ι}

/-- The transports of a gateway. -/
def Topology.types (t : Topology ι) (g : ι) : Finset TransportType :=
  typesOf (t.transports g).bitset

theorem Topology.types_nonempty (t : Topology ι) (g : ι) : (t.types g).Nonempty := by
  obtain ⟨type, htype, hbit⟩ := t.nonempty g
  exact ⟨type, mem_typesOf.mpr ⟨htype, hbit⟩⟩

/-- A gateway shares no transport with a gateway from which it is disjoint, itself included. -/
theorem Topology.ne_of_disjoint (h : Disjoint (t.types p) (t.types g)) : p ≠ g := by
  rintro rfl
  obtain ⟨type, htype⟩ := t.types_nonempty p
  exact Finset.disjoint_left.mp h htype htype

/-- The record behind a device index is that of the gateway. -/
theorem Topology.Leads.record {i : DeviceIndex} (h : t.Leads g i p) {r : DeviceRecord}
    (hr : r ∈ (t.records g).toList) (hi : i ∈ r.deviceIndices.toList) :
    p ≠ g ∧ r.info.gatewayBitset = (t.transports p).bitset := by
  obtain ⟨r', hr', hi', hhash⟩ := h
  obtain rfl := t.unique g r hr r' hr' i hi hi'
  obtain ⟨q, hne, hq, hbitset⟩ := t.reflects g r hr
  obtain rfl : q = p := t.distinct (hq.symm.trans hhash)
  exact ⟨hne, hbitset⟩

/-- What a record contributes is one of its device indices, over a transport of both sides. -/
theorem routeOf_eq_some {ti : TransportInfo} {preferredType : TransportType} {r : DeviceRecord}
    {i : DeviceIndex} (h : routeOf getClassHash ti preferredType serviceHash r = some i) :
    i ∈ r.deviceIndices.toList ∧
      ti.findMatchingType r.info.gatewayBitset preferredType ≠ .none := by
  unfold routeOf at h
  split at h
  · split at h
    · cases h
    · rename_i hnone
      exact ⟨List.mem_of_find?_eq_some h, hnone⟩
  · cases h

/-- Two gateways on a hop are different and share a transport. -/
theorem shares_of_route {r : DeviceRecord} {i : DeviceIndex} (hr : r ∈ (t.records g).toList)
    (hroute : routeOf getClassHash (t.transports g) (t.preferredType g) serviceHash r = some i)
    (hlead : t.Leads g i h) : h ≠ g ∧ (t.types g ∩ t.types h).Nonempty := by
  obtain ⟨hi, hmatch⟩ := routeOf_eq_some hroute
  obtain ⟨hne, hbitset⟩ := hlead.record hr hi
  rw [hbitset] at hmatch
  exact ⟨hne, findMatchingType_mem (t.good_iff g) hmatch⟩

theorem Direct.shares (hd : Direct getClassHash t serviceHash g h) :
    h ≠ g ∧ (t.types g ∩ t.types h).Nonempty := by
  obtain ⟨i, hi, hlead⟩ := hd
  rw [toList_computeDeviceIndices] at hi
  obtain ⟨r, hr, hroute⟩ := List.mem_filterMap.mp hi
  exact shares_of_route hr hroute hlead

/-- The bitset that the first loop finds is that of a record with the device index. -/
theorem fromDeviceBitset_eq {i : DeviceIndex} (hlead : t.Leads g i p) :
    fromDeviceBitset (t.records g) i = (t.transports p).bitset := by
  have hfold : ∀ (rs : List DeviceRecord) (b : Bitset), (∀ r ∈ rs, r ∈ (t.records g).toList) →
      (b = (t.transports p).bitset ∨ ∃ r ∈ rs, i ∈ r.deviceIndices.toList) →
      rs.foldl (fun bitset r => if r.deviceIndices.containsElement i then r.info.gatewayBitset
        else bitset) b = (t.transports p).bitset := by
    intro rs
    induction rs with
    | nil =>
      rintro b - (hb | ⟨r, hr, -⟩)
      · exact hb
      · cases hr
    | cons r rs ih =>
      intro b hsub hor
      rw [List.foldl_cons]
      refine ih _ (fun r' hr' => hsub r' (List.mem_cons_of_mem _ hr')) ?_
      by_cases hi : i ∈ r.deviceIndices.toList
      · left
        rw [if_pos (by simpa [CxxVector.containsElement] using hi)]
        exact (hlead.record (hsub r List.mem_cons_self) hi).2
      · rw [if_neg (by simpa [CxxVector.containsElement] using hi)]
        rcases hor with hb | ⟨r', hr', hi'⟩
        · exact Or.inl hb
        · rcases List.mem_cons.mp hr' with rfl | hr'
          · exact absurd hi' hi
          · exact Or.inr ⟨r', hr', hi'⟩
  obtain ⟨r, hr, hi, -⟩ := hlead
  exact hfold _ _ (fun _ h => h) (Or.inr ⟨r, hr, hi⟩)

/-- **A forwarded message goes to a gateway that shares a transport with the forwarder and none
with the gateway before it.** -/
theorem Forwards.shares (hf : Forwards getClassHash t serviceHash p g h) :
    h ≠ g ∧ (t.types g ∩ t.types h).Nonempty ∧ Disjoint (t.types p) (t.types h) := by
  obtain ⟨-, fromDeviceIndex, hfrom, i, hi, hlead⟩ := hf
  simp only [generateDeviceIndicesForwarding, fromDeviceBitset_eq hfrom] at hi
  split at hi
  · cases hi
  · rw [CxxVector.toList_pushAll (by
        simpa [CxxVector.size] using
          Nat.le_trans (List.length_filterMap_le _ _) (t.records g).size_le)] at hi
    obtain ⟨r, hr, hforward⟩ := List.mem_filterMap.mp (by simpa using hi)
    unfold forwardOf at hforward
    split at hforward
    · rename_i hdisjoint
      obtain ⟨hne, hshare⟩ := shares_of_route hr hforward hlead
      have hbitset := (hlead.record hr (routeOf_eq_some hforward).1).2
      rw [hbitset] at hdisjoint
      exact ⟨hne, hshare, disjoint_typesOf hdisjoint⟩
    · cases hforward

/-! ## Whole paths -/

/-- A message is forwarded at most twice. -/
theorem Continues.length_le {rest : List ι} (hd : Direct getClassHash t serviceHash o g)
    (hc : Continues getClassHash t serviceHash o g rest) : rest.length ≤ 2 := by
  match rest, hc with
  | [], _ => exact Nat.zero_le _
  | [_], _ => exact Nat.le_succ _
  | [_, _], _ => exact Nat.le_refl _
  | a :: b :: c :: rest, ⟨hf₁, hf₂, hf₃, _⟩ =>
    have hsub : ∀ g, t.types g ⊆ TransportInfo.types.toFinset := fun g => Finset.filter_subset _ _
    have hfour : 4 ≤ TransportInfo.types.toFinset.card :=
      four_le_card (hsub o) (hsub a) (hsub c) hd.shares.2 hf₁.shares.2.1 hf₂.shares.2.1
        hf₃.shares.2.1 hf₁.shares.2.2 hf₂.shares.2.2 hf₃.shares.2.2
    exact absurd hfour (by decide)

/-- The gateways of a path are different. -/
theorem IsPath.nodup {path : List ι} (hp : IsPath getClassHash t serviceHash path) :
    path.Nodup := by
  match path, hp with
  | [_], _ => exact List.nodup_singleton _
  | [o, g], ⟨hd, _⟩ => simpa using hd.shares.1.symm
  | [o, g, a], ⟨hd, hf, _⟩ =>
    have hog := hd.shares.1.symm
    have hga := hf.shares.1.symm
    have hoa := Topology.ne_of_disjoint hf.shares.2.2
    simp [hog, hga, hoa]
  | [o, g, a, b], ⟨hd, hf₁, hf₂, _⟩ =>
    have hog := hd.shares.1.symm
    have hga := hf₁.shares.1.symm
    have hab := hf₂.shares.1.symm
    have hoa := Topology.ne_of_disjoint hf₁.shares.2.2
    have hgb := Topology.ne_of_disjoint hf₂.shares.2.2
    -- the origin shares a transport with the second gateway, the fourth gateway does not
    have hob : o ≠ b := by
      rintro rfl
      obtain ⟨type, htype⟩ := hd.shares.2
      rw [Finset.mem_inter] at htype
      exact Finset.disjoint_left.mp hf₂.shares.2.2 htype.2 htype.1
    simp [hog, hga, hab, hoa, hgb, hob]
  | o :: g :: a :: b :: c :: rest, ⟨hd, hc⟩ =>
    have hlen := hc.length_le hd
    simp only [List.length_cons] at hlen
    omega

theorem IsPath.length_le {path : List ι} (hp : IsPath getClassHash t serviceHash path) :
    path.length ≤ 4 := by
  match path, hp with
  | [_], _ => simp
  | o :: g :: rest, ⟨hd, hc⟩ =>
    have hlen := hc.length_le hd
    simp only [List.length_cons]
    omega

/-- **Forwarding cannot loop.**  No gateway occurs twice on the path of a message, and the path has
at most three hops.  A gateway to which a message is forwarded, by a gateway that has it from the
origin, is not among the gateways to which the origin sends it. -/
theorem forwarding_cannot_loop (getClassHash : ServiceDescription → ClassHash) (t : Topology ι)
    (serviceHash : ClassHash) :
    (∀ path, IsPath getClassHash t serviceHash path → path.Nodup ∧ path.length ≤ 3 + 1) ∧
    ∀ o g h, Direct getClassHash t serviceHash o g → Forwards getClassHash t serviceHash o g h →
      ¬ Direct getClassHash t serviceHash o h := by
  refine ⟨fun path hp => ⟨hp.nodup, hp.length_le⟩, fun o g h _ hf hd => ?_⟩
  obtain ⟨type, htype⟩ := hd.shares.2
  rw [Finset.mem_inter] at htype
  exact Finset.disjoint_left.mp hf.shares.2.2 htype.1 htype.2

end Hops

/-! ## A path of three hops -/

/-- A record of a gateway that subscribes to the service. -/
def demoRecord (gatewayHash : Hash) (bitset : Bitset) (index : DeviceIndex) : DeviceRecord :=
  ⟨⟨CxxVector.empty.pushAll [demoService], bitset, gatewayHash, 0, false⟩,
    CxxVector.empty.pushAll [index]⟩

/-- Four gateways in a row: PCIe, PCIe and UDP, UDP and TCP, TCP.  The two in the middle forward. -/
def demoTopology : Topology (Fin 4) where
  gatewayHash := ![1, 2, 3, 4]
  transports := ![⟨some .good, none, none, 2⟩, ⟨some .good, some .good, none, 6⟩,
    ⟨none, some .good, some .good, 12⟩, ⟨none, none, some .good, 8⟩]
  preferredType := fun _ => .none
  records := ![CxxVector.empty.pushAll [demoRecord 2 6 ⟨.pcie, 0⟩],
    CxxVector.empty.pushAll [demoRecord 1 2 ⟨.pcie, 0⟩, demoRecord 3 12 ⟨.udp, 0⟩],
    CxxVector.empty.pushAll [demoRecord 2 6 ⟨.udp, 0⟩, demoRecord 4 8 ⟨.tcp, 0⟩],
    CxxVector.empty.pushAll [demoRecord 3 12 ⟨.tcp, 0⟩]]
  forwarded := ![[], [demoClassHash demoService], [demoClassHash demoService], []]
  distinct := by
    unfold Function.Injective
    decide
  good_iff := by decide
  nonempty := by decide
  reflects := by decide +kernel
  unique := by decide +kernel

theorem demoTopology_path :
    IsPath demoClassHash demoTopology (demoClassHash demoService) [0, 1, 2, 3] := by
  refine ⟨⟨⟨.pcie, 0⟩, by decide +kernel, _, List.mem_cons_self, by decide +kernel, rfl⟩,
    ⟨by decide, ⟨.pcie, 0⟩, ⟨_, List.mem_cons_self, by decide +kernel, rfl⟩, ⟨.udp, 0⟩,
      by decide +kernel, _, List.mem_cons_of_mem _ List.mem_cons_self, by decide +kernel, rfl⟩,
    ⟨by decide, ⟨.udp, 0⟩, ⟨_, List.mem_cons_self, by decide +kernel, rfl⟩, ⟨.tcp, 0⟩,
      by decide +kernel, _, List.mem_cons_of_mem _ List.mem_cons_self, by decide +kernel, rfl⟩,
    trivial⟩

/-- A message of the first gateway reaches the last one. -/
theorem forwarding_cannot_loop_demo :
    IsPath demoClassHash demoTopology (demoClassHash demoService) [0, 1, 2, 3] ∧
      [(0 : Fin 4), 1, 2, 3].Nodup :=
  ⟨demoTopology_path,
    ((forwarding_cannot_loop demoClassHash demoTopology (demoClassHash demoService)).1 _
      demoTopology_path).1⟩

end Forwarding

end P3com
