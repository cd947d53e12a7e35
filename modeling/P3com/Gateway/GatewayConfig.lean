/-
# The preferred transport

`source/p3com/gateway/gateway_config.cpp`, `parse`, and the constructor of `GatewayApp`.  The
configuration file names the transport "which should be used when possible" (`README.md`).  The
name is looked up in `TRANSPORT_TYPE_NAMES`, and its position there is cast to a `TransportType`.
But the names are counted from 0 and the enumerators from 1, so that

    PCIE  is read as  0, which is no enumerator,
    UDP   is read as  PCIE,
    TCP   is read as  UDP.

The constructor of `GatewayApp` then drops a preference whose bit is not set, and with it the 0.
What is left of the preference is that the transports are tried in the order of their numbers.
`preferred_transport_honoured_iff` says when this comes to the same.

The file is read by cpptoml: the model starts from the values of its keys.
-/
import P3com.Generic.Routes
import P3com.Generic.TransportForwarder

namespace P3com

/-! ## Reading the file -/

/-- The characters of a string as an id string, with `TruncateToCapacity`. -/
def IdString.truncate (s : String) : IdString :=
  ⟨(s.toUTF8.toList.take idStringCapacity), List.length_take_le _ _⟩

/-- A table of the array `forwarded-service`. -/
structure ForwardedService where
  serviceValue : String
  instanceValue : String
  eventValue : String
deriving DecidableEq

/-- The values that `parse` reads from the file. -/
structure TomlFile where
  preferredTransport : Option String
  forwardedServices : List ForwardedService
deriving DecidableEq

/-- `GatewayConfig_t`.  The preferred transport is the number of an enumerator, which need not
exist. -/
structure GatewayConfig where
  preferredTransport : Nat
  forwardedServices : CxxVector ServiceDescription TransportForwarder.maxForwardedServices
deriving DecidableEq

def GatewayConfig.default : GatewayConfig := ⟨TransportType.none.index, .empty⟩

/-- `TRANSPORT_TYPE_NAMES`, an array of `TRANSPORT_TYPE_COUNT` pointers.  The last one is null. -/
def transportTypeNames : List (Option String) := [some "PCIE", some "UDP", some "TCP", none]

/-- `TomlGatewayConfigParser::parse`: `none` when the file cannot be opened or is no TOML.  A name
other than the three is compared with the null pointer in the source, which crashes; here the
default is left. -/
def GatewayConfig.parse : Option TomlFile → GatewayConfig
  | none => .default
  | some file =>
    { preferredTransport :=
        match file.preferredTransport with
        | none => GatewayConfig.default.preferredTransport
        | some name => (transportTypeNames.findIdx? (· = some name)).getD
            GatewayConfig.default.preferredTransport
      forwardedServices := CxxVector.empty.pushAll <| file.forwardedServices.map fun service =>
        ⟨.truncate service.serviceValue, .truncate service.instanceValue,
          .truncate service.eventValue⟩ }

/-- The enumerator with a number. -/
def TransportType.ofIndex? : Nat → Option TransportType
  | 1 => some .pcie
  | 2 => some .udp
  | 3 => some .tcp
  | 4 => some .none
  | _ => Option.none

@[simp] theorem TransportType.ofIndex?_index (type : TransportType) :
    TransportType.ofIndex? type.index = some type := by
  cases type <;> rfl

/-- The name of a transport in the file (`p3com.toml`). -/
def TransportType.name : TransportType → String
  | .pcie => "PCIE"
  | .udp => "UDP"
  | .tcp => "TCP"
  | .none => "NONE"

namespace GatewayApp

/-- The end of the constructor: a preference whose bit is not set is dropped. -/
def verifyConfig (t : TransportInfo) (preferredTransport : Nat) : Nat :=
  if preferredTransport ≠ TransportType.none.index ∧ ¬ t.bitset.getLsbD preferredTransport then
    TransportType.none.index
  else preferredTransport

/-- `m_preferredType` of the discovery manager that `run` constructs. -/
def preferredType (build : TransportInfo.Build) (args : TransportInfo.CmdLineArgs)
    (file : Option TomlFile) : TransportType :=
  (TransportType.ofIndex? (verifyConfig (TransportInfo.enableTransports build args)
    (GatewayConfig.parse file).preferredTransport)).getD .none

variable {build : TransportInfo.Build} {args : TransportInfo.CmdLineArgs} {file : TomlFile}
  {type : TransportType}

/-! ## What becomes of the preference -/

/-- A name is read one too low. -/
theorem parse_name (h : file.preferredTransport = some type.name) (hne : type ≠ .none) :
    (GatewayConfig.parse (some file)).preferredTransport + 1 = type.index := by
  unfold GatewayConfig.parse
  simp only [h]
  cases type with
  | none => exact absurd rfl hne
  | _ => decide

/-- No transport has the number 0. -/
theorem getLsbD_zero_enableTransports (build : TransportInfo.Build)
    (args : TransportInfo.CmdLineArgs) :
    (TransportInfo.enableTransports build args).bitset.getLsbD 0 = false := by
  have hone : ∀ (t : TransportInfo) (type : TransportType), t.bitset.getLsbD 0 = false →
      (t.enable build type).bitset.getLsbD 0 = false := by
    intro t type h
    have hpos : type.index ≠ 0 := by cases type <;> decide
    rw [TransportInfo.bitset_enable, BitVec.getLsbD_or, h, BitVec.getLsbD_twoPow]
    simp [hpos]
  have hall : ∀ (types : List TransportType) (t : TransportInfo), t.bitset.getLsbD 0 = false →
      (types.foldl (TransportInfo.enable build) t).bitset.getLsbD 0 = false := by
    intro types
    induction types with
    | nil => exact fun _ h => h
    | cons type types ih => exact fun t h => ih _ (hone t type h)
  unfold TransportInfo.enableTransports
  split <;> exact hall _ _ rfl

/-- What is preferred in the end: the transport before the named one, if it was enabled. -/
theorem preferredType_eq (h : file.preferredTransport = some type.name) (hne : type ≠ .none) :
    (∃ before, before.index + 1 = type.index ∧
        (TransportInfo.enableTransports build args).bitset.getLsbD before.index = true ∧
        preferredType build args (some file) = before) ∨
      (preferredType build args (some file) = .none ∧
        ∀ before : TransportType, before.index + 1 = type.index →
          (TransportInfo.enableTransports build args).bitset.getLsbD before.index = false) := by
  have hparse := parse_name h hne
  unfold preferredType
  generalize (GatewayConfig.parse (some file)).preferredTransport = n at hparse
  have hn : n ≠ TransportType.none.index := by
    rintro rfl
    cases type <;> cases hparse
  cases hbit : (TransportInfo.enableTransports build args).bitset.getLsbD n with
  | false =>
    refine Or.inr ⟨?_, fun before hbefore => ?_⟩
    · simp [verifyConfig, hn, hbit]
    · obtain rfl : before.index = n := by omega
      exact hbit
  | true =>
    -- the number is that of a transport, since the bit 0 is never set
    obtain ⟨before, rfl⟩ : ∃ before : TransportType, before.index = n := by
      cases type with
      | pcie =>
        obtain rfl : n = 0 := by simpa [TransportType.index] using hparse
        rw [getLsbD_zero_enableTransports] at hbit
        cases hbit
      | udp => exact ⟨.pcie, Nat.succ_injective hparse.symm⟩
      | tcp => exact ⟨.udp, Nat.succ_injective hparse.symm⟩
      | none => exact absurd rfl hne
    refine Or.inl ⟨before, hparse, hbit, ?_⟩
    simp [verifyConfig, hbit]

/-! ## Every run -/

section Runs

open RoutingCache Routes

variable {maxPublishers : Nat} {getClassHash : ServiceDescription → ClassHash}
  {s s' : State maxPublishers} {l : Label} {t₀ : TransportInfo} {preferred : TransportType}

/-- What every run keeps: the preference, and that no bit is ever set again. -/
structure Kept (t₀ : TransportInfo) (preferred : TransportType) (s : State maxPublishers) :
    Prop where
  wellFormed : WellFormed s
  preferredType : s.discovery.preferredType = preferred
  bits : ∀ type : TransportType, s.transports.bitset.getLsbD type.index = true →
    t₀.bitset.getLsbD type.index = true

theorem Kept.step (hs : Kept t₀ preferred s)
    (h : RoutingCache.step getClassHash s l = some s') : Kept t₀ preferred s' := by
  obtain ⟨hpref, -, htransports⟩ := step_frame h
  refine ⟨hs.wellFormed.step h, hpref.trans hs.preferredType, fun type hbit => hs.bits type ?_⟩
  rcases htransports with heq | ⟨failed, heq⟩ | ⟨failed, heq⟩
  · rwa [heq] at hbit
  · rwa [heq, TransportInfo.bitset_setFailed] at hbit
  · obtain ⟨-, -, hcleared, hother⟩ := TransportInfo.disableFailed_cases heq
    by_cases hfailed : type = failed
    · rw [hfailed, hcleared] at hbit
      cases hbit
    · rwa [(hother type hfailed).2] at hbit

/-- Neither the transport before the named one is set on both sides, nor is any transport before it
usable. -/
structure Undisturbed (t : TransportInfo) (type : TransportType) (r : DeviceRecord) : Prop where
  shifted : ∀ before : TransportType, before.index + 1 = type.index →
    ¬ (r.info.gatewayBitset.getLsbD before.index = true ∧ t.bitset.getLsbD before.index = true)
  first : ∀ before : TransportType, before.index < type.index → ¬ Usable t r before

/-- Whether both sides have the transport that is preferred in the end. -/
theorem prefersBoth_iff {t : TransportInfo} {r : DeviceRecord}
    (h : file.preferredTransport = some type.name) (hne : type ≠ .none)
    (hbits : ∀ type : TransportType, t.bitset.getLsbD type.index = true →
      (TransportInfo.enableTransports build args).bitset.getLsbD type.index = true) :
    PrefersBoth t (preferredType build args (some file)) r ↔
      ∃ before : TransportType, before.index + 1 = type.index ∧
        r.info.gatewayBitset.getLsbD before.index = true ∧
        t.bitset.getLsbD before.index = true := by
  rcases preferredType_eq h hne with ⟨before, hbefore, -, heq⟩ | ⟨heq, hclear⟩
  · rw [heq]
    constructor
    · intro hp
      exact ⟨before, hbefore, hp.2⟩
    · rintro ⟨before', hbefore', hbit⟩
      obtain rfl : before' = before := TransportInfo.index_injective (by omega)
      refine ⟨?_, hbit⟩
      rintro rfl
      cases type <;> cases hbefore
  · rw [heq]
    refine iff_of_false (fun hp => hp.1 rfl) ?_
    rintro ⟨before, hbefore, -, hbit⟩
    have := hbits before hbit
    rw [hclear before hbefore] at this
    cases this

/-- **When the configured preference is honoured**, in every reachable state.  A record with a
matching subscriber and a stored device index of the named transport, which is good here and
enabled there, is addressed through that index if and only if neither the transport before the
named one is set on both sides nor any transport before it is usable. -/
theorem preferred_transport_honoured_iff (getClassHash : ServiceDescription → ClassHash)
    (gatewayHash : Hash) (build : TransportInfo.Build) (args : TransportInfo.CmdLineArgs)
    (file : TomlFile) (type : TransportType)
    (hname : file.preferredTransport = some type.name) (ls : List Label)
    (s : State maxPublishers)
    (hrun : Run.exec (RoutingCache.step getClassHash)
      (State.init gatewayHash (preferredType build args (some file))
        (TransportInfo.enableTransports build args)) ls = some s)
    (hgood : s.transports.isGood type = true) (serviceHash : ClassHash) :
    (s.compute getClassHash serviceHash).toList = s.discovery.records.toList.filterMap
        (routeOf getClassHash s.transports s.discovery.preferredType serviceHash) ∧
      ∀ r ∈ s.discovery.records.toList, Lists getClassHash serviceHash r →
        r.info.gatewayBitset.getLsbD type.index = true →
        ∀ i ∈ r.deviceIndices.toList, i.type = type →
          (routeOf getClassHash s.transports s.discovery.preferredType serviceHash r = some i ↔
            Undisturbed s.transports type r) := by
  have hne : type ≠ .none := by
    rintro rfl
    simp [TransportInfo.isGood, TransportInfo.slot] at hgood
  have hkept : Kept (TransportInfo.enableTransports build args)
      (preferredType build args (some file)) s := by
    exact Run.invariant (Kept _ _) (fun _ _ _ => Kept.step)
      ⟨wellFormed_init _ _ build args, rfl, fun _ hbit => hbit⟩ hrun
  refine ⟨toList_computeDeviceIndices _ _ _ _ _, fun r hr hl hbit i hi htype => ?_⟩
  have hone := hkept.wellFormed.nodup r hr
  have hprefers := prefersBoth_iff (r := r) hname hne hkept.bits
  have husable : Usable s.transports r type :=
    ⟨hkept.wellFormed.enabled type hgood, hgood, hbit⟩
  rw [hkept.preferredType]
  by_cases hp : PrefersBoth s.transports (preferredType build args (some file)) r
  · -- the transport before the named one is chosen
    obtain ⟨before, hbefore, hbits⟩ := hprefers.mp hp
    refine iff_of_false (fun hroute => ?_) fun hu => hu.shifted before hbefore hbits
    have hchosen := ((routeOf_eq_some_iff hl hone (findMatchingType_of_prefersBoth hp)
      hp.1).mp hroute).2
    rcases preferredType_eq hname hne with ⟨before', hbefore', -, heq⟩ | ⟨heq, -⟩
    · rw [← hchosen, htype] at heq
      rw [heq] at hbefore'
      omega
    · exact hp.1 heq
  · rcases findMatchingType_of_not_prefersBoth hkept.wellFormed.enabled hp with
      ⟨-, hun⟩ | ⟨first, hchoice, hu, hfirst⟩
    · exact absurd husable (hun type)
    · rw [routeOf_eq_some_iff hl hone hchoice hu.ne_none]
      constructor
      · rintro ⟨-, heq⟩
        obtain rfl : first = type := heq.symm.trans htype
        refine ⟨fun before hbefore hbits => hp (hprefers.mpr ⟨before, hbefore, hbits⟩), hfirst⟩
      · intro hund
        refine ⟨hi, htype.trans (TransportInfo.index_injective (Nat.le_antisymm ?_ ?_))⟩
        · exact Nat.le_of_not_lt fun hlt => hund.first first hlt hu
        · exact Nat.le_of_not_lt fun hlt => hfirst type hlt husable

end Runs

/-! ## The sample configuration -/

/-- `p3com.toml`. -/
def demoFile : TomlFile := ⟨some "UDP", [⟨"Radar", "FrontLeft", "Object"⟩]⟩

open RoutingCache Routes in
/-- Gateway 5 has UDP only. -/
theorem preferred_transport_honoured_demo :
    ∃ s : State 8, Run.exec (RoutingCache.step demoClassHash)
        (State.init 1 (preferredType demoBuild demoArgs (some demoFile))
          (TransportInfo.enableTransports demoBuild demoArgs))
        [.receiveRemoteDiscoveryInfo (RoutingCache.demoInfo false) ⟨.udp, 3⟩] = some s ∧
      routeOf demoClassHash s.transports s.discovery.preferredType ⟨1, 2, 3, 4⟩
        ⟨RoutingCache.demoInfo false, CxxVector.empty.pushAll [⟨.udp, 3⟩]⟩
          = some ⟨.udp, 3⟩ := by
  refine ⟨_, rfl, ((preferred_transport_honoured_iff demoClassHash 1 demoBuild demoArgs demoFile
    .udp rfl [.receiveRemoteDiscoveryInfo (RoutingCache.demoInfo false) ⟨.udp, 3⟩] _ rfl
    (by decide) ⟨1, 2, 3, 4⟩).2 _ (by decide) ⟨demoService, by decide, rfl⟩ (by decide) _
    (by decide) rfl).mpr ⟨fun before hbefore hbits => ?_, fun before hlt hu => ?_⟩⟩
  · cases before with
    | pcie => exact absurd hbits.1 (by decide)
    | _ => exact absurd hbefore (by decide)
  · cases before with
    | pcie => exact absurd hu.2.2 (by decide)
    | _ => exact absurd hlt (by decide)

open RoutingCache Routes in
/-- Gateway 5 has PCIe and UDP, and its messages have arrived over both.  UDP is configured, and its
samples go over PCIe. -/
theorem preferred_transport_shifted :
    ∃ s : State 8, Run.exec (RoutingCache.step demoClassHash)
        (State.init 1 (preferredType demoBuild demoArgs (some demoFile))
          (TransportInfo.enableTransports demoBuild demoArgs))
        (demoRun [⟨.udp, 3⟩, ⟨.pcie, 0⟩]) = some s ∧
      demoFile.preferredTransport = some TransportType.udp.name ∧
      s.transports.isGood .udp = true ∧
      demoRecord [⟨.udp, 3⟩, ⟨.pcie, 0⟩] ∈ s.discovery.records.toList ∧
      demoInfo.gatewayBitset.getLsbD TransportType.udp.index = true ∧
      (s.compute demoClassHash ⟨1, 2, 3, 4⟩).toList = [⟨.pcie, 0⟩] := by
  refine ⟨_, rfl, rfl, by decide, by decide, by decide, by decide⟩

end GatewayApp

end P3com
