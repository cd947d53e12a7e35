/-
# Channels follow discovery

`GatewayApp::run` passes `DiscoveryManager::initialize` a callback that hands the needed services
to `updateChannels` of both gateways (`source/p3com/gateway/gateway_app.cpp`).  This module runs
the handlers of the discovery manager one after the other, together with the two endpoint tables,
and asks whether the services with an endpoint are always the needed ones.

Every exit of `readPortSubscriber` keeps them equal, and so does an ordinary discovery message.
Two exits do not: a termination message erases a record and returns before the callback, and
`initialize` sets the callback without calling it, although messages may have been received
before.  `channels_follow_discovery` says that these are the only two.
-/
import P3com.Gateway.Gateway
import P3com.Generic.Discovery
import P3com.Lib.Run

namespace P3com

/-! ## The needed services -/

namespace Discovery

/-- The services that need a channel, with repetitions: those of the local subscribers and
publishers, and those of the remote subscribers. -/
def neededServices (d : Discovery) : List ServiceDescription :=
  d.localState.userSubscribers.toList ++ d.localState.userPublishers.toList ++
    d.records.toList.flatMap fun record => record.info.userSubscribers.toList

/-- The needed services are at most `MAX_TOPICS`. -/
def Fits (d : Discovery) : Prop := d.neededServices.toFinset.card ≤ maxTopics

instance (d : Discovery) : Decidable d.Fits := inferInstanceAs (Decidable (_ ≤ _))

theorem updateNeededChannels_eq (d : Discovery) :
    d.updateNeededChannels = d.neededServices.foldl CxxVector.pushNew .empty := by
  unfold neededServices
  rw [List.foldl_append, List.foldl_append, List.foldl_flatMap]
  rfl

theorem nodup_updateNeededChannels (d : Discovery) : d.updateNeededChannels.toList.Nodup := by
  rw [updateNeededChannels_eq]
  exact CxxVector.nodup_foldl_pushNew List.nodup_nil _

/-- `updateNeededChannels` lists the needed services, each once, if they fit. -/
theorem updateNeededChannels_spec {d : Discovery} (h : d.Fits) :
    d.updateNeededChannels.toList.Nodup ∧
      ∀ x, x ∈ d.updateNeededChannels.toList ↔ x ∈ d.neededServices := by
  refine ⟨d.nodup_updateNeededChannels, fun x => ?_⟩
  rw [updateNeededChannels_eq]
  exact CxxVector.mem_foldl_pushNew_empty h x

/-- The needed services depend on the local state and on the records only. -/
theorem neededServices_congr {d d' : Discovery} (hl : d'.localState = d.localState)
    (hr : d'.records = d.records) : d'.neededServices = d.neededServices := by
  unfold neededServices
  rw [hl, hr]

/-- Sending changes `m_lastSentDiscoveryInfo` only. -/
theorem sendIfChanged_frame (d : Discovery) (bitset : Bitset) (infoHash : Hash) :
    (d.sendIfChanged bitset infoHash).1.localState = d.localState ∧
      (d.sendIfChanged bitset infoHash).1.records = d.records ∧
      (d.sendIfChanged bitset infoHash).1.updateCallback = d.updateCallback := by
  unfold sendIfChanged
  dsimp only
  split
  · exact ⟨rfl, rfl, rfl⟩
  · exact ⟨rfl, rfl, rfl⟩

theorem neededServices_sendIfChanged (d : Discovery) (bitset : Bitset) (infoHash : Hash) :
    (d.sendIfChanged bitset infoHash).1.neededServices = d.neededServices := by
  obtain ⟨hl, hr, _⟩ := sendIfChanged_frame d bitset infoHash
  exact neededServices_congr hl hr

theorem mem_neededServices_of_unchanged {d : Discovery} {new : LocalState}
    (h : d.localState.unchanged new = true) (x : ServiceDescription) :
    x ∈ ({ d with localState := new } : Discovery).neededServices ↔ x ∈ d.neededServices := by
  obtain ⟨hp, hs⟩ := LocalState.mem_iff_of_unchanged h x
  simp only [neededServices, List.mem_append, hp, hs]

end Discovery

/-! ## The machine -/

namespace Channels

/-- The discovery manager and the endpoints of `Transport2Iceoryx` and `Iceoryx2Transport`. -/
structure State where
  discovery : Discovery
  tr2iox : Endpoints
  iox2tr : Endpoints
  nextEndpoint : Nat
deriving DecidableEq

/-- A handler that runs from its start to its end.  `bitset` and `infoHash` are what
`TransportInfo::bitset` and `generateHash` return in it. -/
inductive Label
  | initializeDiscovery
  | readPortSubscriber (sample : Option PortIntrospection) (bitset : Bitset) (infoHash : Hash)
  | receiveRemoteDiscoveryInfo (info : PubSubInfo) (deviceIndex : DeviceIndex)
deriving DecidableEq

/-- The gateway after its construction. -/
def State.init (gatewayHash : Hash) (preferredType : TransportType) : State :=
  ⟨Discovery.construct gatewayHash preferredType, .empty, .empty, 0⟩

section

variable (getClassHash : ServiceDescription → ClassHash)

/-- `updateChannels` of `Transport2Iceoryx`. -/
def State.updateTr2iox (s : State) (needed : ServiceVector) : State :=
  let (m, next) := s.tr2iox.updateChannels getClassHash s.nextEndpoint needed
  { s with tr2iox := m, nextEndpoint := next }

/-- `updateChannels` of `Iceoryx2Transport`. -/
def State.updateIox2tr (s : State) (needed : ServiceVector) : State :=
  let (m, next) := s.iox2tr.updateChannels getClassHash s.nextEndpoint needed
  { s with iox2tr := m, nextEndpoint := next }

/-- `m_updateCallback`, if it has been set. -/
def State.updateCallback (s : State) (needed : ServiceVector) : State :=
  if s.discovery.updateCallback then
    (s.updateTr2iox getClassHash needed).updateIox2tr getClassHash needed
  else s

/-- One handler.  `initialize` starts the waitset thread and can be called once only. -/
def step (s : State) : Label → Option State
  | .initializeDiscovery =>
    if s.discovery.updateCallback then none
    else some { s with discovery := { s.discovery with updateCallback := true } }
  | .readPortSubscriber sample bitset infoHash =>
    match s.discovery.readPorts sample with
    | (d, none) => some { s with discovery := d }
    | (d, some needed) =>
      let s := { s with discovery := d }.updateCallback getClassHash needed
      some { s with discovery := (s.discovery.sendIfChanged bitset infoHash).1 }
  | .receiveRemoteDiscoveryInfo info deviceIndex =>
    match s.discovery.receiveInfo info deviceIndex with
    | (d, none) => some { s with discovery := d }
    | (d, some needed) => some ({ s with discovery := d }.updateCallback getClassHash needed)

/-- The services with an endpoint are those of the list, in both gateways. -/
def State.Has (s : State) (services : List ServiceDescription) : Prop :=
  ∀ x, (x ∈ s.tr2iox.services ↔ x ∈ services) ∧ (x ∈ s.iox2tr.services ↔ x ∈ services)

/-- The needed services are at most `MAX_TOPICS` after the step, and those needed before and after
it have distinct class hashes. -/
def Proviso (s : State) (l : Label) : Prop :=
  ∀ s' ∈ step getClassHash s l, s'.discovery.Fits ∧
    Endpoints.HashesDistinct getClassHash
      (s.discovery.neededServices ++ s'.discovery.neededServices)

instance : DecidablePred fun l => Proviso getClassHash s l := fun l =>
  inferInstanceAs (Decidable (∀ s' ∈ step getClassHash s l, _ ∧ _))

end

/-- The step is not one that forgets the channels: nothing is needed yet when `initialize` is
called, and whatever the record erased by a termination message needs is also needed without
it. -/
def KeepsChannels (s : State) : Label → Prop
  | .initializeDiscovery => s.discovery.neededServices = []
  | .readPortSubscriber _ _ _ => True
  | .receiveRemoteDiscoveryInfo info _ =>
    info.isTermination = true → s.discovery.updateCallback = true →
      ∀ i ∈ s.discovery.records.findHash info.gatewayHash,
        ∀ x ∈ s.discovery.neededServices,
          x ∈ ({ s.discovery with records := s.discovery.records.erase i } :
            Discovery).neededServices

instance : DecidablePred (KeepsChannels s) := fun l =>
  match l with
  | .initializeDiscovery => inferInstanceAs (Decidable (_ = _))
  | .readPortSubscriber _ _ _ => isTrue trivial
  | .receiveRemoteDiscoveryInfo _ _ => inferInstanceAs (Decidable (_ → _ → ∀ i ∈ _, ∀ x ∈ _, _))

variable {getClassHash : ServiceDescription → ClassHash} {s s' : State} {l : Label}

/-! ## What the callback does -/

/-- Both tables are keyed by class hash. -/
structure State.Keyed (getClassHash : ServiceDescription → ClassHash) (s : State) : Prop where
  tr2iox : Endpoints.Keyed getClassHash s.tr2iox
  iox2tr : Endpoints.Keyed getClassHash s.iox2tr

theorem updateTr2iox_spec (h : s.Keyed getClassHash) {needed : ServiceVector}
    (hn : needed.toList.Nodup)
    (hd : Endpoints.HashesDistinct getClassHash (s.tr2iox.services ++ needed.toList)) :
    (s.updateTr2iox getClassHash needed).Keyed getClassHash ∧
      ∀ x, x ∈ (s.updateTr2iox getClassHash needed).tr2iox.services ↔ x ∈ needed.toList := by
  obtain ⟨hk, hmem⟩ := Endpoints.services_updateChannels h.tr2iox s.nextEndpoint hn hd
  exact ⟨⟨hk, h.iox2tr⟩, hmem⟩

theorem updateIox2tr_spec (h : s.Keyed getClassHash) {needed : ServiceVector}
    (hn : needed.toList.Nodup)
    (hd : Endpoints.HashesDistinct getClassHash (s.iox2tr.services ++ needed.toList)) :
    (s.updateIox2tr getClassHash needed).Keyed getClassHash ∧
      ∀ x, x ∈ (s.updateIox2tr getClassHash needed).iox2tr.services ↔ x ∈ needed.toList := by
  obtain ⟨hk, hmem⟩ := Endpoints.services_updateChannels h.iox2tr s.nextEndpoint hn hd
  exact ⟨⟨h.tr2iox, hk⟩, hmem⟩

@[simp] theorem discovery_updateTr2iox (s : State) (needed : ServiceVector) :
    (s.updateTr2iox getClassHash needed).discovery = s.discovery := rfl

@[simp] theorem discovery_updateIox2tr (s : State) (needed : ServiceVector) :
    (s.updateIox2tr getClassHash needed).discovery = s.discovery := rfl

@[simp] theorem discovery_updateCallback (s : State) (needed : ServiceVector) :
    (s.updateCallback getClassHash needed).discovery = s.discovery := by
  unfold State.updateCallback
  split <;> rfl

/-- Distinctness is about the services, not about the list. -/
theorem HashesDistinct.mono {L L' : List ServiceDescription}
    (h : Endpoints.HashesDistinct getClassHash L) (hsub : ∀ x ∈ L', x ∈ L) :
    Endpoints.HashesDistinct getClassHash L' :=
  fun x hx y hy => h x (hsub x hx) y (hsub y hy)

/-- The callback brings both gateways from the old services to the needed ones. -/
theorem has_updateCallback (h : s.Keyed getClassHash) {old : List ServiceDescription}
    (hold : s.Has old) (hcb : s.discovery.updateCallback = true) {needed : ServiceVector}
    (hn : needed.toList.Nodup)
    (hd : Endpoints.HashesDistinct getClassHash (old ++ needed.toList)) :
    (s.updateCallback getClassHash needed).Keyed getClassHash ∧
      (s.updateCallback getClassHash needed).Has needed.toList := by
  unfold State.updateCallback
  rw [if_pos hcb]
  have hsub : ∀ x ∈ s.tr2iox.services ++ needed.toList, x ∈ old ++ needed.toList := by
    intro x hx
    rwa [List.mem_append, (hold x).1, ← List.mem_append] at hx
  have hsub' : ∀ x ∈ s.iox2tr.services ++ needed.toList, x ∈ old ++ needed.toList := by
    intro x hx
    rwa [List.mem_append, (hold x).2, ← List.mem_append] at hx
  obtain ⟨hk₁, hmem₁⟩ := updateTr2iox_spec h hn (HashesDistinct.mono hd hsub)
  obtain ⟨hk₂, hmem₂⟩ := updateIox2tr_spec hk₁ hn (HashesDistinct.mono hd hsub')
  exact ⟨hk₂, fun x => ⟨hmem₁ x, hmem₂ x⟩⟩

/-! ## The invariant -/

/-- What the endpoints should be: nothing before `initialize`, the needed services after it. -/
def State.target (s : State) : List ServiceDescription :=
  if s.discovery.updateCallback then s.discovery.neededServices else []

structure Inv (getClassHash : ServiceDescription → ClassHash) (s : State) : Prop where
  fits : s.discovery.Fits
  keyed : s.Keyed getClassHash
  has : s.Has s.target

theorem inv_init (gatewayHash : Hash) (preferredType : TransportType) :
    Inv getClassHash (State.init gatewayHash preferredType) where
  fits := Nat.zero_le _
  keyed := ⟨Endpoints.keyed_empty, Endpoints.keyed_empty⟩
  has := fun _ => ⟨Iff.rfl, Iff.rfl⟩

/-- A step that leaves the endpoints alone keeps the invariant if the target is the same. -/
theorem Inv.of_target (h : Inv getClassHash s) (hfits : s'.discovery.Fits)
    (h₁ : s'.tr2iox = s.tr2iox) (h₂ : s'.iox2tr = s.iox2tr)
    (htarget : ∀ x, x ∈ s'.target ↔ x ∈ s.target) : Inv getClassHash s' where
  fits := hfits
  keyed := ⟨h₁ ▸ h.keyed.tr2iox, h₂ ▸ h.keyed.iox2tr⟩
  has := by
    intro x
    rw [h₁, h₂, htarget]
    exact h.has x

/-- A handler that passes the services needed now to the callback. -/
theorem Inv.callback (h : Inv getClassHash s) {d : Discovery} (hfits : d.Fits)
    (hcb : d.updateCallback = s.discovery.updateCallback)
    (hd : Endpoints.HashesDistinct getClassHash
      (s.discovery.neededServices ++ d.neededServices)) :
    Inv getClassHash
      (({ s with discovery := d } : State).updateCallback getClassHash d.updateNeededChannels) := by
  obtain ⟨hn, hmem⟩ := Discovery.updateNeededChannels_spec hfits
  cases hc : d.updateCallback with
  | false =>
    -- the callback has not been set: nothing happens, and nothing is expected
    have heq : ({ s with discovery := d } : State).updateCallback getClassHash
        d.updateNeededChannels = { s with discovery := d } := by
      unfold State.updateCallback
      rw [if_neg (by simp [hc])]
    rw [heq]
    refine h.of_target hfits rfl rfl fun x => ?_
    simp [State.target, hc, ← hcb]
  | true =>
    have hold : ({ s with discovery := d } : State).Has s.discovery.neededServices := by
      intro x
      have := h.has x
      rwa [State.target, if_pos (hcb ▸ hc)] at this
    obtain ⟨hk, hhas⟩ := has_updateCallback (s := { s with discovery := d })
      ⟨h.keyed.tr2iox, h.keyed.iox2tr⟩ hold hc hn
      (HashesDistinct.mono hd fun x hx => by
        rwa [List.mem_append, hmem, ← List.mem_append] at hx)
    refine ⟨?_, hk, fun x => ?_⟩
    · rw [discovery_updateCallback]
      exact hfits
    · rw [State.target, discovery_updateCallback, if_pos hc, ← hmem]
      exact hhas x

/-- What `initialize` does. -/
theorem step_initializeDiscovery (h : step getClassHash s .initializeDiscovery = some s') :
    s.discovery.updateCallback = false ∧
      s' = { s with discovery := { s.discovery with updateCallback := true } } := by
  simp only [step] at h
  split at h
  · cases h
  · rename_i hcb
    exact ⟨by simpa using hcb, (Option.some.inj h).symm⟩

/-- The two ways through `readPortSubscriber`. -/
theorem step_readPortSubscriber {sample : Option PortIntrospection} {bitset : Bitset}
    {infoHash : Hash}
    (h : step getClassHash s (.readPortSubscriber sample bitset infoHash) = some s') :
    ∃ d : Discovery, d = { s.discovery with localState := LocalState.ofSample sample } ∧
      ((s.discovery.localState.unchanged d.localState = true ∧ s' = { s with discovery := d }) ∨
        (s.discovery.localState.unchanged d.localState = false ∧
          s' = { ({ s with discovery := d } : State).updateCallback getClassHash
              d.updateNeededChannels with
            discovery := (d.sendIfChanged bitset infoHash).1 })) := by
  refine ⟨_, rfl, ?_⟩
  simp only [step, Discovery.readPorts] at h
  cases hu : s.discovery.localState.unchanged (LocalState.ofSample sample) with
  | true =>
    simp only [hu, if_true] at h
    exact Or.inl ⟨rfl, (Option.some.inj h).symm⟩
  | false =>
    simp only [hu, Bool.false_eq_true, if_false, discovery_updateCallback] at h
    exact Or.inr ⟨rfl, (Option.some.inj h).symm⟩

/-- The two ways through `receiveRemoteDiscoveryInfo`. -/
theorem step_receiveRemoteDiscoveryInfo {info : PubSubInfo} {deviceIndex : DeviceIndex}
    (h : step getClassHash s (.receiveRemoteDiscoveryInfo info deviceIndex) = some s') :
    ∃ d : Discovery, d.localState = s.discovery.localState ∧
      d.records = s.discovery.records.receive info deviceIndex ∧
      d.updateCallback = s.discovery.updateCallback ∧
      ((info.isTermination = true ∧ s' = { s with discovery := d }) ∨
        (info.isTermination = false ∧ s' = ({ s with discovery := d } : State).updateCallback
          getClassHash d.updateNeededChannels)) := by
  simp only [step, Discovery.receiveInfo] at h
  cases ht : info.isTermination with
  | true =>
    simp only [ht, if_true] at h
    refine ⟨{ s.discovery with records := s.discovery.records.receive info deviceIndex }, ?_⟩
    exact ⟨rfl, rfl, rfl, Or.inl ⟨rfl, (Option.some.inj h).symm⟩⟩
  | false =>
    simp only [ht, Bool.false_eq_true, if_false] at h
    refine ⟨{ s.discovery with
      records := s.discovery.records.receive info deviceIndex
      deviceIndicesCache := s.discovery.deviceIndicesCache.clear }, ?_⟩
    exact ⟨rfl, rfl, rfl, Or.inr ⟨rfl, (Option.some.inj h).symm⟩⟩

/-- A termination message takes the record of its gateway away, and nothing else. -/
theorem mem_neededServices_of_termination {d d' : Discovery} {info : PubSubInfo}
    {deviceIndex : DeviceIndex} (ht : info.isTermination = true)
    (hl : d'.localState = d.localState) (hr : d'.records = d.records.receive info deviceIndex)
    (hkeep : ∀ i ∈ d.records.findHash info.gatewayHash, ∀ x ∈ d.neededServices,
      x ∈ ({ d with records := d.records.erase i } : Discovery).neededServices)
    (x : ServiceDescription) : x ∈ d'.neededServices ↔ x ∈ d.neededServices := by
  unfold Records.receive at hr
  cases hf : d.records.findHash info.gatewayHash with
  | none =>
    rw [hf] at hr
    simp only [ht, if_true] at hr
    rw [Discovery.neededServices_congr hl hr]
  | some i =>
    rw [hf] at hr
    simp only [ht, if_true] at hr
    have heq : d'.neededServices
        = ({ d with records := d.records.erase i } : Discovery).neededServices :=
      Discovery.neededServices_congr hl hr
    rw [heq]
    refine ⟨fun hx => ?_, hkeep i hf x⟩
    simp only [Discovery.neededServices, List.mem_append, List.mem_flatMap] at hx ⊢
    refine hx.imp_right ?_
    rintro ⟨r, hmem, hx⟩
    exact ⟨r, List.mem_of_mem_eraseIdx hmem, hx⟩

/-- **One handler.**  The endpoints are the target again when it is done. -/
theorem inv_step (h : Inv getClassHash s) (hp : Proviso getClassHash s l)
    (hk : KeepsChannels s l) (hstep : step getClassHash s l = some s') :
    Inv getClassHash s' := by
  obtain ⟨hfits, hd⟩ := hp s' hstep
  cases l with
  | initializeDiscovery =>
    obtain ⟨hcb, rfl⟩ := step_initializeDiscovery hstep
    refine h.of_target hfits rfl rfl fun x => ?_
    have hnil : s.discovery.neededServices = [] := hk
    have hnil' : ({ s.discovery with updateCallback := true } : Discovery).neededServices = [] :=
      hnil
    simp [State.target, hcb, hnil']
  | readPortSubscriber sample bitset infoHash =>
    obtain ⟨d, rfl, ⟨hu, rfl⟩ | ⟨-, rfl⟩⟩ := step_readPortSubscriber hstep
    · refine h.of_target hfits rfl rfl fun x => ?_
      cases hc : s.discovery.updateCallback with
      | false => simp [State.target, hc]
      | true =>
        simp only [State.target, hc, if_true]
        exact Discovery.mem_neededServices_of_unchanged hu x
    · generalize hd' : ({ s.discovery with localState := LocalState.ofSample sample } :
        Discovery) = d at hfits hd ⊢
      have hcb : d.updateCallback = s.discovery.updateCallback := by rw [← hd']
      have hneed := Discovery.neededServices_sendIfChanged d bitset infoHash
      have hfits' : d.Fits := by
        unfold Discovery.Fits at hfits ⊢
        rwa [← hneed]
      refine (h.callback hfits' hcb ?_).of_target hfits rfl rfl fun x => ?_
      · rw [← hneed]
        exact hd
      · simp only [State.target, discovery_updateCallback, hneed,
          (Discovery.sendIfChanged_frame d bitset infoHash).2.2]
  | receiveRemoteDiscoveryInfo info deviceIndex =>
    obtain ⟨d, hl, hr, hcb, ⟨ht, rfl⟩ | ⟨_, rfl⟩⟩ := step_receiveRemoteDiscoveryInfo hstep
    · refine h.of_target hfits rfl rfl fun x => ?_
      cases hc : s.discovery.updateCallback with
      | false => simp [State.target, hcb, hc]
      | true =>
        simp only [State.target, hcb, hc, if_true]
        exact mem_neededServices_of_termination ht hl hr (hk ht hc) x
    · rw [discovery_updateCallback] at hfits hd
      exact h.callback hfits hcb hd

/-- The endpoints follow `updateNeededChannels`. -/
def State.Follows (s : State) : Prop :=
  s.discovery.updateCallback = true → s.Has s.discovery.updateNeededChannels.toList

theorem Inv.follows (h : Inv getClassHash s) : s.Follows := by
  intro hinit x
  rw [(Discovery.updateNeededChannels_spec h.fits).2]
  have := h.has x
  rwa [State.target, if_pos hinit] at this

/-- A step that does not meet `KeepsChannels` leaves the endpoints as they are and changes the
needed services. -/
theorem keepsChannels_of_follows (h : Inv getClassHash s) (hp : Proviso getClassHash s l)
    (hstep : step getClassHash s l = some s') (hinit : s'.discovery.updateCallback = true)
    (hf : s'.Follows) : KeepsChannels s l := by
  have hmem := (Discovery.updateNeededChannels_spec (hp s' hstep).1).2
  have hhas := hf hinit
  cases l with
  | initializeDiscovery =>
    obtain ⟨hcb, rfl⟩ := step_initializeDiscovery hstep
    refine List.eq_nil_iff_forall_not_mem.mpr fun x hx => ?_
    have hx' := (hhas x).1.mpr ((hmem x).mpr hx)
    have := (h.has x).1.mp hx'
    simp [State.target, hcb] at this
  | readPortSubscriber sample bitset infoHash => trivial
  | receiveRemoteDiscoveryInfo info deviceIndex =>
    intro ht hc i hi x hx
    obtain ⟨d, hl, hr, hcb, ⟨_, rfl⟩ | ⟨hf, _⟩⟩ := step_receiveRemoteDiscoveryInfo hstep
    · have hx' : x ∈ s.tr2iox.services := by
        refine (h.has x).1.mpr ?_
        rwa [State.target, if_pos hc]
      have hneed : x ∈ d.neededServices := (hmem x).mp ((hhas x).1.mp hx')
      rw [Records.receive, Option.mem_def.mp hi] at hr
      simp only [ht, if_true] at hr
      have heq : d.neededServices = ({ s.discovery with
          records := s.discovery.records.erase i } : Discovery).neededServices :=
        Discovery.neededServices_congr hl hr
      rwa [heq] at hneed
    · rw [hf] at ht
      cases ht

/-- **Channels follow discovery**, in every run whose handlers all meet `KeepsChannels`: after
`initialize` the services with an endpoint are those of `updateNeededChannels`, in both gateways.
The condition is exact: any other handler leaves the gateways with the wrong channels. -/
theorem channels_follow_discovery (gatewayHash : Hash) (preferredType : TransportType)
    {ls : List Label}
    (hp : Run.Guarded (step getClassHash) (Proviso getClassHash)
      (State.init gatewayHash preferredType) ls)
    (hk : Run.Guarded (step getClassHash) KeepsChannels (State.init gatewayHash preferredType) ls)
    (h : Run.exec (step getClassHash) (State.init gatewayHash preferredType) ls = some s) :
    s.Follows ∧
      ∀ l s', Proviso getClassHash s l → step getClassHash s l = some s' →
        s'.discovery.updateCallback = true → (s'.Follows ↔ KeepsChannels s l) := by
  have hinv : Inv getClassHash s := by
    refine Run.invariant_guarded (Inv getClassHash) ?_ (inv_init gatewayHash preferredType)
      (hp.and hk) h
    intro s l s' hs hg hstep
    exact inv_step hs hg.1 hg.2 hstep
  refine ⟨hinv.follows, fun l s' hp hstep hinit => ⟨?_, fun hk => ?_⟩⟩
  · exact keepsChannels_of_follows hinv hp hstep hinit
  · exact (inv_step hinv hp hk hstep).follows

/-! ## A run -/

/-- Gateway 5 subscribes to the service, or terminates. -/
def demoInfo (isTermination : Bool) : PubSubInfo :=
  ⟨demoServices, 4, 5, 0, isTermination⟩

/-- A local publisher of the service is discovered, and gateway 5 announces its subscriber. -/
def demoRun : List Label :=
  [.initializeDiscovery,
    .readPortSubscriber (some ⟨[⟨demoNode, demoService, 1⟩], []⟩) 4 0,
    .receiveRemoteDiscoveryInfo (demoInfo false) ⟨.udp, 3⟩,
    .receiveRemoteDiscoveryInfo (demoInfo true) ⟨.udp, 3⟩]

theorem channels_follow_discovery_demo :
    ∃ s, Run.exec (step demoClassHash) (State.init 1 .none) demoRun = some s ∧
      s.discovery.updateCallback = true ∧ s.Has [demoService] := by
  have hp : Run.Guarded (step demoClassHash) (Proviso demoClassHash) (State.init 1 .none)
      demoRun := by decide +kernel
  have hk : Run.Guarded (step demoClassHash) KeepsChannels (State.init 1 .none) demoRun := by
    decide +kernel
  refine ⟨_, rfl, by decide, ?_⟩
  exact (channels_follow_discovery 1 .none hp hk rfl).1 (by decide)

/-- After the termination message of gateway 5, whose subscriber was the only user of the service,
both endpoints of the service remain. -/
theorem channels_outlive_termination :
    ∃ s, Run.exec (step demoClassHash) (State.init 1 .none)
        [.initializeDiscovery, .receiveRemoteDiscoveryInfo (demoInfo false) ⟨.udp, 3⟩,
          .receiveRemoteDiscoveryInfo (demoInfo true) ⟨.udp, 3⟩] = some s ∧
      Run.Guarded (step demoClassHash) (Proviso demoClassHash) (State.init 1 .none)
        [.initializeDiscovery, .receiveRemoteDiscoveryInfo (demoInfo false) ⟨.udp, 3⟩,
          .receiveRemoteDiscoveryInfo (demoInfo true) ⟨.udp, 3⟩] ∧
      ¬ s.Follows := by
  refine ⟨_, rfl, by decide +kernel, fun h => ?_⟩
  have hmem := (h (by decide) demoService).1
  exact absurd hmem (by decide)

end Channels

end P3com
