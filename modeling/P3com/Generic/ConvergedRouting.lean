/-
# Routing after discovery

`README.md`, Discovery system: the discovery information "is then used when a user publisher
publishes a sample"; the sample goes to all remote gateways that register a matching subscriber.
`Convergence` says what the records of a network hold once discovery has come to rest, `Routes` what
a single record contributes to `computeDeviceIndices`.  Put together, the devices are those of the
other running gateways with a subscriber, each of them once, over a transport that both sides have
(`converged_routing`).

A record must have a device index for whichever transport `findMatchingType` chooses, not only for
the one over which the gateway was first heard.  It does, because a gateway that hears of another
one sends its own info on all its transports: the index of each of them is stored, or the message
that brings it is on its way (`Reported.stored`).
-/
import P3com.Generic.Convergence
import P3com.Generic.Routes

namespace P3com

namespace Network

variable {n : Nat} {cfg : Setup n} {g r : Fin n} {a a' b b' : Gateway} {s s' : State n}
  {type : TransportType} {info : PubSubInfo} {device : Fin n → Fin n → TransportType → UInt32}

/-! ## The invariant -/

/-- The message has the transports of the gateway that sent it. -/
def Stamped (cfg : Setup n) (info : PubSubInfo) : Prop :=
  ∀ g, info.gatewayHash = cfg.gatewayHash g → info.gatewayBitset = (cfg.transports g).bitset

/-- The transports report a gateway always under the same device number: `device r g type` is the
number of `g` at `r`. -/
def Label.Reports (device : Fin n → Fin n → TransportType → UInt32) : Label n → Prop
  | .receive g r type d _ => d = device r g type
  | _ => True

/-- The record of `g` has an index of the type. -/
def Gateway.Stores (cfg : Setup n) (b : Gateway) (g : Fin n) (type : TransportType) : Prop :=
  ∃ record ∈ b.discovery.records.toList, record.info.gatewayHash = cfg.gatewayHash g ∧
    Routes.Stored record type

/-- What a gateway has in its records. -/
structure Gateway.Filed (cfg : Setup n) (device : Fin n → Fin n → TransportType → UInt32)
    (r : Fin n) (b : Gateway) : Prop where
  outbox : ∀ p ∈ b.outbox, Stamped cfg p.2
  stamped : ∀ record ∈ b.discovery.records.toList, Stamped cfg record.info
  nodup : ∀ record ∈ b.discovery.records.toList,
    (record.deviceIndices.toList.map DeviceIndex.type).Nodup
  device : ∀ record ∈ b.discovery.records.toList, ∀ g,
    record.info.gatewayHash = cfg.gatewayHash g →
      ∀ i ∈ record.deviceIndices.toList, i.device = device r g i.type
  fresh : b.discovery.updateCallback = false → b.discovery.localState = .empty

/-- What every step keeps, beside `Inv`. -/
structure Reported (cfg : Setup n) (device : Fin n → Fin n → TransportType → UInt32)
    (s : State n) : Prop where
  filed : ∀ r b, s.gateways r = some b → b.Filed cfg device r
  queue : ∀ g r type, ∀ info ∈ s.queue g r type, Stamped cfg info
  stored : ∀ g a r b, g ≠ r → s.gateways g = some a → s.gateways r = some b →
    a.discovery.terminateFlag = false → cfg.gatewayHash r ∈ a.discovery.records.hashes →
      ∀ type, (cfg.transports g).isGood type = true → (cfg.transports r).isGood type = true →
        b.Stores cfg g type ∨ s.link g r type ≠ []

theorem reported_init (cfg : Setup n) (device : Fin n → Fin n → TransportType → UInt32) :
    Reported cfg device (State.init n) where
  filed := by
    intro r b h
    cases h
  queue := by
    intro g r type info h
    cases h
  stored := by
    intro g a r b _ h
    cases h

/-! ## What a gateway says -/

theorem stamped_of_hash (hhash : info.gatewayHash = cfg.gatewayHash g)
    (hbits : info.gatewayBitset = (cfg.transports g).bitset) : Stamped cfg info := by
  intro g' hg'
  rw [hhash] at hg'
  rw [hbits, cfg.distinct hg']

theorem stamped_broadcast (hhash : info.gatewayHash = cfg.gatewayHash g)
    (hbits : info.gatewayBitset = (cfg.transports g).bitset) :
    ∀ p ∈ broadcast (cfg.transports g) info, Stamped cfg p.2 := by
  intro p hp
  rw [(mem_broadcast.mp hp).2]
  exact stamped_of_hash hhash hbits

/-- What a gateway does of its own accord leaves the records alone. -/
theorem Gateway.Filed.act {action : Gateway.Action} (h : a.Filed cfg device g)
    (hhash : a.discovery.gatewayHash = cfg.gatewayHash g)
    (hact : a.act (cfg.transports g) action = some a') : a'.Filed cfg device g := by
  cases action with
  | initializeDiscovery infoHash =>
    simp only [Gateway.act] at hact
    split at hact
    · obtain rfl := Option.some.inj hact
      exact ⟨stamped_broadcast hhash rfl, h.stamped, h.nodup, h.device, fun hcb => by cases hcb⟩
    · cases hact
  | readPorts sample =>
    simp only [Gateway.act] at hact
    split at hact
    · rename_i hc
      have hcb : a.discovery.updateCallback = true := by
        simp only [Bool.and_eq_true] at hc
        exact hc.1.1.2
      have hfresh : ∀ {x : LocalState}, a.discovery.updateCallback = false → x = .empty := by
        intro x hf
        rw [hcb] at hf
        cases hf
      simp only [Discovery.readPorts] at hact
      split at hact <;> obtain rfl := Option.some.inj hact <;> rename_i heq <;>
        obtain ⟨rfl, -⟩ := Prod.mk.inj heq
      · exact ⟨h.outbox, h.stamped, h.nodup, h.device, hfresh⟩
      · exact ⟨h.outbox, h.stamped, h.nodup, h.device, hfresh⟩
    · cases hact
  | sendIfChanged infoHash =>
    simp only [Gateway.act] at hact
    split at hact
    · simp only [Discovery.sendIfChanged] at hact
      by_cases hc : (a.discovery.generateDiscoveryInfo (cfg.transports g).bitset
          infoHash).userSubscribers ≠ a.discovery.lastSentDiscoveryInfo.userSubscribers
      · rw [if_pos hc] at hact
        obtain rfl := Option.some.inj hact
        exact ⟨stamped_broadcast hhash rfl, h.stamped, h.nodup, h.device, h.fresh⟩
      · rw [if_neg hc] at hact
        obtain rfl := Option.some.inj hact
        exact ⟨h.outbox, h.stamped, h.nodup, h.device, h.fresh⟩
    · cases hact
  | resendDiscoveryInfoToTransport type infoHash =>
    simp only [Gateway.act] at hact
    split at hact
    · obtain rfl := Option.some.inj hact
      refine ⟨fun p hp => ?_, h.stamped, h.nodup, h.device, h.fresh⟩
      change p ∈ (if _ then _ else _) at hp
      split at hp
      · obtain rfl := List.mem_singleton.mp hp
        exact stamped_of_hash hhash rfl
      · cases hp
    · cases hact
  | setTerminateFlag =>
    simp only [Gateway.act] at hact
    split at hact
    · obtain rfl := Option.some.inj hact
      exact ⟨h.outbox, h.stamped, h.nodup, h.device, h.fresh⟩
    · cases hact
  | sendTermination infoHash =>
    simp only [Gateway.act] at hact
    split at hact
    · obtain rfl := Option.some.inj hact
      exact ⟨stamped_broadcast hhash rfl, h.stamped, h.nodup, h.device, h.fresh⟩
    · cases hact

/-! ## What a gateway files -/

section File

variable {deviceIndex : DeviceIndex} {record : DeviceRecord}

theorem mem_storeDeviceIndex {v : CxxVector DeviceIndex transportTypeCount} {i j : DeviceIndex}
    (h : j ∈ (Records.storeDeviceIndex v i).toList) : j ∈ v.toList ∨ j = i := by
  unfold Records.storeDeviceIndex at h
  split at h
  · exact Or.inl h
  · exact CxxVector.mem_of_mem_pushBack h

/-- There are as many types as a record has room for indices. -/
theorem size_lt_of_new {v : CxxVector DeviceIndex transportTypeCount}
    (hn : (v.toList.map DeviceIndex.type).Nodup) {type : TransportType}
    (hnew : type ∉ v.toList.map DeviceIndex.type) : v.size < transportTypeCount := by
  have hcons : (type :: v.toList.map DeviceIndex.type).Nodup := List.nodup_cons.mpr ⟨hnew, hn⟩
  have hsub : type :: v.toList.map DeviceIndex.type ⊆
      [TransportType.none, .pcie, .udp, .tcp] := by
    intro x _
    cases x <;> decide
  have hle := (List.subperm_of_subset hcons hsub).length_le
  simp only [List.length_cons, List.length_map, List.length_nil] at hle
  unfold CxxVector.size transportTypeCount
  omega

/-- An index that is there stays, and there is one of the new type. -/
theorem stored_storeDeviceIndex {v : CxxVector DeviceIndex transportTypeCount}
    (hn : (v.toList.map DeviceIndex.type).Nodup) (i : DeviceIndex) :
    (∀ j ∈ v.toList, j ∈ (Records.storeDeviceIndex v i).toList) ∧
      ∃ j ∈ (Records.storeDeviceIndex v i).toList, j.type = i.type := by
  unfold Records.storeDeviceIndex
  split
  · rename_i hany
    obtain ⟨j, hj, htype⟩ := List.any_eq_true.mp hany
    exact ⟨fun _ h => h, j, hj, of_decide_eq_true htype⟩
  · rename_i hany
    have hnew : i.type ∉ v.toList.map DeviceIndex.type := by
      intro hmem
      obtain ⟨j, hj, htype⟩ := List.mem_map.mp hmem
      exact hany (List.any_eq_true.mpr ⟨j, hj, decide_eq_true htype⟩)
    rw [CxxVector.toList_pushBack (size_lt_of_new hn hnew)]
    exact ⟨fun j hj => List.mem_append_left _ hj, i, by simp, rfl⟩

/-- The records after a message that does not overflow the table: the record of the sender is the
old one or a new one, with the index stored; the others are the old ones. -/
theorem mem_receive_iff (record : DeviceRecord) (deviceIndex : DeviceIndex) {rs : Records}
    (hn : rs.hashes.Nodup) (hover : ¬ rs.Overflows info) :
    record ∈ (rs.receive info deviceIndex).toList ↔
      (record ∈ rs.toList ∧ record.info.gatewayHash ≠ info.gatewayHash) ∨
        (info.isTermination = false ∧ ∃ old, record = Records.update old info deviceIndex ∧
          ((old = ⟨.default, .empty⟩ ∧ info.gatewayHash ∉ rs.hashes) ∨
            (old ∈ rs.toList ∧ old.info.gatewayHash = info.gatewayHash))) := by
  have hhashes : rs.hashes = rs.toList.map fun x => x.info.gatewayHash := rfl
  rcases Records.receive_cases rs info deviceIndex with
    ⟨front, old, back, hr, hhash, hcases⟩ |
    ⟨hnew, ⟨hterm, heq⟩ | ⟨hterm, -, heq⟩ | ⟨hterm, hfull, -⟩⟩
  · -- the sender has a record, and the other ones have other hashes
    have hseen : info.gatewayHash ∈ rs.hashes := by
      rw [hhashes, hr, ← hhash]
      exact List.mem_map_of_mem (List.mem_append_right _ List.mem_cons_self)
    have hother : ∀ x, x ∈ front ∨ x ∈ back → x.info.gatewayHash ≠ info.gatewayHash := by
      intro x hx heq
      rw [hhashes, hr, List.map_append, List.map_cons] at hn
      apply (List.nodup_cons.mp (List.nodup_middle.mp hn)).1
      rw [hhash, ← heq]
      rcases hx with hx | hx
      · exact List.mem_append_left _ (List.mem_map_of_mem hx)
      · exact List.mem_append_right _ (List.mem_map_of_mem hx)
    have hrest : (record ∈ rs.toList ∧ record.info.gatewayHash ≠ info.gatewayHash) ↔
        record ∈ front ∨ record ∈ back := by
      rw [hr, List.mem_append, List.mem_cons]
      constructor
      · rintro ⟨h | rfl | h, hne⟩
        · exact Or.inl h
        · exact absurd hhash hne
        · exact Or.inr h
      · intro h
        exact ⟨h.imp_right Or.inr, hother record h⟩
    have hold : ∀ x, (x ∈ rs.toList ∧ x.info.gatewayHash = info.gatewayHash) ↔ x = old := by
      intro x
      rw [hr, List.mem_append, List.mem_cons]
      constructor
      · rintro ⟨h | rfl | h, heq⟩
        · exact absurd heq (hother x (Or.inl h))
        · rfl
        · exact absurd heq (hother x (Or.inr h))
      · rintro rfl
        exact ⟨Or.inr (Or.inl rfl), hhash⟩
    simp only [hrest, hold, hseen, not_true_eq_false, and_false, false_or, exists_eq_right]
    rcases hcases with ⟨hterm, heq⟩ | ⟨hterm, heq⟩
    · simp [heq, hterm]
    · simp only [heq, hterm, List.mem_append, List.mem_cons, true_and]
      tauto
  · have hne : ∀ x ∈ rs.toList, x.info.gatewayHash ≠ info.gatewayHash :=
      fun x hx heq => hnew (heq ▸ List.mem_map_of_mem hx)
    rw [heq]
    constructor
    · exact fun h => Or.inl ⟨h, hne record h⟩
    · rintro (⟨h, -⟩ | ⟨hf, -⟩)
      · exact h
      · rw [hterm] at hf
        cases hf
  · have hne : ∀ x ∈ rs.toList, x.info.gatewayHash ≠ info.gatewayHash :=
      fun x hx heq => hnew (heq ▸ List.mem_map_of_mem hx)
    rw [heq, List.mem_append, List.mem_singleton]
    constructor
    · rintro (h | rfl)
      · exact Or.inl ⟨h, hne record h⟩
      · exact Or.inr ⟨hterm, _, rfl, Or.inl ⟨rfl, hnew⟩⟩
    · rintro (⟨h, -⟩ | ⟨-, old, rfl, ⟨rfl, -⟩ | ⟨hmem, hhash⟩⟩)
      · exact Or.inl h
      · exact Or.inr rfl
      · exact absurd hhash (hne old hmem)
  · exact absurd ⟨hterm, hnew, hfull⟩ hover

end File

/-! ## Every step -/

/-- **A gateway speaks.**  The records stay as they are, and what is on its way stays there. -/
theorem reported_speak {new : List (TransportType × PubSubInfo)} (h : Reported cfg device s)
    (hg : s.gateways g = some a) (hfiled : a'.Filed cfg device g)
    (hs : Speaks (cfg.transports g) a a' new) : Reported cfg device (s.set g a') := by
  have hback : ∀ {p : Fin n} {c : Gateway}, (s.set g a').gateways p = some c →
      ∃ c', s.gateways p = some c' ∧ c.discovery.records = c'.discovery.records ∧
        (c.discovery.terminateFlag = false → c'.discovery.terminateFlag = false) := by
    intro p c hc
    rcases set_gateways_cases hc with ⟨rfl, rfl⟩ | ⟨-, hc⟩
    · refine ⟨a, hg, hs.records, fun hf => ?_⟩
      cases hfa : a.discovery.terminateFlag with
      | false => rfl
      | true => rw [hs.flag hfa] at hf; cases hf
    · exact ⟨c, hc, rfl, id⟩
  constructor
  case filed =>
    intro p c hc
    rcases set_gateways_cases hc with ⟨rfl, rfl⟩ | ⟨-, hc⟩
    · exact hfiled
    · exact h.filed p c hc
  case queue => exact h.queue
  case stored =>
    intro p c q d hne hc hd hflag hk type' hp hq
    obtain ⟨c', hc', hrec, hflag'⟩ := hback hc
    obtain ⟨d', hd', hrec', -⟩ := hback hd
    rw [hrec] at hk
    unfold Gateway.Stores
    rw [hrec']
    refine (h.stored p c' q d' hne hc' hd' (hflag' hflag) hk type' hp hq).imp_right fun hl => ?_
    by_cases hpg : p = g
    · subst hpg
      rw [link_set_self hg hs.outbox]
      exact List.append_ne_nil_of_left_ne_nil hl _
    · rwa [link_set_of_ne hpg]

/-- **A message goes out.** -/
theorem reported_send {outbox : List (TransportType × PubSubInfo)} (h : Reported cfg device s)
    (hg : s.gateways g = some a) (hout : a.outbox = (type, info) :: outbox) :
    Reported cfg device ((s.deliver cfg g type info).set g { a with outbox }) := by
  have hfiled := h.filed g a hg
  have hback : ∀ {p : Fin n} {c : Gateway},
      ((s.deliver cfg g type info).set g { a with outbox }).gateways p = some c →
        ∃ c', s.gateways p = some c' ∧ c.discovery = c'.discovery := by
    intro p c hc
    rcases set_gateways_cases hc with ⟨rfl, rfl⟩ | ⟨-, hc⟩
    · exact ⟨a, hg, rfl⟩
    · exact ⟨c, hc, rfl⟩
  constructor
  case filed =>
    intro p c hc
    rcases set_gateways_cases hc with ⟨rfl, rfl⟩ | ⟨-, hc⟩
    · refine ⟨fun x hx => hfiled.outbox x ?_, hfiled.stamped, hfiled.nodup, hfiled.device,
        hfiled.fresh⟩
      rw [hout]
      exact List.mem_cons_of_mem _ hx
    · exact h.filed p c hc
  case queue =>
    intro p q type' m hm
    simp only [State.set, State.deliver] at hm
    split at hm
    · rcases List.mem_append.mp hm with hm | hm
      · exact h.queue p q type' m hm
      · rw [List.mem_singleton.mp hm]
        exact hfiled.outbox (type, info) (by simp [hout])
    · exact h.queue p q type' m hm
  case stored =>
    intro p c q d hne hc hd hflag hk type' hp hq
    obtain ⟨c', hc', hcd⟩ := hback hc
    obtain ⟨d', hd', hdd⟩ := hback hd
    rw [hcd] at hflag hk
    unfold Gateway.Stores
    rw [hdd, link_send hg hout hne (Option.isSome_iff_exists.mpr ⟨d', hd'⟩) hq]
    exact h.stored p c' q d' hne hc' hd' hflag hk type' hp hq

/-- **A gateway is constructed.**  It has no records, and nobody has one of it. -/
theorem reported_construct (hinv : Inv cfg s) (h : Reported cfg device s)
    (hg : s.gateways g = none) (preferredType : TransportType) :
    Reported cfg device (s.set g (.construct (cfg.gatewayHash g) preferredType)) := by
  constructor
  case filed =>
    intro p c hc
    rcases set_gateways_cases hc with ⟨rfl, rfl⟩ | ⟨-, hc⟩
    · exact ⟨fun _ hx => absurd hx List.not_mem_nil, fun _ hx => absurd hx List.not_mem_nil,
        fun _ hx => absurd hx List.not_mem_nil, fun _ hx => absurd hx List.not_mem_nil,
        fun _ => rfl⟩
    · exact h.filed p c hc
  case queue => exact h.queue
  case stored =>
    intro p c q d hne hc hd hflag hk type' hp hq
    rcases set_gateways_cases hc with ⟨rfl, rfl⟩ | ⟨hpg, hc'⟩
    · cases hk
    · rcases set_gateways_cases hd with ⟨rfl, rfl⟩ | ⟨-, hd'⟩
      · obtain ⟨q', e, -, heq, he⟩ := hinv.known p c _ hc' hk
        rw [cfg.distinct heq, hg] at he
        cases he
      · rw [link_set_of_ne hpg]
        exact h.stored p c q d hne hc' hd' hflag hk type' hp hq

section Take

variable {rest : List PubSubInfo} {p : Fin n} {type' : TransportType}

/-- The record of the sender has the index of the link. -/
theorem stores_sender (t : Taking cfg s g r type a b b' info rest) {d : UInt32}
    (hnodup : ∀ record ∈ b.discovery.records.toList,
      (record.deviceIndices.toList.map DeviceIndex.type).Nodup)
    (hrec : b'.discovery.records = b.discovery.records.receive info ⟨type, d⟩)
    (hordinary : info.isTermination = false) : b'.Stores cfg g type := by
  have hiff := fun record => mem_receive_iff record ⟨type, d⟩
    (t.inv.ok r b t.receiver).nodup (t.inv.not_overflows t.receiver t.ne t.hash)
  by_cases hk : info.gatewayHash ∈ b.discovery.records.hashes
  · obtain ⟨old, hmem, hhash⟩ := List.mem_map.mp hk
    refine ⟨Records.update old info ⟨type, d⟩, ?_, t.hash, ?_⟩
    · rw [hrec]
      exact (hiff _).mpr (Or.inr ⟨hordinary, old, rfl, Or.inr ⟨hmem, hhash⟩⟩)
    · exact (stored_storeDeviceIndex (hnodup old hmem) ⟨type, d⟩).2
  · refine ⟨Records.update ⟨.default, .empty⟩ info ⟨type, d⟩, ?_, t.hash, ?_⟩
    · rw [hrec]
      exact (hiff _).mpr (Or.inr ⟨hordinary, _, rfl, Or.inl ⟨rfl, hk⟩⟩)
    · exact (stored_storeDeviceIndex (v := .empty) List.nodup_nil ⟨type, d⟩).2

/-- What is stored stays stored, but for the record that a termination message removes. -/
theorem stores_take (t : Taking cfg s g r type a b b' info rest) {d : UInt32}
    (hnodup : ∀ record ∈ b.discovery.records.toList,
      (record.deviceIndices.toList.map DeviceIndex.type).Nodup)
    (hrec : b'.discovery.records = b.discovery.records.receive info ⟨type, d⟩)
    (hp : p = g → info.isTermination = false) (hs : b.Stores cfg p type') :
    b'.Stores cfg p type' := by
  have hiff := fun record => mem_receive_iff record ⟨type, d⟩
    (t.inv.ok r b t.receiver).nodup (t.inv.not_overflows t.receiver t.ne t.hash)
  obtain ⟨old, hmem, hhash, i, hi, htype⟩ := hs
  unfold Gateway.Stores
  rw [hrec]
  by_cases hpg : p = g
  · subst hpg
    refine ⟨Records.update old info ⟨type, d⟩, ?_, t.hash, i, ?_, htype⟩
    · exact (hiff _).mpr (Or.inr ⟨hp rfl, old, rfl, Or.inr ⟨hmem, hhash.trans t.hash.symm⟩⟩)
    · exact (stored_storeDeviceIndex (hnodup old hmem) ⟨type, d⟩).1 i hi
  · refine ⟨old, (hiff old).mpr (Or.inl ⟨hmem, fun heq => hpg ?_⟩), hhash, i, hi, htype⟩
    exact cfg.distinct (hhash.symm.trans (heq.trans t.hash))

/-- What the receiver has in its records after the message. -/
theorem Gateway.Filed.take (h : b.Filed cfg device r)
    (t : Taking cfg s g r type a b b' info rest) (hstamped : Stamped cfg info)
    (hrec : b'.discovery.records
      = b.discovery.records.receive info ⟨type, device r g type⟩) :
    b'.Filed cfg device r := by
  have hiff := fun record => mem_receive_iff record ⟨type, device r g type⟩
    (t.inv.ok r b t.receiver).nodup (t.inv.not_overflows t.receiver t.ne t.hash)
  constructor
  case outbox =>
    rw [t.takes.outbox]
    exact h.outbox
  case stamped =>
    intro record hmem
    rw [hrec] at hmem
    rcases (hiff record).mp hmem with ⟨hmem, -⟩ | ⟨-, old, rfl, -⟩
    · exact h.stamped record hmem
    · exact hstamped
  case nodup =>
    rw [hrec]
    exact Records.forall_deviceIndices_receive
      (P := fun v => (v.toList.map DeviceIndex.type).Nodup)
      (Records.nodup_types_storeDeviceIndex List.nodup_nil)
      (fun _ => Records.nodup_types_storeDeviceIndex) h.nodup
  case device =>
    intro record hmem p hhash i hi
    rw [hrec] at hmem
    rcases (hiff record).mp hmem with ⟨hmem, -⟩ | ⟨-, old, rfl, hold⟩
    · exact h.device record hmem p hhash i hi
    · obtain rfl : g = p := cfg.distinct (t.hash.symm.trans hhash)
      rcases mem_storeDeviceIndex hi with hi | rfl
      · rcases hold with ⟨rfl, -⟩ | ⟨hmem, hhash⟩
        · cases hi
        · exact h.device old hmem g (hhash.trans t.hash) i hi
      · rfl
  case fresh =>
    rw [t.takes.callback, t.takes.localState]
    exact h.fresh

/-- **A gateway takes a message.**  If it had no record of the sender and is not about to
terminate, its own message is on its way to the sender over every transport that both have. -/
theorem reported_take (h : Reported cfg device s)
    (t : Taking cfg s g r type a b b' info rest)
    (hrec : b'.discovery.records
      = b.discovery.records.receive info ⟨type, device r g type⟩)
    (hreply : b.discovery.terminateFlag = false → info.isTermination = false →
      cfg.gatewayHash g ∉ b.discovery.records.hashes →
        ∀ type', (cfg.transports r).isGood type' = true → s.link r g type' ≠ []) :
    Reported cfg device ((s.pop g r type).set r b') := by
  have hfiled := h.filed r b t.receiver
  have hlink := link_take t.queue t.receiver t.takes.outbox
  have hkept : ∀ {p q : Fin n} {type' : TransportType}, ¬ (p = g ∧ q = r ∧ type' = type) →
      s.link p q type' ≠ [] → ((s.pop g r type).set r b').link p q type' ≠ [] := by
    intro p q type' hne hl
    rcases hlink p q type' with ⟨rfl, rfl, rfl, -⟩ | ⟨-, heq⟩
    · exact absurd ⟨rfl, rfl, rfl⟩ hne
    · rwa [heq]
  constructor
  case filed =>
    intro p c hc
    rcases set_gateways_cases hc with ⟨rfl, rfl⟩ | ⟨-, hc⟩
    · refine hfiled.take t (h.queue g p type info ?_) hrec
      rw [t.queue]
      exact List.mem_cons_self
    · exact h.filed p c hc
  case queue => exact fun p q type' m hm => h.queue p q type' m (Taking.mem_queue hm)
  case stored =>
    intro p c q d hne hc hd hflag hk type' hp hq
    rcases set_gateways_cases hc with ⟨rfl, rfl⟩ | ⟨hpr, hc'⟩
    · -- the receiver as a sender: it knows whom it knew before, or the sender of the message
      have hd' : s.gateways q = some d := by
        rcases set_gateways_cases hd with ⟨rfl, -⟩ | ⟨-, hd⟩
        · exact absurd rfl hne
        · exact hd
      have hnot : ¬ (p = g ∧ q = p ∧ type' = type) := fun hc => hne hc.2.1.symm
      have hflag' : b.discovery.terminateFlag = false := t.takes.flag ▸ hflag
      by_cases hold : cfg.gatewayHash q ∈ b.discovery.records.hashes
      · exact (h.stored p b q d hne t.receiver hd' hflag' hold type' hp hq).imp_right (hkept hnot)
      · rcases (t.mem_hashes _).mp hk with ⟨heq, hordinary⟩ | ⟨-, hk⟩
        · obtain rfl := cfg.distinct heq
          exact Or.inr (hkept hnot (hreply hflag' hordinary hold type' hp))
        · exact absurd hk hold
    · rcases set_gateways_cases hd with ⟨rfl, rfl⟩ | ⟨hqr, hd'⟩
      · have hordinary : p = g → info.isTermination = false := by
          rintro rfl
          obtain rfl : a = c := Option.some.inj (t.sender.symm.trans hc')
          exact t.ordinary hflag
        rcases h.stored p c q b hne hc' t.receiver hflag hk type' hp hq with hs | hl
        · exact Or.inl (stores_take t hfiled.nodup hrec hordinary hs)
        · by_cases hlast : p = g ∧ type' = type
          · obtain ⟨rfl, rfl⟩ := hlast
            exact Or.inl (stores_sender t hfiled.nodup hrec (hordinary rfl))
          · exact Or.inr (hkept (fun hc => hlast ⟨hc.1, hc.2.2⟩) hl)
      · exact (h.stored p c q d hne hc' hd' hflag hk type' hp hq).imp_right
          (hkept fun hc => hqr hc.2.1)

/-- A gateway receives: it replies, and then it takes the message. -/
theorem reported_receive {infoHash : Hash} (hinv : Inv cfg s) (h : Reported cfg device s)
    (hq : s.queue g r type = info :: rest) (hr : s.gateways r = some b)
    (hreceive : b.receive (cfg.transports r) info ⟨type, device r g type⟩ infoHash = some b') :
    Reported cfg device ((s.pop g r type).set r b') := by
  unfold Gateway.receive at hreceive
  split at hreceive
  · rename_i hidle
    obtain rfl := Option.some.inj hreceive
    have hout : b.outbox = [] := by simpa [Gateway.idle] using hidle
    obtain ⟨hok, hspeaks⟩ := speaks_reply info infoHash (hinv.ok r b hr) hout
    obtain ⟨-, hgsome, -⟩ := hinv.queued g r type (by simp [hq])
    obtain ⟨a, hg⟩ := Option.isSome_iff_exists.mp hgsome
    have hfiled := h.filed r b hr
    set replied : Gateway := { b with
      outbox := if b.discovery.replies info then
        broadcast (cfg.transports r)
          (b.discovery.generateDiscoveryInfo (cfg.transports r).bitset infoHash) else [] }
      with hreplied
    have hfiled' : replied.Filed cfg device r := by
      refine ⟨fun p hp => ?_, hfiled.stamped, hfiled.nodup, hfiled.device, hfiled.fresh⟩
      change p ∈ (if _ then _ else _) at hp
      split at hp
      · exact stamped_broadcast (g := r) (hinv.ok r b hr).hash rfl p hp
      · cases hp
    have hgr : g ≠ r := (hinv.queued g r type (by simp [hq])).1
    have t : Taking cfg (s.set r replied) g r type a replied
        { replied with
          discovery := (replied.discovery.receiveInfo info ⟨type, device r g type⟩).1 }
        info rest :=
      ⟨inv_speak hinv hr hok hspeaks, hq, (set_gateways_of_ne s replied hgr).trans hg,
        set_gateways_self s r replied, takes_receiveInfo replied info _⟩
    have hrec : ((replied.discovery.receiveInfo info ⟨type, device r g type⟩).1).records
        = replied.discovery.records.receive info ⟨type, device r g type⟩ := by
      unfold Discovery.receiveInfo
      dsimp only
      split <;> rfl
    have htake := reported_take (reported_speak h hr hfiled' hspeaks) t hrec (by
      intro hflag hordinary hnew type' hgood
      have hreplies : b.discovery.replies info = true := by
        have hnone := Records.findHash_eq_none.mpr hnew
        rw [← t.hash] at hnone
        have hnone' : b.discovery.records.findHash info.gatewayHash = none := hnone
        have hflag' : b.discovery.terminateFlag = false := hflag
        simp [Discovery.replies, hordinary, hnone', hflag']
      rw [link_set_self hr hspeaks.outbox, if_pos hreplies]
      obtain ⟨m, hm⟩ := covers_broadcast (cfg.transports r)
        (b.discovery.generateDiscoveryInfo (cfg.transports r).bitset infoHash) type' hgood
      refine List.append_ne_nil_of_right_ne_nil _ (List.ne_nil_of_mem (a := m) ?_)
      exact List.mem_map.mpr ⟨(type', m), List.mem_filter.mpr ⟨hm, by simp⟩, rfl⟩)
    have heq : ((s.set r replied).pop g r type).set r
        { replied with
          discovery := (replied.discovery.receiveInfo info ⟨type, device r g type⟩).1 }
        = (s.pop g r type).set r
        { replied with
          discovery := (replied.discovery.receiveInfo info ⟨type, device r g type⟩).1 } := by
      simp only [State.set, State.pop, Function.update_idem]
    rw [heq] at htake
    exact htake
  · cases hreceive

end Take

/-- **One step.** -/
theorem reported_step {l : Label n} (hinv : Inv cfg s) (h : Reported cfg device s)
    (hl : l.Reports device) (hstep : step cfg s l = some s') : Reported cfg device s' := by
  cases l with
  | construct g preferredType =>
    simp only [step] at hstep
    split at hstep
    · rename_i hg
      obtain rfl := Option.some.inj hstep
      exact reported_construct hinv h hg preferredType
    · cases hstep
  | act g action =>
    simp only [step] at hstep
    split at hstep
    · cases hstep
    · rename_i a hg
      obtain ⟨a', hact, rfl⟩ := Option.map_eq_some_iff.mp hstep
      obtain ⟨-, new, hspeaks⟩ := speaks_of_act (hinv.ok g a hg) hact
      exact reported_speak h hg ((h.filed g a hg).act (hinv.ok g a hg).hash hact) hspeaks
  | send g =>
    simp only [step] at hstep
    split at hstep
    · cases hstep
    · rename_i a hg
      split at hstep
      · cases hstep
      · rename_i type info outbox hout
        obtain rfl := Option.some.inj hstep
        exact reported_send h hg hout
  | receive g r type d infoHash =>
    simp only [step] at hstep
    split at hstep
    · rename_i info rest b hq hr
      obtain ⟨b', hreceive, rfl⟩ := Option.map_eq_some_iff.mp hstep
      obtain rfl : d = device r g type := hl
      exact reported_receive hinv h hq hr hreceive
    · cases hstep

/-- **Every run.** -/
theorem reported_of_run {cfg : Config n} {ls : List (Label n)} (hls : ∀ l ∈ ls, l.Reports device)
    (h : Run.exec (step cfg) (State.init n) ls = some s) :
    Inv cfg s ∧ Reported cfg device s := by
  have hguard : Run.Guarded (step cfg) (fun _ l => l.Reports device) (State.init n) ls :=
    Run.guarded_of_forall hls _
  refine Run.invariant_guarded (fun s => Inv cfg s ∧ Reported cfg device s) ?_
    ⟨inv_init cfg, reported_init cfg device⟩ hguard h
  intro s l s' hs hl hstep
  exact ⟨inv_step hs.1 hstep, reported_step hs.1 hs.2 hl hstep⟩

/-! ## The result -/

/-- The transport over which a sample goes from `g` to `r`. -/
def Setup.route (cfg : Setup n) (preferredType : TransportType) (g r : Fin n) : TransportType :=
  (cfg.transports g).findMatchingType (cfg.transports r).bitset preferredType

/-- Every gateway advertises the transports that work. -/
def Setup.Advertised (cfg : Setup n) : Prop :=
  ∀ g type, (cfg.transports g).bitset.getLsbD type.index = (cfg.transports g).isGood type

/-- Gateway `r` is running and has a subscriber with the hash. -/
def State.Subscribes (getClassHash : ServiceDescription → ClassHash) (s : State n)
    (serviceHash : ClassHash) (r : Fin n) : Prop :=
  ∃ b, s.gateways r = some b ∧ b.Running ∧
    ∃ service ∈ b.discovery.localState.userSubscribers.toList, getClassHash service = serviceHash

/-- If the bits of both sides are those of the transports that work, `findMatchingType` finds one
that works on both sides. -/
theorem good_findMatchingType {t t' : TransportInfo}
    (ht : ∀ type, t.bitset.getLsbD type.index = t.isGood type)
    (ht' : ∀ type, t'.bitset.getLsbD type.index = t'.isGood type) (preferredType : TransportType)
    (hshare : ∃ type, t.isGood type = true ∧ t'.isGood type = true) :
    t.isGood (t.findMatchingType t'.bitset preferredType) = true ∧
      t'.isGood (t.findMatchingType t'.bitset preferredType) = true := by
  -- as a record of the other side would have it
  set record : DeviceRecord := ⟨⟨.empty, t'.bitset, 0, 0, false⟩, .empty⟩
  by_cases hp : Routes.PrefersBoth t preferredType record
  · have hroute : t.findMatchingType t'.bitset preferredType = preferredType :=
      Routes.findMatchingType_of_prefersBoth hp
    rw [hroute, ← ht, ← ht']
    exact ⟨hp.2.2, hp.2.1⟩
  · have hen : t.Enabled := by
      intro type hgood
      rw [ht, hgood]
    rcases Routes.findMatchingType_of_not_prefersBoth hen hp with ⟨-, hno⟩ | ⟨type, htype, hu, -⟩
    · obtain ⟨type, hg, hr⟩ := hshare
      refine absurd ⟨hen type hg, hg, ?_⟩ (hno type)
      exact (ht' type).trans hr
    · have hroute : t.findMatchingType t'.bitset preferredType = type := htype
      rw [hroute, ← ht']
      exact ⟨hu.2.1, hu.2.2⟩

/-- The transport is one that both have. -/
theorem route_good (hadv : cfg.Advertised) (preferredType : TransportType)
    (hshared : ∃ type, cfg.Share g r type) :
    (cfg.transports g).isGood (cfg.route preferredType g r) = true ∧
      (cfg.transports r).isGood (cfg.route preferredType g r) = true :=
  good_findMatchingType (hadv g) (hadv r) preferredType hshared

section Quiet

variable {getClassHash : ServiceDescription → ClassHash} {serviceHash : ClassHash}
  {record : DeviceRecord}

/-- In a quiet state the record of a gateway has what that gateway announces. -/
theorem announces_of_quiet (hinv : Inv cfg s) (hq : s.Quiet) (hg : s.gateways g = some a)
    (hr : s.gateways r = some b) (hne : r ≠ g) (hmem : record ∈ a.discovery.records.toList)
    (hhash : record.info.gatewayHash = cfg.gatewayHash r) :
    b.terminated = false ∧ services record.info = b.current := by
  have hann := (hinv.record r b g a hne hr hg record hmem hhash).resolve_right
    (not_linked_of_quiet cfg hq r g)
  have hterm : b.terminated = false := by
    rw [← hann.1]
    exact (hinv.ok g a hg).ordinary record hmem
  refine ⟨hterm, ?_⟩
  rcases hann.2 hterm with heq | heq
  · exact heq
  · exact heq.trans ((hinv.ok r b hr).settled (hq.2 r b hr).2.1)

/-- In a quiet state two running gateways know each other. -/
theorem known_of_quiet (hinv : Inv cfg s) (hq : s.Quiet) (hne : g ≠ r)
    (hg : s.gateways g = some a) (hr : s.gateways r = some b) (ha : a.Running) (hb : b.Running) :
    cfg.gatewayHash r ∈ a.discovery.records.hashes := by
  have hnl := not_linked_of_quiet cfg hq
  rcases hinv.met g a r b hne hg hr ha hb with h | h
  · exact h.resolve_right (hnl r g)
  · exact (hinv.answered r b g a hne.symm hr hg hb.2 (h.resolve_right (hnl g r))).resolve_right
      (hnl r g)

/-- A record lists a matching subscriber exactly when its gateway has one and is running. -/
theorem lists_iff_subscribes (hinv : Inv cfg s) (h : Reported cfg device s) (hq : s.Quiet)
    (hg : s.gateways g = some a) (hr : s.gateways r = some b) (hne : r ≠ g)
    (hmem : record ∈ a.discovery.records.toList)
    (hhash : record.info.gatewayHash = cfg.gatewayHash r) :
    Routes.Lists getClassHash serviceHash record ↔ s.Subscribes getClassHash serviceHash r := by
  obtain ⟨hterm, hsame⟩ := announces_of_quiet hinv hq hg hr hne hmem hhash
  have hservices : ∀ x, x ∈ record.info.userSubscribers.toList ↔
      x ∈ b.discovery.localState.userSubscribers.toList := by
    intro x
    have := Finset.ext_iff.mp hsame x
    simpa [services, Gateway.current] using this
  constructor
  · rintro ⟨service, hs, hclass⟩
    have hs' := (hservices service).mp hs
    have hcb : b.discovery.updateCallback = true := by
      cases hcb : b.discovery.updateCallback with
      | true => rfl
      | false =>
        rw [(h.filed r b hr).fresh hcb] at hs'
        cases hs'
    have hflag : b.discovery.terminateFlag = false := by
      cases hflag : b.discovery.terminateFlag with
      | false => rfl
      | true =>
        rw [(hq.2 r b hr).2.2 hflag] at hterm
        cases hterm
    exact ⟨b, hr, ⟨hcb, hflag⟩, service, hs', hclass⟩
  · rintro ⟨b', hr', -, service, hs, hclass⟩
    obtain rfl : b = b' := Option.some.inj (hr.symm.trans hr')
    exact ⟨service, (hservices service).mpr hs, hclass⟩

/-- **One record.**  Its gateway is served, if it has a matching subscriber, under its device number
for the chosen transport. -/
theorem routeOf_of_quiet (hadv : cfg.Advertised) (hinv : Inv cfg s) (h : Reported cfg device s)
    (hq : s.Quiet) (hg : s.gateways g = some a) (ha : a.Running) (hr : s.gateways r = some b)
    (hne : r ≠ g) (hmem : record ∈ a.discovery.records.toList)
    (hhash : record.info.gatewayHash = cfg.gatewayHash r)
    (hsub : s.Subscribes getClassHash serviceHash r) :
    routeOf getClassHash (cfg.transports g) a.discovery.preferredType serviceHash record
      = some ⟨cfg.route a.discovery.preferredType g r,
          device g r (cfg.route a.discovery.preferredType g r)⟩ := by
  have hfiled := h.filed g a hg
  have hlists := (lists_iff_subscribes hinv h hq hg hr hne hmem hhash).mpr hsub
  obtain ⟨hgoodg, hgoodr⟩ := route_good hadv a.discovery.preferredType (hinv.shared _ _ hne.symm)
  set type := cfg.route a.discovery.preferredType g r with htype
  have hchoice : (cfg.transports g).findMatchingType record.info.gatewayBitset
      a.discovery.preferredType = type := by
    rw [hfiled.stamped record hmem r hhash, htype]
    rfl
  have htype : type ≠ .none := by
    intro hnone
    rw [hnone] at hgoodg
    cases hgoodg
  -- the gateway of the record is running and knows this one
  obtain ⟨b', hr', hb, -⟩ := hsub
  obtain rfl : b = b' := Option.some.inj (hr.symm.trans hr')
  have hknown := known_of_quiet hinv hq hne hr hg hb ha
  have hlink : s.link r g type = [] := by
    by_contra hlink
    exact not_linked_of_quiet cfg hq r g ⟨type, hgoodg, hlink⟩
  obtain ⟨record', hmem', hhash', i, hi, hitype⟩ := (h.stored r b g a hne hr hg hb.2 hknown type
    hgoodr hgoodg).resolve_right fun hl => hl hlink
  obtain rfl : record' = record := by
    refine List.inj_on_of_nodup_map (hinv.ok g a hg).nodup hmem' hmem ?_
    exact hhash'.trans hhash.symm
  have hdevice : i = ⟨type, device g r type⟩ := by
    have := hfiled.device record' hmem' r hhash' i hi
    rw [hitype] at this
    rw [← this, ← hitype]
  rw [← hdevice]
  exact (Routes.routeOf_eq_some_iff hlists (hfiled.nodup record' hmem') hchoice htype).mpr
    ⟨hi, hitype⟩

end Quiet

/-- **Routing after discovery.**  In every reachable state with no message in flight and no handler
running, a running gateway sends the samples of a service to exactly the other running gateways with
a matching subscriber, to each of them once, over a transport that works on both sides and under
the device number that this transport has for it. -/
theorem converged_routing (cfg : Config n) (device : Fin n → Fin n → TransportType → UInt32)
    (getClassHash : ServiceDescription → ClassHash) (hadv : cfg.Advertised)
    {ls : List (Label n)} (hls : ∀ l ∈ ls, l.Reports device) {s : State n}
    (hrun : Run.exec (step cfg) (State.init n) ls = some s) (hq : s.Quiet) {g : Fin n}
    {a : Gateway} (hg : s.gateways g = some a) (ha : a.Running) (serviceHash : ClassHash) :
    ∃ rs : List (Fin n), rs.Nodup ∧
      (∀ r, r ∈ rs ↔ r ≠ g ∧ s.Subscribes getClassHash serviceHash r) ∧
      (computeDeviceIndices getClassHash (cfg.transports g) a.discovery.preferredType serviceHash
          a.discovery.records).toList
        = rs.map (fun r => ⟨cfg.route a.discovery.preferredType g r,
            device g r (cfg.route a.discovery.preferredType g r)⟩) ∧
      ∀ r ∈ rs, (cfg.transports g).isGood (cfg.route a.discovery.preferredType g r) = true ∧
        (cfg.transports r).isGood (cfg.route a.discovery.preferredType g r) = true := by
  classical
  obtain ⟨hinv, h⟩ := reported_of_run hls hrun
  have hok := hinv.ok g a hg
  -- the gateway of each record
  have hex : ∀ record : DeviceRecord, ∃ r : Fin n, record ∈ a.discovery.records.toList →
      r ≠ g ∧ record.info.gatewayHash = cfg.gatewayHash r ∧ ∃ b, s.gateways r = some b := by
    intro record
    by_cases hmem : record ∈ a.discovery.records.toList
    · obtain ⟨r, b, hne, hhash, hb⟩ := hinv.known g a _ hg (List.mem_map_of_mem hmem)
      exact ⟨r, fun _ => ⟨hne, hhash.symm, b, hb⟩⟩
    · exact ⟨g, fun hmem' => absurd hmem' hmem⟩
  choose owner howner using hex
  set listed := a.discovery.records.toList.filter
    fun record => decide (Routes.Lists getClassHash serviceHash record)
  have hlisted : ∀ record, record ∈ listed ↔ record ∈ a.discovery.records.toList ∧
      s.Subscribes getClassHash serviceHash (owner record) := by
    intro record
    rw [List.mem_filter, decide_eq_true_iff]
    refine and_congr_right fun hmem => ?_
    obtain ⟨hne, hhash, b, hb⟩ := howner record hmem
    exact lists_iff_subscribes hinv h hq hg hb hne hmem hhash
  refine ⟨listed.map owner, ?_, fun r => ?_, ?_, fun r hr => ?_⟩
  · -- two records are records of two gateways
    refine (List.Nodup.of_map _ (hok.nodup.sublist (List.filter_sublist.map _))).map_on ?_
    intro x hx y hy heq
    have hx' := (List.mem_filter.mp hx).1
    have hy' := (List.mem_filter.mp hy).1
    refine List.inj_on_of_nodup_map hok.nodup hx' hy' ?_
    exact (howner x hx').2.1.trans ((congrArg cfg.gatewayHash heq).trans (howner y hy').2.1.symm)
  · rw [List.mem_map]
    constructor
    · rintro ⟨record, hrecord, rfl⟩
      obtain ⟨hmem, hsub⟩ := (hlisted record).mp hrecord
      exact ⟨(howner record hmem).1, hsub⟩
    · rintro ⟨hne, hsub⟩
      obtain ⟨b, hb, hrunning, -⟩ := id hsub
      obtain ⟨record, hmem, hhash⟩ := List.mem_map.mp
        (known_of_quiet hinv hq hne.symm hg hb ha hrunning)
      have hr : owner record = r := cfg.distinct ((howner record hmem).2.1.symm.trans hhash)
      exact ⟨record, (hlisted record).mpr ⟨hmem, hr ▸ hsub⟩, hr⟩
  · rw [toList_computeDeviceIndices, List.map_map]
    have hroute : ∀ record ∈ a.discovery.records.toList,
        routeOf getClassHash (cfg.transports g) a.discovery.preferredType serviceHash record
          = if Routes.Lists getClassHash serviceHash record then
              some ((fun r => ⟨cfg.route a.discovery.preferredType g r,
                device g r (cfg.route a.discovery.preferredType g r)⟩) (owner record))
            else none := by
      intro record hmem
      obtain ⟨hne, hhash, b, hb⟩ := howner record hmem
      split
      · rename_i hl
        exact routeOf_of_quiet hadv hinv h hq hg ha hb hne hmem hhash
          ((lists_iff_subscribes hinv h hq hg hb hne hmem hhash).mp hl)
      · rename_i hl
        exact Routes.routeOf_of_not_lists hl
    rw [List.filterMap_congr hroute, ← List.filterMap_eq_map, List.filterMap_filter]
    refine List.filterMap_congr fun record _ => ?_
    simp
  · obtain ⟨record, hrecord, rfl⟩ := List.mem_map.mp hr
    obtain ⟨hmem, -⟩ := (hlisted record).mp hrecord
    exact route_good hadv _ (hinv.shared _ _ (howner record hmem).1.symm)

/-- After the run of `Convergence`, gateway 1 sends to gateway 0 over UDP. -/
theorem converged_routing_demo :
    ∃ s a, Run.exec (step demoConfig) (State.init 2) demoRun = some s ∧ s.Quiet ∧
      s.gateways 1 = some a ∧ a.Running ∧
      s.Subscribes demoClassHash (demoClassHash demoService) 0 ∧
      ∃ rs : List (Fin 2), rs.Nodup ∧
        (∀ r, r ∈ rs ↔
          r ≠ 1 ∧ s.Subscribes demoClassHash (demoClassHash demoService) r) ∧
        (computeDeviceIndices demoClassHash (demoConfig.transports 1) a.discovery.preferredType
            (demoClassHash demoService) a.discovery.records).toList
          = rs.map (fun r => ⟨demoConfig.route a.discovery.preferredType 1 r, 0⟩) := by
  have hadv : demoConfig.Advertised := by
    intro g type
    fin_cases g <;> cases type <;> rfl
  have hls : ∀ l ∈ demoRun, l.Reports fun _ _ _ => 0 := by
    intro l hl
    simp only [demoRun, List.mem_cons, List.not_mem_nil, or_false] at hl
    rcases hl with rfl | rfl | rfl | rfl | rfl | rfl | rfl | rfl | rfl | rfl | rfl | rfl | rfl |
      rfl | rfl <;> trivial
  obtain ⟨s, a, hrun, hg, ha, hsub⟩ : ∃ s a,
      Run.exec (step demoConfig) (State.init 2) demoRun = some s ∧ s.gateways 1 = some a ∧
        a.Running ∧ s.Subscribes demoClassHash (demoClassHash demoService) 0 :=
    ⟨_, _, rfl, rfl, ⟨rfl, rfl⟩, _, rfl, ⟨rfl, rfl⟩, demoService, List.mem_singleton_self _, rfl⟩
  have hq := demoRun_quiet hrun
  obtain ⟨rs, hnodup, hrs, hlist, -⟩ := converged_routing demoConfig (fun _ _ _ => 0) demoClassHash
    hadv hls hrun hq hg ha (demoClassHash demoService)
  exact ⟨s, a, hrun, hq, hg, ha, hsub, rs, hnodup, hrs, hlist⟩

end Network

end P3com
