/-
# Discovery converges

In every state of the network without a message in flight and without a handler running, the
running gateways know each other, with the subscribers that they have now, and nobody has a record
of a gateway that has deinitialized (`discovery_converges`).

The argument follows what a gateway *announces*: a message that carries its current subscribers or
the ones that it remembers as sent, and after `deinitialize` only the termination message.  The
two sets differ only between the two sections of `readPortSubscriber`.  Four facts are kept by
every step, for gateways `g` and `r`:

* the last message on every link from `g` to `r` is announced by `g`;
* the record of `g` at `r` is announced by `g`, or a message of `g` is on its way to `r`;
* if `g` has a record of `r` and does not terminate, then `r` has one of `g`, or a message of `g`
  is on its way (the reply to a gateway not yet seen);
* if both are running, one of them has a record of the other, or a message is on its way (the
  message of the one that was initialized later).
-/
import P3com.Generic.Network
import Mathlib.Data.Fintype.Card
import Mathlib.Tactic.FinCases

namespace P3com

namespace Network

/-! ## What a gateway announces -/

/-- The services that a discovery message lists. -/
def services (info : PubSubInfo) : Finset ServiceDescription :=
  info.userSubscribers.toList.toFinset

/-- The services of the local subscribers. -/
def Gateway.current (a : Gateway) : Finset ServiceDescription :=
  a.discovery.localState.userSubscribers.toList.toFinset

/-- The services in `m_lastSentDiscoveryInfo`. -/
def Gateway.lastSent (a : Gateway) : Finset ServiceDescription :=
  services a.discovery.lastSentDiscoveryInfo

/-- The message says what the gateway would say. -/
def Announces (a : Gateway) (info : PubSubInfo) : Prop :=
  info.isTermination = a.terminated ∧
    (a.terminated = false → services info = a.current ∨ services info = a.lastSent)

/-- The local subscribers fit into a message. -/
theorem services_generateDiscoveryInfo (d : Discovery) (bitset : Bitset) (infoHash : Hash) :
    services (d.generateDiscoveryInfo bitset infoHash)
      = d.localState.userSubscribers.toList.toFinset := by
  have hnil : (CxxVector.empty : ServiceVector).toList.Nodup := List.nodup_nil
  have hfit : ((CxxVector.empty : ServiceVector).toList
      ++ d.localState.userSubscribers.toList).toFinset.card ≤ maxTopics :=
    Nat.le_trans (List.toFinset_card_le _) d.localState.userSubscribers.size_le
  ext x
  have := (CxxVector.foldl_pushNew hnil hfit).2 x
  simpa [services, Discovery.generateDiscoveryInfo, CxxVector.pushUnique] using this

theorem mem_broadcast {t : TransportInfo} {info : PubSubInfo} {p : TransportType × PubSubInfo} :
    p ∈ broadcast t info ↔ t.isGood p.1 = true ∧ p.2 = info := by
  obtain ⟨type, m⟩ := p
  unfold broadcast
  constructor
  · intro h
    obtain ⟨type', hmem, heq⟩ := List.mem_map.mp h
    obtain ⟨rfl, rfl⟩ := Prod.mk.inj heq
    exact ⟨(List.mem_filter.mp hmem).2, rfl⟩
  · rintro ⟨hgood, rfl⟩
    refine List.mem_map.mpr ⟨type, List.mem_filter.mpr ⟨?_, hgood⟩, rfl⟩
    cases type with
    | none => simp [TransportInfo.isGood, TransportInfo.slot] at hgood
    | _ => simp [TransportInfo.types]

/-! ## One gateway -/

variable {n : Nat} {cfg : Setup n} {g : Fin n} {a a' : Gateway}

/-- What holds of every gateway by itself. -/
structure Gateway.Ok (cfg : Setup n) (g : Fin n) (a : Gateway) : Prop where
  hash : a.discovery.gatewayHash = cfg.gatewayHash g
  nodup : a.discovery.records.hashes.Nodup
  ordinary : ∀ record ∈ a.discovery.records.toList, record.info.isTermination = false
  settled : a.reading = false → a.lastSent = a.current
  flag : a.discovery.terminateFlag = true → a.discovery.updateCallback = true
  terminated : a.terminated = true → a.discovery.terminateFlag = true ∧ a.reading = false
  outbox : ∀ p ∈ a.outbox, (cfg.transports g).isGood p.1 = true ∧
    p.2.gatewayHash = cfg.gatewayHash g ∧ Announces a p.2

/-- The gateway puts messages into its outbox.  If it no longer announces what it announced
before, or has just been initialized, there is a message for every enabled transport. -/
structure Speaks (t : TransportInfo) (a a' : Gateway) (new : List (TransportType × PubSubInfo)) :
    Prop where
  outbox : a'.outbox = a.outbox ++ new
  records : a'.discovery.records = a.discovery.records
  told : (∀ info, Announces a info → Announces a' info) ∨
    ∀ type, t.isGood type = true → ∃ info, (type, info) ∈ new
  met : a'.discovery.updateCallback = true → a.discovery.updateCallback = true ∨
    ∀ type, t.isGood type = true → ∃ info, (type, info) ∈ new
  flag : a.discovery.terminateFlag = true → a'.discovery.terminateFlag = true
  terminated : a.terminated = true → a'.terminated = true

theorem covers_broadcast (t : TransportInfo) (info : PubSubInfo) :
    ∀ type, t.isGood type = true → ∃ m, (type, m) ∈ broadcast t info :=
  fun _ hgood => ⟨info, mem_broadcast.mpr ⟨hgood, rfl⟩⟩

theorem Announces.congr {info : PubSubInfo} (h : Announces a info)
    (hterm : a'.terminated = a.terminated) (hcur : a'.current = a.current)
    (hlast : a'.lastSent = a.lastSent) : Announces a' info := by
  unfold Announces at *
  rw [hterm, hcur, hlast]
  exact h

/-- A gateway that does not terminate announces what `generateDiscoveryInfo` returns. -/
theorem announces_generate (hterm : a.terminated = false) (bitset : Bitset) (infoHash : Hash) :
    Announces a (a.discovery.generateDiscoveryInfo bitset infoHash) :=
  ⟨hterm.symm, fun _ => Or.inl (services_generateDiscoveryInfo _ _ _)⟩

theorem Gateway.Ok.not_terminated (h : a.Ok cfg g) (hflag : a.discovery.terminateFlag = false) :
    a.terminated = false := by
  cases ht : a.terminated with
  | false => rfl
  | true =>
    have := (h.terminated ht).1
    rw [hflag] at this
    cases this

/-- The messages of a broadcast are in order. -/
theorem outbox_broadcast {info : PubSubInfo} (hhash : info.gatewayHash = cfg.gatewayHash g)
    (hann : Announces a info) : ∀ p ∈ broadcast (cfg.transports g) info,
      (cfg.transports g).isGood p.1 = true ∧ p.2.gatewayHash = cfg.gatewayHash g ∧
        Announces a p.2 := by
  intro p hp
  obtain ⟨hgood, rfl⟩ := mem_broadcast.mp hp
  exact ⟨hgood, hhash, hann⟩

/-! ### What the actions do -/

theorem outbox_of_idle (h : a.outbox = []) (new : List (TransportType × PubSubInfo)) :
    new = a.outbox ++ new := by
  rw [h, List.nil_append]

theorem speaks_initializeDiscovery {infoHash : Hash} (h : a.Ok cfg g)
    (hact : a.act (cfg.transports g) (.initializeDiscovery infoHash) = some a') :
    a'.Ok cfg g ∧ ∃ new, Speaks (cfg.transports g) a a' new := by
  simp only [Gateway.act] at hact
  split at hact
  · rename_i hc
    obtain rfl := Option.some.inj hact
    simp only [Gateway.idle, Bool.and_eq_true, List.isEmpty_iff, Bool.not_eq_true'] at hc
    obtain ⟨hout, hcb⟩ := hc
    have hflag : a.discovery.terminateFlag = false := by
      cases hf : a.discovery.terminateFlag with
      | false => rfl
      | true =>
        have := h.flag hf
        rw [hcb] at this
        cases this
    have hterm := h.not_terminated hflag
    constructor
    · exact ⟨h.hash, h.nodup, h.ordinary, h.settled, fun _ => rfl, h.terminated,
        outbox_broadcast h.hash ⟨hterm.symm, fun _ =>
          Or.inl (services_generateDiscoveryInfo _ _ _)⟩⟩
    · exact ⟨_, outbox_of_idle hout _, rfl, Or.inl fun info => id,
        fun _ => Or.inr (covers_broadcast _ _), id, id⟩
  · cases hact

/-- The first section changes what is current.  Before it, the current services were the ones sent
last. -/
theorem speaks_readPorts {sample : PortIntrospection} (h : a.Ok cfg g)
    (hact : a.act (cfg.transports g) (.readPorts sample) = some a') :
    a'.Ok cfg g ∧ ∃ new, Speaks (cfg.transports g) a a' new := by
  simp only [Gateway.act] at hact
  split at hact
  · rename_i hc
    simp only [Gateway.idle, Bool.and_eq_true, List.isEmpty_iff, Bool.not_eq_true'] at hc
    obtain ⟨⟨⟨hout, -⟩, hreading⟩, hterm⟩ := hc
    have hsettled := h.settled hreading
    simp only [Discovery.readPorts] at hact
    cases hu : a.discovery.localState.unchanged (LocalState.ofSample (some sample)) with
    | true =>
      rw [hu, if_pos rfl] at hact
      obtain rfl := Option.some.inj hact
      have hcur : (LocalState.ofSample (some sample)).userSubscribers.toList.toFinset
          = a.current := by
        ext x
        simpa [Gateway.current] using (LocalState.mem_iff_of_unchanged hu x).2
      constructor
      · refine ⟨h.hash, h.nodup, h.ordinary, fun _ => ?_, h.flag, h.terminated, ?_⟩
        · exact hsettled.trans hcur.symm
        · simp [hout]
      · refine ⟨[], by simp, rfl, Or.inl fun info hann => ?_, Or.inl, id, id⟩
        exact hann.congr rfl hcur rfl
    | false =>
      rw [hu, if_neg Bool.false_ne_true] at hact
      obtain rfl := Option.some.inj hact
      constructor
      · refine ⟨h.hash, h.nodup, h.ordinary, ?_, h.flag, ?_, ?_⟩
        · intro hr
          cases hr
        · intro ht
          rw [hterm] at ht
          cases ht
        · simp [hout]
      · refine ⟨[], by simp, rfl, Or.inl fun info hann => ?_, Or.inl, id, id⟩
        refine ⟨hann.1, fun ht => Or.inr ?_⟩
        rcases hann.2 ht with heq | heq
        · exact heq.trans hsettled.symm
        · exact heq
  · cases hact

/-- The last section: nothing to send, or everyone is told. -/
theorem speaks_sendIfChanged {infoHash : Hash} (h : a.Ok cfg g)
    (hact : a.act (cfg.transports g) (.sendIfChanged infoHash) = some a') :
    a'.Ok cfg g ∧ ∃ new, Speaks (cfg.transports g) a a' new := by
  simp only [Gateway.act] at hact
  split at hact
  · rename_i hc
    simp only [Gateway.idle, Bool.and_eq_true, List.isEmpty_iff] at hc
    obtain ⟨hout, hreading⟩ := hc
    have hterm : a.terminated = false := by
      cases ht : a.terminated with
      | false => rfl
      | true =>
        have := (h.terminated ht).2
        rw [hreading] at this
        cases this
    have hnot : a.terminated = true → a.discovery.terminateFlag = true ∧ false = false := by
      intro ht
      rw [hterm] at ht
      cases ht
    have hserv := services_generateDiscoveryInfo a.discovery (cfg.transports g).bitset infoHash
    simp only [Discovery.sendIfChanged] at hact
    split at hact
    · rename_i hne heq
      split at heq
      · cases heq
      · rename_i hsame
        obtain ⟨rfl, -⟩ := Prod.mk.inj heq
        obtain rfl := Option.some.inj hact
        simp only [ne_eq, not_not] at hsame
        constructor
        · refine ⟨h.hash, h.nodup, h.ordinary, fun _ => ?_, h.flag, hnot, ?_⟩
          · refine Eq.trans ?_ hserv
            simp only [Gateway.lastSent, services, hsame]
          · simp [hout]
        · exact ⟨[], by simp, rfl, Or.inl fun info hann => hann.congr rfl rfl rfl, Or.inl, id, id⟩
    · rename_i hne heq
      split at heq
      · obtain ⟨rfl, hinfo⟩ := Prod.mk.inj heq
        obtain rfl := Option.some.inj hinfo
        obtain rfl := Option.some.inj hact
        constructor
        · refine ⟨h.hash, h.nodup, h.ordinary, fun _ => hserv, h.flag, hnot, ?_⟩
          exact outbox_broadcast h.hash ⟨hterm.symm, fun _ => Or.inl hserv⟩
        · exact ⟨_, outbox_of_idle hout _, rfl, Or.inr (covers_broadcast _ _), Or.inl, id, id⟩
      · cases (Prod.mk.inj heq).2
  · cases hact

theorem speaks_resend {type : TransportType} {infoHash : Hash} (h : a.Ok cfg g)
    (hact : a.act (cfg.transports g) (.resendDiscoveryInfoToTransport type infoHash) = some a') :
    a'.Ok cfg g ∧ ∃ new, Speaks (cfg.transports g) a a' new := by
  simp only [Gateway.act] at hact
  split at hact
  · rename_i hc
    obtain rfl := Option.some.inj hact
    simp only [Gateway.idle, Bool.and_eq_true, List.isEmpty_iff, Bool.not_eq_true'] at hc
    obtain ⟨⟨hout, -⟩, hflag⟩ := hc
    have hterm := h.not_terminated hflag
    constructor
    · refine ⟨h.hash, h.nodup, h.ordinary, h.settled, h.flag, h.terminated, ?_⟩
      intro p hp
      dsimp only at hp
      split at hp
      · rename_i hgood
        obtain rfl := List.mem_singleton.mp hp
        exact ⟨hgood, h.hash, announces_generate hterm _ _⟩
      · cases hp
    · exact ⟨_, outbox_of_idle hout _, rfl, Or.inl fun info => id, Or.inl, id, id⟩
  · cases hact

theorem speaks_setTerminateFlag (h : a.Ok cfg g)
    (hact : a.act (cfg.transports g) .setTerminateFlag = some a') :
    a'.Ok cfg g ∧ ∃ new, Speaks (cfg.transports g) a a' new := by
  simp only [Gateway.act] at hact
  split at hact
  · rename_i hc
    obtain rfl := Option.some.inj hact
    simp only [Bool.and_eq_true, Bool.not_eq_true'] at hc
    obtain ⟨hcb, hflag⟩ := hc
    have hterm := h.not_terminated hflag
    constructor
    · refine ⟨h.hash, h.nodup, h.ordinary, h.settled, fun _ => hcb, ?_, h.outbox⟩
      intro ht
      rw [hterm] at ht
      cases ht
    · exact ⟨[], by simp, rfl, Or.inl fun info => id, Or.inl, fun _ => rfl, id⟩
  · cases hact

theorem speaks_sendTermination {infoHash : Hash} (h : a.Ok cfg g)
    (hact : a.act (cfg.transports g) (.sendTermination infoHash) = some a') :
    a'.Ok cfg g ∧ ∃ new, Speaks (cfg.transports g) a a' new := by
  simp only [Gateway.act] at hact
  split at hact
  · rename_i hc
    obtain rfl := Option.some.inj hact
    simp only [Gateway.idle, Bool.and_eq_true, List.isEmpty_iff, Bool.not_eq_true'] at hc
    obtain ⟨⟨⟨hout, hflag⟩, hreading⟩, hterm⟩ := hc
    constructor
    · refine ⟨h.hash, h.nodup, h.ordinary, h.settled, h.flag, fun _ => ⟨hflag, hreading⟩, ?_⟩
      exact outbox_broadcast h.hash ⟨rfl, fun ht => by cases ht⟩
    · exact ⟨_, outbox_of_idle hout _, rfl, Or.inr (covers_broadcast _ _), Or.inl, id,
        fun _ => rfl⟩
  · cases hact

theorem speaks_of_act {action : Gateway.Action} (h : a.Ok cfg g)
    (hact : a.act (cfg.transports g) action = some a') :
    a'.Ok cfg g ∧ ∃ new, Speaks (cfg.transports g) a a' new := by
  cases action with
  | initializeDiscovery infoHash => exact speaks_initializeDiscovery h hact
  | readPorts sample => exact speaks_readPorts h hact
  | sendIfChanged infoHash => exact speaks_sendIfChanged h hact
  | resendDiscoveryInfoToTransport type infoHash => exact speaks_resend h hact
  | setTerminateFlag => exact speaks_setTerminateFlag h hact
  | sendTermination infoHash => exact speaks_sendTermination h hact

/-! ## The network -/

variable {s s' : State n} {r : Fin n} {type : TransportType}

/-- The messages on their way from `g` to `r` over a transport, those in the outbox of `g`
included. -/
def State.link (s : State n) (g r : Fin n) (type : TransportType) : List PubSubInfo :=
  s.queue g r type ++
    match s.gateways g with
    | none => []
    | some a => a.out type

/-- A message of `g` is on its way to `r`. -/
def State.Linked (cfg : Setup n) (s : State n) (g r : Fin n) : Prop :=
  ∃ type, (cfg.transports r).isGood type = true ∧ s.link g r type ≠ []

/-- What every step keeps. -/
structure Inv (cfg : Setup n) (s : State n) : Prop where
  shared : ∀ g r, g ≠ r → ∃ type, cfg.Share g r type
  ok : ∀ g a, s.gateways g = some a → a.Ok cfg g
  known : ∀ g a h, s.gateways g = some a → h ∈ a.discovery.records.hashes →
    ∃ r b, r ≠ g ∧ cfg.gatewayHash r = h ∧ s.gateways r = some b
  queued : ∀ g r type, s.queue g r type ≠ [] → g ≠ r ∧ (s.gateways g).isSome ∧
    (s.gateways r).isSome ∧ (cfg.transports g).isGood type = true ∧
    (cfg.transports r).isGood type = true
  messages : ∀ g a r type info, s.gateways g = some a → info ∈ s.queue g r type →
    info.gatewayHash = cfg.gatewayHash g ∧ (info.isTermination = true → a.terminated = true)
  last : ∀ g a r b type info, g ≠ r → s.gateways g = some a → s.gateways r = some b →
    (cfg.transports r).isGood type = true → (s.link g r type).getLast? = some info →
    Announces a info
  record : ∀ g a r b, g ≠ r → s.gateways g = some a → s.gateways r = some b →
    ∀ record ∈ b.discovery.records.toList, record.info.gatewayHash = cfg.gatewayHash g →
      Announces a record.info ∨ s.Linked cfg g r
  answered : ∀ g a r b, g ≠ r → s.gateways g = some a → s.gateways r = some b →
    a.discovery.terminateFlag = false → cfg.gatewayHash r ∈ a.discovery.records.hashes →
      cfg.gatewayHash g ∈ b.discovery.records.hashes ∨ s.Linked cfg g r
  met : ∀ g a r b, g ≠ r → s.gateways g = some a → s.gateways r = some b →
    a.Running → b.Running →
      (cfg.gatewayHash r ∈ a.discovery.records.hashes ∨ s.Linked cfg r g) ∨
        cfg.gatewayHash g ∈ b.discovery.records.hashes ∨ s.Linked cfg g r

theorem inv_init (cfg : Config n) : Inv cfg (State.init n) where
  shared := cfg.shared
  ok := by
    intro g a h
    cases h
  known := by
    intro g a _ h
    cases h
  queued := by
    intro g r type h
    exact absurd rfl h
  messages := by
    intro g a _ _ _ h
    cases h
  last := by
    intro g a _ _ _ _ _ h
    cases h
  record := by
    intro g a _ _ _ h
    cases h
  answered := by
    intro g a _ _ _ h
    cases h
  met := by
    intro g a _ _ _ h
    cases h

/-! ### Links -/

theorem mem_out {info : PubSubInfo} : info ∈ a.out type ↔ (type, info) ∈ a.outbox := by
  unfold Gateway.out
  constructor
  · intro h
    obtain ⟨⟨type', info'⟩, hmem, rfl⟩ := List.mem_map.mp h
    obtain ⟨hmem', htype⟩ := List.mem_filter.mp hmem
    obtain rfl : type' = type := by simpa using htype
    exact hmem'
  · intro h
    exact List.mem_map.mpr ⟨(type, info), List.mem_filter.mpr ⟨h, by simp⟩, rfl⟩

theorem out_append {new : List (TransportType × PubSubInfo)} (h : a'.outbox = a.outbox ++ new) :
    a'.out type = a.out type ++ (new.filter fun p => p.1 = type).map Prod.snd := by
  unfold Gateway.out
  rw [h, List.filter_append, List.map_append]

theorem link_some (h : s.gateways g = some a) :
    s.link g r type = s.queue g r type ++ a.out type := by
  unfold State.link
  rw [h]

/-- A link depends on its queue and on the outbox of its sender. -/
theorem link_congr (hq : s'.queue g r type = s.queue g r type)
    (hg : s'.gateways g = s.gateways g) : s'.link g r type = s.link g r type := by
  unfold State.link
  rw [hq, hg]

@[simp] theorem set_gateways_self (s : State n) (g : Fin n) (a : Gateway) :
    (s.set g a).gateways g = some a := Function.update_self _ _ _

theorem set_gateways_of_ne (s : State n) (a : Gateway) (h : r ≠ g) :
    (s.set g a).gateways r = s.gateways r := Function.update_of_ne h _ _

/-- The gateways after one of them has changed. -/
theorem set_gateways_cases {b : Gateway} (h : (s.set g a').gateways r = some b) :
    (r = g ∧ b = a') ∨ (r ≠ g ∧ s.gateways r = some b) := by
  by_cases hr : r = g
  · subst hr
    rw [set_gateways_self] at h
    exact Or.inl ⟨rfl, (Option.some.inj h).symm⟩
  · rw [set_gateways_of_ne s a' hr] at h
    exact Or.inr ⟨hr, h⟩

theorem isSome_set_gateways (h : (s.gateways r).isSome) :
    ((s.set g a).gateways r).isSome := by
  by_cases hr : r = g
  · subst hr
    simp
  · rwa [set_gateways_of_ne s a hr]

/-- A gateway that is there stays, and may be another one than before. -/
theorem exists_set_gateways {c : Gateway} (h : s.gateways r = some c) :
    ∃ c', (s.set g a).gateways r = some c' :=
  Option.isSome_iff_exists.mp (isSome_set_gateways (Option.isSome_iff_exists.mpr ⟨c, h⟩))

/-- A link from `g` uses transports that `g` has enabled. -/
theorem Inv.good_of_link (h : Inv cfg s) (hg : s.gateways g = some a)
    (hne : s.link g r type ≠ []) : (cfg.transports g).isGood type = true := by
  rw [link_some hg] at hne
  by_cases hq : s.queue g r type = []
  · rw [hq, List.nil_append] at hne
    obtain ⟨info, hmem⟩ := List.exists_mem_of_ne_nil _ hne
    exact ((h.ok g a hg).outbox _ (mem_out.mp hmem)).1
  · exact (h.queued g r type hq).2.2.2.1

/-! ### A gateway speaks -/

section Speaks

variable {new : List (TransportType × PubSubInfo)}

theorem link_set_of_ne {p : Fin n} (hp : p ≠ g) :
    (s.set g a').link p r type = s.link p r type :=
  link_congr rfl (set_gateways_of_ne s a' hp)

theorem link_set_self (hg : s.gateways g = some a) (h : a'.outbox = a.outbox ++ new) :
    (s.set g a').link g r type
      = s.link g r type ++ (new.filter fun p => p.1 = type).map Prod.snd := by
  rw [link_some (set_gateways_self s g a'), link_some hg, out_append h, List.append_assoc]
  rfl

/-- What is on its way stays on its way. -/
theorem Linked.set (hg : s.gateways g = some a) (h : a'.outbox = a.outbox ++ new) {p q : Fin n}
    (hl : s.Linked cfg p q) : (s.set g a').Linked cfg p q := by
  obtain ⟨type, hgood, hne⟩ := hl
  refine ⟨type, hgood, ?_⟩
  by_cases hp : p = g
  · subst hp
    rw [link_set_self hg h]
    exact List.append_ne_nil_of_left_ne_nil hne _
  · rwa [link_set_of_ne hp]

/-- A message on every enabled transport is on its way to every other gateway. -/
theorem linked_of_covers (hshared : ∃ type, cfg.Share g r type) (hg : s.gateways g = some a)
    (h : a'.outbox = a.outbox ++ new)
    (hcovers : ∀ type, (cfg.transports g).isGood type = true → ∃ info, (type, info) ∈ new) :
    (s.set g a').Linked cfg g r := by
  obtain ⟨type, hgood, hgood'⟩ := hshared
  obtain ⟨info, hmem⟩ := hcovers type hgood
  refine ⟨type, hgood', ?_⟩
  rw [link_set_self hg h]
  apply List.append_ne_nil_of_right_ne_nil
  have : info ∈ (new.filter fun p => p.1 = type).map Prod.snd :=
    List.mem_map.mpr ⟨(type, info), List.mem_filter.mpr ⟨hmem, by simp⟩, rfl⟩
  exact List.ne_nil_of_mem this

/-- **A gateway speaks.** -/
theorem inv_speak (h : Inv cfg s) (hg : s.gateways g = some a) (hok : a'.Ok cfg g)
    (hs : Speaks (cfg.transports g) a a' new) : Inv cfg (s.set g a') := by
  have hlinked : ∀ {p q : Fin n}, s.Linked cfg p q → (s.set g a').Linked cfg p q :=
    fun hl => Linked.set hg hs.outbox hl
  -- another view of the gateways: the records are the old ones
  have hback : ∀ {r : Fin n} {b : Gateway}, (s.set g a').gateways r = some b →
      ∃ b', s.gateways r = some b' ∧ b.discovery.records = b'.discovery.records ∧
        (b.discovery.terminateFlag = false → b'.discovery.terminateFlag = false) := by
    intro r b hb
    rcases set_gateways_cases hb with ⟨rfl, rfl⟩ | ⟨-, hb⟩
    · refine ⟨a, hg, hs.records, fun hf => ?_⟩
      cases hfa : a.discovery.terminateFlag with
      | false => rfl
      | true => rw [hs.flag hfa] at hf; cases hf
    · exact ⟨b, hb, rfl, id⟩
  constructor
  case shared => exact h.shared
  case ok =>
    intro p b hb
    rcases set_gateways_cases hb with ⟨rfl, rfl⟩ | ⟨-, hb⟩
    · exact hok
    · exact h.ok p b hb
  case known =>
    intro p b k hb hk
    obtain ⟨b', hb', hrec, -⟩ := hback hb
    rw [hrec] at hk
    obtain ⟨q, c, hne, hhash, hc⟩ := h.known p b' k hb' hk
    obtain ⟨c', hc'⟩ := exists_set_gateways (g := g) (a := a') hc
    exact ⟨q, c', hne, hhash, hc'⟩
  case queued =>
    intro p q type hne
    obtain ⟨h₁, h₂, h₃, h₄⟩ := h.queued p q type hne
    exact ⟨h₁, isSome_set_gateways h₂, isSome_set_gateways h₃, h₄⟩
  case messages =>
    intro p b q type info hb hinfo
    rcases set_gateways_cases hb with ⟨rfl, rfl⟩ | ⟨-, hb⟩
    · obtain ⟨hhash, hterm⟩ := h.messages p a q type info hg hinfo
      exact ⟨hhash, fun ht => hs.terminated (hterm ht)⟩
    · exact h.messages p b q type info hb hinfo
  case last =>
    intro p b q c type info hne hb hc hgood hlast
    obtain ⟨c', hc', -⟩ := hback hc
    rcases set_gateways_cases hb with ⟨rfl, rfl⟩ | ⟨hpg, hb⟩
    · rw [link_set_self hg hs.outbox] at hlast
      by_cases hnew : (new.filter fun p => p.1 = type).map Prod.snd = []
      · -- nothing new on this link: its last message is an old one
        rw [hnew, List.append_nil] at hlast
        have hann := h.last p a q c' type info hne hg hc' hgood hlast
        rcases hs.told with htold | hcovers
        · exact htold info hann
        · have hlink : s.link p q type ≠ [] := by
            intro hnil
            rw [hnil] at hlast
            cases hlast
          obtain ⟨m, hm⟩ := hcovers type (h.good_of_link hg hlink)
          have hmem : m ∈ (new.filter fun p => p.1 = type).map Prod.snd :=
            List.mem_map.mpr ⟨(type, m), List.mem_filter.mpr ⟨hm, by simp⟩, rfl⟩
          rw [hnew] at hmem
          cases hmem
      · rw [List.getLast?_append_of_ne_nil _ hnew] at hlast
        have hmem := List.mem_of_getLast? hlast
        obtain ⟨⟨type', m⟩, hm, rfl⟩ := List.mem_map.mp hmem
        refine (hok.outbox (type', m) ?_).2.2
        rw [hs.outbox]
        exact List.mem_append_right _ (List.mem_filter.mp hm).1
    · rw [link_set_of_ne hpg] at hlast
      exact h.last p b q c' type info hne hb hc' hgood hlast
  case record =>
    intro p b q c hne hb hc rec hrec hhash
    obtain ⟨c', hc', hrecs, -⟩ := hback hc
    rw [hrecs] at hrec
    rcases set_gateways_cases hb with ⟨rfl, rfl⟩ | ⟨hpg, hb⟩
    · rcases h.record p a q c' hne hg hc' rec hrec hhash with hann | hl
      · rcases hs.told with htold | hcovers
        · exact Or.inl (htold rec.info hann)
        · exact Or.inr (linked_of_covers (h.shared _ _ hne) hg hs.outbox hcovers)
      · exact Or.inr (hlinked hl)
    · exact (h.record p b q c' hne hb hc' rec hrec hhash).imp_right hlinked
  case answered =>
    intro p b q c hne hb hc hflag hmem
    obtain ⟨b', hb', hrecs, hflag'⟩ := hback hb
    obtain ⟨c', hc', hrecs', -⟩ := hback hc
    rw [hrecs] at hmem
    rw [hrecs']
    exact (h.answered p b' q c' hne hb' hc' (hflag' hflag) hmem).imp_right hlinked
  case met =>
    intro p b q c hne hb hc hrun hrun'
    obtain ⟨b', hb', hrecs, hflag⟩ := hback hb
    obtain ⟨c', hc', hrecs', hflag'⟩ := hback hc
    rw [hrecs, hrecs']
    -- whoever has just been initialized has told everyone
    have hinit : ∀ {p : Fin n} {b b' : Gateway}, (s.set g a').gateways p = some b →
        s.gateways p = some b' → b.discovery.updateCallback = true →
        b'.discovery.updateCallback = true ∨ ∀ q, p ≠ q → (s.set g a').Linked cfg p q := by
      intro p b b' hb hb' hcb
      rcases set_gateways_cases hb with ⟨rfl, rfl⟩ | ⟨-, hb⟩
      · obtain rfl : a = b' := Option.some.inj (hg.symm.trans hb')
        exact (hs.met hcb).imp_right fun hcovers q hpq =>
          linked_of_covers (h.shared _ _ hpq) hg hs.outbox hcovers
      · obtain rfl : b = b' := Option.some.inj (hb.symm.trans hb')
        exact Or.inl hcb
    rcases hinit hb hb' hrun.1 with hcb | hl
    · rcases hinit hc hc' hrun'.1 with hcb' | hl
      · rcases h.met p b' q c' hne hb' hc' ⟨hcb, hflag hrun.2⟩ ⟨hcb', hflag' hrun'.2⟩ with h' | h'
        · exact Or.inl (h'.imp_right hlinked)
        · exact Or.inr (h'.imp_right hlinked)
      · exact Or.inl (Or.inr (hl p hne.symm))
    · exact Or.inr (Or.inr (hl q hne))

end Speaks

/-! ### A gateway takes a message -/

section Take

variable {b b' : Gateway} {info : PubSubInfo} {rest : List PubSubInfo}

/-- There is room for a record of every other gateway. -/
theorem Inv.not_overflows (h : Inv cfg s) (hr : s.gateways r = some b) (hne : g ≠ r)
    (hhash : info.gatewayHash = cfg.gatewayHash g) :
    ¬ b.discovery.records.Overflows info := by
  rintro ⟨-, hnew, hfull⟩
  have hn := (h.ok r b hr).nodup
  have hsub : (info.gatewayHash :: b.discovery.records.hashes).toFinset
      ⊆ (Finset.univ.erase r).image cfg.gatewayHash := by
    intro k hk
    rw [Finset.mem_image]
    rcases List.mem_cons.mp (List.mem_toFinset.mp hk) with rfl | hk
    · exact ⟨g, by simp [hne], hhash.symm⟩
    · obtain ⟨q, _, hq, hkq, -⟩ := h.known r b k hr hk
      exact ⟨q, by simp [hq], hkq⟩
  have hcard := Finset.card_le_card hsub
  rw [List.toFinset_card_of_nodup (List.nodup_cons.mpr ⟨hnew, hn⟩),
    Finset.card_image_of_injective _ cfg.distinct, Finset.card_erase_of_mem (Finset.mem_univ r),
    Finset.card_univ, Fintype.card_fin, List.length_cons] at hcard
  have hlen : b.discovery.records.hashes.length = maxDeviceCount := by
    rw [← hfull]
    simp [Records.hashes, CxxVector.size]
  have := cfg.size_le
  omega

/-- The gateway `b'` is `b` after the message `info`. -/
structure Takes (b b' : Gateway) (info : PubSubInfo) : Prop where
  outbox : b'.outbox = b.outbox
  reading : b'.reading = b.reading
  terminated : b'.terminated = b.terminated
  hash : b'.discovery.gatewayHash = b.discovery.gatewayHash
  localState : b'.discovery.localState = b.discovery.localState
  lastSent : b'.discovery.lastSentDiscoveryInfo = b.discovery.lastSentDiscoveryInfo
  flag : b'.discovery.terminateFlag = b.discovery.terminateFlag
  callback : b'.discovery.updateCallback = b.discovery.updateCallback
  records : ∃ deviceIndex, b'.discovery.records = b.discovery.records.receive info deviceIndex

theorem Takes.announces (h : Takes b b' info) {m : PubSubInfo} :
    Announces b' m ↔ Announces b m := by
  unfold Announces Gateway.current Gateway.lastSent
  rw [h.terminated, h.localState, h.lastSent]

theorem Takes.ok (h : Takes b b' info) (hok : b.Ok cfg r) : b'.Ok cfg r := by
  obtain ⟨deviceIndex, hrec⟩ := h.records
  constructor
  case hash => exact h.hash.trans hok.hash
  case nodup =>
    rw [hrec]
    exact Records.nodup_hashes_receive hok.nodup
  case ordinary =>
    intro record hmem
    rw [hrec] at hmem
    rcases Records.mem_receive hok.nodup hmem with ⟨heq, hterm⟩ | ⟨hmem, -⟩
    · rw [heq, hterm]
    · exact hok.ordinary record hmem
  case settled =>
    unfold Gateway.lastSent Gateway.current
    rw [h.reading, h.lastSent, h.localState]
    exact hok.settled
  case flag =>
    rw [h.flag, h.callback]
    exact hok.flag
  case terminated =>
    rw [h.terminated, h.flag, h.reading]
    exact hok.terminated
  case outbox =>
    intro p hp
    rw [h.outbox] at hp
    rw [h.announces]
    exact hok.outbox p hp

theorem takes_receiveInfo (b : Gateway) (info : PubSubInfo) (deviceIndex : DeviceIndex) :
    Takes b { b with discovery := (b.discovery.receiveInfo info deviceIndex).1 } info := by
  unfold Discovery.receiveInfo
  dsimp only
  split
  · exact ⟨rfl, rfl, rfl, rfl, rfl, rfl, rfl, rfl, deviceIndex, rfl⟩
  · exact ⟨rfl, rfl, rfl, rfl, rfl, rfl, rfl, rfl, deviceIndex, rfl⟩

/-- The link that is read from loses its first message, and the others stay as they are. -/
theorem link_take (hq : s.queue g r type = info :: rest) (hr : s.gateways r = some b)
    (hout : b'.outbox = b.outbox) (p q : Fin n) (type' : TransportType) :
    (p = g ∧ q = r ∧ type' = type ∧
      s.link p q type' = info :: ((s.pop g r type).set r b').link p q type') ∨
    (¬ (p = g ∧ q = r ∧ type' = type) ∧
      ((s.pop g r type).set r b').link p q type' = s.link p q type') := by
  have hout' : (match ((s.pop g r type).set r b').gateways p with
      | none => []
      | some a => a.out type') = match s.gateways p with
      | none => []
      | some a => a.out type' := by
    by_cases hp : p = r
    · subst hp
      rw [set_gateways_self, hr]
      simp only [Gateway.out, hout]
    · rw [set_gateways_of_ne _ _ hp]
      rfl
  by_cases hc : p = g ∧ q = r ∧ type' = type
  · obtain ⟨rfl, rfl, rfl⟩ := hc
    refine Or.inl ⟨rfl, rfl, rfl, ?_⟩
    unfold State.link
    rw [hout']
    simp [State.set, State.pop, hq]
  · refine Or.inr ⟨hc, ?_⟩
    unfold State.link
    rw [hout']
    simp only [State.set, State.pop, if_neg hc]

/-- Gateway `r`, in state `b`, takes the message `info` of gateway `g`, in state `a`. -/
structure Taking (cfg : Setup n) (s : State n) (g r : Fin n) (type : TransportType)
    (a b b' : Gateway) (info : PubSubInfo) (rest : List PubSubInfo) : Prop where
  inv : Inv cfg s
  queue : s.queue g r type = info :: rest
  sender : s.gateways g = some a
  receiver : s.gateways r = some b
  takes : Takes b b' info

namespace Taking

variable {p q : Fin n} {c d : Gateway}

theorem ne (t : Taking cfg s g r type a b b' info rest) : g ≠ r :=
  (t.inv.queued g r type (by simp [t.queue])).1

theorem good (t : Taking cfg s g r type a b b' info rest) :
    (cfg.transports r).isGood type = true :=
  (t.inv.queued g r type (by simp [t.queue])).2.2.2.2

theorem hash (t : Taking cfg s g r type a b b' info rest) :
    info.gatewayHash = cfg.gatewayHash g :=
  (t.inv.messages g a r type info t.sender (by simp [t.queue])).1

/-- The message of a sender that does not terminate is an ordinary one. -/
theorem ordinary (t : Taking cfg s g r type a b b' info rest)
    (hflag : a.discovery.terminateFlag = false) : info.isTermination = false := by
  cases hi : info.isTermination with
  | false => rfl
  | true =>
    have hterm := (t.inv.messages g a r type info t.sender (by simp [t.queue])).2 hi
    have := ((t.inv.ok g a t.sender).terminated hterm).1
    rw [hflag] at this
    cases this

theorem mem_hashes (t : Taking cfg s g r type a b b' info rest) (k : Hash) :
    k ∈ b'.discovery.records.hashes ↔ (k = cfg.gatewayHash g ∧ info.isTermination = false) ∨
      (k ≠ cfg.gatewayHash g ∧ k ∈ b.discovery.records.hashes) := by
  obtain ⟨deviceIndex, hrec⟩ := t.takes.records
  rw [hrec, ← t.hash]
  exact Records.mem_hashes_receive (t.inv.ok r b t.receiver).nodup
    (t.inv.not_overflows t.receiver t.ne t.hash)

/-- The other records of the receiver are the old ones. -/
theorem mem_hashes_of_ne (t : Taking cfg s g r type a b b' info rest) (hp : p ≠ g) :
    cfg.gatewayHash p ∈ b'.discovery.records.hashes ↔
      cfg.gatewayHash p ∈ b.discovery.records.hashes := by
  rw [t.mem_hashes]
  have : cfg.gatewayHash p ≠ cfg.gatewayHash g := fun heq => hp (cfg.distinct heq)
  simp [this]

/-- The links between any other two gateways are the old ones. -/
theorem linked_iff (t : Taking cfg s g r type a b b' info rest) (hpq : ¬ (p = g ∧ q = r)) :
    ((s.pop g r type).set r b').Linked cfg p q ↔ s.Linked cfg p q := by
  refine exists_congr fun type' => and_congr_right fun _ => ?_
  rcases link_take t.queue t.receiver t.takes.outbox p q type' with ⟨rfl, rfl, -⟩ | ⟨-, heq⟩
  · exact absurd ⟨rfl, rfl⟩ hpq
  · rw [heq]

/-- Who is there now was there before. -/
theorem exists_before (t : Taking cfg s g r type a b b' info rest)
    (hc : ((s.pop g r type).set r b').gateways p = some c) : ∃ c', s.gateways p = some c' := by
  rcases set_gateways_cases hc with ⟨rfl, -⟩ | ⟨-, hc⟩
  · exact ⟨b, t.receiver⟩
  · exact ⟨c, hc⟩

/-- Who was there is there now. -/
theorem exists_after (hc : s.gateways p = some c) :
    ∃ c', ((s.pop g r type).set r b').gateways p = some c' :=
  exists_set_gateways hc

theorem mem_queue {type' : TransportType} {m : PubSubInfo}
    (hm : m ∈ ((s.pop g r type).set r b').queue p q type') : m ∈ s.queue p q type' := by
  simp only [State.set, State.pop] at hm
  split at hm
  · exact List.mem_of_mem_tail hm
  · exact hm

theorem known (t : Taking cfg s g r type a b b' info rest) {k : Hash}
    (hc : ((s.pop g r type).set r b').gateways p = some c)
    (hk : k ∈ c.discovery.records.hashes) : ∃ q d, q ≠ p ∧ cfg.gatewayHash q = k ∧
      ((s.pop g r type).set r b').gateways q = some d := by
  have hold : ∃ q d, q ≠ p ∧ cfg.gatewayHash q = k ∧ s.gateways q = some d := by
    rcases set_gateways_cases hc with ⟨rfl, rfl⟩ | ⟨-, hc⟩
    · rcases (t.mem_hashes k).mp hk with ⟨rfl, -⟩ | ⟨-, hk⟩
      · exact ⟨g, a, t.ne, rfl, t.sender⟩
      · exact t.inv.known p b k t.receiver hk
    · exact t.inv.known p c k hc hk
  obtain ⟨q, d, hne, hk, hd⟩ := hold
  obtain ⟨d', hd'⟩ := exists_after hd
  exact ⟨q, d', hne, hk, hd'⟩

theorem last (t : Taking cfg s g r type a b b' info rest) {type' : TransportType}
    {m : PubSubInfo} (hne : p ≠ q) (hc : ((s.pop g r type).set r b').gateways p = some c)
    (hd : ((s.pop g r type).set r b').gateways q = some d)
    (hgood : (cfg.transports q).isGood type' = true)
    (hlast : (((s.pop g r type).set r b').link p q type').getLast? = some m) :
    Announces c m := by
  obtain ⟨d', hd'⟩ := t.exists_before hd
  have hold : (s.link p q type').getLast? = some m := by
    rcases link_take t.queue t.receiver t.takes.outbox p q type' with ⟨-, -, -, heq⟩ | ⟨-, heq⟩
    · rw [heq, List.getLast?_cons, hlast]
      rfl
    · rw [← heq]
      exact hlast
  rcases set_gateways_cases hc with ⟨rfl, rfl⟩ | ⟨-, hc⟩
  · exact t.takes.announces.mpr (t.inv.last p b q d' type' m hne t.receiver hd' hgood hold)
  · exact t.inv.last p c q d' type' m hne hc hd' hgood hold

/-- The new record has what the sender announces, or another message is on its way. -/
theorem new_record (t : Taking cfg s g r type a b b' info rest) :
    Announces a info ∨ ((s.pop g r type).set r b').Linked cfg g r := by
  by_cases hl : ((s.pop g r type).set r b').Linked cfg g r
  · exact Or.inr hl
  · left
    have hempty : ((s.pop g r type).set r b').link g r type = [] := by
      by_contra hlink
      exact hl ⟨type, t.good, hlink⟩
    have hone : s.link g r type = [info] := by
      rcases link_take t.queue t.receiver t.takes.outbox g r type with ⟨-, -, -, heq⟩ | ⟨hnot, -⟩
      · rw [heq, hempty]
      · exact absurd ⟨rfl, rfl, rfl⟩ hnot
    exact t.inv.last g a r b type info t.ne t.sender t.receiver t.good (by rw [hone]; rfl)

theorem record (t : Taking cfg s g r type a b b' info rest) (hne : p ≠ q)
    (hc : ((s.pop g r type).set r b').gateways p = some c)
    (hd : ((s.pop g r type).set r b').gateways q = some d) {rec : DeviceRecord}
    (hmem : rec ∈ d.discovery.records.toList) (hhash : rec.info.gatewayHash = cfg.gatewayHash p) :
    Announces c rec.info ∨ ((s.pop g r type).set r b').Linked cfg p q := by
  rcases set_gateways_cases hd with ⟨rfl, rfl⟩ | ⟨hqr, hd'⟩
  · -- the records of the receiver
    have hc' : s.gateways p = some c := by
      rcases set_gateways_cases hc with ⟨rfl, -⟩ | ⟨-, hc⟩
      · exact absurd rfl hne
      · exact hc
    obtain ⟨deviceIndex, hrec⟩ := t.takes.records
    rw [hrec] at hmem
    rcases Records.mem_receive (t.inv.ok q b t.receiver).nodup hmem with ⟨heq, -⟩ | ⟨hold, hnot⟩
    · obtain rfl : p = g := cfg.distinct (by rw [← hhash, heq, t.hash])
      obtain rfl : a = c := Option.some.inj (t.sender.symm.trans hc')
      rw [heq]
      exact t.new_record
    · have hpg : p ≠ g := by
        rintro rfl
        exact hnot (hhash.trans t.hash.symm)
      exact (t.inv.record p c q b hne hc' t.receiver rec hold hhash).imp_right
        (t.linked_iff fun hpq => hpg hpq.1).mpr
  · have hl := (t.linked_iff (fun hpq => hqr hpq.2 : ¬ (p = g ∧ q = r))).mpr
    rcases set_gateways_cases hc with ⟨rfl, rfl⟩ | ⟨-, hc'⟩
    · exact (t.inv.record p b q d hne t.receiver hd' rec hmem hhash).imp t.takes.announces.mpr hl
    · exact (t.inv.record p c q d hne hc' hd' rec hmem hhash).imp_right hl

/-- A gateway that the receiver has just seen gets its reply; the sender has a record now. -/
theorem answered (t : Taking cfg s g r type a b b' info rest)
    (hreply : b.discovery.terminateFlag = false → info.isTermination = false →
      cfg.gatewayHash g ∉ b.discovery.records.hashes → s.Linked cfg r g)
    (hne : p ≠ q) (hc : ((s.pop g r type).set r b').gateways p = some c)
    (hd : ((s.pop g r type).set r b').gateways q = some d)
    (hflag : c.discovery.terminateFlag = false)
    (hk : cfg.gatewayHash q ∈ c.discovery.records.hashes) :
    cfg.gatewayHash p ∈ d.discovery.records.hashes ∨
      ((s.pop g r type).set r b').Linked cfg p q := by
  rcases set_gateways_cases hc with ⟨rfl, rfl⟩ | ⟨hpr, hc'⟩
  · have hd' : s.gateways q = some d := by
      rcases set_gateways_cases hd with ⟨rfl, -⟩ | ⟨-, hd⟩
      · exact absurd rfl hne
      · exact hd
    have hl := (t.linked_iff (fun hpq => t.ne hpq.1.symm : ¬ (p = g ∧ q = p))).mpr
    by_cases hold : cfg.gatewayHash q ∈ b.discovery.records.hashes
    · exact (t.inv.answered p b q d hne t.receiver hd' (t.takes.flag ▸ hflag) hold).imp_right hl
    · rcases (t.mem_hashes _).mp hk with ⟨heq, hordinary⟩ | ⟨-, hk⟩
      · obtain rfl := cfg.distinct heq
        exact Or.inr (hl (hreply (t.takes.flag ▸ hflag) hordinary hold))
      · exact absurd hk hold
  · rcases set_gateways_cases hd with ⟨rfl, rfl⟩ | ⟨hqr, hd'⟩
    · by_cases hpg : p = g
      · subst hpg
        obtain rfl : a = c := Option.some.inj (t.sender.symm.trans hc')
        exact Or.inl ((t.mem_hashes _).mpr (Or.inl ⟨rfl, t.ordinary hflag⟩))
      · exact (t.inv.answered p c q b hne hc' t.receiver hflag hk).imp (t.mem_hashes_of_ne hpg).mpr
          (t.linked_iff fun hpq => hpg hpq.1).mpr
    · exact (t.inv.answered p c q d hne hc' hd' hflag hk).imp_right
        (t.linked_iff fun hpq => hqr hpq.2).mpr

/-- Of the sender and the receiver, the receiver knows the other one. -/
theorem met_receiver (t : Taking cfg s g r type a b b' info rest) (hpr : p ≠ r)
    (hc : s.gateways p = some c) (hrun : c.Running) (hrun' : b'.Running) :
    (cfg.gatewayHash r ∈ c.discovery.records.hashes ∨
        ((s.pop g r type).set r b').Linked cfg r p) ∨
      cfg.gatewayHash p ∈ b'.discovery.records.hashes ∨
        ((s.pop g r type).set r b').Linked cfg p r := by
  by_cases hpg : p = g
  · subst hpg
    obtain rfl : a = c := Option.some.inj (t.sender.symm.trans hc)
    exact Or.inr (Or.inl ((t.mem_hashes _).mpr (Or.inl ⟨rfl, t.ordinary hrun.2⟩)))
  · have hl := (t.linked_iff (fun hpq => hpg hpq.1 : ¬ (p = g ∧ r = r))).mpr
    have hl' := (t.linked_iff (fun hpq => t.ne hpq.1.symm : ¬ (r = g ∧ p = r))).mpr
    have hrunning : b.Running := ⟨t.takes.callback ▸ hrun'.1, t.takes.flag ▸ hrun'.2⟩
    rcases t.inv.met p c r b hpr hc t.receiver hrun hrunning with h' | h'
    · exact Or.inl (h'.imp_right hl')
    · exact Or.inr (h'.imp (t.mem_hashes_of_ne hpg).mpr hl)

theorem met (t : Taking cfg s g r type a b b' info rest) (hne : p ≠ q)
    (hc : ((s.pop g r type).set r b').gateways p = some c)
    (hd : ((s.pop g r type).set r b').gateways q = some d) (hrun : c.Running) (hrun' : d.Running) :
    (cfg.gatewayHash q ∈ c.discovery.records.hashes ∨
        ((s.pop g r type).set r b').Linked cfg q p) ∨
      cfg.gatewayHash p ∈ d.discovery.records.hashes ∨
        ((s.pop g r type).set r b').Linked cfg p q := by
  rcases set_gateways_cases hc with ⟨rfl, rfl⟩ | ⟨hpr, hc'⟩
  · rcases set_gateways_cases hd with ⟨rfl, -⟩ | ⟨hqr, hd'⟩
    · exact absurd rfl hne
    · exact (t.met_receiver hqr hd' hrun' hrun).symm
  · rcases set_gateways_cases hd with ⟨rfl, rfl⟩ | ⟨hqr, hd'⟩
    · exact t.met_receiver hpr hc' hrun hrun'
    · have hl := (t.linked_iff (fun hpq => hqr hpq.2 : ¬ (p = g ∧ q = r))).mpr
      have hl' := (t.linked_iff (fun hpq => hpr hpq.2 : ¬ (q = g ∧ p = r))).mpr
      exact (t.inv.met p c q d hne hc' hd' hrun hrun').imp (Or.imp_right hl') (Or.imp_right hl)

end Taking

/-- **A gateway takes a message.**  If it had no record of the sender and is not about to
terminate, its own message to the sender is on its way. -/
theorem inv_take (h : Inv cfg s) (hq : s.queue g r type = info :: rest)
    (hr : s.gateways r = some b) (ht : Takes b b' info)
    (hreply : b.discovery.terminateFlag = false → info.isTermination = false →
      cfg.gatewayHash g ∉ b.discovery.records.hashes → s.Linked cfg r g) :
    Inv cfg ((s.pop g r type).set r b') := by
  obtain ⟨-, hgsome, -⟩ := h.queued g r type (by simp [hq])
  obtain ⟨a, hg⟩ := Option.isSome_iff_exists.mp hgsome
  have t : Taking cfg s g r type a b b' info rest := ⟨h, hq, hg, hr, ht⟩
  constructor
  case shared => exact h.shared
  case ok =>
    intro p c hc
    rcases set_gateways_cases hc with ⟨rfl, rfl⟩ | ⟨-, hc⟩
    · exact ht.ok (h.ok p b hr)
    · exact h.ok p c hc
  case known => exact fun p c k hc hk => t.known hc hk
  case queued =>
    intro p q type' hne
    obtain ⟨m, hm⟩ := List.exists_mem_of_ne_nil _ hne
    obtain ⟨h₁, h₂, h₃, h₄⟩ := h.queued p q type' (List.ne_nil_of_mem (Taking.mem_queue hm))
    exact ⟨h₁, isSome_set_gateways h₂, isSome_set_gateways h₃, h₄⟩
  case messages =>
    intro p c q type' m hc hm
    have hold := Taking.mem_queue hm
    rcases set_gateways_cases hc with ⟨rfl, rfl⟩ | ⟨-, hc⟩
    · obtain ⟨h₁, h₂⟩ := h.messages p b q type' m hr hold
      exact ⟨h₁, fun htm => ht.terminated.trans (h₂ htm)⟩
    · exact h.messages p c q type' m hc hold
  case last => exact fun p c q d type' m hne hc hd hgood hlast => t.last hne hc hd hgood hlast
  case record => exact fun p c q d hne hc hd rec hmem hhash => t.record hne hc hd hmem hhash
  case answered => exact fun p c q d hne hc hd hflag hk => t.answered hreply hne hc hd hflag hk
  case met => exact fun p c q d hne hc hd hrun hrun' => t.met hne hc hd hrun hrun'

end Take

/-! ### A message goes out -/

section Send

variable {info : PubSubInfo} {outbox : List (TransportType × PubSubInfo)}

/-- A message moves from the outbox into the queues: every link to a constructed gateway stays as
it is. -/
theorem link_send (hg : s.gateways g = some a) (hout : a.outbox = (type, info) :: outbox)
    {p q : Fin n} {type' : TransportType} (hpq : p ≠ q) (hq : (s.gateways q).isSome)
    (hgood : (cfg.transports q).isGood type' = true) :
    ((s.deliver cfg g type info).set g { a with outbox }).link p q type' = s.link p q type' := by
  by_cases hp : p = g
  · subst hp
    rw [link_some (set_gateways_self _ p _), link_some hg]
    by_cases htype : type' = type
    · subst htype
      have hqueue : ((s.deliver cfg p type' info).set p { a with outbox }).queue p q type'
          = s.queue p q type' ++ [info] := by
        change (if _ then _ else _) = _
        exact if_pos ⟨rfl, hpq.symm, rfl, hq, hgood⟩
      rw [hqueue]
      simp [Gateway.out, hout]
    · have hqueue : ((s.deliver cfg p type info).set p { a with outbox }).queue p q type'
          = s.queue p q type' := by
        simp only [State.set, State.deliver]
        exact if_neg fun hc => htype hc.2.2.1
      rw [hqueue]
      simp [Gateway.out, hout, Ne.symm htype]
  · refine link_congr ?_ (set_gateways_of_ne _ _ hp)
    simp only [State.set, State.deliver]
    exact if_neg fun hc => hp hc.1

/-- **A message goes out.** -/
theorem inv_send (h : Inv cfg s) (hg : s.gateways g = some a)
    (hout : a.outbox = (type, info) :: outbox) :
    Inv cfg ((s.deliver cfg g type info).set g { a with outbox }) := by
  have hok := h.ok g a hg
  obtain ⟨hgood, hhash, hann⟩ := hok.outbox (type, info) (by simp [hout])
  set s' := (s.deliver cfg g type info).set g { a with outbox } with hs'
  -- the gateways are the old ones, but for the outbox of `g`
  have hback : ∀ {p : Fin n} {c : Gateway}, s'.gateways p = some c → ∃ c',
      s.gateways p = some c' ∧ c.discovery = c'.discovery ∧ c.terminated = c'.terminated := by
    intro p c hc
    rcases set_gateways_cases hc with ⟨rfl, rfl⟩ | ⟨-, hc⟩
    · exact ⟨a, hg, rfl, rfl⟩
    · exact ⟨c, hc, rfl, rfl⟩
  have hannounces : ∀ {c c' : Gateway} {m : PubSubInfo}, c.discovery = c'.discovery →
      c.terminated = c'.terminated → Announces c' m → Announces c m := by
    intro c c' m hd ht hm
    refine hm.congr ht ?_ ?_
    · unfold Gateway.current
      rw [hd]
    · unfold Gateway.lastSent
      rw [hd]
  have hlinked : ∀ {p q : Fin n}, p ≠ q → (s.gateways q).isSome → s.Linked cfg p q →
      s'.Linked cfg p q := by
    rintro p q hpq hq ⟨type', hgood', hne⟩
    refine ⟨type', hgood', ?_⟩
    rwa [link_send hg hout hpq hq hgood']
  have hex : ∀ {p : Fin n}, (s.gateways p).isSome → (s'.gateways p).isSome :=
    fun hp => isSome_set_gateways (s := s.deliver cfg g type info) hp
  -- what is new in the queues is the message
  have hqueue : ∀ p q type', s'.queue p q type' = s.queue p q type' ∨
      (p = g ∧ q ≠ g ∧ type' = type ∧ (s.gateways q).isSome ∧
        (cfg.transports q).isGood type = true ∧
        s'.queue p q type' = s.queue p q type' ++ [info]) := by
    intro p q type'
    simp only [hs', State.set, State.deliver]
    split
    · rename_i hc
      obtain ⟨h₁, h₂, h₃, h₄, h₅⟩ := hc
      exact Or.inr ⟨h₁, h₂, h₃, h₄, h₅, rfl⟩
    · exact Or.inl rfl
  constructor
  case shared => exact h.shared
  case ok =>
    intro p c hc
    rcases set_gateways_cases hc with ⟨rfl, rfl⟩ | ⟨-, hc⟩
    · refine ⟨hok.hash, hok.nodup, hok.ordinary, hok.settled, hok.flag, hok.terminated, ?_⟩
      intro x hx
      exact hok.outbox x (by rw [hout]; exact List.mem_cons_of_mem _ hx)
    · exact h.ok p c hc
  case known =>
    intro p c k hc hk
    obtain ⟨c', hc', hd, -⟩ := hback hc
    rw [hd] at hk
    obtain ⟨q, d, hne, hk, hq⟩ := h.known p c' k hc' hk
    obtain ⟨d', hd'⟩ := Option.isSome_iff_exists.mp (hex (Option.isSome_iff_exists.mpr ⟨d, hq⟩))
    exact ⟨q, d', hne, hk, hd'⟩
  case queued =>
    intro p q type' hne
    rcases hqueue p q type' with heq | ⟨rfl, hqp, rfl, hq, hgoodq, -⟩
    · rw [heq] at hne
      obtain ⟨h₁, h₂, h₃, h₄⟩ := h.queued p q type' hne
      exact ⟨h₁, hex h₂, hex h₃, h₄⟩
    · exact ⟨hqp.symm, hex (Option.isSome_iff_exists.mpr ⟨a, hg⟩), hex hq, hgood, hgoodq⟩
  case messages =>
    intro p c q type' m hc hm
    obtain ⟨c', hc', -, hterm⟩ := hback hc
    rw [hterm]
    rcases hqueue p q type' with heq | ⟨rfl, -, rfl, -, -, heq⟩
    · rw [heq] at hm
      exact h.messages p c' q type' m hc' hm
    · rw [heq] at hm
      rcases List.mem_append.mp hm with hm | hm
      · exact h.messages p c' q type' m hc' hm
      · obtain rfl := List.mem_singleton.mp hm
        obtain rfl : a = c' := Option.some.inj (hg.symm.trans hc')
        exact ⟨hhash, fun ht => hann.1.symm.trans ht⟩
  case last =>
    intro p c q d type' m hne hc hd hgoodq hlast
    obtain ⟨c', hc', hcd, hct⟩ := hback hc
    obtain ⟨d', hd', -⟩ := hback hd
    rw [link_send hg hout hne (Option.isSome_iff_exists.mpr ⟨d', hd'⟩) hgoodq] at hlast
    exact hannounces hcd hct (h.last p c' q d' type' m hne hc' hd' hgoodq hlast)
  case record =>
    intro p c q d hne hc hd rec hmem hhashrec
    obtain ⟨c', hc', hcd, hct⟩ := hback hc
    obtain ⟨d', hd', hdd, -⟩ := hback hd
    rw [hdd] at hmem
    exact (h.record p c' q d' hne hc' hd' rec hmem hhashrec).imp (hannounces hcd hct)
      (hlinked hne (Option.isSome_iff_exists.mpr ⟨d', hd'⟩))
  case answered =>
    intro p c q d hne hc hd hflag hk
    obtain ⟨c', hc', hcd, -⟩ := hback hc
    obtain ⟨d', hd', hdd, -⟩ := hback hd
    rw [hcd] at hflag hk
    rw [hdd]
    exact (h.answered p c' q d' hne hc' hd' hflag hk).imp_right
      (hlinked hne (Option.isSome_iff_exists.mpr ⟨d', hd'⟩))
  case met =>
    intro p c q d hne hc hd hrun hrun'
    obtain ⟨c', hc', hcd, -⟩ := hback hc
    obtain ⟨d', hd', hdd, -⟩ := hback hd
    unfold Gateway.Running at hrun hrun'
    rw [hcd] at hrun ⊢
    rw [hdd] at hrun' ⊢
    rcases h.met p c' q d' hne hc' hd' hrun hrun' with h' | h'
    · exact Or.inl (h'.imp_right (hlinked hne.symm (Option.isSome_iff_exists.mpr ⟨c', hc'⟩)))
    · exact Or.inr (h'.imp_right (hlinked hne (Option.isSome_iff_exists.mpr ⟨d', hd'⟩)))

end Send

/-! ### A gateway is constructed -/

/-- **A gateway is constructed.**  Nobody knows it, and only what is still in an outbox can reach
it. -/
theorem inv_construct (h : Inv cfg s) (hg : s.gateways g = none) (preferredType : TransportType) :
    Inv cfg (s.set g (.construct (cfg.gatewayHash g) preferredType)) := by
  set fresh := Gateway.construct (cfg.gatewayHash g) preferredType with hfresh
  have hnone : ∀ q type', s.queue g q type' = [] := by
    intro q type'
    by_contra hne
    have := (h.queued g q type' hne).2.1
    rw [hg] at this
    cases this
  have hnone' : ∀ p type', s.queue p g type' = [] := by
    intro p type'
    by_contra hne
    have := (h.queued p g type' hne).2.2.1
    rw [hg] at this
    cases this
  have hunknown : ∀ {p : Fin n} {c : Gateway}, s.gateways p = some c →
      cfg.gatewayHash g ∉ c.discovery.records.hashes := by
    intro p c hc hmem
    obtain ⟨q, d, -, heq, hd⟩ := h.known p c _ hc hmem
    rw [cfg.distinct heq, hg] at hd
    cases hd
  have hlinked : ∀ {p q : Fin n}, p ≠ g → s.Linked cfg p q → (s.set g fresh).Linked cfg p q := by
    rintro p q hp ⟨type', hgood, hne⟩
    exact ⟨type', hgood, by rwa [link_set_of_ne hp]⟩
  constructor
  case shared => exact h.shared
  case ok =>
    intro p c hc
    rcases set_gateways_cases hc with ⟨rfl, rfl⟩ | ⟨-, hc⟩
    · refine ⟨rfl, List.nodup_nil, ?_, fun _ => rfl, ?_, ?_, ?_⟩
      · intro record hmem
        cases hmem
      · intro hf
        cases hf
      · intro ht
        cases ht
      · intro x hx
        cases hx
    · exact h.ok p c hc
  case known =>
    intro p c k hc hk
    rcases set_gateways_cases hc with ⟨rfl, rfl⟩ | ⟨-, hc⟩
    · cases hk
    · obtain ⟨q, d, hne, hk, hd⟩ := h.known p c k hc hk
      obtain ⟨d', hd'⟩ := exists_set_gateways (g := g) (a := fresh) hd
      exact ⟨q, d', hne, hk, hd'⟩
  case queued =>
    intro p q type' hne
    obtain ⟨h₁, h₂, h₃, h₄⟩ := h.queued p q type' hne
    exact ⟨h₁, isSome_set_gateways h₂, isSome_set_gateways h₃, h₄⟩
  case messages =>
    intro p c q type' m hc hm
    rcases set_gateways_cases hc with ⟨rfl, rfl⟩ | ⟨-, hc⟩
    · have hm' : m ∈ s.queue p q type' := hm
      rw [hnone] at hm'
      cases hm'
    · exact h.messages p c q type' m hc hm
  case last =>
    intro p c q d type' m hne hc hd hgood hlast
    rcases set_gateways_cases hc with ⟨rfl, rfl⟩ | ⟨hpg, hc'⟩
    · rw [link_some (set_gateways_self s p _)] at hlast
      change (s.queue p q type' ++ []).getLast? = some m at hlast
      rw [hnone] at hlast
      cases hlast
    · rw [link_set_of_ne hpg] at hlast
      rcases set_gateways_cases hd with ⟨rfl, rfl⟩ | ⟨-, hd'⟩
      · rw [link_some hc', hnone', List.nil_append] at hlast
        exact ((h.ok p c hc').outbox _ (mem_out.mp (List.mem_of_getLast? hlast))).2.2
      · exact h.last p c q d type' m hne hc' hd' hgood hlast
  case record =>
    intro p c q d hne hc hd rec hmem hhash
    rcases set_gateways_cases hd with ⟨rfl, rfl⟩ | ⟨-, hd'⟩
    · cases hmem
    · rcases set_gateways_cases hc with ⟨rfl, rfl⟩ | ⟨hpg, hc'⟩
      · refine absurd ?_ (hunknown hd')
        rw [← hhash]
        exact List.mem_map_of_mem hmem
      · exact (h.record p c q d hne hc' hd' rec hmem hhash).imp_right (hlinked hpg)
  case answered =>
    intro p c q d hne hc hd hflag hk
    rcases set_gateways_cases hc with ⟨rfl, rfl⟩ | ⟨hpg, hc'⟩
    · cases hk
    · rcases set_gateways_cases hd with ⟨rfl, rfl⟩ | ⟨-, hd'⟩
      · exact absurd hk (hunknown hc')
      · exact (h.answered p c q d hne hc' hd' hflag hk).imp_right (hlinked hpg)
  case met =>
    intro p c q d hne hc hd hrun hrun'
    rcases set_gateways_cases hc with ⟨rfl, rfl⟩ | ⟨hpg, hc'⟩
    · cases hrun.1
    · rcases set_gateways_cases hd with ⟨rfl, rfl⟩ | ⟨hqg, hd'⟩
      · cases hrun'.1
      · rcases h.met p c q d hne hc' hd' hrun hrun' with h' | h'
        · exact Or.inl (h'.imp_right (hlinked hqg))
        · exact Or.inr (h'.imp_right (hlinked hpg))

/-! ## Every step -/

/-- The reply to a gateway that has not been seen. -/
theorem speaks_reply (info : PubSubInfo) (infoHash : Hash) (h : a.Ok cfg g) (hout : a.outbox = []) :
    let new := if a.discovery.replies info then
      broadcast (cfg.transports g)
        (a.discovery.generateDiscoveryInfo (cfg.transports g).bitset infoHash) else []
    Gateway.Ok cfg g { a with outbox := new } ∧
      Speaks (cfg.transports g) a { a with outbox := new } new := by
  intro new
  constructor
  · refine ⟨h.hash, h.nodup, h.ordinary, h.settled, h.flag, h.terminated, fun p hp => ?_⟩
    change p ∈ (if _ then _ else _) at hp
    split at hp
    · rename_i hr
      simp only [Discovery.replies, Bool.and_eq_true, Bool.not_eq_true'] at hr
      exact outbox_broadcast h.hash (announces_generate (h.not_terminated hr.2) _ _) p hp
    · cases hp
  · exact ⟨outbox_of_idle hout _, rfl, Or.inl fun info => id, Or.inl, id, id⟩

/-- A gateway receives: it replies, and then it takes the message. -/
theorem inv_receive {b b' : Gateway} {info : PubSubInfo} {rest : List PubSubInfo}
    {deviceIndex : DeviceIndex} {infoHash : Hash} (h : Inv cfg s)
    (hq : s.queue g r type = info :: rest) (hr : s.gateways r = some b)
    (hreceive : b.receive (cfg.transports r) info deviceIndex infoHash = some b') :
    Inv cfg ((s.pop g r type).set r b') := by
  unfold Gateway.receive at hreceive
  split at hreceive
  · rename_i hidle
    obtain rfl := Option.some.inj hreceive
    have hout : b.outbox = [] := by simpa [Gateway.idle] using hidle
    obtain ⟨hok, hspeaks⟩ := speaks_reply info infoHash (h.ok r b hr) hout
    have hinv := inv_speak h hr hok hspeaks
    obtain ⟨hgr, hgsome, -⟩ := h.queued g r type (by simp [hq])
    obtain ⟨a, hg⟩ := Option.isSome_iff_exists.mp hgsome
    obtain ⟨hhash, -⟩ := h.messages g a r type info hg (by simp [hq])
    set replied : Gateway := { b with
      outbox := if b.discovery.replies info then
        broadcast (cfg.transports r)
          (b.discovery.generateDiscoveryInfo (cfg.transports r).bitset infoHash) else [] }
      with hreplied
    have htake := inv_take (s := s.set r replied) hinv hq (set_gateways_self s r replied)
      (takes_receiveInfo replied info deviceIndex) (by
        intro hflag hordinary hnew
        have hreplies : b.discovery.replies info = true := by
          have hnone := Records.findHash_eq_none.mpr hnew
          rw [← hhash] at hnone
          have hnone' : b.discovery.records.findHash info.gatewayHash = none := hnone
          have hflag' : b.discovery.terminateFlag = false := hflag
          simp [Discovery.replies, hordinary, hnone', hflag']
        refine linked_of_covers (h.shared _ _ hgr.symm) hr hspeaks.outbox ?_
        rw [if_pos hreplies]
        exact covers_broadcast _ _)
    have heq : ((s.set r replied).pop g r type).set r
        { replied with discovery := (replied.discovery.receiveInfo info deviceIndex).1 }
        = (s.pop g r type).set r
        { replied with discovery := (replied.discovery.receiveInfo info deviceIndex).1 } := by
      simp only [State.set, State.pop, Function.update_idem]
    rw [heq] at htake
    exact htake
  · cases hreceive

/-- **One step.** -/
theorem inv_step {l : Label n} (h : Inv cfg s) (hstep : step cfg s l = some s') : Inv cfg s' := by
  cases l with
  | construct g preferredType =>
    simp only [step] at hstep
    split at hstep
    · rename_i hg
      obtain rfl := Option.some.inj hstep
      exact inv_construct h hg preferredType
    · cases hstep
  | act g action =>
    simp only [step] at hstep
    split at hstep
    · cases hstep
    · rename_i a hg
      obtain ⟨a', hact, rfl⟩ := Option.map_eq_some_iff.mp hstep
      obtain ⟨hok, new, hspeaks⟩ := speaks_of_act (h.ok g a hg) hact
      exact inv_speak h hg hok hspeaks
  | send g =>
    simp only [step] at hstep
    split at hstep
    · cases hstep
    · rename_i a hg
      split at hstep
      · cases hstep
      · rename_i type info outbox hout
        obtain rfl := Option.some.inj hstep
        exact inv_send h hg hout
  | receive g r type device infoHash =>
    simp only [step] at hstep
    split at hstep
    · rename_i info rest b hq hr
      obtain ⟨b', hreceive, rfl⟩ := Option.map_eq_some_iff.mp hstep
      exact inv_receive h hq hr hreceive
    · cases hstep

/-! ## The result -/

/-- In a quiet state nothing is on its way. -/
theorem not_linked_of_quiet (cfg : Setup n) (hq : s.Quiet) (g r : Fin n) :
    ¬ s.Linked cfg g r := by
  rintro ⟨type, -, hne⟩
  apply hne
  unfold State.link
  rw [hq.1]
  cases hg : s.gateways g with
  | none => rfl
  | some a => simp [Gateway.out, (hq.2 g a hg).1]

/-- A gateway has exactly one record of every gateway that it knows. -/
theorem exists_unique_record (h : a.Ok cfg g) {k : Hash} (hk : k ∈ a.discovery.records.hashes) :
    ∃ record, a.discovery.records.toList.filter (fun x => x.info.gatewayHash = k) = [record] := by
  have hn := h.nodup
  unfold Records.hashes at hk hn
  obtain ⟨record, hmem, rfl⟩ := List.mem_map.mp hk
  refine ⟨record, ?_⟩
  have hcount : (a.discovery.records.toList.filter
      (fun x => x.info.gatewayHash = record.info.gatewayHash)).length = 1 := by
    have := List.count_eq_one_of_mem hn (List.mem_map_of_mem hmem)
    rw [List.count, List.countP_map, List.countP_eq_length_filter] at this
    rw [← this]
    congr 1
  obtain ⟨x, hx⟩ := List.length_eq_one_iff.mp hcount
  have hrec : record ∈ a.discovery.records.toList.filter
      (fun x => x.info.gatewayHash = record.info.gatewayHash) := by simp [hmem]
  rw [hx] at hrec ⊢
  rw [List.mem_singleton.mp hrec]

/-- **Discovery converges.**  In every reachable state with no message in flight and no handler
running, every running gateway has exactly one record of every other running gateway, with the
services of that gateway's current subscribers, and no gateway has a record of a gateway that has
deinitialized. -/
theorem discovery_converges (cfg : Config n) {ls : List (Label n)} {s : State n}
    (h : Run.exec (step cfg) (State.init n) ls = some s) (hq : s.Quiet) :
    (∀ g r a b, g ≠ r → s.gateways g = some a → s.gateways r = some b → a.Running → b.Running →
      ∃ record, a.discovery.records.toList.filter
          (fun x => x.info.gatewayHash = cfg.gatewayHash r) = [record] ∧
        ∀ x, x ∈ record.info.userSubscribers.toList ↔
          x ∈ b.discovery.localState.userSubscribers.toList) ∧
    ∀ g r a b, s.gateways g = some a → s.gateways r = some b → b.terminated = true →
      cfg.gatewayHash r ∉ a.discovery.records.hashes := by
  have hinv : Inv cfg s := by
    refine Run.invariant (Inv cfg) ?_ (inv_init cfg) h
    intro s l s' hs hstep
    exact inv_step hs hstep
  have hnl := not_linked_of_quiet cfg hq
  -- a record is announced by its gateway
  have hann : ∀ g r a b, g ≠ r → s.gateways g = some a → s.gateways r = some b →
      ∀ record ∈ a.discovery.records.toList, record.info.gatewayHash = cfg.gatewayHash r →
        Announces b record.info := by
    intro g r a b hne hg hr record hmem hhash
    exact (hinv.record r b g a hne.symm hr hg record hmem hhash).resolve_right (hnl r g)
  constructor
  · intro g r a b hne hg hr hrun hrun'
    have hknows : cfg.gatewayHash r ∈ a.discovery.records.hashes := by
      rcases hinv.met g a r b hne hg hr hrun hrun' with h' | h'
      · exact h'.resolve_right (hnl r g)
      · exact (hinv.answered r b g a hne.symm hr hg hrun'.2
          (h'.resolve_right (hnl g r))).resolve_right (hnl r g)
    obtain ⟨record, hrecord⟩ := exists_unique_record (hinv.ok g a hg) hknows
    refine ⟨record, hrecord, fun x => ?_⟩
    have hmem : record ∈ a.discovery.records.toList.filter
        (fun x => x.info.gatewayHash = cfg.gatewayHash r) := by simp [hrecord]
    obtain ⟨hmem, hhash⟩ := List.mem_filter.mp hmem
    have hb := hinv.ok r b hr
    have hsame : services record.info = b.current := by
      have hsettled := hb.settled (hq.2 r b hr).2.1
      rcases (hann g r a b hne hg hr record hmem (by simpa using hhash)).2
        (hb.not_terminated hrun'.2) with heq | heq
      · exact heq
      · exact heq.trans hsettled
    have := Finset.ext_iff.mp hsame x
    simpa [services, Gateway.current] using this
  · intro g r a b hg hr hterm hmem
    have hne : g ≠ r := by
      rintro rfl
      obtain ⟨q, _, hq, heq, -⟩ := hinv.known g a _ hg hmem
      exact hq (cfg.distinct heq)
    obtain ⟨record, hrec, hhash⟩ := List.mem_map.mp hmem
    have h₁ := (hann g r a b hne hg hr record hrec hhash).1
    rw [hterm, (hinv.ok g a hg).ordinary record hrec] at h₁
    cases h₁

/-! ## A run -/

/-- Two gateways, both with UDP. -/
def demoConfig : Config 2 where
  gatewayHash := fun g => if g = 0 then 1 else 2
  transports := fun _ => ⟨none, some .good, none, 4⟩
  distinct := by
    unfold Function.Injective
    decide
  shared := fun _ _ _ => ⟨.udp, rfl, rfl⟩
  size_le := by decide

/-- The second gateway is constructed after the first one has sent its message; they learn of each
other by the replies.  Then a subscriber appears at the first one. -/
def demoRun : List (Label 2) :=
  [.construct 0 .none, .act 0 (.initializeDiscovery 0), .send 0, .construct 1 .none,
    .act 1 (.initializeDiscovery 0), .send 1, .receive 1 0 .udp 0 0, .send 0,
    .receive 0 1 .udp 0 0, .send 1, .receive 1 0 .udp 0 0,
    .act 0 (.readPorts ⟨[], [⟨demoNode, demoService, 1⟩]⟩),
    .act 0 (.sendIfChanged 0), .send 0, .receive 0 1 .udp 0 0]

theorem demoRun_quiet {s : State 2}
    (h : Run.exec (step demoConfig) (State.init 2) demoRun = some s) : s.Quiet := by
  obtain rfl := Option.some.inj h
  constructor
  · intro g r type
    fin_cases g <;> fin_cases r <;> cases type <;> rfl
  · intro g a ha
    fin_cases g
    · obtain rfl := Option.some.inj ha
      exact ⟨rfl, rfl, fun hflag => by cases hflag⟩
    · obtain rfl := Option.some.inj ha
      exact ⟨rfl, rfl, fun hflag => by cases hflag⟩

theorem discovery_converges_demo :
    ∃ s, Run.exec (step demoConfig) (State.init 2) demoRun = some s ∧ s.Quiet ∧
      ∃ a b, s.gateways 1 = some a ∧ s.gateways 0 = some b ∧ a.Running ∧ b.Running ∧
        ∃ record, a.discovery.records.toList.filter (fun x => x.info.gatewayHash = 1) = [record] ∧
          ∀ x, x ∈ record.info.userSubscribers.toList ↔ x ∈ [demoService] := by
  have hconverges := fun s (h : Run.exec (step demoConfig) (State.init 2) demoRun = some s) =>
    (discovery_converges demoConfig h (demoRun_quiet h)).1 1 0
  refine ⟨_, rfl, demoRun_quiet rfl, _, _, rfl, rfl, ⟨rfl, rfl⟩, ⟨rfl, rfl⟩, ?_⟩
  exact hconverges _ rfl _ _ (by decide) rfl rfl ⟨rfl, rfl⟩ ⟨rfl, rfl⟩

end Network

end P3com
