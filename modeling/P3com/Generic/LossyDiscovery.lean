/-
# Discovery over lossy transports

`include/p3com/transport/transport_type.hpp` calls UDP and TCP lossy, and `GatewayApp::run` sends
the discovery info again over each of them, every `LOSSY_TRANSPORT_DISCOVERY_PERIOD`.  Here the
messages in flight over a lossy transport may be lost, duplicated and reordered at any time, between
any two gateways.

* Once nothing is lost any more between `g` and `r`, it is enough that `g` sends its info again over
  every lossy transport that both have: when these messages have arrived, `r` has exactly one record
  of `g`, with the current subscribers of `g` (`discovery_recovers`).  What was lost before does not
  matter, nor what is still in flight.
* Nobody repeats the termination message.  If it is lost, the record of the gateway stays for the
  rest of every run (`lost_termination`).

A message on a link that can lose it says nothing about the records of its receiver, so the
invariant of `Convergence` does not hold.  What remains of it is `Sound`.  The rest is known of one
link at a time, from the last message that was sent over it after the faults (`Trust`).
-/
import P3com.Generic.ConvergedRouting

namespace P3com

/-- `LOSSY_TRANSPORT_TYPES`. -/
def lossyTransportTypes : List TransportType := [.udp, .tcp]

namespace Network

/-! ## The network with faults -/

inductive LossyLabel (n : Nat)
  | step (l : Label n)
  /-- What is in flight from `g` to `r` over a lossy transport is replaced by other copies of the
  same messages, or by nothing. -/
  | fault (g r : Fin n) (type : TransportType) (messages : List PubSubInfo)
deriving DecidableEq

section

variable {n : Nat}

def State.disturb (s : State n) (g r : Fin n) (type : TransportType) (messages : List PubSubInfo) :
    State n :=
  { s with queue := fun g' r' type' =>
      if g' = g ∧ r' = r ∧ type' = type then messages else s.queue g' r' type' }

def lossyStep (cfg : Setup n) (s : State n) : LossyLabel n → Option (State n)
  | .step l => step cfg s l
  | .fault g r type messages =>
    if type ∈ lossyTransportTypes ∧ ∀ info ∈ messages, info ∈ s.queue g r type then
      some (s.disturb g r type messages)
    else none

/-- The transports over which an action of its own makes a gateway say what it has to say. -/
def Gateway.Action.told : Gateway.Action → List TransportType
  | .resendDiscoveryInfoToTransport type _ => [type]
  | .sendTermination _ => TransportInfo.types
  | _ => []

def LossyLabel.told (g : Fin n) : LossyLabel n → List TransportType
  | .step (.act p action) => if p = g then action.told else []
  | _ => []

end

variable {n : Nat} {cfg : Setup n} {g r p q : Fin n} {a a' b b' c c' : Gateway}
  {s s' : State n} {type : TransportType} {info : PubSubInfo} {rest : List PubSubInfo}
  {new : List (TransportType × PubSubInfo)} {T T' : TransportType → Prop}

/-! ## What faults cannot break -/

/-- A message in flight. -/
structure State.Carries (cfg : Setup n) (s : State n) (p q : Fin n) (info : PubSubInfo) :
    Prop where
  ne : p ≠ q
  sender : ∃ c, s.gateways p = some c ∧ (info.isTermination = true → c.terminated = true)
  receiver : (s.gateways q).isSome
  hash : info.gatewayHash = cfg.gatewayHash p

/-- A record has at most one device index of each type. -/
def Gateway.Indexed (c : Gateway) : Prop :=
  ∀ record ∈ c.discovery.records.toList, (record.deviceIndices.toList.map DeviceIndex.type).Nodup

/-- What every step and every fault keeps. -/
structure Sound (cfg : Setup n) (s : State n) : Prop where
  ok : ∀ p c, s.gateways p = some c → c.Ok cfg p ∧ c.Indexed
  known : ∀ p c k, s.gateways p = some c → k ∈ c.discovery.records.hashes →
    ∃ q, q ≠ p ∧ cfg.gatewayHash q = k ∧ (s.gateways q).isSome
  queued : ∀ p q type, ∀ info ∈ s.queue p q type, s.Carries cfg p q info

theorem sound_init (cfg : Setup n) : Sound cfg (State.init n) where
  ok := by
    intro p c h
    cases h
  known := by
    intro p c k h
    cases h
  queued := by
    intro p q type info h
    cases h

/-- What a move of the network may do to the gateways and to what is in flight. -/
structure Later (cfg : Setup n) (s s' : State n) : Prop where
  stays : ∀ p c, s.gateways p = some c →
    ∃ c', s'.gateways p = some c' ∧ (c.terminated = true → c'.terminated = true)
  ok : ∀ p c, s'.gateways p = some c → c.Ok cfg p ∧ c.Indexed
  known : ∀ p c k, s'.gateways p = some c → k ∈ c.discovery.records.hashes →
    (∃ c', s.gateways p = some c' ∧ k ∈ c'.discovery.records.hashes) ∨
      ∃ q, q ≠ p ∧ cfg.gatewayHash q = k ∧ (s.gateways q).isSome
  queued : ∀ p q type, ∀ info ∈ s'.queue p q type,
    info ∈ s.queue p q type ∨ s'.Carries cfg p q info

theorem Later.isSome (h : Later cfg s s') (hp : (s.gateways p).isSome) :
    (s'.gateways p).isSome := by
  obtain ⟨c, hc⟩ := Option.isSome_iff_exists.mp hp
  obtain ⟨c', hc', -⟩ := h.stays p c hc
  exact Option.isSome_iff_exists.mpr ⟨c', hc'⟩

theorem Sound.later (h : Sound cfg s) (hl : Later cfg s s') : Sound cfg s' where
  ok := hl.ok
  known := by
    intro p c k hc hk
    rcases hl.known p c k hc hk with ⟨c', hc', hk'⟩ | ⟨q, hq, hhash, hsome⟩
    · obtain ⟨q, hq, hhash, hsome⟩ := h.known p c' k hc' hk'
      exact ⟨q, hq, hhash, hl.isSome hsome⟩
    · exact ⟨q, hq, hhash, hl.isSome hsome⟩
  queued := by
    intro p q type info hm
    rcases hl.queued p q type info hm with hm | hc
    · have hold := h.queued p q type info hm
      obtain ⟨c, hc, hterm⟩ := hold.sender
      obtain ⟨c', hc', hstays⟩ := hl.stays p c hc
      exact ⟨hold.ne, ⟨c', hc', fun ht => hstays (hterm ht)⟩, hl.isSome hold.receiver, hold.hash⟩
    · exact hc

theorem stays_set (a' : Gateway) (hg : s.gateways g = some a)
    (hterm : a.terminated = true → a'.terminated = true) (p : Fin n) (c : Gateway)
    (hc : s.gateways p = some c) :
    ∃ c', (s.set g a').gateways p = some c' ∧ (c.terminated = true → c'.terminated = true) := by
  by_cases hp : p = g
  · subst hp
    obtain rfl : a = c := Option.some.inj (hg.symm.trans hc)
    exact ⟨a', set_gateways_self s p a', hterm⟩
  · exact ⟨c, (set_gateways_of_ne s a' hp).trans hc, id⟩

/-- There is room for a record of every other gateway. -/
theorem Sound.not_overflows (h : Sound cfg s) (hr : s.gateways r = some b) (hne : g ≠ r)
    (hhash : info.gatewayHash = cfg.gatewayHash g) :
    ¬ b.discovery.records.Overflows info := by
  rintro ⟨-, hnew, hfull⟩
  have hn : (info.gatewayHash :: b.discovery.records.hashes).Nodup :=
    List.nodup_cons.mpr ⟨hnew, (h.ok r b hr).1.nodup⟩
  have hsub : (info.gatewayHash :: b.discovery.records.hashes).toFinset
      ⊆ (Finset.univ.erase r).image cfg.gatewayHash := by
    intro k hk
    rw [Finset.mem_image]
    rcases List.mem_cons.mp (List.mem_toFinset.mp hk) with rfl | hk
    · exact ⟨g, by simp [hne], hhash.symm⟩
    · obtain ⟨q, hq, hkq, -⟩ := h.known r b k hr hk
      exact ⟨q, by simp [hq], hkq⟩
  have hcard := Finset.card_le_card hsub
  rw [List.toFinset_card_of_nodup hn, Finset.card_image_of_injective _ cfg.distinct,
    Finset.card_erase_of_mem (Finset.mem_univ r), Finset.card_univ, Fintype.card_fin,
    List.length_cons] at hcard
  have hlen : b.discovery.records.hashes.length = maxDeviceCount := by
    rw [← hfull]
    simp [Records.hashes, CxxVector.size]
  have := cfg.size_le
  omega

/-! ## The moves -/

/-- The message has the transports that the gateway has now. -/
def Stamps (t : TransportInfo) (new : List (TransportType × PubSubInfo)) : Prop :=
  ∀ x ∈ new, x.2.gatewayBitset = t.bitset

/-- What a label does. -/
inductive Moved (cfg : Setup n) (s : State n) : LossyLabel n → State n → Prop
  | spoke {p c c' new action} (before : s.gateways p = some c)
      (act : c.act (cfg.transports p) action = some c') (ok : c'.Ok cfg p)
      (speaks : Speaks (cfg.transports p) c c' new) (stamps : Stamps (cfg.transports p) new) :
      Moved cfg s (.step (.act p action)) (s.set p c')
  /-- The receiver replies, and then it takes the message. -/
  | received {p q type device infoHash info rest b c b' new}
      (queue : s.queue p q type = info :: rest) (before : s.gateways q = some b)
      (ok : c.Ok cfg q) (speaks : Speaks (cfg.transports q) b c new)
      (stamps : Stamps (cfg.transports q) new)
      (silent : b.discovery.terminateFlag = true → new = []) (takes : Takes c b' info)
      (records : b'.discovery.records = c.discovery.records.receive info ⟨type, device⟩) :
      Moved cfg s (.step (.receive p q type device infoHash))
        (((s.set q c).pop p q type).set q b')
  | sent {p c type info outbox} (before : s.gateways p = some c)
      (out : c.outbox = (type, info) :: outbox) :
      Moved cfg s (.step (.send p)) ((s.deliver cfg p type info).set p { c with outbox })
  | constructed {p preferredType} (before : s.gateways p = none) :
      Moved cfg s (.step (.construct p preferredType))
        (s.set p (.construct (cfg.gatewayHash p) preferredType))
  | faulted {p q type messages} (lossy : type ∈ lossyTransportTypes)
      (old : ∀ info ∈ messages, info ∈ s.queue p q type) :
      Moved cfg s (.fault p q type messages) (s.disturb p q type messages)

theorem stamps_broadcast {t : TransportInfo} (hbits : info.gatewayBitset = t.bitset) :
    Stamps t (broadcast t info) := by
  intro x hx
  rw [(mem_broadcast.mp hx).2]
  exact hbits

/-- An action leaves the outbox alone, or fills it while the mutex is free. -/
theorem outbox_act {t : TransportInfo} {action : Gateway.Action} (hact : a.act t action = some a') :
    (a'.outbox = a.outbox ∧ (action.told = [])) ∨
      (a.outbox = [] ∧ Stamps t a'.outbox ∧
        ∀ type ∈ action.told, t.isGood type = true → ∃ info, (type, info) ∈ a'.outbox) := by
  cases action with
  | initializeDiscovery infoHash =>
    simp only [Gateway.act] at hact
    split at hact
    · rename_i hc
      obtain rfl := Option.some.inj hact
      simp only [Gateway.idle, Bool.and_eq_true, List.isEmpty_iff] at hc
      exact Or.inr ⟨hc.1, stamps_broadcast rfl, fun type htype => by cases htype⟩
    · cases hact
  | readPorts sample =>
    simp only [Gateway.act] at hact
    split at hact
    · simp only [Discovery.readPorts] at hact
      split at hact <;> obtain rfl := Option.some.inj hact <;> exact Or.inl ⟨rfl, rfl⟩
    · cases hact
  | sendIfChanged infoHash =>
    simp only [Gateway.act] at hact
    split at hact
    · rename_i hc
      simp only [Gateway.idle, Bool.and_eq_true, List.isEmpty_iff] at hc
      simp only [Discovery.sendIfChanged] at hact
      by_cases hsame : (a.discovery.generateDiscoveryInfo t.bitset infoHash).userSubscribers ≠
          a.discovery.lastSentDiscoveryInfo.userSubscribers
      · rw [if_pos hsame] at hact
        obtain rfl := Option.some.inj hact
        exact Or.inr ⟨hc.1, stamps_broadcast rfl, fun type htype => by cases htype⟩
      · rw [if_neg hsame] at hact
        obtain rfl := Option.some.inj hact
        exact Or.inl ⟨rfl, rfl⟩
    · cases hact
  | resendDiscoveryInfoToTransport type infoHash =>
    simp only [Gateway.act] at hact
    split at hact
    · rename_i hc
      obtain rfl := Option.some.inj hact
      simp only [Gateway.idle, Bool.and_eq_true, List.isEmpty_iff] at hc
      refine Or.inr ⟨hc.1.1, fun x hx => ?_, fun type' htype hgood => ?_⟩
      · change x ∈ (if _ then _ else _) at hx
        split at hx
        · rw [List.mem_singleton.mp hx]
          rfl
        · cases hx
      · obtain rfl := List.mem_singleton.mp htype
        exact ⟨_, by rw [if_pos hgood]; exact List.mem_singleton_self _⟩
    · cases hact
  | setTerminateFlag =>
    simp only [Gateway.act] at hact
    split at hact
    · obtain rfl := Option.some.inj hact
      exact Or.inl ⟨rfl, rfl⟩
    · cases hact
  | sendTermination infoHash =>
    simp only [Gateway.act] at hact
    split at hact
    · rename_i hc
      obtain rfl := Option.some.inj hact
      simp only [Gateway.idle, Bool.and_eq_true, List.isEmpty_iff] at hc
      exact Or.inr ⟨hc.1.1.1, stamps_broadcast rfl, fun type _ => covers_broadcast _ _ type⟩
    · cases hact

/-- What is new in the outbox after an action. -/
theorem new_act {action : Gateway.Action} (hact : a.act (cfg.transports g) action = some a')
    (hs : Speaks (cfg.transports g) a a' new) :
    Stamps (cfg.transports g) new ∧ ∀ type ∈ action.told,
      (cfg.transports g).isGood type = true → ∃ info, (type, info) ∈ new := by
  have hout := hs.outbox
  rcases outbox_act hact with ⟨heq, htold⟩ | ⟨hempty, hstamps, htold⟩
  · rw [heq] at hout
    rw [List.self_eq_append_right.mp hout, htold]
    exact ⟨fun x hx => absurd hx List.not_mem_nil, fun type htype => absurd htype List.not_mem_nil⟩
  · rw [hempty, List.nil_append] at hout
    rw [← hout]
    exact ⟨hstamps, htold⟩

theorem moved_receive {deviceIndex : DeviceIndex} {infoHash : Hash} (hok : b.Ok cfg r)
    (h : b.receive (cfg.transports r) info deviceIndex infoHash = some b') :
    ∃ c new, c.Ok cfg r ∧ Speaks (cfg.transports r) b c new ∧ Stamps (cfg.transports r) new ∧
      (b.discovery.terminateFlag = true → new = []) ∧ Takes c b' info ∧
      b'.discovery.records = c.discovery.records.receive info deviceIndex := by
  unfold Gateway.receive at h
  split at h
  · rename_i hidle
    obtain rfl := Option.some.inj h
    have hout : b.outbox = [] := by simpa [Gateway.idle] using hidle
    obtain ⟨hok', hspeaks⟩ := speaks_reply info infoHash hok hout
    refine ⟨_, _, hok', hspeaks, ?_, ?_, takes_receiveInfo _ info deviceIndex, ?_⟩
    · split
      · exact stamps_broadcast rfl
      · exact fun x hx => absurd hx List.not_mem_nil
    · refine fun hflag => if_neg fun hreplies => ?_
      simp [Discovery.replies, hflag] at hreplies
    · unfold Discovery.receiveInfo
      dsimp only
      split <;> rfl
  · cases h

theorem set_pop_set (s : State n) (p q : Fin n) (type : TransportType) (c b : Gateway) :
    ((s.set q c).pop p q type).set q b = (s.pop p q type).set q b := by
  simp only [State.set, State.pop, Function.update_idem]

/-- **What a step does.** -/
theorem moved_of_step {l : LossyLabel n} (h : Sound cfg s) (hstep : lossyStep cfg s l = some s') :
    Moved cfg s l s' := by
  cases l with
  | fault g r type messages =>
    simp only [lossyStep] at hstep
    split at hstep
    · rename_i hc
      obtain rfl := Option.some.inj hstep
      exact .faulted hc.1 hc.2
    · cases hstep
  | step l =>
    cases l with
    | construct g preferredType =>
      simp only [lossyStep, step] at hstep
      split at hstep
      · rename_i hg
        obtain rfl := Option.some.inj hstep
        exact .constructed hg
      · cases hstep
    | act g action =>
      simp only [lossyStep, step] at hstep
      split at hstep
      · cases hstep
      · rename_i a hg
        obtain ⟨a', hact, rfl⟩ := Option.map_eq_some_iff.mp hstep
        obtain ⟨hok, new, hspeaks⟩ := speaks_of_act (h.ok g a hg).1 hact
        exact .spoke hg hact hok hspeaks (new_act hact hspeaks).1
    | send g =>
      simp only [lossyStep, step] at hstep
      split at hstep
      · cases hstep
      · rename_i a hg
        split at hstep
        · cases hstep
        · rename_i type info outbox hout
          obtain rfl := Option.some.inj hstep
          exact .sent hg hout
    | receive g r type device infoHash =>
      simp only [lossyStep, step] at hstep
      split at hstep
      · rename_i info rest b hq hr
        obtain ⟨b', hreceive, rfl⟩ := Option.map_eq_some_iff.mp hstep
        obtain ⟨c, new, hok, hspeaks, hstamps, hsilent, htakes, hrecords⟩ :=
          moved_receive (h.ok r b hr).1 hreceive
        rw [← set_pop_set s g r type c b']
        exact .received hq hr hok hspeaks hstamps hsilent htakes hrecords
      · cases hstep

/-! ### Every move is sound -/

/-- Whom the receiver knows after a message. -/
theorem Sound.mem_hashes_take (h : Sound cfg s) (hb : s.gateways q = some b)
    (hm : info ∈ s.queue p q type) (ht : Takes b b' info) (k : Hash) :
    k ∈ b'.discovery.records.hashes ↔
      (k = cfg.gatewayHash p ∧ info.isTermination = false) ∨
        (k ≠ cfg.gatewayHash p ∧ k ∈ b.discovery.records.hashes) := by
  have hc := h.queued p q type info hm
  obtain ⟨deviceIndex, hrec⟩ := ht.records
  rw [hrec, ← hc.hash]
  exact Records.mem_hashes_receive (h.ok q b hb).1.nodup (h.not_overflows hb hc.ne hc.hash)

theorem sound_speak (h : Sound cfg s) (hp : s.gateways p = some c) (hok : c'.Ok cfg p)
    (hs : Speaks (cfg.transports p) c c' new) : Sound cfg (s.set p c') := by
  refine h.later ⟨stays_set c' hp hs.terminated, ?_, ?_, fun _ _ _ _ hm => Or.inl hm⟩
  · intro q d hd
    rcases set_gateways_cases hd with ⟨rfl, rfl⟩ | ⟨-, hd⟩
    · refine ⟨hok, ?_⟩
      unfold Gateway.Indexed
      rw [hs.records]
      exact (h.ok q c hp).2
    · exact h.ok q d hd
  · intro q d k hd hk
    rcases set_gateways_cases hd with ⟨rfl, rfl⟩ | ⟨-, hd⟩
    · rw [hs.records] at hk
      exact Or.inl ⟨c, hp, hk⟩
    · exact Or.inl ⟨d, hd, hk⟩

theorem sound_take (h : Sound cfg s) (hq : s.queue p q type = info :: rest)
    (hb : s.gateways q = some b) (ht : Takes b b' info) :
    Sound cfg ((s.pop p q type).set q b') := by
  have hm : info ∈ s.queue p q type := by
    rw [hq]
    exact List.mem_cons_self
  have hc := h.queued p q type info hm
  obtain ⟨sender, hsender, -⟩ := hc.sender
  refine h.later ⟨stays_set (s := s.pop p q type) b' hb fun hterm => ht.terminated.trans hterm,
    ?_, ?_, fun _ _ _ _ hm => Or.inl (Taking.mem_queue hm)⟩
  · intro q' d hd
    rcases set_gateways_cases hd with ⟨rfl, rfl⟩ | ⟨-, hd⟩
    · refine ⟨ht.ok (h.ok q' b hb).1, ?_⟩
      obtain ⟨deviceIndex, hrec⟩ := ht.records
      unfold Gateway.Indexed
      rw [hrec]
      exact Records.forall_deviceIndices_receive
        (P := fun v => (v.toList.map DeviceIndex.type).Nodup)
        (Records.nodup_types_storeDeviceIndex List.nodup_nil)
        (fun _ => Records.nodup_types_storeDeviceIndex) (h.ok q' b hb).2
    · exact h.ok q' d hd
  · intro q' d k hd hk
    rcases set_gateways_cases hd with ⟨rfl, rfl⟩ | ⟨-, hd⟩
    · rcases (h.mem_hashes_take hb hm ht k).mp hk with ⟨rfl, -⟩ | ⟨-, hk⟩
      · exact Or.inr ⟨p, hc.ne, rfl, Option.isSome_iff_exists.mpr ⟨sender, hsender⟩⟩
      · exact Or.inl ⟨b, hb, hk⟩
    · exact Or.inl ⟨d, hd, hk⟩

/-- Somebody who has fewer messages to send is in order. -/
theorem Gateway.Ok.of_outbox {outbox : List (TransportType × PubSubInfo)} (h : c.Ok cfg p)
    (hsub : ∀ x ∈ outbox, x ∈ c.outbox) : Gateway.Ok cfg p { c with outbox } :=
  ⟨h.hash, h.nodup, h.ordinary, h.settled, h.flag, h.terminated, fun x hx => h.outbox x (hsub x hx)⟩

theorem sound_send {outbox : List (TransportType × PubSubInfo)} (h : Sound cfg s)
    (hp : s.gateways p = some c) (hout : c.outbox = (type, info) :: outbox) :
    Sound cfg ((s.deliver cfg p type info).set p { c with outbox }) := by
  obtain ⟨hok, hindexed⟩ := h.ok p c hp
  obtain ⟨-, hhash, hann⟩ := hok.outbox (type, info) (by rw [hout]; exact List.mem_cons_self)
  have hstays := stays_set (s := s.deliver cfg p type info) { c with outbox } hp id
  refine h.later ⟨hstays, ?_, ?_, ?_⟩
  · intro q d hd
    rcases set_gateways_cases hd with ⟨rfl, rfl⟩ | ⟨-, hd⟩
    · refine ⟨hok.of_outbox fun x hx => ?_, hindexed⟩
      rw [hout]
      exact List.mem_cons_of_mem _ hx
    · exact h.ok q d hd
  · intro q d k hd hk
    rcases set_gateways_cases hd with ⟨rfl, rfl⟩ | ⟨-, hd⟩
    · exact Or.inl ⟨c, hp, hk⟩
    · exact Or.inl ⟨d, hd, hk⟩
  · intro p' q type' m hm
    simp only [State.set, State.deliver] at hm
    split at hm
    · rename_i hc
      obtain ⟨rfl, hqp, rfl, hsome, -⟩ := hc
      rcases List.mem_append.mp hm with hm | hm
      · exact Or.inl hm
      · obtain rfl := List.mem_singleton.mp hm
        exact Or.inr ⟨hqp.symm, ⟨_, set_gateways_self _ p' _, fun ht => hann.1.symm.trans ht⟩,
          isSome_set_gateways (s := s.deliver cfg p' type' m) hsome, hhash⟩
    · exact Or.inl hm

theorem sound_construct (h : Sound cfg s) (hp : s.gateways p = none)
    (preferredType : TransportType) :
    Sound cfg (s.set p (.construct (cfg.gatewayHash p) preferredType)) := by
  refine h.later ⟨?_, ?_, ?_, fun _ _ _ _ hm => Or.inl hm⟩
  · intro q d hd
    have hqp : q ≠ p := by
      rintro rfl
      rw [hp] at hd
      cases hd
    exact ⟨d, (set_gateways_of_ne s _ hqp).trans hd, id⟩
  · intro q d hd
    rcases set_gateways_cases hd with ⟨rfl, rfl⟩ | ⟨-, hd⟩
    · refine ⟨⟨rfl, List.nodup_nil, ?_, fun _ => rfl, ?_, ?_, ?_⟩, ?_⟩
      · intro record hmem
        cases hmem
      · intro hf
        cases hf
      · intro ht
        cases ht
      · intro x hx
        cases hx
      · intro record hmem
        cases hmem
    · exact h.ok q d hd
  · intro q d k hd hk
    rcases set_gateways_cases hd with ⟨rfl, rfl⟩ | ⟨-, hd⟩
    · cases hk
    · exact Or.inl ⟨d, hd, hk⟩

/-- A fault brings in nothing that was not in flight. -/
theorem mem_disturb {messages : List PubSubInfo} {type' : TransportType} {m : PubSubInfo}
    (hold : ∀ info ∈ messages, info ∈ s.queue p q type)
    (hm : m ∈ (s.disturb p q type messages).queue g r type') : m ∈ s.queue g r type' := by
  simp only [State.disturb] at hm
  split at hm
  · rename_i hc
    obtain ⟨rfl, rfl, rfl⟩ := hc
    exact hold m hm
  · exact hm

theorem sound_fault {messages : List PubSubInfo} (h : Sound cfg s)
    (hold : ∀ info ∈ messages, info ∈ s.queue p q type) :
    Sound cfg (s.disturb p q type messages) :=
  h.later ⟨fun _ c hc => ⟨c, hc, id⟩, h.ok, fun _ c _ hc hk => Or.inl ⟨c, hc, hk⟩,
    fun _ _ _ _ hm => Or.inl (mem_disturb hold hm)⟩

theorem sound_moved {l : LossyLabel n} (h : Sound cfg s) (hm : Moved cfg s l s') :
    Sound cfg s' := by
  cases hm with
  | spoke before act ok speaks stamps => exact sound_speak h before ok speaks
  | received queue before ok speaks stamps silent takes records =>
    exact sound_take (sound_speak h before ok speaks) queue (set_gateways_self s _ _) takes
  | sent before out => exact sound_send h before out
  | constructed before => exact sound_construct h before _
  | faulted lossy old => exact sound_fault h old

/-! ## The last message of a link -/

/-- A message says what the gateway would say: its services, and its transports.  `settled` tells
whether the gateway has told the others which transports it has now. -/
def Says (t : TransportInfo) (settled : Prop) (a : Gateway) (info : PubSubInfo) : Prop :=
  Announces a info ∧
    (settled → a.discovery.terminateFlag = false → info.gatewayBitset = t.bitset)

/-- What `g` has yet to send has its transports, and over the transports `T` the last message on its
way from `g` to `r` says what `g` would say. -/
structure Heard (cfg : Setup n) (g r : Fin n) (settled : Prop) (T : TransportType → Prop)
    (s : State n) : Prop where
  stamped : ∀ a, s.gateways g = some a → settled → a.discovery.terminateFlag = false →
    Stamps (cfg.transports g) a.outbox
  last : ∀ a type info, s.gateways g = some a → (s.gateways r).isSome → cfg.Share g r type →
    T type → (s.link g r type).getLast? = some info → Says (cfg.transports g) settled a info

theorem heard_init {settled : Prop} : Heard cfg g r settled T (State.init n) where
  stamped := by
    intro a ha
    cases ha
  last := by
    intro a type info ha
    cases ha

theorem Speaks.flag_eq_false {t : TransportInfo} (hs : Speaks t a a' new)
    (hflag : a'.discovery.terminateFlag = false) : a.discovery.terminateFlag = false := by
  cases hf : a.discovery.terminateFlag with
  | false => rfl
  | true =>
    have := hs.flag hf
    rw [hflag] at this
    cases this

/-- Who is there after a gateway has changed was there before. -/
theorem isSome_before_set (hp : s.gateways p = some c) (hr : ((s.set p c').gateways r).isSome) :
    (s.gateways r).isSome := by
  obtain ⟨d, hd⟩ := Option.isSome_iff_exists.mp hr
  rcases set_gateways_cases hd with ⟨rfl, -⟩ | ⟨-, hd⟩
  · exact Option.isSome_iff_exists.mpr ⟨c, hp⟩
  · exact Option.isSome_iff_exists.mpr ⟨d, hd⟩

/-- A message for a transport is on its way over that transport. -/
theorem mem_link_set (hg : s.gateways g = some a) (h : a'.outbox = a.outbox ++ new)
    (hm : (type, info) ∈ new) : info ∈ (s.set g a').link g r type := by
  rw [link_set_self hg h]
  exact List.mem_append_right _
    (List.mem_map.mpr ⟨(type, info), List.mem_filter.mpr ⟨hm, by simp⟩, rfl⟩)

/-- The transports that a gateway speaks over are added. -/
theorem heard_speak {settled : Prop} (hh : Heard cfg g r settled T s)
    (hp : s.gateways p = some c) (hok : c'.Ok cfg p) (hs : Speaks (cfg.transports p) c c' new)
    (hnew : Stamps (cfg.transports p) new)
    (htold : ∀ type, T' type → T type ∨ (p = g ∧
      ((cfg.transports g).isGood type = true → ∃ info, (type, info) ∈ new))) :
    Heard cfg g r settled T' (s.set p c') := by
  constructor
  case stamped =>
    intro a ha hset hflag x hx
    rcases set_gateways_cases ha with ⟨rfl, rfl⟩ | ⟨-, ha⟩
    · rw [hs.outbox] at hx
      rcases List.mem_append.mp hx with hx | hx
      · exact hh.stamped c hp hset (hs.flag_eq_false hflag) x hx
      · exact hnew x hx
    · exact hh.stamped a ha hset hflag x hx
  case last =>
    intro a type info ha hr hshare hT hlast
    have hr' := isSome_before_set hp hr
    rcases set_gateways_cases ha with ⟨rfl, rfl⟩ | ⟨hne, ha⟩
    · rw [link_set_self hp hs.outbox] at hlast
      by_cases hnil : (new.filter fun p => p.1 = type).map Prod.snd = []
      · -- nothing new on this link: its last message is an old one
        rw [hnil, List.append_nil] at hlast
        have hsilent : ¬ ∃ info, (type, info) ∈ new := by
          rintro ⟨m, hm⟩
          have hmem : m ∈ (new.filter fun p => p.1 = type).map Prod.snd :=
            List.mem_map.mpr ⟨(type, m), List.mem_filter.mpr ⟨hm, by simp⟩, rfl⟩
          rw [hnil] at hmem
          cases hmem
        obtain ⟨hann, hbits⟩ := hh.last c type info hp hr' hshare
          ((htold type hT).resolve_right fun hcovers => hsilent (hcovers.2 hshare.1)) hlast
        rcases hs.told with hkept | hcovers
        · exact ⟨hkept info hann, fun hset hflag => hbits hset (hs.flag_eq_false hflag)⟩
        · exact absurd (hcovers type hshare.1) hsilent
      · rw [List.getLast?_append_of_ne_nil _ hnil] at hlast
        obtain ⟨⟨type', m⟩, hm, rfl⟩ := List.mem_map.mp (List.mem_of_getLast? hlast)
        have hmem : (type', m) ∈ new := (List.mem_filter.mp hm).1
        refine ⟨(hok.outbox (type', m) ?_).2.2, fun _ _ => hnew (type', m) hmem⟩
        rw [hs.outbox]
        exact List.mem_append_right _ hmem
    · rw [link_set_of_ne hne] at hlast
      exact hh.last a type info ha hr' hshare
        ((htold type hT).resolve_right fun hcovers => hne hcovers.1.symm) hlast

theorem Takes.says {t : TransportInfo} {settled : Prop} {m : PubSubInfo} (ht : Takes b b' info)
    (h : Says t settled b m) : Says t settled b' m :=
  ⟨ht.announces.mpr h.1, fun hset hflag => h.2 hset (ht.flag ▸ hflag)⟩

theorem heard_take {settled : Prop} (hh : Heard cfg g r settled T s)
    (hq : s.queue p q type = info :: rest) (hb : s.gateways q = some b) (ht : Takes b b' info) :
    Heard cfg g r settled T ((s.pop p q type).set q b') := by
  constructor
  case stamped =>
    intro a ha hset hflag
    rcases set_gateways_cases ha with ⟨rfl, rfl⟩ | ⟨-, ha⟩
    · rw [ht.outbox]
      exact hh.stamped b hb hset (ht.flag ▸ hflag)
    · exact hh.stamped a ha hset hflag
  case last =>
    intro a type' m ha hr hshare hT hlast
    have hr' := isSome_before_set (s := s.pop p q type) hb hr
    have hold : (s.link g r type').getLast? = some m := by
      rcases link_take hq hb ht.outbox g r type' with ⟨-, -, -, heq⟩ | ⟨-, heq⟩
      · rw [heq, List.getLast?_cons, hlast]
        rfl
      · rw [← heq]
        exact hlast
    rcases set_gateways_cases ha with ⟨rfl, rfl⟩ | ⟨-, ha⟩
    · exact ht.says (hh.last b type' m hb hr' hshare hT hold)
    · exact hh.last a type' m ha hr' hshare hT hold

theorem Says.of_outbox {t : TransportInfo} {settled : Prop}
    {outbox : List (TransportType × PubSubInfo)} (h : Says t settled c info) :
    Says t settled { c with outbox } info :=
  ⟨h.1.congr rfl rfl rfl, h.2⟩

theorem heard_send {settled : Prop} {outbox : List (TransportType × PubSubInfo)}
    (hh : Heard cfg g r settled T s) (hne : g ≠ r) (hp : s.gateways p = some c)
    (hout : c.outbox = (type, info) :: outbox) :
    Heard cfg g r settled T ((s.deliver cfg p type info).set p { c with outbox }) := by
  constructor
  case stamped =>
    intro a ha hset hflag x hx
    rcases set_gateways_cases ha with ⟨rfl, rfl⟩ | ⟨-, ha⟩
    · refine hh.stamped c hp hset hflag x ?_
      rw [hout]
      exact List.mem_cons_of_mem _ hx
    · exact hh.stamped a ha hset hflag x hx
  case last =>
    intro a type' m ha hr hshare hT hlast
    have hr' := isSome_before_set (s := s.deliver cfg p type info) hp hr
    rw [link_send hp hout hne hr' hshare.2] at hlast
    rcases set_gateways_cases ha with ⟨rfl, rfl⟩ | ⟨-, ha⟩
    · exact (hh.last c type' m hp hr' hshare hT hlast).of_outbox
    · exact hh.last a type' m ha hr' hshare hT hlast

/-- Nothing is in flight from or to a gateway that has not been constructed. -/
theorem Sound.queue_eq_nil (h : Sound cfg s) (hn : s.gateways p = none ∨ s.gateways q = none) :
    s.queue p q type = [] := by
  refine List.eq_nil_iff_forall_not_mem.mpr fun info hm => ?_
  have hc := h.queued p q type info hm
  rcases hn with hn | hn
  · obtain ⟨c, hc, -⟩ := hc.sender
    rw [hn] at hc
    cases hc
  · have := hc.receiver
    rw [hn] at this
    cases this

theorem heard_construct {settled : Prop} (h : Sound cfg s) (hh : Heard cfg g r settled T s)
    (hp : s.gateways p = none) (preferredType : TransportType) :
    Heard cfg g r settled T (s.set p (.construct (cfg.gatewayHash p) preferredType)) := by
  constructor
  case stamped =>
    intro a ha hset hflag
    rcases set_gateways_cases ha with ⟨rfl, rfl⟩ | ⟨-, ha⟩
    · exact fun x hx => absurd hx List.not_mem_nil
    · exact hh.stamped a ha hset hflag
  case last =>
    intro a type info ha hr hshare hT hlast
    rcases set_gateways_cases ha with ⟨rfl, rfl⟩ | ⟨hne, ha'⟩
    · rw [link_some (set_gateways_self s g _)] at hlast
      change (s.queue g r type ++ []).getLast? = some info at hlast
      rw [h.queue_eq_nil (Or.inl hp)] at hlast
      cases hlast
    · rw [link_set_of_ne hne] at hlast
      by_cases hrp : r = p
      · -- only what has not been sent yet can reach the new gateway
        subst hrp
        rw [link_some ha', h.queue_eq_nil (Or.inr hp), List.nil_append] at hlast
        have hmem := mem_out.mp (List.mem_of_getLast? hlast)
        exact ⟨((h.ok g a ha').1.outbox _ hmem).2.2,
          fun hset hflag => hh.stamped a ha' hset hflag _ hmem⟩
      · rw [set_gateways_of_ne s _ hrp] at hr
        exact hh.last a type info ha' hr hshare hT hlast

theorem link_disturb {messages : List PubSubInfo} {type' : TransportType}
    (hne : ¬ (g = p ∧ r = q ∧ type' = type)) :
    (s.disturb p q type messages).link g r type' = s.link g r type' := by
  refine link_congr ?_ rfl
  simp only [State.disturb]
  exact if_neg hne

/-- A fault spares the transports that cannot lose a message, and the other links. -/
theorem heard_fault {settled : Prop} {messages : List PubSubInfo}
    (hh : Heard cfg g r settled T s) (hspared : g = p → r = q → cfg.Share g r type → ¬ T type) :
    Heard cfg g r settled T (s.disturb p q type messages) := by
  refine ⟨hh.stamped, fun a type' info ha hr hshare hT hlast => ?_⟩
  rw [link_disturb] at hlast
  · exact hh.last a type' info ha hr hshare hT hlast
  · rintro ⟨hgp, hrq, rfl⟩
    exact hspared hgp hrq hshare hT

/-! ## After the faults -/

/-- The transports that a gateway has spoken over, `told`, are all that matter between `g` and
`r`. -/
def Covered (cfg : Setup n) (g r : Fin n) (told : List TransportType) : Prop :=
  (∃ type ∈ told, cfg.Share g r type) ∧
    ∀ type ∈ lossyTransportTypes, cfg.Share g r type → type ∈ told

/-- The last message can be relied on: nothing is lost, or `g` has spoken. -/
def Reliable (told : List TransportType) (type : TransportType) : Prop :=
  type ∈ told ∨ type ∉ lossyTransportTypes

/-- Nothing is in flight from `g` to `r` but over a transport that both have. -/
def State.Clear (cfg : Setup n) (s : State n) (g r : Fin n) : Prop :=
  ∀ type, ¬ cfg.Share g r type → s.queue g r type = []

/-- What is known of `g` at `r` when `g` has spoken over the transports `told` since the faults. -/
structure Trust (cfg : Setup n) (g r : Fin n) (s : State n) (told : List TransportType) :
    Prop where
  sound : Sound cfg s
  clear : s.Clear cfg g r
  sender : told ≠ [] → (s.gateways g).isSome
  receiver : (s.gateways r).isSome
  heard : Heard cfg g r True (Reliable told) s
  record : Covered cfg g r told → ∀ a b, s.gateways g = some a → s.gateways r = some b →
    ∀ record ∈ b.discovery.records.toList, record.info.gatewayHash = cfg.gatewayHash g →
      Says (cfg.transports g) True a record.info ∨ s.Linked cfg g r
  known : Covered cfg g r told → ∀ a b, s.gateways g = some a → s.gateways r = some b →
    a.discovery.terminateFlag = false →
      cfg.gatewayHash g ∈ b.discovery.records.hashes ∨ s.Linked cfg g r
  stored : ∀ type ∈ told, cfg.Share g r type → ∀ a b, s.gateways g = some a →
    s.gateways r = some b → a.discovery.terminateFlag = false →
      b.Stores cfg g type ∨ s.link g r type ≠ []

theorem Covered.append {told more : List TransportType} (h : Covered cfg g r (told ++ more)) :
    (∃ type ∈ more, cfg.Share g r type) ∨ Covered cfg g r told := by
  by_cases hmore : ∃ type ∈ more, cfg.Share g r type
  · exact Or.inl hmore
  · have hold : ∀ {type}, type ∈ told ++ more → cfg.Share g r type → type ∈ told := by
      intro type hmem hshare
      rcases List.mem_append.mp hmem with hmem | hmem
      · exact hmem
      · exact absurd ⟨type, hmem, hshare⟩ hmore
    obtain ⟨⟨type, hmem, hshare⟩, hall⟩ := h
    exact Or.inr ⟨⟨type, hold hmem hshare, hshare⟩,
      fun type hlossy hshare => hold (hall type hlossy hshare) hshare⟩

theorem Covered.ne_nil {told : List TransportType} (h : Covered cfg g r told) : told ≠ [] := by
  obtain ⟨⟨type, hmem, -⟩, -⟩ := h
  exact List.ne_nil_of_mem hmem

section Trust

variable {told more : List TransportType}

/-! ### A gateway speaks -/

/-- What is on its way stays on its way. -/
theorem link_set_ne_nil (hp : s.gateways p = some c) (h : c'.outbox = c.outbox ++ new)
    (hl : s.link g r type ≠ []) : (s.set p c').link g r type ≠ [] := by
  by_cases hg : g = p
  · subst hg
    rw [link_set_self hp h]
    exact List.append_ne_nil_of_left_ne_nil hl _
  · rwa [link_set_of_ne hg]

theorem trust_speak (t : Trust cfg g r s told) (hp : s.gateways p = some c) (hok : c'.Ok cfg p)
    (hs : Speaks (cfg.transports p) c c' new) (hnew : Stamps (cfg.transports p) new)
    (hmore : ∀ type ∈ more, p = g ∧
      ((cfg.transports g).isGood type = true → ∃ info, (type, info) ∈ new)) :
    Trust cfg g r (s.set p c') (told ++ more) := by
  -- the records are the old ones
  have hback : ∀ {q : Fin n} {b : Gateway}, (s.set p c').gateways q = some b →
      ∃ b', s.gateways q = some b' ∧ b.discovery.records = b'.discovery.records ∧
        (b.discovery.terminateFlag = false → b'.discovery.terminateFlag = false) := by
    intro q b hb
    rcases set_gateways_cases hb with ⟨rfl, rfl⟩ | ⟨-, hb⟩
    · exact ⟨c, hp, hs.records, hs.flag_eq_false⟩
    · exact ⟨b, hb, rfl, id⟩
  have hspoken : ∀ type ∈ more, cfg.Share g r type → (s.set p c').link g r type ≠ [] := by
    intro type hmem hshare
    obtain ⟨rfl, hcovers⟩ := hmore type hmem
    obtain ⟨m, hm⟩ := hcovers hshare.1
    exact List.ne_nil_of_mem (mem_link_set hp hs.outbox hm)
  constructor
  case sound => exact sound_speak t.sound hp hok hs
  case clear => exact t.clear
  case sender =>
    intro hne
    by_cases hmem : more = []
    · rw [hmem, List.append_nil] at hne
      exact isSome_set_gateways (t.sender hne)
    · obtain ⟨type, htype⟩ := List.exists_mem_of_ne_nil _ hmem
      obtain ⟨rfl, -⟩ := hmore type htype
      simp
  case receiver => exact isSome_set_gateways t.receiver
  case heard =>
    refine heard_speak t.heard hp hok hs hnew fun type hT => ?_
    rcases hT with hmem | hlossless
    · exact (List.mem_append.mp hmem).imp Or.inl (hmore type)
    · exact Or.inl (Or.inr hlossless)
  case record =>
    intro hcov a b ha hb record hmem hhash
    rcases hcov.append with ⟨type, htype, hshare⟩ | hcov
    · exact Or.inr ⟨type, hshare.2, hspoken type htype hshare⟩
    obtain ⟨b', hb', hrec, -⟩ := hback hb
    rw [hrec] at hmem
    rcases set_gateways_cases ha with ⟨rfl, rfl⟩ | ⟨-, ha⟩
    · rcases t.record hcov c b' hp hb' record hmem hhash with htells | hl
      · rcases hs.told with hkept | hcovers
        · exact Or.inl ⟨hkept record.info htells.1,
            fun hset hflag => htells.2 hset (hs.flag_eq_false hflag)⟩
        · obtain ⟨⟨type, -, hshare⟩, -⟩ := hcov
          obtain ⟨m, hm⟩ := hcovers type hshare.1
          exact Or.inr ⟨type, hshare.2, List.ne_nil_of_mem (mem_link_set hp hs.outbox hm)⟩
      · exact Or.inr (Linked.set hp hs.outbox hl)
    · exact (t.record hcov a b' ha hb' record hmem hhash).imp_right
        fun hl => Linked.set hp hs.outbox hl
  case known =>
    intro hcov a b ha hb hflag
    rcases hcov.append with ⟨type, htype, hshare⟩ | hcov
    · exact Or.inr ⟨type, hshare.2, hspoken type htype hshare⟩
    obtain ⟨a', ha', -, hflag'⟩ := hback ha
    obtain ⟨b', hb', hrec, -⟩ := hback hb
    rw [hrec]
    exact (t.known hcov a' b' ha' hb' (hflag' hflag)).imp_right fun hl => Linked.set hp hs.outbox hl
  case stored =>
    intro type htype hshare a b ha hb hflag
    rcases List.mem_append.mp htype with htype | htype
    · obtain ⟨a', ha', -, hflag'⟩ := hback ha
      obtain ⟨b', hb', hrec, -⟩ := hback hb
      unfold Gateway.Stores
      rw [hrec]
      exact (t.stored type htype hshare a' b' ha' hb' (hflag' hflag)).imp_right
        (link_set_ne_nil hp hs.outbox)
    · exact Or.inr (hspoken type htype hshare)

/-! ### A gateway takes a message -/

/-- The other links keep what they carry. -/
theorem link_take_ne_nil {type' : TransportType} (hq : s.queue p q type = info :: rest)
    (hb : s.gateways q = some b) (hout : b'.outbox = b.outbox)
    (hne : ¬ (g = p ∧ r = q ∧ type' = type)) (hl : s.link g r type' ≠ []) :
    ((s.pop p q type).set q b').link g r type' ≠ [] := by
  rcases link_take hq hb hout g r type' with ⟨hg, hr, htype, -⟩ | ⟨-, heq⟩
  · exact absurd ⟨hg, hr, htype⟩ hne
  · rwa [heq]

theorem linked_take (hq : s.queue p q type = info :: rest) (hb : s.gateways q = some b)
    (hout : b'.outbox = b.outbox) (hne : ¬ (g = p ∧ r = q)) (hl : s.Linked cfg g r) :
    ((s.pop p q type).set q b').Linked cfg g r := by
  obtain ⟨type', hgood, hlink⟩ := hl
  exact ⟨type', hgood, link_take_ne_nil hq hb hout (fun h => hne ⟨h.1, h.2.1⟩) hlink⟩

/-- The message of a sender that does not terminate is an ordinary one. -/
theorem Sound.ordinary (h : Sound cfg s) (hp : s.gateways p = some c)
    (hm : info ∈ s.queue p q type) (hflag : c.discovery.terminateFlag = false) :
    info.isTermination = false := by
  cases hi : info.isTermination with
  | false => rfl
  | true =>
    obtain ⟨d, hd, hterm⟩ := (h.queued p q type info hm).sender
    obtain rfl : c = d := Option.some.inj (hp.symm.trans hd)
    have := ((h.ok p c hp).1.terminated (hterm hi)).1
    rw [hflag] at this
    cases this

/-- The record of the sender has the index of the link. -/
theorem Sound.stores_sender {device : UInt32} (h : Sound cfg s) (hb : s.gateways q = some b)
    (hm : info ∈ s.queue p q type)
    (hrec : b'.discovery.records = b.discovery.records.receive info ⟨type, device⟩)
    (hordinary : info.isTermination = false) : b'.Stores cfg p type := by
  have hc := h.queued p q type info hm
  obtain ⟨hok, hindexed⟩ := h.ok q b hb
  have hiff := fun record => mem_receive_iff record ⟨type, device⟩ hok.nodup
    (h.not_overflows hb hc.ne hc.hash)
  by_cases hk : info.gatewayHash ∈ b.discovery.records.hashes
  · obtain ⟨old, hmem, hhash⟩ := List.mem_map.mp hk
    refine ⟨Records.update old info ⟨type, device⟩, ?_, hc.hash, ?_⟩
    · rw [hrec]
      exact (hiff _).mpr (Or.inr ⟨hordinary, old, rfl, Or.inr ⟨hmem, hhash⟩⟩)
    · exact (stored_storeDeviceIndex (hindexed old hmem) ⟨type, device⟩).2
  · refine ⟨Records.update ⟨.default, .empty⟩ info ⟨type, device⟩, ?_, hc.hash, ?_⟩
    · rw [hrec]
      exact (hiff _).mpr (Or.inr ⟨hordinary, _, rfl, Or.inl ⟨rfl, hk⟩⟩)
    · exact (stored_storeDeviceIndex (v := .empty) List.nodup_nil ⟨type, device⟩).2

/-- What is stored stays stored, but for the record that a termination message removes. -/
theorem Sound.stores_take {device : UInt32} {type' : TransportType} (h : Sound cfg s)
    (hb : s.gateways q = some b) (hm : info ∈ s.queue p q type)
    (hrec : b'.discovery.records = b.discovery.records.receive info ⟨type, device⟩)
    (hordinary : g = p → info.isTermination = false) (hs : b.Stores cfg g type') :
    b'.Stores cfg g type' := by
  have hc := h.queued p q type info hm
  obtain ⟨hok, hindexed⟩ := h.ok q b hb
  have hiff := fun record => mem_receive_iff record ⟨type, device⟩ hok.nodup
    (h.not_overflows hb hc.ne hc.hash)
  obtain ⟨old, hmem, hhash, i, hi, htype⟩ := hs
  unfold Gateway.Stores
  rw [hrec]
  by_cases hgp : g = p
  · subst hgp
    refine ⟨Records.update old info ⟨type, device⟩, ?_, hc.hash, i, ?_, htype⟩
    · exact (hiff _).mpr
        (Or.inr ⟨hordinary rfl, old, rfl, Or.inr ⟨hmem, hhash.trans hc.hash.symm⟩⟩)
    · exact (stored_storeDeviceIndex (hindexed old hmem) ⟨type, device⟩).1 i hi
  · refine ⟨old, (hiff old).mpr (Or.inl ⟨hmem, fun heq => hgp ?_⟩), hhash, i, hi, htype⟩
    exact cfg.distinct (hhash.symm.trans (heq.trans hc.hash))

/-- The last message of all says what the sender would say. -/
theorem Trust.new_record (t : Trust cfg g r s told) (hcov : Covered cfg g r told)
    (ha : s.gateways g = some a) (hq : s.queue g r type = info :: rest)
    (hb : s.gateways r = some b) (ht : Takes b b' info) :
    Says (cfg.transports g) True a info ∨ ((s.pop g r type).set r b').Linked cfg g r := by
  have hshare : cfg.Share g r type := by
    by_contra hnot
    have := t.clear type hnot
    rw [hq] at this
    cases this
  by_cases hl : ((s.pop g r type).set r b').Linked cfg g r
  · exact Or.inr hl
  · left
    have hempty : ((s.pop g r type).set r b').link g r type = [] := by
      by_contra hlink
      exact hl ⟨type, hshare.2, hlink⟩
    have hone : s.link g r type = [info] := by
      rcases link_take hq hb ht.outbox g r type with ⟨-, -, -, heq⟩ | ⟨hnot, -⟩
      · rw [heq, hempty]
      · exact absurd ⟨rfl, rfl, rfl⟩ hnot
    have hreliable : Reliable told type := by
      by_cases hlossy : type ∈ lossyTransportTypes
      · exact Or.inl (hcov.2 type hlossy hshare)
      · exact Or.inr hlossy
    exact t.heard.last a type info ha t.receiver hshare hreliable (by rw [hone]; rfl)

theorem trust_take {device : UInt32} (t : Trust cfg g r s told) (hne : g ≠ r)
    (hq : s.queue p q type = info :: rest) (hb : s.gateways q = some b) (ht : Takes b b' info)
    (hrec : b'.discovery.records = b.discovery.records.receive info ⟨type, device⟩) :
    Trust cfg g r ((s.pop p q type).set q b') told := by
  have hm : info ∈ s.queue p q type := by
    rw [hq]
    exact List.mem_cons_self
  have hc := t.sound.queued p q type info hm
  have hkept : ¬ (g = p ∧ r = q) → s.Linked cfg g r →
      ((s.pop p q type).set q b').Linked cfg g r := linked_take hq hb ht.outbox
  constructor
  case sound => exact sound_take t.sound hq hb ht
  case clear =>
    intro type' hshare
    refine List.eq_nil_iff_forall_not_mem.mpr fun m hmem => ?_
    have := Taking.mem_queue hmem
    rw [t.clear type' hshare] at this
    cases this
  case sender => exact fun hne => isSome_set_gateways (s := s.pop p q type) (t.sender hne)
  case receiver => exact isSome_set_gateways (s := s.pop p q type) t.receiver
  case heard => exact heard_take t.heard hq hb ht
  case record =>
    intro hcov a d ha hd record hmem hhash
    rcases set_gateways_cases hd with ⟨rfl, rfl⟩ | ⟨hrq, hd'⟩
    · -- the records of the receiver
      have ha' : s.gateways g = some a := (set_gateways_of_ne (s.pop p r type) d hne).symm.trans ha
      rw [hrec] at hmem
      rcases Records.mem_receive (t.sound.ok r b hb).1.nodup hmem with ⟨heq, -⟩ | ⟨hold, hnot⟩
      · obtain rfl : g = p := cfg.distinct (by rw [← hhash, heq, hc.hash])
        rw [heq]
        exact t.new_record hcov ha' hq hb ht
      · have hgp : g ≠ p := by
          rintro rfl
          exact hnot (hhash.trans hc.hash.symm)
        exact (t.record hcov a b ha' hb record hold hhash).imp_right
          (hkept fun hgr => hgp hgr.1)
    · rcases set_gateways_cases ha with ⟨rfl, rfl⟩ | ⟨-, ha'⟩
      · exact (t.record hcov b d hb hd' record hmem hhash).imp ht.says
          (hkept fun hgr => hrq hgr.2)
      · exact (t.record hcov a d ha' hd' record hmem hhash).imp_right
          (hkept fun hgr => hrq hgr.2)
  case known =>
    intro hcov a d ha hd hflag
    rcases set_gateways_cases hd with ⟨rfl, rfl⟩ | ⟨hrq, hd'⟩
    · have ha' : s.gateways g = some a := (set_gateways_of_ne (s.pop p r type) d hne).symm.trans ha
      by_cases hgp : g = p
      · subst hgp
        exact Or.inl ((t.sound.mem_hashes_take hb hm ht _).mpr
          (Or.inl ⟨rfl, t.sound.ordinary ha' hm hflag⟩))
      · refine (t.known hcov a b ha' hb hflag).imp (fun hk => ?_) (hkept fun hgr => hgp hgr.1)
        exact (t.sound.mem_hashes_take hb hm ht _).mpr
          (Or.inr ⟨fun heq => hgp (cfg.distinct heq), hk⟩)
    · rcases set_gateways_cases ha with ⟨rfl, rfl⟩ | ⟨-, ha'⟩
      · exact (t.known hcov b d hb hd' (ht.flag ▸ hflag)).imp_right (hkept fun hgr => hrq hgr.2)
      · exact (t.known hcov a d ha' hd' hflag).imp_right (hkept fun hgr => hrq hgr.2)
  case stored =>
    intro type' htype hshare a d ha hd hflag
    rcases set_gateways_cases hd with ⟨rfl, rfl⟩ | ⟨hrq, hd'⟩
    · have ha' : s.gateways g = some a := (set_gateways_of_ne (s.pop p r type) d hne).symm.trans ha
      have hordinary : g = p → info.isTermination = false := by
        rintro rfl
        exact t.sound.ordinary ha' hm hflag
      rcases t.stored type' htype hshare a b ha' hb hflag with hs | hl
      · exact Or.inl (t.sound.stores_take hb hm hrec hordinary hs)
      · by_cases hlast : g = p ∧ type' = type
        · obtain ⟨rfl, rfl⟩ := hlast
          exact Or.inl (t.sound.stores_sender hb hm hrec (hordinary rfl))
        · exact Or.inr (link_take_ne_nil hq hb ht.outbox (fun h => hlast ⟨h.1, h.2.2⟩) hl)
    · have hl := fun hl => link_take_ne_nil (g := g) (r := r) hq hb ht.outbox
        (fun h => hrq h.2.1 : ¬ (g = p ∧ r = q ∧ type' = type)) hl
      rcases set_gateways_cases ha with ⟨rfl, rfl⟩ | ⟨-, ha'⟩
      · exact (t.stored type' htype hshare b d hb hd' (ht.flag ▸ hflag)).imp_right hl
      · exact (t.stored type' htype hshare a d ha' hd' hflag).imp_right hl

/-! ### The other moves -/

/-- What goes out goes where both sides have the transport. -/
theorem clear_send {outbox : List (TransportType × PubSubInfo)} (h : Sound cfg s)
    (hclear : s.Clear cfg g r) (hp : s.gateways p = some c)
    (hout : c.outbox = (type, info) :: outbox) :
    ((s.deliver cfg p type info).set p { c with outbox }).Clear cfg g r := by
  intro type' hshare
  have hgood := ((h.ok p c hp).1.outbox (type, info) (by rw [hout]; exact List.mem_cons_self)).1
  simp only [State.set, State.deliver]
  rw [if_neg]
  · exact hclear type' hshare
  · rintro ⟨rfl, -, rfl, -, hgood'⟩
    exact hshare ⟨hgood, hgood'⟩

theorem trust_send {outbox : List (TransportType × PubSubInfo)} (t : Trust cfg g r s told)
    (hne : g ≠ r) (hp : s.gateways p = some c) (hout : c.outbox = (type, info) :: outbox) :
    Trust cfg g r ((s.deliver cfg p type info).set p { c with outbox }) told := by
  -- the gateways are the old ones, but for an outbox
  have hback : ∀ {q : Fin n} {d : Gateway},
      ((s.deliver cfg p type info).set p { c with outbox }).gateways q = some d →
        ∃ d', s.gateways q = some d' ∧ d.discovery = d'.discovery ∧
          ∀ t m, Says t True d' m → Says t True d m := by
    intro q d hd
    rcases set_gateways_cases hd with ⟨rfl, rfl⟩ | ⟨-, hd⟩
    · exact ⟨c, hp, rfl, fun t m hm => hm.of_outbox⟩
    · exact ⟨d, hd, rfl, fun t m => id⟩
  have hlink : ∀ {type' : TransportType}, (cfg.transports r).isGood type' = true →
      s.link g r type' ≠ [] →
        ((s.deliver cfg p type info).set p { c with outbox }).link g r type' ≠ [] := by
    intro type' hgood hl
    rwa [link_send hp hout hne t.receiver hgood]
  have hlinked : s.Linked cfg g r →
      ((s.deliver cfg p type info).set p { c with outbox }).Linked cfg g r := by
    rintro ⟨type', hgood, hl⟩
    exact ⟨type', hgood, hlink hgood hl⟩
  constructor
  case sound => exact sound_send t.sound hp hout
  case clear => exact clear_send t.sound t.clear hp hout
  case sender => exact fun h => isSome_set_gateways (s := s.deliver cfg p type info) (t.sender h)
  case receiver => exact isSome_set_gateways (s := s.deliver cfg p type info) t.receiver
  case heard => exact heard_send t.heard hne hp hout
  case record =>
    intro hcov a b ha hb record hmem hhash
    obtain ⟨a', ha', -, htells⟩ := hback ha
    obtain ⟨b', hb', hd, -⟩ := hback hb
    rw [hd] at hmem
    exact (t.record hcov a' b' ha' hb' record hmem hhash).imp (htells _ record.info) hlinked
  case known =>
    intro hcov a b ha hb hflag
    obtain ⟨a', ha', hd, -⟩ := hback ha
    obtain ⟨b', hb', hd', -⟩ := hback hb
    rw [hd] at hflag
    rw [hd']
    exact (t.known hcov a' b' ha' hb' hflag).imp_right hlinked
  case stored =>
    intro type' htype hshare a b ha hb hflag
    obtain ⟨a', ha', hd, -⟩ := hback ha
    obtain ⟨b', hb', hd', -⟩ := hback hb
    rw [hd] at hflag
    unfold Gateway.Stores
    rw [hd']
    exact (t.stored type' htype hshare a' b' ha' hb' hflag).imp_right (hlink hshare.2)

/-- A gateway that is constructed is another one than the two, or has not spoken yet. -/
theorem trust_construct (t : Trust cfg g r s told) (hp : s.gateways p = none)
    (preferredType : TransportType) :
    Trust cfg g r (s.set p (.construct (cfg.gatewayHash p) preferredType)) told := by
  have hrp : r ≠ p := by
    rintro rfl
    have := t.receiver
    rw [hp] at this
    cases this
  have hgp : told ≠ [] → g ≠ p := by
    rintro hne rfl
    have := t.sender hne
    rw [hp] at this
    cases this
  have hlinked : g ≠ p → s.Linked cfg g r →
      (s.set p (.construct (cfg.gatewayHash p) preferredType)).Linked cfg g r := by
    rintro hgp ⟨type, hgood, hl⟩
    exact ⟨type, hgood, by rwa [link_set_of_ne hgp]⟩
  constructor
  case sound => exact sound_construct t.sound hp preferredType
  case clear => exact t.clear
  case sender => exact fun h => isSome_set_gateways (t.sender h)
  case receiver => exact isSome_set_gateways t.receiver
  case heard => exact heard_construct t.sound t.heard hp preferredType
  case record =>
    intro hcov a b ha hb record hmem hhash
    rw [set_gateways_of_ne s _ (hgp hcov.ne_nil)] at ha
    rw [set_gateways_of_ne s _ hrp] at hb
    exact (t.record hcov a b ha hb record hmem hhash).imp_right (hlinked (hgp hcov.ne_nil))
  case known =>
    intro hcov a b ha hb hflag
    rw [set_gateways_of_ne s _ (hgp hcov.ne_nil)] at ha
    rw [set_gateways_of_ne s _ hrp] at hb
    exact (t.known hcov a b ha hb hflag).imp_right (hlinked (hgp hcov.ne_nil))
  case stored =>
    intro type htype hshare a b ha hb hflag
    have hgp' := hgp (List.ne_nil_of_mem htype)
    rw [set_gateways_of_ne s _ hgp'] at ha
    rw [set_gateways_of_ne s _ hrp] at hb
    rw [link_set_of_ne hgp']
    exact t.stored type htype hshare a b ha hb hflag

/-- A fault elsewhere. -/
theorem trust_fault {messages : List PubSubInfo} (t : Trust cfg g r s told)
    (hne : ¬ (g = p ∧ r = q)) (hold : ∀ info ∈ messages, info ∈ s.queue p q type) :
    Trust cfg g r (s.disturb p q type messages) told := by
  have hlink : ∀ type', (s.disturb p q type messages).link g r type' = s.link g r type' :=
    fun type' => link_disturb fun hc => hne ⟨hc.1, hc.2.1⟩
  have hlinked : s.Linked cfg g r → (s.disturb p q type messages).Linked cfg g r := by
    rintro ⟨type', hgood, hl⟩
    exact ⟨type', hgood, by rwa [hlink]⟩
  constructor
  case sound => exact sound_fault t.sound hold
  case clear =>
    intro type' hshare
    simp only [State.disturb]
    rw [if_neg fun hc => hne ⟨hc.1, hc.2.1⟩]
    exact t.clear type' hshare
  case sender => exact t.sender
  case receiver => exact t.receiver
  case heard => exact heard_fault t.heard fun hg hr => absurd ⟨hg, hr⟩ hne
  case record =>
    intro hcov a b ha hb record hmem hhash
    exact (t.record hcov a b ha hb record hmem hhash).imp_right hlinked
  case known =>
    intro hcov a b ha hb hflag
    exact (t.known hcov a b ha hb hflag).imp_right hlinked
  case stored =>
    intro type' htype hshare a b ha hb hflag
    rw [hlink]
    exact t.stored type' htype hshare a b ha hb hflag

/-- No fault between `g` and `r`. -/
def LossyLabel.Spares (g r : Fin n) : LossyLabel n → Prop
  | .fault p q _ _ => ¬ (g = p ∧ r = q)
  | .step _ => True

/-- **One step.** -/
theorem trust_moved {l : LossyLabel n} (t : Trust cfg g r s told) (hne : g ≠ r)
    (hl : l.Spares g r) (hm : Moved cfg s l s') : Trust cfg g r s' (told ++ l.told g) := by
  cases hm with
  | @spoke p c c' new action before act ok speaks stamps =>
    refine trust_speak t before ok speaks stamps fun type hmem => ?_
    simp only [LossyLabel.told] at hmem
    split at hmem
    · rename_i hp
      subst hp
      exact ⟨rfl, (new_act act speaks).2 type hmem⟩
    · cases hmem
  | received queue before ok speaks stamps silent takes records =>
    have hspoken : Trust cfg g r _ (told ++ []) :=
      trust_speak t before ok speaks stamps fun _ h => absurd h List.not_mem_nil
    exact trust_take hspoken hne queue (set_gateways_self s _ _) takes records
  | sent before out =>
    change Trust cfg g r _ (told ++ [])
    rw [List.append_nil]
    exact trust_send t hne before out
  | constructed before =>
    change Trust cfg g r _ (told ++ [])
    rw [List.append_nil]
    exact trust_construct t before _
  | faulted lossy old =>
    change Trust cfg g r _ (told ++ [])
    rw [List.append_nil]
    exact trust_fault t hl old

end Trust

/-- Over the transports that cannot lose a message the last one can always be relied on. -/
theorem heard_moved {settled : Prop} {l : LossyLabel n} (h : Sound cfg s) (hne : g ≠ r)
    (hh : Heard cfg g r settled (· ∉ lossyTransportTypes) s) (hm : Moved cfg s l s') :
    Heard cfg g r settled (· ∉ lossyTransportTypes) s' := by
  cases hm with
  | spoke before act ok speaks stamps =>
    exact heard_speak hh before ok speaks stamps fun _ => Or.inl
  | received queue before ok speaks stamps silent takes records =>
    exact heard_take (heard_speak hh before ok speaks stamps fun _ => Or.inl) queue
      (set_gateways_self s _ _) takes
  | sent before out => exact heard_send hh hne before out
  | constructed before => exact heard_construct h hh before _
  | faulted lossy old => exact heard_fault hh fun _ _ _ hT => hT lossy

theorem clear_moved {l : LossyLabel n} (h : Sound cfg s) (hclear : s.Clear cfg g r)
    (hm : Moved cfg s l s') : s'.Clear cfg g r := by
  have hless : ∀ {s' : State n}, (∀ type info, info ∈ s'.queue g r type → info ∈ s.queue g r type) →
      s'.Clear cfg g r := by
    intro s' hsub type hshare
    refine List.eq_nil_iff_forall_not_mem.mpr fun info hm => ?_
    have := hsub type info hm
    rw [hclear type hshare] at this
    cases this
  cases hm with
  | spoke before act ok speaks stamps => exact hclear
  | @received p q type device infoHash info rest b c b' new queue before ok speaks =>
    exact hless fun type' m hm => Taking.mem_queue (s := s.set q c) hm
  | sent before out => exact clear_send h hclear before out
  | constructed before => exact hclear
  | faulted lossy old => exact hless fun type' m hm => mem_disturb old hm

/-! ## The result -/

/-- **Every run.** -/
theorem sound_of_run {ls : List (LossyLabel n)}
    (h : Run.exec (lossyStep cfg) (State.init n) ls = some s) (hne : g ≠ r) :
    Sound cfg s ∧ s.Clear cfg g r ∧ Heard cfg g r True (· ∉ lossyTransportTypes) s := by
  refine Run.invariant
    (fun s => Sound cfg s ∧ s.Clear cfg g r ∧ Heard cfg g r True (· ∉ lossyTransportTypes) s) ?_
    ⟨sound_init cfg, fun _ _ => rfl, heard_init⟩ h
  intro s l s' hs hstep
  obtain ⟨hsound, hclear, hheard⟩ := hs
  have hm := moved_of_step hsound hstep
  exact ⟨sound_moved hsound hm, clear_moved hsound hclear hm, heard_moved hsound hne hheard hm⟩

/-- Before `g` speaks, nothing is known of it. -/
theorem trust_start (h : Sound cfg s) (hclear : s.Clear cfg g r)
    (hh : Heard cfg g r True (· ∉ lossyTransportTypes) s) (hr : (s.gateways r).isSome) :
    Trust cfg g r s [] where
  sound := h
  clear := hclear
  sender := fun hne => absurd rfl hne
  receiver := hr
  heard := by
    refine ⟨hh.stamped, fun a type info ha hr hshare hT hlast => ?_⟩
    exact hh.last a type info ha hr hshare (hT.resolve_left List.not_mem_nil) hlast
  record := fun hcov => absurd rfl hcov.ne_nil
  known := fun hcov => absurd rfl hcov.ne_nil
  stored := fun _ htype => absurd htype List.not_mem_nil

/-- `g` has sent its info again over every lossy transport that it has in common with `r`. -/
def Setup.Repeats (cfg : Setup n) (g r : Fin n) (ls : List (LossyLabel n)) : Prop :=
  (∃ type ∈ lossyTransportTypes, cfg.Share g r type) ∧
    ∀ type ∈ lossyTransportTypes, cfg.Share g r type →
      ∃ infoHash, .step (.act g (.resendDiscoveryInfoToTransport type infoHash)) ∈ ls

theorem mem_told {ls : List (LossyLabel n)} {action : Gateway.Action}
    (hmem : .step (.act g action) ∈ ls) (htype : type ∈ action.told) :
    type ∈ ls.flatMap (LossyLabel.told g) := by
  refine List.mem_flatMap.mpr ⟨_, hmem, ?_⟩
  simpa [LossyLabel.told] using htype

theorem covered_of_repeats {ls : List (LossyLabel n)} (h : cfg.Repeats g r ls) :
    Covered cfg g r (ls.flatMap (LossyLabel.told g)) := by
  have hall : ∀ type ∈ lossyTransportTypes, cfg.Share g r type →
      type ∈ ls.flatMap (LossyLabel.told g) := by
    intro type hlossy hshare
    obtain ⟨infoHash, hmem⟩ := h.2 type hlossy hshare
    exact mem_told hmem (List.mem_singleton_self type)
  obtain ⟨type, hlossy, hshare⟩ := h.1
  exact ⟨⟨type, hall type hlossy hshare, hshare⟩, hall⟩

theorem mem_types_of_isGood {t : TransportInfo} (h : t.isGood type = true) :
    type ∈ TransportInfo.types := by
  cases type with
  | none => simp [TransportInfo.isGood, TransportInfo.slot] at h
  | _ => simp [TransportInfo.types]

theorem covered_of_termination {ls : List (LossyLabel n)} {infoHash : Hash}
    (hshared : ∃ type, cfg.Share g r type)
    (h : .step (.act g (.sendTermination infoHash)) ∈ ls) :
    Covered cfg g r (ls.flatMap (LossyLabel.told g)) := by
  have hall : ∀ type, cfg.Share g r type → type ∈ ls.flatMap (LossyLabel.told g) :=
    fun type hshare => mem_told h (mem_types_of_isGood hshare.1)
  obtain ⟨type, hshare⟩ := hshared
  exact ⟨⟨type, hall type hshare, hshare⟩, fun type _ => hall type⟩

/-- What `r` knows of `g` once nothing is on its way. -/
theorem Trust.settled {told : List TransportType} (t : Trust cfg g r s told)
    (hcov : Covered cfg g r told) (hg : s.gateways g = some a) (hr : s.gateways r = some b)
    (hquiet : a.Quiet) (hempty : ∀ type, s.queue g r type = []) :
    (a.Running → ∃ record, b.discovery.records.toList.filter
        (fun x => x.info.gatewayHash = cfg.gatewayHash g) = [record] ∧
      (∀ x, x ∈ record.info.userSubscribers.toList ↔
        x ∈ a.discovery.localState.userSubscribers.toList) ∧
      record.info.gatewayBitset = (cfg.transports g).bitset ∧
      (record.deviceIndices.toList.map DeviceIndex.type).Nodup ∧
      ∀ type ∈ told, cfg.Share g r type → Routes.Stored record type) ∧
    (a.terminated = true → cfg.gatewayHash g ∉ b.discovery.records.hashes) := by
  have hnil : ∀ type, s.link g r type = [] := by
    intro type
    rw [link_some hg, hempty, List.nil_append]
    simp [Gateway.out, hquiet.1]
  have hnl : ¬ s.Linked cfg g r := by
    rintro ⟨type, -, hl⟩
    exact hl (hnil type)
  have htells : ∀ record ∈ b.discovery.records.toList,
      record.info.gatewayHash = cfg.gatewayHash g → Says (cfg.transports g) True a record.info :=
    fun record hmem hhash => (t.record hcov a b hg hr record hmem hhash).resolve_right hnl
  obtain ⟨ha, -⟩ := t.sound.ok g a hg
  obtain ⟨hb, hindexed⟩ := t.sound.ok r b hr
  constructor
  · intro hrun
    have hknown := (t.known hcov a b hg hr hrun.2).resolve_right hnl
    obtain ⟨record, hrecord⟩ := exists_unique_record hb hknown
    have honly : ∀ x, x ∈ b.discovery.records.toList ∧ x.info.gatewayHash = cfg.gatewayHash g ↔
        x = record := by
      intro x
      have hx : x ∈ b.discovery.records.toList.filter
        (fun x => x.info.gatewayHash = cfg.gatewayHash g) ↔ _ := List.mem_filter
      rw [hrecord, List.mem_singleton, decide_eq_true_iff] at hx
      exact hx.symm
    obtain ⟨hmem, hhash⟩ := (honly record).mpr rfl
    obtain ⟨hann, hbits⟩ := htells record hmem hhash
    have hsame : services record.info = a.current := by
      rcases hann.2 (ha.not_terminated hrun.2) with heq | heq
      · exact heq
      · exact heq.trans (ha.settled hquiet.2.1)
    refine ⟨record, hrecord, fun x => ?_, hbits trivial hrun.2, hindexed record hmem,
      fun type htype hshare => ?_⟩
    · have := Finset.ext_iff.mp hsame x
      simpa [services, Gateway.current] using this
    · obtain ⟨record', hmem', hhash', hstored⟩ :=
        (t.stored type htype hshare a b hg hr hrun.2).resolve_right fun hl => hl (hnil type)
      obtain rfl := (honly record').mp ⟨hmem', hhash'⟩
      exact hstored
  · intro hterm hmem
    obtain ⟨record, hrec, hhash⟩ := List.mem_map.mp hmem
    have hflag := (htells record hrec hhash).1.1
    rw [hterm, hb.ordinary record hrec] at hflag
    cases hflag

/-- **Discovery recovers from faults.**  After any run with faults, let `g` send its info again over
every lossy transport that it shares with `r`, of which there is one, or its termination message,
with no more faults between the two.  As soon as nothing of `g` is in flight to `r`, `r` has exactly
one record of `g`, with the current subscribers and the transports of `g`, and a device index for
each lossy transport that they share, if `g` is running, and none if `g` has terminated. -/
theorem discovery_recovers (cfg : Setup n) {ls₁ ls₂ : List (LossyLabel n)} {s₀ s : State n}
    {g r : Fin n} {a b : Gateway} (h₁ : Run.exec (lossyStep cfg) (State.init n) ls₁ = some s₀)
    (hr₀ : (s₀.gateways r).isSome) (h₂ : Run.exec (lossyStep cfg) s₀ ls₂ = some s) (hne : g ≠ r)
    (hspared : ∀ l ∈ ls₂, l.Spares g r)
    (hspoke : cfg.Repeats g r ls₂ ∨ ((∃ type, cfg.Share g r type) ∧
      ∃ infoHash, .step (.act g (.sendTermination infoHash)) ∈ ls₂))
    (hg : s.gateways g = some a) (hr : s.gateways r = some b) (hquiet : a.Quiet)
    (hempty : ∀ type, s.queue g r type = []) :
    (a.Running → ∃ record, b.discovery.records.toList.filter
        (fun x => x.info.gatewayHash = cfg.gatewayHash g) = [record] ∧
      (∀ x, x ∈ record.info.userSubscribers.toList ↔
        x ∈ a.discovery.localState.userSubscribers.toList) ∧
      record.info.gatewayBitset = (cfg.transports g).bitset ∧
      (cfg.Repeats g r ls₂ →
        ∀ type ∈ lossyTransportTypes, cfg.Share g r type → Routes.Stored record type)) ∧
    (a.terminated = true → cfg.gatewayHash g ∉ b.discovery.records.hashes) := by
  obtain ⟨hsound, hclear, hheard⟩ := sound_of_run h₁ hne
  have t : Trust cfg g r s ([] ++ ls₂.flatMap (LossyLabel.told g)) :=
    Run.invariant_labels (Trust cfg g r) (LossyLabel.told g)
      (fun _ _ _ _ t hl hstep => trust_moved t hne hl (moved_of_step t.sound hstep))
      (trust_start hsound hclear hheard hr₀) (Run.guarded_of_forall hspared s₀) h₂
  rw [List.nil_append] at t
  have hcov : Covered cfg g r (ls₂.flatMap (LossyLabel.told g)) := by
    rcases hspoke with hrepeats | ⟨hshared, infoHash, hmem⟩
    · exact covered_of_repeats hrepeats
    · exact covered_of_termination hshared hmem
  obtain ⟨hrunning, hterminated⟩ := t.settled hcov hg hr hquiet hempty
  refine ⟨fun hrun => ?_, hterminated⟩
  obtain ⟨record, hrecord, hservices, hbits, -, hstored⟩ := hrunning hrun
  refine ⟨record, hrecord, hservices, hbits, fun hrepeats type hlossy hshare => ?_⟩
  exact hstored type ((covered_of_repeats hrepeats).2 type hlossy hshare) hshare

/-- The gateways of the runs. -/
abbrev demoSender : Fin 2 := ⟨0, Nat.two_pos⟩

abbrev demoReceiver : Fin 2 := ⟨1, Nat.one_lt_two⟩

/-- The second gateway hears neither of the first one nor of its subscriber. -/
def demoLoss : List (LossyLabel 2) :=
  [.step (.construct demoSender .none), .step (.construct demoReceiver .none),
    .step (.act demoSender (.initializeDiscovery 0)), .step (.send demoSender),
    .fault demoSender demoReceiver .udp [],
    .step (.act demoSender (.readPorts ⟨[], [⟨demoNode, demoService, 1⟩]⟩)),
    .step (.act demoSender (.sendIfChanged 0)), .step (.send demoSender),
    .fault demoSender demoReceiver .udp []]

def demoRecovery : List (LossyLabel 2) :=
  [.step (.act demoSender (.resendDiscoveryInfoToTransport .udp 0)), .step (.send demoSender),
    .step (.receive demoSender demoReceiver .udp 0 0)]

theorem discovery_recovers_demo :
    ∃ s₀ s, Run.exec (lossyStep demoConfig) (State.init 2) demoLoss = some s₀ ∧
      Run.exec (lossyStep demoConfig) s₀ demoRecovery = some s ∧
      ∃ a b, s.gateways 0 = some a ∧ s.gateways 1 = some b ∧
        ∃ record, b.discovery.records.toList.filter (fun x => x.info.gatewayHash = 1) = [record] ∧
          (∀ x, x ∈ record.info.userSubscribers.toList ↔ x ∈ [demoService]) ∧
          record.info.gatewayBitset = 4 ∧ Routes.Stored record .udp := by
  have hrecovers := fun s₀ s
      (h₁ : Run.exec (lossyStep demoConfig) (State.init 2) demoLoss = some s₀)
      (h₂ : Run.exec (lossyStep demoConfig) s₀ demoRecovery = some s) hr₀ a b =>
    discovery_recovers demoConfig.toSetup h₁ hr₀ h₂ (g := 0) (r := 1) (a := a) (b := b)
  have hrepeats : demoConfig.Repeats 0 1 demoRecovery := by
    refine ⟨⟨.udp, by decide, rfl, rfl⟩, fun type hlossy hshare => ?_⟩
    fin_cases hlossy
    · exact ⟨0, List.mem_cons_self⟩
    · exact absurd hshare.1 (by decide)
  refine ⟨_, _, rfl, rfl, _, _, rfl, rfl, ?_⟩
  obtain ⟨record, hrecord, hservices, hbits, hstored⟩ :=
    (hrecovers _ _ rfl rfl rfl _ _ (by decide) (fun l hl => by fin_cases hl <;> trivial)
      (Or.inl hrepeats) rfl rfl ⟨rfl, rfl, fun hflag => by cases hflag⟩
      (fun type => by cases type <;> rfl)).1 ⟨rfl, rfl⟩
  exact ⟨record, hrecord, hservices, hbits, hstored hrepeats .udp (by decide) ⟨rfl, rfl⟩⟩

/-! ## A termination message that is lost -/

/-- `g` has terminated, `r` has a record of it, and no termination message is on its way. -/
structure Stale (cfg : Setup n) (g r : Fin n) (s : State n) : Prop where
  sound : Sound cfg s
  terminated : ∃ a, s.gateways g = some a ∧ a.terminated = true
  ordinary : ∀ type, ∀ info ∈ s.link g r type, info.isTermination = false
  known : ∃ b, s.gateways r = some b ∧ cfg.gatewayHash g ∈ b.discovery.records.hashes

/-- A gateway that has terminated does nothing of its own accord. -/
theorem not_act_of_terminated {t : TransportInfo} {action : Gateway.Action} (h : a.Ok cfg g)
    (hterm : a.terminated = true) : a.act t action = none := by
  obtain ⟨hflag, hreading⟩ := h.terminated hterm
  have hcb := h.flag hflag
  cases action <;> simp [Gateway.act, hterm, hflag, hreading, hcb]

/-- Somebody else speaks, or `g` says nothing. -/
theorem stale_speak (h : Stale cfg g r s) (hp : s.gateways p = some c) (hok : c'.Ok cfg p)
    (hs : Speaks (cfg.transports p) c c' new) (hsilent : p = g → new = []) :
    Stale cfg g r (s.set p c') := by
  obtain ⟨a, ha, hterm⟩ := h.terminated
  obtain ⟨b, hb, hk⟩ := h.known
  obtain ⟨a', ha', hstays⟩ := stays_set c' hp hs.terminated g a ha
  constructor
  case sound => exact sound_speak h.sound hp hok hs
  case terminated => exact ⟨a', ha', hstays hterm⟩
  case ordinary =>
    intro type info hm
    by_cases hpg : p = g
    · subst hpg
      rw [link_set_self hp hs.outbox, hsilent rfl] at hm
      simp only [List.filter_nil, List.map_nil, List.append_nil] at hm
      exact h.ordinary type info hm
    · rw [link_set_of_ne (Ne.symm hpg)] at hm
      exact h.ordinary type info hm
  case known =>
    by_cases hpr : p = r
    · subst hpr
      obtain rfl : c = b := Option.some.inj (hp.symm.trans hb)
      exact ⟨c', set_gateways_self s p c', by rwa [hs.records]⟩
    · exact ⟨b, (set_gateways_of_ne s c' (Ne.symm hpr)).trans hb, hk⟩

theorem stale_take (h : Stale cfg g r s) (hq : s.queue p q type = info :: rest)
    (hb : s.gateways q = some b) (ht : Takes b b' info) :
    Stale cfg g r ((s.pop p q type).set q b') := by
  have hm : info ∈ s.queue p q type := by
    rw [hq]
    exact List.mem_cons_self
  obtain ⟨a, ha, hterm⟩ := h.terminated
  obtain ⟨d, hd, hk⟩ := h.known
  obtain ⟨a', ha', hstays⟩ := stays_set (s := s.pop p q type) b' hb
    (fun hterm => ht.terminated.trans hterm) g a ha
  constructor
  case sound => exact sound_take h.sound hq hb ht
  case terminated => exact ⟨a', ha', hstays hterm⟩
  case ordinary =>
    intro type' m hmem
    refine h.ordinary type' m ?_
    rcases link_take hq hb ht.outbox g r type' with ⟨-, -, -, heq⟩ | ⟨-, heq⟩
    · rw [heq]
      exact List.mem_cons_of_mem _ hmem
    · rw [← heq]
      exact hmem
  case known =>
    by_cases hqr : q = r
    · subst hqr
      obtain rfl : b = d := Option.some.inj (hb.symm.trans hd)
      refine ⟨b', set_gateways_self _ q b', (h.sound.mem_hashes_take hb hm ht _).mpr ?_⟩
      by_cases hpg : p = g
      · -- a message of the gateway itself, not the termination message
        subst hpg
        refine Or.inl ⟨rfl, h.ordinary type info ?_⟩
        rw [link_some ha]
        exact List.mem_append_left _ hm
      · exact Or.inr ⟨fun heq => hpg (cfg.distinct heq).symm, hk⟩
    · exact ⟨d, (set_gateways_of_ne (s.pop p q type) b' (Ne.symm hqr)).trans hd, hk⟩

/-- A message that goes out is on its way already. -/
theorem mem_link_of_send {outbox : List (TransportType × PubSubInfo)} {type' : TransportType}
    {m : PubSubInfo} (hp : s.gateways p = some c) (hout : c.outbox = (type, info) :: outbox)
    (hm : m ∈ ((s.deliver cfg p type info).set p { c with outbox }).link g r type') :
    m ∈ s.link g r type' := by
  by_cases hg : g = p
  · subst hg
    rw [link_some (set_gateways_self _ g _)] at hm
    rw [link_some hp]
    rcases List.mem_append.mp hm with hqueue | houtbox
    · simp only [State.set, State.deliver] at hqueue
      split at hqueue
      · rename_i hc
        rcases List.mem_append.mp hqueue with hqueue | hnew
        · exact List.mem_append_left _ hqueue
        · refine List.mem_append_right _ (mem_out.mpr ?_)
          rw [hout, hc.2.2.1, List.mem_singleton.mp hnew]
          exact List.mem_cons_self
      · exact List.mem_append_left _ hqueue
    · refine List.mem_append_right _ (mem_out.mpr ?_)
      rw [hout]
      exact List.mem_cons_of_mem _ (mem_out.mp houtbox)
  · have hlink : ((s.deliver cfg p type info).set p { c with outbox }).link g r type'
        = s.link g r type' := by
      refine link_congr ?_ (set_gateways_of_ne _ _ hg)
      simp only [State.set, State.deliver]
      exact if_neg fun hc => hg hc.1
    rwa [hlink] at hm

theorem stale_send {outbox : List (TransportType × PubSubInfo)} (h : Stale cfg g r s)
    (hp : s.gateways p = some c) (hout : c.outbox = (type, info) :: outbox) :
    Stale cfg g r ((s.deliver cfg p type info).set p { c with outbox }) := by
  obtain ⟨a, ha, hterm⟩ := h.terminated
  obtain ⟨b, hb, hk⟩ := h.known
  obtain ⟨a', ha', hstays⟩ :=
    stays_set (s := s.deliver cfg p type info) { c with outbox } hp id g a ha
  constructor
  case sound => exact sound_send h.sound hp hout
  case terminated => exact ⟨a', ha', hstays hterm⟩
  case ordinary =>
    intro type' m hmem
    exact h.ordinary type' m (mem_link_of_send hp hout hmem)
  case known =>
    by_cases hpr : p = r
    · subst hpr
      obtain rfl : c = b := Option.some.inj (hp.symm.trans hb)
      exact ⟨_, set_gateways_self _ p _, hk⟩
    · exact ⟨b, (set_gateways_of_ne (s.deliver cfg p type info) _ (Ne.symm hpr)).trans hb, hk⟩

/-- A gateway that is constructed is neither of the two. -/
theorem stale_construct (h : Stale cfg g r s) (hp : s.gateways p = none)
    (preferredType : TransportType) :
    Stale cfg g r (s.set p (.construct (cfg.gatewayHash p) preferredType)) := by
  obtain ⟨a, ha, hterm⟩ := h.terminated
  obtain ⟨b, hb, hk⟩ := h.known
  have hne : ∀ {q : Fin n} {d : Gateway}, s.gateways q = some d → q ≠ p := by
    rintro q d hd rfl
    rw [hp] at hd
    cases hd
  refine ⟨sound_construct h.sound hp preferredType,
    ⟨a, (set_gateways_of_ne s _ (hne ha)).trans ha, hterm⟩, ?_,
    ⟨b, (set_gateways_of_ne s _ (hne hb)).trans hb, hk⟩⟩
  intro type info hm
  rw [link_set_of_ne (hne ha)] at hm
  exact h.ordinary type info hm

/-- **One step.** -/
theorem stale_moved {l : LossyLabel n} (h : Stale cfg g r s) (hm : Moved cfg s l s') :
    Stale cfg g r s' := by
  obtain ⟨a, ha, hterm⟩ := h.terminated
  obtain ⟨hok, -⟩ := h.sound.ok g a ha
  cases hm with
  | @spoke p c c' new action before act ok speaks stamps =>
    refine stale_speak h before ok speaks fun hp => ?_
    subst hp
    obtain rfl : a = c := Option.some.inj (ha.symm.trans before)
    rw [not_act_of_terminated hok hterm] at act
    cases act
  | @received p q type device infoHash info rest b c b' new queue before ok speaks stamps silent
      takes records =>
    have hspoken := stale_speak h before ok speaks fun hq => by
      subst hq
      obtain rfl : a = b := Option.some.inj (ha.symm.trans before)
      exact silent (hok.terminated hterm).1
    exact stale_take hspoken queue (set_gateways_self s _ _) takes
  | sent before out => exact stale_send h before out
  | constructed before => exact stale_construct h before _
  | faulted lossy old =>
    refine ⟨sound_fault h.sound old, h.terminated, ?_, h.known⟩
    intro type' m hmem
    refine h.ordinary type' m ?_
    rw [link_some (s := s.disturb _ _ _ _) ha] at hmem
    rw [link_some ha]
    rcases List.mem_append.mp hmem with hmem | hmem
    · exact List.mem_append_left _ (mem_disturb old hmem)
    · exact List.mem_append_right _ hmem

/-- **A lost termination message is not made up for.**  If `r` has a record of a gateway that has
terminated and whose termination message is not on its way to `r`, then `r` has a record of it in
every state that any run leads to from there, with faults or without. -/
theorem lost_termination (cfg : Setup n) {ls₁ ls₂ : List (LossyLabel n)} {s₀ s : State n}
    {g r : Fin n} {a b : Gateway} (h₁ : Run.exec (lossyStep cfg) (State.init n) ls₁ = some s₀)
    (hne : g ≠ r) (hg : s₀.gateways g = some a) (hterm : a.terminated = true)
    (hr : s₀.gateways r = some b) (hk : cfg.gatewayHash g ∈ b.discovery.records.hashes)
    (hlost : ∀ type, ∀ info ∈ s₀.link g r type, info.isTermination = false)
    (h₂ : Run.exec (lossyStep cfg) s₀ ls₂ = some s) :
    ∃ b', s.gateways r = some b' ∧ cfg.gatewayHash g ∈ b'.discovery.records.hashes := by
  have hstale : Stale cfg g r s := by
    refine Run.invariant (Stale cfg g r) ?_
      ⟨(sound_of_run h₁ hne).1, ⟨a, hg, hterm⟩, hlost, ⟨b, hr, hk⟩⟩ h₂
    intro s l s' hs hstep
    exact stale_moved hs (moved_of_step hs.sound hstep)
  exact hstale.known

/-- The first gateway terminates, and its message is lost. -/
def demoLostTermination : List (LossyLabel 2) :=
  [.step (.construct demoSender .none), .step (.construct demoReceiver .none),
    .step (.act demoSender (.initializeDiscovery 0)), .step (.send demoSender),
    .step (.receive demoSender demoReceiver .udp 0 0), .step (.send demoReceiver),
    .step (.act demoSender .setTerminateFlag), .step (.act demoSender (.sendTermination 0)),
    .step (.send demoSender), .fault demoSender demoReceiver .udp []]

/-- The second gateway goes on, and sends its info twice more. -/
def demoAfterwards : List (LossyLabel 2) :=
  [.step (.receive demoReceiver demoSender .udp 0 0),
    .step (.act demoReceiver (.initializeDiscovery 0)), .step (.send demoReceiver),
    .step (.act demoReceiver (.resendDiscoveryInfoToTransport .udp 0)), .step (.send demoReceiver)]

theorem lost_termination_demo :
    ∃ s₀ s, Run.exec (lossyStep demoConfig) (State.init 2) demoLostTermination = some s₀ ∧
      Run.exec (lossyStep demoConfig) s₀ demoAfterwards = some s ∧
        ∃ b, s.gateways 1 = some b ∧ 1 ∈ b.discovery.records.hashes := by
  have hlost := fun s₀ s
      (h₁ : Run.exec (lossyStep demoConfig) (State.init 2) demoLostTermination = some s₀)
      (h₂ : Run.exec (lossyStep demoConfig) s₀ demoAfterwards = some s) hne a b hg hterm hr hk hl =>
    lost_termination demoConfig.toSetup h₁ (g := 0) (r := 1) (a := a) (b := b) hne hg hterm hr hk hl
      h₂
  refine ⟨_, _, rfl, rfl, hlost _ _ rfl rfl (by decide) _ _ rfl rfl rfl (by decide) ?_⟩
  intro type info hm
  cases type <;> cases hm

end Network

end P3com
