/-
# Switching transports on failure

`README.md`, Automatic transport switching on failure: when a transport interface fails, the gateway
disables "the faulty transport layer" and continues "over the other enabled transport layers".  The
network is that of `LossyDiscovery`, and the transports of its gateways may fail at any time:

1. `setFailed` of `include/p3com/transport/transport.hpp`: the transport is no longer good, and the
   broadcasts to come skip it;
2. a `doFor` or `doForAllEnabled` that finds the failure disables the transport and clears its bit;
3. the fail callback, once it has the mutex of the discovery manager, broadcasts the new bits over
   what is left (`source/p3com/generic/discovery.cpp`).

What is in flight over a transport that one of the two sides no longer has may be lost.  Two
gateways may be left without a transport in common, and then there is nothing to switch to.

The bits in a record matter because `findMatchingType` chooses by them: with old bits, the samples
would go to a transport which is gone.  A message sent between the second step and the third over a
transport that cannot lose it has the new bits already, one sent before has the old ones; therefore
the bits of what has been sent are known only when no fail callback is outstanding.
-/
import P3com.Generic.LossyDiscovery
import P3com.Transport.AdvertisedBits

namespace P3com

/-- The fail callback: `sendDiscoveryInfo` unless the gateway terminates. -/
def Network.Gateway.failCallback (t : TransportInfo) (a : Gateway) (infoHash : Hash) : Gateway :=
  { a with
    discovery := { a.discovery with deviceIndicesCache := a.discovery.deviceIndicesCache.clear }
    outbox :=
      if a.discovery.terminateFlag then []
      else broadcast t (a.discovery.generateDiscoveryInfo t.bitset infoHash) }

namespace Network

/-! ## The network with failures -/

section

variable {n : Nat}

/-- The transports of one gateway change. -/
def Setup.withTransports (cfg : Setup n) (g : Fin n) (t : TransportInfo) : Setup n :=
  { cfg with transports := Function.update cfg.transports g t }

/-- The broadcasts to come skip the transport. -/
def State.skip (s : State n) (g : Fin n) (type : TransportType) : State n :=
  match s.gateways g with
  | none => s
  | some a => s.set g { a with outbox := a.outbox.filter fun x => x.1 ≠ type }

/-- The network, with the transports that the gateways have now and the number of fail callbacks
that each of them has to run. -/
structure FailState (n : Nat) where
  cfg : Setup n
  net : State n
  callbacks : Fin n → Nat

def FailState.init (cfg : Setup n) : FailState n := ⟨cfg, State.init n, fun _ => 0⟩

inductive FailLabel (n : Nat)
  | net (l : LossyLabel n)
  | setFailed (g : Fin n) (type : TransportType)
  /-- `hasFailedSetDisabled` and `disable`. -/
  | disable (g : Fin n) (type : TransportType)
  | failCallback (g : Fin n) (infoHash : Hash)
  /-- Faults of a transport that is not good on both sides. -/
  | drop (g r : Fin n) (type : TransportType) (messages : List PubSubInfo)
deriving DecidableEq

/-- The fail callback is registered by the constructor of the discovery manager. -/
def failStep (s : FailState n) : FailLabel n → Option (FailState n)
  | .net l => (lossyStep s.cfg s.net l).map fun net => { s with net }
  | .setFailed g type =>
    some { s with
      cfg := s.cfg.withTransports g ((s.cfg.transports g).setFailed type)
      net := s.net.skip g type }
  | .disable g type =>
    match (s.cfg.transports g).disableFailed type with
    | none => none
    | some t =>
      some { s with
        cfg := s.cfg.withTransports g t
        callbacks :=
          if (s.net.gateways g).isSome then
            Function.update s.callbacks g (s.callbacks g + 1)
          else s.callbacks }
  | .failCallback g infoHash =>
    match s.net.gateways g with
    | none => none
    | some a =>
      if a.idle && 0 < s.callbacks g then
        some { s with
          net := s.net.set g (a.failCallback (s.cfg.transports g) infoHash)
          callbacks := Function.update s.callbacks g (s.callbacks g - 1) }
      else none
  | .drop g r type messages =>
    if ¬ s.cfg.Share g r type ∧ ∀ info ∈ messages, info ∈ s.net.queue g r type then
      some { s with net := s.net.disturb g r type messages }
    else none

/-- The label of the network below. -/
def FailLabel.lossy : FailLabel n → Option (LossyLabel n)
  | .net l => some l
  | _ => none

/-- No fault between `g` and `r`, and no failure of one of the two. -/
def FailLabel.Spares (g r : Fin n) : FailLabel n → Prop
  | .net l => l.Spares g r
  | .setFailed p _ => p ≠ g ∧ p ≠ r
  | .disable p _ => p ≠ g
  | .failCallback _ _ => True
  | .drop p q _ _ => ¬ (g = p ∧ r = q)

end

variable {n : Nat} {cfg cfg' : Setup n} {g r p q : Fin n} {a b c c' : Gateway} {s s' : State n}
  {f f' : FailState n} {type : TransportType} {info : PubSubInfo} {T : TransportType → Prop}
  {settled settled' : Prop} {t t' : TransportInfo}

/-- What a label does. -/
inductive FailMoved (f : FailState n) : FailLabel n → FailState n → Prop
  | net {l net} (moved : Moved f.cfg f.net l net) : FailMoved f (.net l) { f with net }
  | failed (p : Fin n) (type : TransportType) :
      FailMoved f (.setFailed p type)
        { f with
          cfg := f.cfg.withTransports p ((f.cfg.transports p).setFailed type)
          net := f.net.skip p type }
  | disabled {p : Fin n} {type : TransportType} {t : TransportInfo}
      (failed : (f.cfg.transports p).disableFailed type = some t) :
      FailMoved f (.disable p type)
        { f with
          cfg := f.cfg.withTransports p t
          callbacks :=
            if (f.net.gateways p).isSome then
              Function.update f.callbacks p (f.callbacks p + 1)
            else f.callbacks }
  | called {p : Fin n} {c : Gateway} {infoHash : Hash} (before : f.net.gateways p = some c)
      (idle : c.outbox = []) (outstanding : 0 < f.callbacks p) :
      FailMoved f (.failCallback p infoHash)
        { f with
          net := f.net.set p (c.failCallback (f.cfg.transports p) infoHash)
          callbacks := Function.update f.callbacks p (f.callbacks p - 1) }
  | dropped {p q : Fin n} {type : TransportType} {messages : List PubSubInfo}
      (lost : ¬ f.cfg.Share p q type)
      (old : ∀ info ∈ messages, info ∈ f.net.queue p q type) :
      FailMoved f (.drop p q type messages)
        { f with net := f.net.disturb p q type messages }

/-- **What a step does.** -/
theorem failMoved_of_step {l : FailLabel n} (h : Sound f.cfg f.net)
    (hstep : failStep f l = some f') : FailMoved f l f' := by
  cases l with
  | net l =>
    obtain ⟨net, hnet, rfl⟩ := Option.map_eq_some_iff.mp hstep
    exact .net (moved_of_step h hnet)
  | setFailed g type =>
    obtain rfl := Option.some.inj hstep
    exact .failed g type
  | disable g type =>
    simp only [failStep] at hstep
    split at hstep
    · cases hstep
    · rename_i t ht
      obtain rfl := Option.some.inj hstep
      exact .disabled ht
  | failCallback g infoHash =>
    simp only [failStep] at hstep
    split at hstep
    · cases hstep
    · rename_i a ha
      split at hstep
      · rename_i hc
        obtain rfl := Option.some.inj hstep
        simp only [Gateway.idle, Bool.and_eq_true, List.isEmpty_iff, decide_eq_true_iff] at hc
        exact .called ha hc.1 hc.2
      · cases hstep
  | drop g r type messages =>
    simp only [failStep] at hstep
    split at hstep
    · rename_i hc
      obtain rfl := Option.some.inj hstep
      exact .dropped hc.1 hc.2
    · cases hstep

/-! ## What failures cannot break -/

theorem skip_cases (s : State n) (p : Fin n) (type : TransportType) :
    (s.gateways p = none ∧ s.skip p type = s) ∨
      ∃ c, s.gateways p = some c ∧
        s.skip p type = s.set p { c with outbox := c.outbox.filter fun x => x.1 ≠ type } := by
  unfold State.skip
  split
  · rename_i hp
    exact Or.inl ⟨hp, rfl⟩
  · rename_i c hp
    exact Or.inr ⟨c, hp, rfl⟩

theorem sound_skip (h : Sound cfg s) (p : Fin n) (type : TransportType) :
    Sound cfg (s.skip p type) := by
  rcases skip_cases s p type with ⟨-, heq⟩ | ⟨c, hp, heq⟩
  · rw [heq]
    exact h
  · rw [heq]
    obtain ⟨hok, hindexed⟩ := h.ok p c hp
    refine h.later ⟨stays_set _ hp id, ?_, ?_, fun _ _ _ _ hm => Or.inl hm⟩
    · intro q d hd
      rcases set_gateways_cases hd with ⟨rfl, rfl⟩ | ⟨-, hd⟩
      · exact ⟨hok.of_outbox fun x hx => (List.mem_filter.mp hx).1, hindexed⟩
      · exact h.ok q d hd
    · intro q d k hd hk
      rcases set_gateways_cases hd with ⟨rfl, rfl⟩ | ⟨-, hd⟩
      · exact Or.inl ⟨c, hp, hk⟩
      · exact Or.inl ⟨d, hd, hk⟩

/-- Only the outboxes depend on the transports. -/
theorem sound_transports (h : Sound cfg s) (hhash : cfg'.gatewayHash = cfg.gatewayHash)
    (hout : ∀ p c, s.gateways p = some c → ∀ x ∈ c.outbox,
      (cfg'.transports p).isGood x.1 = true) : Sound cfg' s where
  ok := by
    intro p c hc
    obtain ⟨hok, hindexed⟩ := h.ok p c hc
    refine ⟨⟨?_, hok.nodup, hok.ordinary, hok.settled, hok.flag, hok.terminated, ?_⟩, hindexed⟩
    · rw [hhash]
      exact hok.hash
    · intro x hx
      rw [hhash]
      exact ⟨hout p c hc x hx, (hok.outbox x hx).2⟩
  known := by
    rw [hhash]
    exact h.known
  queued := by
    intro p q type info hm
    obtain ⟨hne, hsender, hreceiver, hinfo⟩ := h.queued p q type info hm
    exact ⟨hne, hsender, hreceiver, hhash ▸ hinfo⟩

theorem isGood_setFailed_self (t : TransportInfo) (type : TransportType) :
    (t.setFailed type).isGood type = false := by
  unfold TransportInfo.setFailed
  split
  · rename_i hgood
    have hne : type ≠ .none := by
      rintro rfl
      cases hgood
    simp [TransportInfo.isGood, TransportInfo.slot_setSlot_self hne]
  · rename_i hgood
    simpa using hgood

theorem isGood_setFailed_of_ne {type' : TransportType} (h : type' ≠ type) :
    (t.setFailed type).isGood type' = t.isGood type' := by
  unfold TransportInfo.setFailed
  split
  · unfold TransportInfo.isGood
    rw [TransportInfo.slot_setSlot_ne h]
  · rfl

theorem isGood_disableFailed (h : t.disableFailed type = some t') (type' : TransportType) :
    t'.isGood type' = t.isGood type' := by
  obtain ⟨hfailed, hdisabled, -, hother⟩ := TransportInfo.disableFailed_cases h
  unfold TransportInfo.isGood
  by_cases heq : type' = type
  · rw [heq, hfailed, hdisabled]
    rfl
  · rw [(hother type' heq).1]

theorem transports_self : (cfg.withTransports p t).transports p = t := Function.update_self _ _ _

theorem transports_of_ne (hne : q ≠ p) :
    (cfg.withTransports p t).transports q = cfg.transports q :=
  Function.update_of_ne hne _ _

/-- Where the transports of one gateway have changed, and where they have not. -/
theorem transports_cases (cfg : Setup n) (p : Fin n) (t : TransportInfo) (q : Fin n) :
    (q = p ∧ (cfg.withTransports p t).transports q = t) ∨
      (q ≠ p ∧ (cfg.withTransports p t).transports q = cfg.transports q) := by
  by_cases hq : q = p
  · subst hq
    exact Or.inl ⟨rfl, transports_self⟩
  · exact Or.inr ⟨hq, transports_of_ne hq⟩

/-- What the new transports have, and the others had, they all have. -/
theorem forall_transports {P : TransportInfo → Prop} (hnew : P t)
    (hold : ∀ q, P (cfg.transports q)) (q : Fin n) :
    P ((cfg.withTransports p t).transports q) := by
  rcases transports_cases cfg p t q with ⟨-, ht⟩ | ⟨-, ht⟩
  · rwa [ht]
  · rw [ht]
    exact hold q

theorem sound_setFailed (h : Sound cfg s) (p : Fin n) (type : TransportType) :
    Sound (cfg.withTransports p ((cfg.transports p).setFailed type)) (s.skip p type) := by
  have hskip := sound_skip h p type
  refine sound_transports hskip rfl fun q d hd x hx => ?_
  have hgood := ((hskip.ok q d hd).1.outbox x hx).1
  rcases transports_cases cfg p ((cfg.transports p).setFailed type) q with ⟨rfl, ht⟩ | ⟨-, ht⟩
  · rw [ht]
    -- what is left in the outbox is for the other transports
    have hne : x.1 ≠ type := by
      rcases skip_cases s q type with ⟨hnone, heq⟩ | ⟨c, hp, heq⟩
      · rw [heq, hnone] at hd
        cases hd
      · rw [heq, set_gateways_self] at hd
        obtain rfl := Option.some.inj hd
        simpa using (List.mem_filter.mp hx).2
    rw [isGood_setFailed_of_ne hne]
    exact hgood
  · rw [ht]
    exact hgood

theorem sound_disable (h : Sound cfg s) (hd : (cfg.transports p).disableFailed type = some t) :
    Sound (cfg.withTransports p t) s := by
  refine sound_transports h rfl fun q c hc x hx => ?_
  have hgood := ((h.ok q c hc).1.outbox x hx).1
  rcases transports_cases cfg p t q with ⟨rfl, ht⟩ | ⟨-, ht⟩
  · rw [ht, isGood_disableFailed hd]
    exact hgood
  · rw [ht]
    exact hgood

/-- The fail callback says what the gateway has to say, to everyone, unless it terminates. -/
theorem speaks_failCallback (hok : c.Ok cfg p) (hidle : c.outbox = []) (infoHash : Hash) :
    (c.failCallback (cfg.transports p) infoHash).Ok cfg p ∧
      Speaks (cfg.transports p) c (c.failCallback (cfg.transports p) infoHash)
        (c.failCallback (cfg.transports p) infoHash).outbox ∧
      Stamps (cfg.transports p) (c.failCallback (cfg.transports p) infoHash).outbox ∧
      (c.discovery.terminateFlag = false → ∀ type, (cfg.transports p).isGood type = true →
        ∃ info, (type, info) ∈ (c.failCallback (cfg.transports p) infoHash).outbox) := by
  unfold Gateway.failCallback
  cases hflag : c.discovery.terminateFlag with
  | true =>
    rw [if_pos rfl]
    refine ⟨⟨hok.hash, hok.nodup, hok.ordinary, hok.settled, hok.flag, hok.terminated, ?_⟩,
      ⟨outbox_of_idle hidle _, rfl, Or.inl fun info hann => hann.congr rfl rfl rfl, Or.inl, ?_, id⟩,
      ?_, fun hf => by cases hf⟩
    · intro x hx
      cases hx
    · exact fun _ => hflag
    · intro x hx
      cases hx
  | false =>
    rw [if_neg Bool.false_ne_true]
    refine ⟨⟨hok.hash, hok.nodup, hok.ordinary, hok.settled, hok.flag, hok.terminated, ?_⟩,
      ⟨outbox_of_idle hidle _, rfl, Or.inl fun info hann => hann.congr rfl rfl rfl, Or.inl, ?_, id⟩,
      stamps_broadcast rfl, fun _ => covers_broadcast _ _⟩
    · refine outbox_broadcast hok.hash ?_
      exact (announces_generate (hok.not_terminated hflag) _ _).congr rfl rfl rfl
    · intro hf
      rw [hflag] at hf
      cases hf

theorem sound_failMoved {l : FailLabel n} (h : Sound f.cfg f.net) (hm : FailMoved f l f') :
    Sound f'.cfg f'.net := by
  cases hm with
  | net moved => exact sound_moved h moved
  | failed p type => exact sound_setFailed h p type
  | disabled failed => exact sound_disable h failed
  | called before idle outstanding =>
    obtain ⟨hok, hspeaks, -⟩ := speaks_failCallback (h.ok _ _ before).1 idle _
    exact sound_speak h before hok hspeaks
  | dropped lost old => exact sound_fault h old

/-! ### The last message -/

theorem link_skip {type' : TransportType} (hne : g = p → type' ≠ type) :
    (s.skip p type).link g r type' = s.link g r type' := by
  rcases skip_cases s p type with ⟨-, heq⟩ | ⟨c, hp, heq⟩
  · rw [heq]
  · rw [heq]
    by_cases hgp : g = p
    · subst hgp
      rw [link_some (set_gateways_self s g _), link_some hp]
      have hout : ({ c with outbox := c.outbox.filter fun x => x.1 ≠ type } : Gateway).out type'
          = c.out type' := by
        unfold Gateway.out
        rw [List.filter_filter]
        congr 1
        refine List.filter_congr fun x _ => ?_
        by_cases htype : x.1 = type'
        · simp [htype, hne rfl]
        · simp [htype]
      rw [hout]
      rfl
    · exact link_set_of_ne hgp

/-- A gateway after `skip` is the old one, but for its outbox. -/
theorem gateways_skip (ha : (s.skip p type).gateways g = some a) :
    ∃ a', s.gateways g = some a' ∧ a = { a' with outbox := a.outbox } ∧
      ∀ x ∈ a.outbox, x ∈ a'.outbox := by
  rcases skip_cases s p type with ⟨-, heq⟩ | ⟨c, hp, heq⟩
  · rw [heq] at ha
    exact ⟨a, ha, rfl, fun _ => id⟩
  · rw [heq] at ha
    rcases set_gateways_cases ha with ⟨rfl, rfl⟩ | ⟨-, ha⟩
    · exact ⟨c, hp, rfl, fun x hx => (List.mem_filter.mp hx).1⟩
    · exact ⟨a, ha, rfl, fun _ => id⟩

/-- A transport that has failed is nothing that the two have in common. -/
theorem heard_skip (hh : Heard cfg g r settled T s)
    (hbad : (cfg.transports p).isGood type = false) :
    Heard cfg g r settled T (s.skip p type) := by
  constructor
  case stamped =>
    intro a ha hset hflag x hx
    obtain ⟨a', ha', heq, hsub⟩ := gateways_skip ha
    rw [heq] at hflag
    exact hh.stamped a' ha' hset hflag x (hsub x hx)
  case last =>
    intro a type' m ha hr hshare hT hlast
    obtain ⟨a', ha', heq, -⟩ := gateways_skip ha
    have hr' : (s.gateways r).isSome := by
      obtain ⟨b, hb⟩ := Option.isSome_iff_exists.mp hr
      obtain ⟨b', hb', -⟩ := gateways_skip hb
      exact Option.isSome_iff_exists.mpr ⟨b', hb'⟩
    have hne : g = p → type' ≠ type := by
      rintro rfl rfl
      rw [hshare.1] at hbad
      cases hbad
    rw [link_skip hne] at hlast
    rw [heq]
    exact (hh.last a' type' m ha' hr' hshare hT hlast).of_outbox

/-- The transports change, and the bits only if `settled` becomes false. -/
theorem heard_config (hh : Heard cfg g r settled T s)
    (hshare : ∀ type, cfg'.Share g r type → cfg.Share g r type)
    (hbits : ∀ a, s.gateways g = some a → settled' →
      settled ∧ (cfg'.transports g).bitset = (cfg.transports g).bitset) :
    Heard cfg' g r settled' T s := by
  constructor
  case stamped =>
    intro a ha hset hflag x hx
    obtain ⟨hset', heq⟩ := hbits a ha hset
    rw [heq]
    exact hh.stamped a ha hset' hflag x hx
  case last =>
    intro a type m ha hr hs hT hlast
    obtain ⟨hann, hsaid⟩ := hh.last a type m ha hr (hshare type hs) hT hlast
    refine ⟨hann, fun hset hflag => ?_⟩
    obtain ⟨hset', heq⟩ := hbits a ha hset
    rw [heq]
    exact hsaid hset' hflag

/-- When the gateway has filled its outbox, all the last messages have its bits. -/
theorem heard_settle (hh : Heard cfg g r settled T s)
    (hnew : ∀ a, s.gateways g = some a → settled' → a.discovery.terminateFlag = false →
      Stamps (cfg.transports g) a.outbox ∧ ∀ type, (cfg.transports g).isGood type = true →
        ∃ info, (type, info) ∈ a.outbox) :
    Heard cfg g r settled' T s := by
  constructor
  case stamped => exact fun a ha hset hflag => (hnew a ha hset hflag).1
  case last =>
    intro a type m ha hr hshare hT hlast
    refine ⟨(hh.last a type m ha hr hshare hT hlast).1, fun hset hflag => ?_⟩
    obtain ⟨hstamps, hcovers⟩ := hnew a ha hset hflag
    obtain ⟨m', hm'⟩ := hcovers type hshare.1
    rw [link_some ha, List.getLast?_append_of_ne_nil _ (List.ne_nil_of_mem (mem_out.mpr hm'))]
      at hlast
    exact hstamps (type, m) (mem_out.mp (List.mem_of_getLast? hlast))

theorem share_of_setFailed {type' : TransportType}
    (h : (cfg.withTransports p ((cfg.transports p).setFailed type)).Share g r type') :
    cfg.Share g r type' := by
  have hgood : ∀ q, ((cfg.withTransports p ((cfg.transports p).setFailed type)).transports
      q).isGood type' = true → (cfg.transports q).isGood type' = true := by
    intro q hq
    rcases transports_cases cfg p ((cfg.transports p).setFailed type) q with ⟨rfl, ht⟩ | ⟨-, ht⟩
    · rw [ht] at hq
      exact TransportInfo.isGood_setFailed hq
    · rwa [ht] at hq
  exact ⟨hgood g h.1, hgood r h.2⟩

theorem isGood_of_disable (hd : (cfg.transports p).disableFailed type = some t) (q : Fin n)
    (type' : TransportType) :
    ((cfg.withTransports p t).transports q).isGood type' = (cfg.transports q).isGood type' := by
  rcases transports_cases cfg p t q with ⟨rfl, ht⟩ | ⟨-, ht⟩
  · rw [ht, isGood_disableFailed hd]
  · rw [ht]

/-- What is known of the messages from `g` to `r` before `g` speaks: the bits, if no fail callback
is outstanding. -/
theorem heard_failMoved {l : FailLabel n} (h : Sound f.cfg f.net) (hne : g ≠ r)
    (hh : Heard f.cfg g r (f.callbacks g = 0) (· ∉ lossyTransportTypes) f.net)
    (hm : FailMoved f l f') :
    Heard f'.cfg g r (f'.callbacks g = 0) (· ∉ lossyTransportTypes) f'.net := by
  cases hm with
  | net moved => exact heard_moved h hne hh moved
  | failed p type =>
    set t := (f.cfg.transports p).setFailed type with ht
    have hbits : ((f.cfg.withTransports p t).transports g).bitset
        = (f.cfg.transports g).bitset := by
      rcases transports_cases f.cfg p t g with ⟨rfl, heq⟩ | ⟨-, heq⟩
      · rw [heq, ht, TransportInfo.bitset_setFailed]
      · rw [heq]
    have hbad : ((f.cfg.withTransports p t).transports p).isGood type = false := by
      rw [transports_self]
      exact isGood_setFailed_self _ _
    exact heard_skip (heard_config hh (fun _ => share_of_setFailed)
      fun _ _ hset => ⟨hset, hbits⟩) hbad
  | @disabled p type t failed =>
    refine heard_config hh (fun type' hshare => ?_) fun a ha hset => ?_
    · exact ⟨(isGood_of_disable failed g type') ▸ hshare.1,
        (isGood_of_disable failed r type') ▸ hshare.2⟩
    · dsimp only at hset
      by_cases hgp : g = p
      · -- its fail callback is outstanding now
        subst hgp
        rw [if_pos (Option.isSome_iff_exists.mpr ⟨a, ha⟩), Function.update_self] at hset
        cases hset
      · rw [transports_of_ne hgp]
        refine ⟨?_, rfl⟩
        split at hset
        · rwa [Function.update_of_ne hgp] at hset
        · exact hset
  | @called p c infoHash before idle outstanding =>
    obtain ⟨hok, hspeaks, hstamps, hcovers⟩ :=
      speaks_failCallback (h.ok p c before).1 idle infoHash
    have hspoken := heard_speak hh before hok hspeaks hstamps fun _ => Or.inl
    by_cases hgp : g = p
    · subst hgp
      refine heard_settle hspoken fun a ha _ hflag => ?_
      rw [set_gateways_self] at ha
      obtain rfl := Option.some.inj ha
      exact ⟨hstamps, hcovers hflag⟩
    · dsimp only
      rwa [Function.update_of_ne hgp]
  | dropped lost old =>
    refine heard_fault hh fun hg hr hshare _ => ?_
    subst hg
    subst hr
    exact lost hshare

/-! ## After the failures -/

/-- The transports over which a label makes `g` say what it has to say. -/
def FailLabel.told (g : Fin n) (l : FailLabel n) : List TransportType :=
  (l.lossy.map (LossyLabel.told g)).getD []

section Trust

variable {told : List TransportType}

/-- What happens elsewhere: the transports of `g` stay as they are, those of `r` stay as good as
they are, and nothing moves between the two. -/
theorem trust_elsewhere (tr : Trust cfg g r s told) (hs : Sound cfg' s')
    (hhash : cfg'.gatewayHash = cfg.gatewayHash) (hg : cfg'.transports g = cfg.transports g)
    (hr : ∀ type, (cfg'.transports r).isGood type = (cfg.transports r).isGood type)
    (hgg : s'.gateways g = s.gateways g) (hgr : s'.gateways r = s.gateways r)
    (hqueue : ∀ type, s'.queue g r type = s.queue g r type) : Trust cfg' g r s' told := by
  have hshare : ∀ type, cfg'.Share g r type ↔ cfg.Share g r type := by
    intro type
    unfold Setup.Share
    rw [hg, hr]
  have hlink : ∀ type, s'.link g r type = s.link g r type := fun type =>
    link_congr (hqueue type) hgg
  have hlinked : s.Linked cfg g r → s'.Linked cfg' g r := by
    rintro ⟨type, hgood, hl⟩
    exact ⟨type, (hr type).trans hgood, by rwa [hlink]⟩
  have hcovered : Covered cfg' g r told → Covered cfg g r told := by
    unfold Covered
    simp only [hshare]
    exact id
  constructor
  case sound => exact hs
  case clear =>
    intro type hnot
    rw [hqueue]
    exact tr.clear type fun h => hnot ((hshare type).mpr h)
  case sender =>
    rw [hgg]
    exact tr.sender
  case receiver =>
    rw [hgr]
    exact tr.receiver
  case heard =>
    constructor
    case stamped =>
      rw [hgg, hg]
      exact tr.heard.stamped
    case last =>
      intro a type info ha hrs hsh hT hlast
      rw [hgg] at ha
      rw [hgr] at hrs
      rw [hlink] at hlast
      rw [hg]
      exact tr.heard.last a type info ha hrs ((hshare type).mp hsh) hT hlast
  case record =>
    intro hcov a b ha hb record hmem hinfo
    rw [hgg] at ha
    rw [hgr] at hb
    rw [hhash] at hinfo
    rw [hg]
    exact (tr.record (hcovered hcov) a b ha hb record hmem hinfo).imp_right hlinked
  case known =>
    intro hcov a b ha hb hflag
    rw [hgg] at ha
    rw [hgr] at hb
    rw [hhash]
    exact (tr.known (hcovered hcov) a b ha hb hflag).imp_right hlinked
  case stored =>
    intro type htype hsh a b ha hb hflag
    rw [hgg] at ha
    rw [hgr] at hb
    rw [hlink]
    unfold Gateway.Stores
    rw [hhash]
    exact tr.stored type htype ((hshare type).mp hsh) a b ha hb hflag

theorem gateways_skip_of_ne (hne : q ≠ p) : (s.skip p type).gateways q = s.gateways q := by
  rcases skip_cases s p type with ⟨-, heq⟩ | ⟨c, hp, heq⟩
  · rw [heq]
  · rw [heq]
    exact set_gateways_of_ne s _ hne

theorem queue_skip (type' : TransportType) :
    (s.skip p type).queue g r type' = s.queue g r type' := by
  rcases skip_cases s p type with ⟨-, heq⟩ | ⟨c, hp, heq⟩ <;> rw [heq]
  rfl

/-- **One step.** -/
theorem trust_failMoved {l : FailLabel n} (tr : Trust f.cfg g r f.net told) (hne : g ≠ r)
    (hcallbacks : f.callbacks g = 0) (hl : l.Spares g r) (hm : FailMoved f l f') :
    Trust f'.cfg g r f'.net (told ++ l.told g) ∧ f'.callbacks g = 0 := by
  cases hm with
  | net moved => exact ⟨trust_moved tr hne hl moved, hcallbacks⟩
  | failed p type =>
    obtain ⟨hpg, hpr⟩ := hl
    change Trust (f.cfg.withTransports p _) g r _ (told ++ []) ∧ _
    rw [List.append_nil]
    exact ⟨trust_elsewhere tr (sound_setFailed tr.sound p type) rfl
      (transports_of_ne (Ne.symm hpg)) (fun type' => by rw [transports_of_ne (Ne.symm hpr)])
      (gateways_skip_of_ne (Ne.symm hpg)) (gateways_skip_of_ne (Ne.symm hpr)) queue_skip,
      hcallbacks⟩
  | @disabled p type t failed =>
    have hpg : p ≠ g := hl
    change Trust (f.cfg.withTransports p t) g r _ (told ++ []) ∧ _
    rw [List.append_nil]
    refine ⟨trust_elsewhere tr (sound_disable tr.sound failed) rfl
      (transports_of_ne (Ne.symm hpg)) (isGood_of_disable failed r) rfl rfl fun _ => rfl, ?_⟩
    dsimp only
    split
    · rw [Function.update_of_ne (Ne.symm hpg)]
      exact hcallbacks
    · exact hcallbacks
  | @called p c infoHash before idle outstanding =>
    have hpg : g ≠ p := by
      rintro rfl
      omega
    obtain ⟨hok, hspeaks, hstamps, -⟩ :=
      speaks_failCallback (tr.sound.ok p c before).1 idle infoHash
    refine ⟨?_, ?_⟩
    · change Trust f.cfg g r _ (told ++ [])
      exact trust_speak tr before hok hspeaks hstamps fun _ h => absurd h List.not_mem_nil
    · dsimp only
      rw [Function.update_of_ne hpg]
      exact hcallbacks
  | dropped lost old =>
    change Trust f.cfg g r _ (told ++ []) ∧ _
    rw [List.append_nil]
    exact ⟨trust_fault tr hl old, hcallbacks⟩

end Trust

/-! ## The bits -/

theorem advertises_failMoved {l : FailLabel n}
    (h : ∀ p, (f.cfg.transports p).AdvertisesUsable) (hm : FailMoved f l f') (q : Fin n) :
    (f'.cfg.transports q).AdvertisesUsable := by
  cases hm with
  | net moved => exact h q
  | failed p type => exact forall_transports ((h p).setFailed type) h q
  | @disabled p type t failed => exact forall_transports ((h p).disableFailed failed) h q
  | called before idle outstanding => exact h q
  | dropped lost old => exact h q

/-- When every failure has been noticed, the bits are those of the good transports. -/
theorem bit_eq_isGood (h : t.AdvertisesUsable) (hnone : t.NoneFailed) (type : TransportType) :
    t.bitset.getLsbD type.index = t.isGood type := by
  rw [Bool.eq_iff_iff, h, TransportInfo.usable_index]
  unfold TransportInfo.isGood
  rw [decide_eq_true_iff]
  constructor
  · rintro ⟨status, hslot, hne⟩
    cases status with
    | good => exact hslot
    | failed => exact absurd hslot (hnone type)
    | disabled => exact absurd rfl hne
  · exact fun hslot => ⟨.good, hslot, by decide⟩

/-! ## The result -/

/-- **Every run.** -/
theorem sound_of_failRun (hadv : ∀ p, (cfg.transports p).AdvertisesUsable)
    {ls : List (FailLabel n)} (h : Run.exec failStep (FailState.init cfg) ls = some f)
    (hne : g ≠ r) : Sound f.cfg f.net ∧
      Heard f.cfg g r (f.callbacks g = 0) (· ∉ lossyTransportTypes) f.net ∧
      ∀ p, (f.cfg.transports p).AdvertisesUsable := by
  refine Run.invariant (fun f => Sound f.cfg f.net ∧
      Heard f.cfg g r (f.callbacks g = 0) (· ∉ lossyTransportTypes) f.net ∧
      ∀ p, (f.cfg.transports p).AdvertisesUsable) ?_ ⟨sound_init cfg, heard_init, hadv⟩ h
  intro f l f' hf hstep
  obtain ⟨hsound, hheard, hbits⟩ := hf
  have hm := failMoved_of_step hsound hstep
  exact ⟨sound_failMoved hsound hm, heard_failMoved hsound hne hheard hm,
    advertises_failMoved hbits hm⟩

theorem Covered.mono {told told' : List TransportType} (h : Covered cfg g r told)
    (hsub : told ⊆ told') : Covered cfg g r told' := by
  obtain ⟨⟨type, hmem, hshare⟩, hall⟩ := h
  exact ⟨⟨type, hsub hmem, hshare⟩, fun type hlossy hshare => hsub (hall type hlossy hshare)⟩

theorem told_lossy_subset (ls : List (FailLabel n)) :
    (ls.filterMap FailLabel.lossy).flatMap (LossyLabel.told g)
      ⊆ ls.flatMap (FailLabel.told g) := by
  intro type hmem
  obtain ⟨l, hl, htype⟩ := List.mem_flatMap.mp hmem
  obtain ⟨l', hl', heq⟩ := List.mem_filterMap.mp hl
  refine List.mem_flatMap.mpr ⟨l', hl', ?_⟩
  simpa [FailLabel.told, heq] using htype

/-- **Switching transports on failure.**  In any run, transports of any gateways fail at any time,
and messages are lost.  When the fail callbacks of `g` have returned and nothing is left in flight
from `g` to `r` over a transport that one of them has lost, let `g` send its info again over every
lossy transport that the two still have in common, of which there is one, with no more faults or
failures between them.  As soon as nothing of `g` is in flight to `r`, `r` has exactly one record of
`g`, with the current subscribers and the current transports of `g`; if both have noticed their
failures, `r` chooses for `g` a transport that is good on both sides; and if that is a lossy one,
`r` sends the samples that `g` has a subscriber for to `g` over it. -/
theorem failover (getClassHash : ServiceDescription → ClassHash) {cfg : Setup n}
    (hadv : ∀ p, (cfg.transports p).AdvertisesUsable) {ls₁ ls₂ : List (FailLabel n)}
    {f₀ f : FailState n} {g r : Fin n} {a b : Gateway}
    (h₁ : Run.exec failStep (FailState.init cfg) ls₁ = some f₀)
    (hr₀ : (f₀.net.gateways r).isSome) (hclear : f₀.net.Clear f₀.cfg g r)
    (hcallbacks : f₀.callbacks g = 0) (h₂ : Run.exec failStep f₀ ls₂ = some f) (hne : g ≠ r)
    (hspared : ∀ l ∈ ls₂, l.Spares g r)
    (hrepeats : f.cfg.Repeats g r (ls₂.filterMap FailLabel.lossy))
    (hg : f.net.gateways g = some a) (hr : f.net.gateways r = some b) (hrun : a.Running)
    (hquiet : a.Quiet) (hempty : ∀ type, f.net.queue g r type = []) :
    ∃ record, b.discovery.records.toList.filter
        (fun x => x.info.gatewayHash = f.cfg.gatewayHash g) = [record] ∧
      (∀ x, x ∈ record.info.userSubscribers.toList ↔
        x ∈ a.discovery.localState.userSubscribers.toList) ∧
      record.info.gatewayBitset = (f.cfg.transports g).bitset ∧
      ((f.cfg.transports g).NoneFailed → (f.cfg.transports r).NoneFailed →
        f.cfg.Share g r (f.cfg.route b.discovery.preferredType r g) ∧
        (f.cfg.route b.discovery.preferredType r g ∈ lossyTransportTypes →
          ∀ x ∈ a.discovery.localState.userSubscribers.toList,
            ∃ i, i.type = f.cfg.route b.discovery.preferredType r g ∧
              routeOf getClassHash (f.cfg.transports r) b.discovery.preferredType
                (getClassHash x) record = some i)) := by
  obtain ⟨hsound, hheard, hbits₀⟩ := sound_of_failRun hadv h₁ hne
  have hstart : Trust f₀.cfg g r f₀.net [] := by
    refine trust_start hsound hclear ?_ hr₀
    exact heard_config hheard (fun _ => id) fun _ _ _ => ⟨hcallbacks, rfl⟩
  have hend := Run.invariant_labels
    (fun f told => (Trust f.cfg g r f.net told ∧ f.callbacks g = 0) ∧
      ∀ p, (f.cfg.transports p).AdvertisesUsable) (FailLabel.told g)
    (fun f l f' told hf hl hstep =>
      have hm := failMoved_of_step hf.1.1.sound hstep
      ⟨trust_failMoved hf.1.1 hne hf.1.2 hl hm, advertises_failMoved hf.2 hm⟩)
    ⟨⟨hstart, hcallbacks⟩, hbits₀⟩ (Run.guarded_of_forall hspared f₀) h₂
  obtain ⟨⟨tr, -⟩, hbits⟩ := hend
  rw [List.nil_append] at tr
  have hcov := (covered_of_repeats hrepeats).mono (told_lossy_subset ls₂)
  obtain ⟨record, hrecord, hservices, hbitset, hindexed, hstored⟩ :=
    (tr.settled hcov hg hr hquiet hempty).1 hrun
  refine ⟨record, hrecord, hservices, hbitset, fun hng hnr => ?_⟩
  obtain ⟨⟨common, -, hcommon⟩, -⟩ := hrepeats
  obtain ⟨hgoodr, hgoodg⟩ := good_findMatchingType (bit_eq_isGood (hbits r) hnr)
    (bit_eq_isGood (hbits g) hng) b.discovery.preferredType ⟨common, hcommon.symm⟩
  have hshare : f.cfg.Share g r (f.cfg.route b.discovery.preferredType r g) := ⟨hgoodg, hgoodr⟩
  refine ⟨hshare, fun hlossy x hx => ?_⟩
  have hchoice : (f.cfg.transports r).findMatchingType record.info.gatewayBitset
      b.discovery.preferredType = f.cfg.route b.discovery.preferredType r g := by
    rw [hbitset]
    rfl
  have hnone : f.cfg.route b.discovery.preferredType r g ≠ .none := by
    intro hnone
    rw [hnone] at hlossy
    exact absurd hlossy (by decide)
  obtain ⟨i, hi, htype⟩ := hstored _ (hcov.2 _ hlossy hshare) hshare
  exact ⟨i, htype, (Routes.routeOf_eq_some_iff ⟨x, (hservices x).mpr hx, rfl⟩ hindexed hchoice
    hnone).mpr ⟨hi, htype⟩⟩

/-! ## A run -/

/-- Two gateways with PCIe and UDP. -/
def failoverTransports (_ : Fin 2) : TransportInfo := ⟨some .good, some .good, none, 6⟩

theorem demoConfig_distinct : Function.Injective demoConfig.gatewayHash :=
  demoConfig.distinct

theorem two_le_maxDeviceCount_succ : 2 ≤ maxDeviceCount + 1 := by decide

def failoverConfig : Setup 2 where
  gatewayHash := demoConfig.gatewayHash
  transports := failoverTransports
  distinct := demoConfig_distinct
  size_le := two_le_maxDeviceCount_succ

/-- The gateways learn of each other over PCIe; the first one loses it, and its callback is not
heard. -/
def failoverRun : List (FailLabel 2) :=
  [.net (.step (.construct demoSender .none)), .net (.step (.construct demoReceiver .none)),
    .net (.step (.act demoSender (.initializeDiscovery 0))), .net (.step (.send demoSender)),
    .net (.step (.send demoSender)), .net (.fault demoSender demoReceiver .udp []),
    .net (.step (.receive demoSender demoReceiver .pcie 0 0)),
    .net (.step (.act demoSender (.readPorts ⟨[], [⟨demoNode, demoService, 1⟩]⟩))),
    .setFailed demoSender .pcie, .disable demoSender .pcie, .failCallback demoSender 0,
    .net (.step (.send demoSender)), .net (.fault demoSender demoReceiver .udp [])]

def failoverResend : List (FailLabel 2) :=
  [.net (.step (.act demoSender (.sendIfChanged 0))), .net (.step (.send demoSender)),
    .net (.step (.act demoSender (.resendDiscoveryInfoToTransport .udp 0))),
    .net (.step (.send demoSender)), .net (.step (.send demoReceiver)),
    .net (.step (.send demoReceiver)), .net (.step (.receive demoSender demoReceiver .udp 0 0)),
    .net (.step (.receive demoSender demoReceiver .udp 0 0))]

theorem failoverRun_clear {f : FailState 2}
    (h : Run.exec failStep (FailState.init failoverConfig) failoverRun = some f) :
    f.net.Clear f.cfg 0 1 := by
  obtain rfl := Option.some.inj h
  intro type hshare
  cases type with
  | udp => exact absurd ⟨rfl, rfl⟩ hshare
  | _ => rfl

theorem failoverRun_before {f : FailState 2}
    (h : Run.exec failStep (FailState.init failoverConfig) failoverRun = some f) :
    f.callbacks 0 = 0 ∧ (f.net.gateways 1).isSome := by
  obtain rfl := Option.some.inj h
  exact ⟨rfl, rfl⟩

theorem failoverResend_after {f₀ f : FailState 2}
    (h₁ : Run.exec failStep (FailState.init failoverConfig) failoverRun = some f₀)
    (h₂ : Run.exec failStep f₀ failoverResend = some f) :
    f.cfg.gatewayHash 0 = 1 ∧ f.cfg.transports 0 = ⟨some .disabled, some .good, none, 4⟩ ∧
      f.cfg.transports 1 = ⟨some .good, some .good, none, 6⟩ := by
  obtain rfl := Option.some.inj h₁
  obtain rfl := Option.some.inj h₂
  exact ⟨rfl, rfl, rfl⟩

theorem failoverResend_gateways {f₀ f : FailState 2}
    (h₁ : Run.exec failStep (FailState.init failoverConfig) failoverRun = some f₀)
    (h₂ : Run.exec failStep f₀ failoverResend = some f) :
    (∀ type, f.net.queue 0 1 type = []) ∧ ∃ a b, f.net.gateways 0 = some a ∧
      f.net.gateways 1 = some b ∧ a.Running ∧ a.Quiet ∧
      demoService ∈ a.discovery.localState.userSubscribers.toList := by
  obtain rfl := Option.some.inj h₁
  obtain rfl := Option.some.inj h₂
  refine ⟨fun type => ?_, _, _, rfl, rfl, ⟨rfl, rfl⟩, ⟨rfl, rfl, fun hflag => by cases hflag⟩,
    List.mem_cons_self⟩
  cases type <;> rfl

theorem failoverResend_share {cfg : Setup 2}
    (h₀ : cfg.transports 0 = ⟨some .disabled, some .good, none, 4⟩)
    (h₁ : cfg.transports 1 = ⟨some .good, some .good, none, 6⟩) (type : TransportType) :
    cfg.Share 0 1 type ↔ type = .udp := by
  unfold Setup.Share
  rw [h₀, h₁]
  cases type <;> decide

/-- The bits of the configuration are those that `enable` sets. -/
theorem failoverConfig_advertises (p : Fin 2) : (failoverConfig.transports p).AdvertisesUsable := by
  have h : AdvertisedBits.Inv ⟨true, true, false⟩ .empty := AdvertisedBits.inv_empty
  have hbuilt : ∀ type ∈ [TransportType.pcie, .udp],
      TransportInfo.Build.has ⟨true, true, false⟩ type = true := by decide
  exact (h.bits.foldl_enable h.built hbuilt).1

theorem failover_demo :
    ∃ f₀ f, Run.exec failStep (FailState.init failoverConfig) failoverRun = some f₀ ∧
      Run.exec failStep f₀ failoverResend = some f ∧ ∃ b, f.net.gateways 1 = some b ∧
        ∃ record, b.discovery.records.toList.filter (fun x => x.info.gatewayHash = 1) = [record] ∧
          record.info.gatewayBitset = 4 ∧
          ∃ i, i.type = .udp ∧ routeOf demoClassHash (f.cfg.transports 1) b.discovery.preferredType
            (demoClassHash demoService) record = some i := by
  obtain ⟨f₀, h₁⟩ : ∃ f₀, Run.exec failStep (FailState.init failoverConfig) failoverRun = some f₀ :=
    ⟨_, rfl⟩
  obtain ⟨f, h₂⟩ : ∃ f, Run.exec failStep f₀ failoverResend = some f := by
    obtain rfl := Option.some.inj h₁
    exact ⟨_, rfl⟩
  obtain ⟨hcallbacks, hr₀⟩ := failoverRun_before h₁
  obtain ⟨hhash, ht₀, ht₁⟩ := failoverResend_after h₁ h₂
  obtain ⟨hempty, a, b, ha, hb, hrun, hquiet, hsub⟩ := failoverResend_gateways h₁ h₂
  have hshare := failoverResend_share ht₀ ht₁
  have hrepeats : f.cfg.Repeats 0 1 (failoverResend.filterMap FailLabel.lossy) := by
    refine ⟨⟨.udp, by decide, (hshare .udp).mpr rfl⟩, fun type _ hs => ?_⟩
    rw [(hshare type).mp hs]
    exact ⟨0, by decide⟩
  have hspared : ∀ l ∈ failoverResend, l.Spares 0 1 := by
    intro l hl
    fin_cases hl <;> trivial
  obtain ⟨record, hrecord, -, hbits, hroute⟩ :=
    failover demoClassHash failoverConfig_advertises h₁ hr₀ (failoverRun_clear h₁) hcallbacks h₂
      Fin.zero_ne_one hspared hrepeats ha hb hrun hquiet hempty
  have hnone : (f.cfg.transports 0).NoneFailed ∧ (f.cfg.transports 1).NoneFailed := by
    rw [ht₀, ht₁]
    decide
  obtain ⟨hboth, hsend⟩ := hroute hnone.1 hnone.2
  have htype := (hshare _).mp hboth
  rw [htype] at hsend
  refine ⟨f₀, f, h₁, h₂, b, hb, record, hhash ▸ hrecord, ?_, hsend (by decide) demoService hsub⟩
  rw [hbits, ht₀]
end Network

end P3com
