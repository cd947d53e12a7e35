/-
# The send loop and deleted channels

`Iceoryx2Transport::waitsetLoop` waits under the waitset mutex, lets go of it, spins while
`m_suspendFlag` is up, and then handles the notifications one by one: it takes a chunk from the
subscriber, asks for its service, and either releases the chunk or passes it to `writeSegmented`,
which releases it for every device.

The flag is up only while `deleteChannel` changes the waitset.  It is down again when the channel is
erased, and it is tested once for all the notifications.  So a notification that was collected
before the subscriber was detached is handled after the subscriber is gone.

In every run in which no channel is erased while the loop has still to do with its subscriber
(`NotInUse`), the loop takes from, asks and releases to subscribers with a channel only
(`erased_subscriber_untouched`).

The machine is that of `IoxToTransport.lean` with the loop beside it.  Pushes by other threads are
those of the `TransportForwarder`, for its own subscribers.  What the transports and
`generateDeviceIndices` answer is part of the labels.
-/
import P3com.Gateway.IoxToTransport
import P3com.Generic.Discovery

namespace P3com.SendLoop

open IoxToTransport

/-! ## The machine -/

/-- Where `writeSegmented` is, for one device. -/
inductive Write
  /-- `willBePending` is asked, and the message is pushed. -/
  | offer
  /-- The push was refused: release the chunk and return. -/
  | discard
  /-- `writeSegmentedInternal`. -/
  | send (shouldBePending : Bool)
  /-- Release the chunk. -/
  | giveBack
  /-- The first section of `PendingMessageManager::release`. -/
  | unpend
  /-- The second one, on the subscriber in the entry. -/
  | finishUnpend (subscriber : SubscriberId)
deriving DecidableEq

/-- A chunk that has been taken, with the devices after the current one and the notifications after
the current one. -/
structure Sending where
  subscriber : SubscriberId
  userPayload : UserPayload
  devices : List DeviceIndex
  rest : List SubscriberId
deriving DecidableEq

/-- Where the loop is. -/
inductive Loop
  | wait
  /-- The notifications have been collected, and the flag is tested. -/
  | test (notifications : List SubscriberId)
  | take (subscriber : SubscriberId) (rest : List SubscriberId)
  | route (subscriber : SubscriberId) (userPayload : UserPayload) (rest : List SubscriberId)
  | write (stage : Write) (x : Sending)
deriving DecidableEq

/-- The loop goes on with the next notification. -/
def Loop.next : List SubscriberId → Loop
  | [] => .wait
  | subscriber :: rest => .take subscriber rest

/-- `writeSegmented` goes on with the next device, or returns. -/
def Sending.nextDevice (x : Sending) : Loop :=
  match x.devices with
  | [] => .next x.rest
  | _ :: devices => .write .offer { x with devices }

/-- The subscribers with which the loop has still to do. -/
def Loop.uses : Loop → List SubscriberId
  | .wait => []
  | .test notifications => notifications
  | .take subscriber rest => subscriber :: rest
  | .route subscriber _ rest => subscriber :: rest
  | .write _ x => x.subscriber :: x.rest

/-- What the loop does with a subscriber. -/
inductive Access
  | taken (subscriber : SubscriberId)
  | serviceRead (subscriber : SubscriberId)
  | released (userPayload : UserPayload) (subscriber : SubscriberId)
deriving DecidableEq

def Access.subscriber : Access → SubscriberId
  | .taken q => q
  | .serviceRead q => q
  | .released _ q => q

structure State where
  gateway : IoxToTransport.State
  loop : Loop
  /-- Newest first. -/
  accesses : List Access

def State.init : State := ⟨.init, .wait, []⟩

inductive Label
  /-- A step of another thread. -/
  | gateway (l : IoxToTransport.Label)
  /-- `timedWait` returns notifications of these subscribers. -/
  | wait (ready : List SubscriberId)
  | test
  | take (userPayload : Option UserPayload)
  | route (deviceIndices : DeviceIndexVector)
  /-- `writeSegmented` runs its next section.  The answer is that of `willBePending` or of
  `writeSegmentedInternal`. -/
  | write (answer : Bool)

/-- The waitset mutex is free. -/
def waitsetFree (s : IoxToTransport.State) : Bool :=
  match s.updater with
  | some (.resume _ _ _ _ _) => false
  | _ => true

/-- One section of `writeSegmented`. -/
def State.writeSegmented (s : State) (answer : Bool) (x : Sending) : Write → Option State
  | .offer =>
    if answer then
      match s.gateway.push x.userPayload x.subscriber with
      | (true, gateway) => some { s with gateway, loop := .write (.send true) x }
      | (false, gateway) => some { s with gateway, loop := .write .discard x }
    else some { s with loop := .write (.send false) x }
  | .discard =>
    if s.gateway.mutexFree x.subscriber then
      some { s with
        loop := .next x.rest
        accesses := .released x.userPayload x.subscriber :: s.accesses }
    else none
  | .send shouldBePending =>
    some { s with
      loop := if answer then x.nextDevice
        else .write (if shouldBePending then .unpend else .giveBack) x }
  | .giveBack =>
    if s.gateway.mutexFree x.subscriber then
      some { s with
        loop := x.nextDevice
        accesses := .released x.userPayload x.subscriber :: s.accesses }
    else none
  | .unpend =>
    match s.gateway.release x.userPayload with
    | (none, gateway) => some { s with gateway, loop := x.nextDevice }
    | (some q, gateway) => some { s with gateway, loop := .write (.finishUnpend q) x }
  | .finishUnpend q =>
    if s.gateway.mutexFree q then
      some { s with
        gateway := { s.gateway with log := .released x.userPayload q :: s.gateway.log }
        loop := x.nextDevice
        accesses := .released x.userPayload q :: s.accesses }
    else none

/-- One step. -/
def step (getClassHash : ServiceDescription → ClassHash) (s : State) : Label → Option State
  | .gateway (.push p q) =>
    if q < forwarderSubscribers then some { s with gateway := (s.gateway.push p q).2 } else none
  | .gateway l => (IoxToTransport.step getClassHash s.gateway l).map fun gateway =>
      { s with gateway }
  | .wait ready =>
    match s.loop with
    | .wait =>
      if waitsetFree s.gateway && ready.all (· ∈ s.gateway.waitset) then
        some { s with loop := .test ready }
      else none
    | _ => none
  | .test =>
    match s.loop with
    | .test notifications =>
      if s.gateway.suspendFlag then none else some { s with loop := .next notifications }
    | _ => none
  | .take userPayload =>
    match s.loop with
    | .take q rest =>
      if s.gateway.updater.isNone then
        some { s with
          loop := match userPayload with
            | none => .next rest
            | some p => .route q p rest
          accesses := .taken q :: s.accesses }
      else none
    | _ => none
  | .route deviceIndices =>
    match s.loop with
    | .route q p rest =>
      some { s with
        loop := match deviceIndices.toList with
          | [] => .write .giveBack ⟨q, p, [], rest⟩
          | _ :: devices => .write .offer ⟨q, p, devices, rest⟩
        accesses := .serviceRead q :: s.accesses }
    | _ => none
  | .write answer =>
    match s.loop with
    | .write stage x => s.writeSegmented answer x stage
    | _ => none

/-- No channel is erased while the loop has still to do with its subscriber. -/
def NotInUse (s : State) : Label → Prop
  | .gateway .proceed => ∀ u ∈ s.gateway.updater, ∀ q ∈ u.erasing, q ∉ s.loop.uses
  | _ => True

instance (s : State) : (l : Label) → Decidable (NotInUse s l)
  | .gateway .proceed => inferInstanceAs (Decidable (∀ u ∈ _, ∀ q ∈ Updater.erasing u, _))
  | .gateway (.push _ _) | .gateway (.release _) | .gateway (.finishRelease _)
  | .gateway (.updateChannels _) | .wait _ | .test | .take _ | .route _ | .write _ => isTrue trivial

/-! ## The gateway -/

/-- The endpoint with which `updateChannels` is dealing, and its iterator. -/
def endpointOf : Updater → Option (Nat × Endpoint)
  | .select _ _ => none
  | .change _ i e _ _ => some (i, e)
  | .resume _ i e _ _ => some (i, e)
  | .poll i e _ _ => some (i, e)
  | .erase i e _ _ => some (i, e)

/-- The subscriber that has been detached from the waitset. -/
def detachedOf : Updater → Option SubscriberId
  | .resume false _ e _ _ => some e.id
  | .poll _ e _ _ => some e.id
  | .erase _ e _ _ => some e.id
  | _ => none

/-- What holds of the gateway in every run.  An attached subscriber has a channel, and one that is
about to be erased is not attached. -/
structure GatewayOk (g : IoxToTransport.State) : Prop where
  single : g.pending.Single
  next : forwarderSubscribers ≤ g.nextEndpoint
  created : ∀ q ∈ g.subscribers, forwarderSubscribers ≤ q ∧ q < g.nextEndpoint
  waitset : ∀ q ∈ g.waitset, q ∈ g.subscribers
  found : ∀ u ∈ g.updater, ∀ i e, endpointOf u = some (i, e) →
    ∃ k, g.endpoints.entries[i]? = some (k, e)
  detached : ∀ u ∈ g.updater, ∀ q ∈ detachedOf u, q ∉ g.waitset

/-- What a step does to the channels: only the one that `updateChannels` is erasing goes away, and a
new one has a new subscriber. -/
structure Changes (g g' : IoxToTransport.State) : Prop where
  kept : ∀ q ∈ g.subscribers, (∀ u ∈ g.updater, u.erasing ≠ some q) → q ∈ g'.subscribers
  old : ∀ q ∈ g'.subscribers, q < g.nextEndpoint → q ∈ g.subscribers
  next : g.nextEndpoint ≤ g'.nextEndpoint

variable {getClassHash : ServiceDescription → ClassHash} {g g' : IoxToTransport.State}
  {s s' : State} {answer : Bool}

theorem gatewayOk_init : GatewayOk .init where
  single := by
    intro k msg h
    cases h
  next := le_rfl
  created := by
    intro q h
    cases h
  waitset := by
    intro q h
    cases h
  found := by
    intro u h
    cases h
  detached := by
    intro u h
    cases h

theorem Changes.of_endpoints (h : g'.endpoints = g.endpoints)
    (hn : g'.nextEndpoint = g.nextEndpoint) : Changes g g' := by
  have hsub : g'.subscribers = g.subscribers := by
    unfold IoxToTransport.State.subscribers
    rw [h]
  exact ⟨fun q hq _ => hsub ▸ hq, fun q hq _ => hsub ▸ hq, Nat.le_of_eq hn.symm⟩

theorem mem_subscribers_of_found {k : ClassHash} {i : Nat} {e : Endpoint}
    (h : g.endpoints.entries[i]? = some (k, e)) : e.id ∈ g.subscribers :=
  mem_subscribers.mpr ⟨k, e, List.mem_of_getElem? h, rfl⟩

/-- `updateChannels` moves on without changing the endpoints. -/
theorem GatewayOk.move (hs : GatewayOk g) {u : Option Updater} {flag : Bool}
    {waitset : List SubscriberId} {log : List Event}
    (hwaitset : ∀ q ∈ waitset, q ∈ g.subscribers)
    (hfound : ∀ u' ∈ u, ∀ i e, endpointOf u' = some (i, e) →
      ∃ k, g.endpoints.entries[i]? = some (k, e))
    (hdetached : ∀ u' ∈ u, ∀ q ∈ detachedOf u', q ∉ waitset) :
    GatewayOk { g with updater := u, suspendFlag := flag, waitset, log } ∧
      Changes g { g with updater := u, suspendFlag := flag, waitset, log } :=
  ⟨⟨hs.single, hs.next, hs.created, hwaitset, hfound, hdetached⟩, .of_endpoints rfl rfl⟩

theorem gatewayOk_deleteChannel (hs : GatewayOk g) (service : ServiceDescription)
    (toDelete toSetup : List ServiceDescription) :
    GatewayOk (g.deleteChannel getClassHash service toDelete toSetup) ∧
      Changes g (g.deleteChannel getClassHash service toDelete toSetup) := by
  unfold IoxToTransport.State.deleteChannel
  split
  · refine hs.move hs.waitset ?_ ?_
    · rintro _ ⟨⟩ i e h
      cases h
    · rintro _ ⟨⟩ q h
      cases h
  · rename_i i e hf
    refine hs.move hs.waitset ?_ ?_
    · rintro _ ⟨⟩ i' e' h
      obtain ⟨rfl, rfl⟩ := Prod.mk.inj (Option.some.inj h)
      exact ⟨_, VectorMap.findElem_eq_some hf⟩
    · rintro _ ⟨⟩ q h
      cases h

theorem gatewayOk_setupChannel (hs : GatewayOk g) (service : ServiceDescription)
    (toSetup : List ServiceDescription) :
    GatewayOk (g.setupChannel getClassHash service toSetup) ∧
      Changes g (g.setupChannel getClassHash service toSetup) := by
  have hnext := Nat.le_succ_of_le hs.next
  have hcreated : ∀ q ∈ g.subscribers, forwarderSubscribers ≤ q ∧ q < g.nextEndpoint + 1 :=
    fun q hq => ⟨(hs.created q hq).1, Nat.lt_succ_of_lt (hs.created q hq).2⟩
  unfold IoxToTransport.State.setupChannel
  dsimp only
  split
  · refine ⟨⟨hs.single, hnext, hcreated, hs.waitset, ?_, ?_⟩, fun q hq _ => hq, fun q hq _ => hq,
      Nat.le_succ _⟩
    · rintro _ ⟨⟩ i e h
      cases h
    · rintro _ ⟨⟩ q h
      cases h
  · rename_i endpoints hm
    have hentries := VectorMap.entries_emplace hm
    have hold : ∀ q ∈ g.subscribers, ∃ k e, (k, e) ∈ endpoints.entries ∧ e.id = q := by
      intro q hq
      obtain ⟨k, e, hmem, rfl⟩ := mem_subscribers.mp hq
      exact ⟨k, e, hentries ▸ List.mem_append_left _ hmem, rfl⟩
    have hnew : ∀ q, (∃ k e, (k, e) ∈ endpoints.entries ∧ e.id = q) →
        q ∈ g.subscribers ∨ q = g.nextEndpoint := by
      rintro q ⟨k, e, hmem, rfl⟩
      rw [hentries] at hmem
      rcases List.mem_append.mp hmem with hmem | hmem
      · exact Or.inl (mem_subscribers.mpr ⟨k, e, hmem, rfl⟩)
      · obtain ⟨-, rfl⟩ := Prod.mk.inj (List.mem_singleton.mp hmem)
        exact Or.inr rfl
    refine ⟨⟨hs.single, hnext, fun q hq => ?_, fun q hq => ?_, ?_, ?_⟩, fun q hq _ => ?_,
      fun q hq hlt => ?_, Nat.le_succ _⟩
    · rcases hnew q (mem_subscribers.mp hq) with hq | rfl
      · exact hcreated q hq
      · exact ⟨hs.next, Nat.lt_succ_self _⟩
    · exact mem_subscribers.mpr (hold q (hs.waitset q hq))
    · rintro _ ⟨⟩ i e h
      obtain ⟨rfl, rfl⟩ := Prod.mk.inj (Option.some.inj h)
      have hsize : endpoints.size - 1 = g.endpoints.entries.length := by
        rw [← VectorMap.length_entries, hentries, List.length_append]
        rfl
      exact ⟨_, by rw [hsize, hentries, List.getElem?_concat_length]⟩
    · rintro _ ⟨⟩ q h
      cases h
    · exact mem_subscribers.mpr (hold q hq)
    · rcases hnew q (mem_subscribers.mp hq) with hq | rfl
      · exact hq
      · exact absurd hlt (Nat.lt_irrefl _)

/-- The endpoint is erased, and with it the channel of its subscriber. -/
theorem gatewayOk_erase {i : Nat} {e : Endpoint} {toDelete toSetup : List ServiceDescription}
    (hs : GatewayOk g) (hu : g.updater = some (.erase i e toDelete toSetup)) :
    GatewayOk (g.proceed getClassHash (.erase i e toDelete toSetup)) ∧
      Changes g (g.proceed getClassHash (.erase i e toDelete toSetup)) := by
  obtain ⟨k, hk⟩ := hs.found _ hu i e rfl
  have hdet := hs.detached _ hu e.id rfl
  have hleft : ∀ q ∈ g.subscribers, q ≠ e.id →
      q ∈ (g.proceed getClassHash (.erase i e toDelete toSetup)).subscribers := by
    intro q hq hne
    obtain ⟨k', e', hmem, rfl⟩ := mem_subscribers.mp hq
    rcases List.mem_cons.mp ((VectorMap.entries_perm_erase hk).mem_iff.mp hmem) with heq | hmem
    · obtain ⟨-, rfl⟩ := Prod.mk.inj heq
      exact absurd rfl hne
    · exact mem_subscribers.mpr ⟨k', e', hmem, rfl⟩
  have hold : ∀ q ∈ (g.proceed getClassHash (.erase i e toDelete toSetup)).subscribers,
      q ∈ g.subscribers := by
    intro q hq
    obtain ⟨k', e', hmem, rfl⟩ := mem_subscribers.mp hq
    exact mem_subscribers.mpr ⟨k', e', VectorMap.mem_entries_of_mem_erase hmem, rfl⟩
  refine ⟨⟨hs.single, hs.next, fun q hq => hs.created q (hold q hq), fun q hq => ?_, ?_, ?_⟩,
    fun q hq hne => ?_, fun q hq _ => hold q hq, le_rfl⟩
  · refine hleft q (hs.waitset q hq) ?_
    rintro rfl
    exact hdet hq
  · rintro _ ⟨⟩ i' e' h
    cases h
  · rintro _ ⟨⟩ q h
    cases h
  · refine hleft q hq ?_
    rintro rfl
    exact hne _ hu rfl

theorem gatewayOk_proceed {u : Updater} (hs : GatewayOk g) (hu : g.updater = some u) :
    GatewayOk (g.proceed getClassHash u) ∧ Changes g (g.proceed getClassHash u) := by
  cases u with
  | select toDelete toSetup =>
    cases toDelete with
    | cons service toDelete => exact gatewayOk_deleteChannel hs service toDelete toSetup
    | nil =>
      cases toSetup with
      | cons service toSetup => exact gatewayOk_setupChannel hs service toSetup
      | nil => exact hs.move hs.waitset (by simp) (by simp)
  | change attach i e toDelete toSetup =>
    obtain ⟨k, hk⟩ := hs.found _ hu i e rfl
    have hfound : ∀ i' e', some (i, e) = some (i', e') →
        ∃ k, g.endpoints.entries[i']? = some (k, e') := by
      intro i' e' h
      obtain ⟨rfl, rfl⟩ := Prod.mk.inj (Option.some.inj h)
      exact ⟨k, hk⟩
    cases attach with
    | true =>
      refine hs.move (fun q hq => ?_) ?_ ?_
      · rcases List.mem_append.mp hq with hq | hq
        · exact hs.waitset q hq
        · obtain rfl := List.mem_singleton.mp hq
          exact mem_subscribers_of_found hk
      · rintro _ ⟨⟩
        exact hfound
      · rintro _ ⟨⟩ q h
        cases h
    | false =>
      refine hs.move (fun q hq => hs.waitset q (List.mem_of_mem_filter hq)) ?_ ?_
      · rintro _ ⟨⟩
        exact hfound
      · rintro _ ⟨⟩ q h hq
        obtain rfl := Option.some.inj h
        simpa using (List.mem_filter.mp hq).2
  | resume attach i e toDelete toSetup =>
    have hfound := hs.found _ hu
    have hdet := hs.detached _ hu
    cases attach with
    | true =>
      refine hs.move hs.waitset ?_ ?_
      · rintro _ ⟨⟩ i' e' h
        cases h
      · rintro _ ⟨⟩ q h
        cases h
    | false =>
      refine hs.move hs.waitset ?_ ?_
      · rintro _ ⟨⟩
        exact hfound
      · rintro _ ⟨⟩
        exact hdet
  | poll i e toDelete toSetup =>
    have hfound := hs.found _ hu
    have hdet := hs.detached _ hu
    refine hs.move hs.waitset ?_ ?_
    · rintro _ ⟨⟩
      split <;> exact hfound
    · rintro _ ⟨⟩
      split <;> exact hdet
  | erase i e toDelete toSetup => exact gatewayOk_erase hs hu

/-! ## The loop -/

/-- The message of the loop has been pushed and is to be taken back if sending fails. -/
def Write.owns : Write → Bool
  | .send true => true
  | .unpend => true
  | _ => false

/-- What holds of the loop: it deals with subscribers that have a channel.  An entry for its payload
is its own or one of the forwarder. -/
structure LoopOk (g : IoxToTransport.State) (loop : Loop) : Prop where
  uses : ∀ q ∈ loop.uses, q ∈ g.subscribers
  own : ∀ stage x, loop = .write stage x → stage.owns = true →
    ∀ msg, (x.userPayload, msg) ∈ g.pending.pendingMessages.entries →
      msg.subscriber = x.subscriber ∨ msg.subscriber < forwarderSubscribers
  finish : ∀ q x, loop = .write (.finishUnpend q) x →
    q = x.subscriber ∨ q < forwarderSubscribers

structure Inv (s : State) : Prop where
  gateway : GatewayOk s.gateway
  loop : LoopOk s.gateway s.loop

theorem inv_init : Inv State.init := ⟨gatewayOk_init, by simp [State.init, Loop.uses], by
  simp [State.init], by simp [State.init]⟩

/-- What a step does to the subscribers: the loop accesses those that have a channel, and those of
the forwarder. -/
structure Touches (s s' : State) : Prop where
  accesses : ∃ new, s'.accesses = new ++ s.accesses ∧ ∀ a ∈ new,
    a.subscriber ∈ s.gateway.subscribers ∨ a.subscriber < forwarderSubscribers
  old : ∀ q ∈ s'.gateway.subscribers, q < s.gateway.nextEndpoint → q ∈ s.gateway.subscribers
  next : s.gateway.nextEndpoint ≤ s'.gateway.nextEndpoint

/-- A step of another thread brings only messages of the forwarder into the table. -/
theorem LoopOk.keep {loop : Loop} (h : LoopOk g loop)
    (hsub : ∀ q ∈ loop.uses, q ∈ g.subscribers → q ∈ g'.subscribers)
    (htable : ∀ k msg, (k, msg) ∈ g'.pending.pendingMessages.entries →
      (k, msg) ∈ g.pending.pendingMessages.entries ∨ msg.subscriber < forwarderSubscribers) :
    LoopOk g' loop where
  uses := fun q hq => hsub q hq (h.uses q hq)
  own := by
    intro stage x hx howns msg hmem
    rcases htable _ msg hmem with hmem | hlt
    · exact h.own stage x hx howns msg hmem
    · exact Or.inr hlt
  finish := h.finish

/-- Another thread works on the pending messages. -/
theorem inv_other {pending : PendingMessageManager} {releases : List (UserPayload × SubscriberId)}
    {log : List Event} {updater : Option Updater} (hs : Inv s) (hsingle : pending.Single)
    (hupdater : updater = s.gateway.updater ∨
      ∃ toDelete toSetup, updater = some (.select toDelete toSetup))
    (htable : ∀ k msg, (k, msg) ∈ pending.pendingMessages.entries →
      (k, msg) ∈ s.gateway.pending.pendingMessages.entries ∨
        msg.subscriber < forwarderSubscribers) :
    Inv { s with gateway := { s.gateway with pending, releases, log, updater } } ∧
      Touches s { s with gateway := { s.gateway with pending, releases, log, updater } } := by
  obtain ⟨hg, hl⟩ := hs
  refine ⟨⟨⟨hsingle, hg.next, hg.created, hg.waitset, ?_, ?_⟩, hl.keep (fun q _ hq => hq) htable⟩,
    ⟨[], rfl, by simp⟩, fun q hq _ => hq, le_rfl⟩
  · rcases hupdater with rfl | ⟨toDelete, toSetup, rfl⟩
    · exact hg.found
    · rintro _ ⟨⟩ i e h
      cases h
  · rcases hupdater with rfl | ⟨toDelete, toSetup, rfl⟩
    · exact hg.detached
    · rintro _ ⟨⟩ q h
      cases h

/-- The table after a push of the forwarder. -/
theorem inv_forwarderPush {p : UserPayload} {q : SubscriberId} (hs : Inv s)
    (hq : q < forwarderSubscribers) :
    Inv { s with gateway := (s.gateway.push p q).2 } ∧
      Touches s { s with gateway := (s.gateway.push p q).2 } := by
  rcases push_cases s.gateway p q with heq | ⟨pending, hpush, heq⟩
  · rw [heq]
    exact inv_other hs hs.gateway.single (Or.inl rfl) fun _ _ h => Or.inl h
  · rw [heq]
    refine inv_other hs (hs.gateway.single.push hpush) (Or.inl rfl) fun k msg hmem => ?_
    rw [PendingMessageManager.push_eq_some hpush] at hmem
    rcases List.mem_append.mp hmem with hmem | hmem
    · exact Or.inl hmem
    · obtain ⟨-, rfl⟩ := Prod.mk.inj (List.mem_singleton.mp hmem)
      exact Or.inr hq

/-- A step of another thread that is not a push. -/
theorem inv_gateway {l : IoxToTransport.Label} (hs : Inv s) (hg : NotInUse s (.gateway l))
    (hl : ∀ p q, l ≠ .push p q) (h : IoxToTransport.step getClassHash s.gateway l = some g') :
    Inv { s with gateway := g' } ∧ Touches s { s with gateway := g' } := by
  cases l with
  | push p q => exact absurd rfl (hl p q)
  | release p =>
    simp only [IoxToTransport.step] at h
    rcases release_cases hs.gateway.single p with
      heq | ⟨i, msg, pending, -, herase, hsingle, heq⟩
    · rw [heq] at h
      obtain rfl := Option.some.inj h
      exact inv_other hs hs.gateway.single (Or.inl rfl) fun _ _ h => Or.inl h
    · rw [heq] at h
      rw [← Option.some.inj h]
      refine inv_other hs hsingle (Or.inl rfl) fun k msg' hmem => Or.inl ?_
      rw [herase] at hmem
      exact VectorMap.mem_entries_of_mem_erase hmem
  | finishRelease i =>
    obtain ⟨r, -, h⟩ := Option.bind_eq_some_iff.mp h
    split at h
    · rw [← Option.some.inj h]
      exact inv_other hs hs.gateway.single (Or.inl rfl) fun _ _ h => Or.inl h
    · cases h
  | updateChannels services =>
    simp only [IoxToTransport.step] at h
    split at h
    · rw [← Option.some.inj h]
      exact inv_other hs hs.gateway.single (Or.inr ⟨_, _, rfl⟩) fun _ _ h => Or.inl h
    · cases h
  | proceed =>
    obtain ⟨u, hu, rfl⟩ := Option.map_eq_some_iff.mp h
    have hproceed : GatewayOk (s.gateway.proceed getClassHash u) ∧
        Changes s.gateway (s.gateway.proceed getClassHash u) := gatewayOk_proceed hs.gateway hu
    obtain ⟨hok, hchanges⟩ := hproceed
    refine ⟨⟨hok, hs.loop.keep (fun q huse hq => ?_) fun k msg hmem => Or.inl ?_⟩,
      ⟨[], rfl, by simp⟩, hchanges.old, hchanges.next⟩
    · refine hchanges.kept q hq fun u' hu' he => ?_
      exact hg u' hu' q he huse
    · rwa [proceed_pending] at hmem

/-- The loop moves on, to a place where it has nothing in the table. -/
theorem loopOk_of_uses {loop : Loop} (huses : ∀ q ∈ loop.uses, q ∈ g.subscribers)
    (hloop : ∀ stage x, loop = .write stage x →
      stage.owns = false ∧ ∀ q, stage ≠ .finishUnpend q) : LoopOk g loop where
  uses := huses
  own := by
    intro stage x hx howns
    rw [(hloop stage x hx).1] at howns
    cases howns
  finish := by
    intro q x hx
    exact absurd rfl ((hloop _ x hx).2 q)

theorem loopOk_next {rest : List SubscriberId} (h : ∀ q ∈ rest, q ∈ g.subscribers) :
    LoopOk g (.next rest) := by
  cases rest with
  | nil => exact loopOk_of_uses (by simp [Loop.next, Loop.uses]) (by simp [Loop.next])
  | cons q rest => exact loopOk_of_uses h (by simp [Loop.next])

theorem loopOk_nextDevice {x : Sending} (h : ∀ q ∈ x.subscriber :: x.rest, q ∈ g.subscribers) :
    LoopOk g x.nextDevice := by
  unfold Sending.nextDevice
  split
  · exact loopOk_next fun q hq => h q (List.mem_cons_of_mem _ hq)
  · refine loopOk_of_uses h fun stage x hx => ?_
    obtain ⟨rfl, -⟩ := Loop.write.inj hx
    exact ⟨rfl, fun q hq => by cases hq⟩

/-- The loop moves on and has accessed the subscribers in `new`. -/
theorem inv_moves {loop : Loop} (new : List Access) (hs : Inv s) (hloop : LoopOk s.gateway loop)
    (hnew : ∀ a ∈ new, a.subscriber ∈ s.gateway.subscribers ∨
      a.subscriber < forwarderSubscribers) :
    Inv { s with loop, accesses := new ++ s.accesses } ∧
      Touches s { s with loop, accesses := new ++ s.accesses } :=
  ⟨⟨hs.gateway, hloop⟩, ⟨new, rfl, hnew⟩, fun _ hq _ => hq, le_rfl⟩

/-- `writeSegmented` moves on to another stage for the same device. -/
theorem loopOk_write {stage : Write} {x : Sending}
    (h : ∀ q ∈ x.subscriber :: x.rest, q ∈ g.subscribers) (howns : stage.owns = false)
    (hfinish : ∀ q, stage ≠ .finishUnpend q) : LoopOk g (.write stage x) := by
  refine loopOk_of_uses h fun stage' x' hx => ?_
  obtain ⟨rfl, rfl⟩ := Loop.write.inj hx
  exact ⟨howns, hfinish⟩

/-- The push of `writeSegmented`: afterwards the entry for the payload is its own. -/
theorem inv_offer {x : Sending} (hs : Inv s) (hl : s.loop = .write .offer x)
    (h : s.writeSegmented answer x .offer = some s') : Inv s' ∧ Touches s s' := by
  have huses : ∀ q ∈ x.subscriber :: x.rest, q ∈ s.gateway.subscribers := by
    have := hs.loop.uses
    rwa [hl] at this
  simp only [State.writeSegmented] at h
  split at h
  · rcases push_cases s.gateway x.userPayload x.subscriber with heq | ⟨pending, hpush, heq⟩
    · rw [heq] at h
      obtain rfl := Option.some.inj h
      exact inv_moves [] hs (loopOk_write huses rfl (by simp)) (by simp)
    · rw [heq] at h
      obtain rfl := Option.some.inj h
      obtain ⟨hg, -⟩ := hs
      refine ⟨⟨⟨hg.single.push hpush, hg.next, hg.created, hg.waitset, hg.found, hg.detached⟩,
        huses, fun stage x' hx _ msg hmem => Or.inl ?_, by simp⟩, ⟨[], rfl, by simp⟩,
        fun q hq _ => hq, le_rfl⟩
      obtain ⟨-, rfl⟩ := Loop.write.inj hx
      rw [PendingMessageManager.push_eq_some hpush] at hmem
      rcases List.mem_append.mp hmem with hmem | hmem
      · exact absurd (VectorMap.mem_keys_of_mem_entries hmem)
          (PendingMessageManager.not_mem_keys_of_push hpush)
      · obtain ⟨-, rfl⟩ := Prod.mk.inj (List.mem_singleton.mp hmem)
        rfl
  · obtain rfl := Option.some.inj h
    exact inv_moves [] hs (loopOk_write huses rfl (by simp)) (by simp)

theorem inv_unpend {x : Sending} (hs : Inv s) (hl : s.loop = .write .unpend x)
    (h : s.writeSegmented answer x .unpend = some s') : Inv s' ∧ Touches s s' := by
  have huses : ∀ q ∈ x.subscriber :: x.rest, q ∈ s.gateway.subscribers := by
    have := hs.loop.uses
    rwa [hl] at this
  simp only [State.writeSegmented] at h
  rcases release_cases hs.gateway.single x.userPayload with
    heq | ⟨i, msg, pending, hi, herase, hsingle, heq⟩
  · rw [heq] at h
    obtain rfl := Option.some.inj h
    exact inv_moves [] hs (loopOk_nextDevice huses) (by simp)
  · rw [heq] at h
    obtain rfl := Option.some.inj h
    have hown := hs.loop.own _ x hl rfl msg (List.mem_of_getElem? hi)
    obtain ⟨hg, -⟩ := hs
    refine ⟨⟨⟨hsingle, hg.next, hg.created, hg.waitset, hg.found, hg.detached⟩, huses,
      fun stage x' hx howns => ?_, fun q x' hx => ?_⟩, ⟨[], rfl, by simp⟩, fun q hq _ => hq, le_rfl⟩
    · obtain ⟨rfl, -⟩ := Loop.write.inj hx
      cases howns
    · obtain ⟨hq, rfl⟩ := Loop.write.inj hx
      obtain rfl := Write.finishUnpend.inj hq
      exact hown

theorem inv_writeSegmented {stage : Write} {x : Sending} (hs : Inv s)
    (hl : s.loop = .write stage x) (h : s.writeSegmented answer x stage = some s') :
    Inv s' ∧ Touches s s' := by
  have huses : ∀ q ∈ x.subscriber :: x.rest, q ∈ s.gateway.subscribers := by
    have := hs.loop.uses
    rwa [hl] at this
  have hrest : ∀ q ∈ x.rest, q ∈ s.gateway.subscribers :=
    fun q hq => huses q (List.mem_cons_of_mem _ hq)
  have hreleased : ∀ a ∈ [Access.released x.userPayload x.subscriber],
      a.subscriber ∈ s.gateway.subscribers ∨ a.subscriber < forwarderSubscribers := by
    intro a ha
    obtain rfl := List.mem_singleton.mp ha
    exact Or.inl (huses _ List.mem_cons_self)
  cases stage with
  | offer => exact inv_offer hs hl h
  | discard =>
    simp only [State.writeSegmented] at h
    split at h
    · obtain rfl := Option.some.inj h
      exact inv_moves _ hs (loopOk_next hrest) hreleased
    · cases h
  | send shouldBePending =>
    simp only [State.writeSegmented] at h
    obtain rfl := Option.some.inj h
    cases answer with
    | true => exact inv_moves [] hs (loopOk_nextDevice huses) (by simp)
    | false =>
      cases shouldBePending with
      | false => exact inv_moves [] hs (loopOk_write huses rfl (by simp)) (by simp)
      | true =>
        refine inv_moves [] hs ⟨huses, fun stage x' hx _ => ?_, by simp⟩ (by simp)
        obtain ⟨-, rfl⟩ := Loop.write.inj hx
        exact hs.loop.own _ x hl rfl
  | giveBack =>
    simp only [State.writeSegmented] at h
    split at h
    · obtain rfl := Option.some.inj h
      exact inv_moves _ hs (loopOk_nextDevice huses) hreleased
    · cases h
  | unpend => exact inv_unpend hs hl h
  | finishUnpend q =>
    simp only [State.writeSegmented] at h
    split at h
    · obtain rfl := Option.some.inj h
      have hq : q ∈ s.gateway.subscribers ∨ q < forwarderSubscribers := by
        rcases hs.loop.finish q x hl with rfl | hlt
        · exact Or.inl (huses _ List.mem_cons_self)
        · exact Or.inr hlt
      obtain ⟨hg, -⟩ := hs
      refine ⟨⟨⟨hg.single, hg.next, hg.created, hg.waitset, hg.found, hg.detached⟩, ?_⟩,
        ⟨[.released x.userPayload q], rfl, fun a ha => ?_⟩, fun q hq _ => hq, le_rfl⟩
      · exact loopOk_nextDevice huses
      · obtain rfl := List.mem_singleton.mp ha
        exact hq
    · cases h

/-! ## Every step -/

theorem inv_step {l : Label} (hs : Inv s) (hg : NotInUse s l)
    (h : step getClassHash s l = some s') : Inv s' ∧ Touches s s' := by
  cases l with
  | gateway l =>
    cases l with
    | push p q =>
      simp only [step] at h
      split at h
      · obtain rfl := Option.some.inj h
        exact inv_forwarderPush hs ‹_›
      · cases h
    | _ =>
      obtain ⟨g', hg', rfl⟩ := Option.map_eq_some_iff.mp h
      exact inv_gateway hs hg (by simp) hg'
  | wait ready =>
    simp only [step] at h
    split at h
    · split at h
      · rename_i hready
        obtain rfl := Option.some.inj h
        refine inv_moves [] hs (loopOk_of_uses (fun q hq => ?_) (by simp)) (by simp)
        -- an attached subscriber has a channel
        simp only [Bool.and_eq_true, List.all_eq_true, decide_eq_true_eq] at hready
        exact hs.gateway.waitset q (hready.2 q hq)
      · cases h
    · cases h
  | test =>
    simp only [step] at h
    split at h
    · rename_i notifications hl
      split at h
      · cases h
      · obtain rfl := Option.some.inj h
        refine inv_moves [] hs (loopOk_next ?_) (by simp)
        have := hs.loop.uses
        rwa [hl] at this
    · cases h
  | take userPayload =>
    simp only [step] at h
    split at h
    · rename_i q rest hl
      split at h
      · obtain rfl := Option.some.inj h
        have huses : ∀ q' ∈ q :: rest, q' ∈ s.gateway.subscribers := by
          have := hs.loop.uses
          rwa [hl] at this
        refine inv_moves [.taken q] hs ?_ ?_
        · cases userPayload with
          | none => exact loopOk_next fun q' hq' => huses q' (List.mem_cons_of_mem _ hq')
          | some p => exact loopOk_of_uses huses (by simp)
        · intro a ha
          obtain rfl := List.mem_singleton.mp ha
          exact Or.inl (huses q List.mem_cons_self)
      · cases h
    · cases h
  | route deviceIndices =>
    simp only [step] at h
    split at h
    · rename_i q p rest hl
      obtain rfl := Option.some.inj h
      have huses : ∀ q' ∈ q :: rest, q' ∈ s.gateway.subscribers := by
        have := hs.loop.uses
        rwa [hl] at this
      refine inv_moves [.serviceRead q] hs ?_ ?_
      · split
        · exact loopOk_write huses rfl (by simp)
        · exact loopOk_write huses rfl (by simp)
      · intro a ha
        obtain rfl := List.mem_singleton.mp ha
        exact Or.inl (huses q List.mem_cons_self)
    · cases h
  | write answer =>
    simp only [step] at h
    split at h
    · exact inv_writeSegmented hs ‹_› h
    · cases h

/-- The subscriber of this gateway was created and has no channel any more. -/
def State.Erased (s : State) (q : SubscriberId) : Prop :=
  forwarderSubscribers ≤ q ∧ q < s.gateway.nextEndpoint ∧ q ∉ s.gateway.subscribers

instance (s : State) (q : SubscriberId) : Decidable (s.Erased q) :=
  inferInstanceAs (Decidable (_ ∧ _ ∧ _))

theorem Touches.erased (h : Touches s s') {q : SubscriberId} (hq : s.Erased q) : s'.Erased q :=
  ⟨hq.1, Nat.lt_of_lt_of_le hq.2.1 h.next, fun hmem => hq.2.2 (h.old q hmem hq.2.1)⟩

theorem Touches.untouched (h : Touches s s') : ∃ new, s'.accesses = new ++ s.accesses ∧
    ∀ a ∈ new, ∀ q, s.Erased q → a.subscriber ≠ q := by
  obtain ⟨new, hnew, hlive⟩ := h.accesses
  refine ⟨new, hnew, fun a ha q hq => ?_⟩
  rintro rfl
  rcases hlive a ha with hmem | hlt
  · exact hq.2.2 hmem
  · exact absurd hlt (Nat.not_lt_of_le hq.1)

/-- **The loop leaves erased subscribers alone**, in every run in which no channel is erased while
the loop has still to do with its subscriber: from any state on in which a subscriber has lost its
channel, the loop neither takes from it, nor reads its service, nor releases to it. -/
theorem erased_subscriber_untouched (getClassHash : ServiceDescription → ClassHash)
    (before later : List Label) (s s' : State)
    (hbefore : Run.exec (step getClassHash) State.init before = some s)
    (hlater : Run.exec (step getClassHash) s later = some s')
    (hg : Run.Guarded (step getClassHash) NotInUse State.init (before ++ later))
    (q : SubscriberId) (hq : s.Erased q) :
    ∃ new, s'.accesses = new ++ s.accesses ∧ ∀ a ∈ new, a.subscriber ≠ q := by
  obtain ⟨hg₁, hg₂⟩ := hg.append hbefore
  have hs : Inv s := Run.invariant_guarded _ (fun _ _ _ hs hg h => (inv_step hs hg h).1) inv_init
    hg₁ hbefore
  refine Run.untouched Inv State.accesses State.Erased (fun a q => a.subscriber = q)
    (fun s l s' hs hg h => ?_) hs hg₂ hlater hq
  obtain ⟨hinv, htouches⟩ := inv_step hs hg h
  exact ⟨hinv, htouches.untouched, fun q => htouches.erased⟩

/-! ## Runs -/

/-- The channel of a service is set up; its subscriber is number 8. -/
def demoSetup : List Label :=
  [.gateway (.updateChannels demoServices), .gateway .proceed, .gateway .proceed,
    .gateway .proceed, .gateway .proceed]

/-- The channel is deleted. -/
def demoDelete : List Label :=
  [.gateway (.updateChannels .empty), .gateway .proceed, .gateway .proceed, .gateway .proceed,
    .gateway .proceed, .gateway .proceed, .gateway .proceed]

/-- The loop is notified, takes the chunk and gives it back. -/
def demoHandle : List Label := [.wait [8], .test, .take (some 5), .route .empty, .write false]

/-- The notification has been handled when the channel is deleted. -/
theorem erased_subscriber_untouched_demo :
    ∃ s, Run.exec (step demoClassHash) State.init (demoSetup ++ demoHandle ++ demoDelete)
        = some s ∧ s.Erased 8 ∧ s.accesses = [.released 5 8, .serviceRead 8, .taken 8] ∧
      ∃ s', Run.exec (step demoClassHash) s demoSetup = some s' ∧
        ∃ new, s'.accesses = new ++ s.accesses ∧ ∀ a ∈ new, a.subscriber ≠ 8 := by
  refine ⟨_, rfl, by decide, by decide, _, rfl, ?_⟩
  exact erased_subscriber_untouched demoClassHash (demoSetup ++ demoHandle ++ demoDelete) demoSetup
    _ _ rfl rfl (by decide) 8 (by decide)

/-- The channel is deleted after the loop has collected the notification and tested the flag.  The
loop then takes from the subscriber that is gone, reads its service and releases to it. -/
theorem loop_uses_erased_subscriber :
    ∃ s, Run.exec (step demoClassHash) State.init (demoSetup ++ demoHandle.take 2 ++ demoDelete)
        = some s ∧ s.Erased 8 ∧ s.accesses = [] ∧
      ∃ s', Run.exec (step demoClassHash) s (demoHandle.drop 2) = some s' ∧
        s'.accesses = [.released 5 8, .serviceRead 8, .taken 8] := by
  exact ⟨_, rfl, by decide, by decide, _, rfl, by decide⟩

end P3com.SendLoop
