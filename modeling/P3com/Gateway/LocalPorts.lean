/-
# Local ports: what counts as a change, and what is announced

`readPortSubscriber` of `source/p3com/generic/discovery.cpp`, before and after its comparison of
the old ports with the new ones.

The comparison is made of four differences (`deleteElements`), each of which takes one occurrence
out for each element.  They are all empty exactly when both lists are the same up to order, and
then neither the needed channels nor the announced subscribers are other ones than before
(`unchanged_return_sound`).

The ports themselves are collected with their repetitions, into vectors of `MAX_TOPICS` elements;
a port that does not fit is dropped without a word, and only then are the services made unique.  So
a service is announced exactly when one of the first `MAX_TOPICS` user subscribers has it
(`announced_subscribers_complete_iff`), which need not be so even if there are two services only.
-/
import P3com.Gateway.Channels
import Mathlib.Algebra.Order.Sub.Basic
import Mathlib.Data.Multiset.OrderedMonoid

namespace P3com

/-! ## Four differences -/

/-- Nothing is left of `a` exactly when `b` has every element of `a` at least as often. -/
theorem CxxVector.deleteElements_isEmpty_iff {α : Type} {cap : Nat} [DecidableEq α]
    (a b : CxxVector α cap) :
    (a.deleteElements b).toList.isEmpty = true ↔
      (a.toList : Multiset α) ≤ (b.toList : Multiset α) := by
  rw [List.isEmpty_iff, toList_deleteElements, ← Multiset.coe_eq_zero, ← Multiset.coe_sub,
    tsub_eq_zero_iff_le]

/-- The same ports up to their order. -/
structure LocalState.SamePorts (old new : LocalState) : Prop where
  publishers : new.userPublishers.toList.Perm old.userPublishers.toList
  subscribers : new.userSubscribers.toList.Perm old.userSubscribers.toList

instance (old new : LocalState) : Decidable (old.SamePorts new) :=
  decidable_of_iff (new.userPublishers.toList.Perm old.userPublishers.toList ∧
    new.userSubscribers.toList.Perm old.userSubscribers.toList)
    ⟨fun h => ⟨h.1, h.2⟩, fun h => ⟨h.1, h.2⟩⟩

/-- Two differences are empty when the lists are equal as multisets. -/
theorem CxxVector.deleteElements_both_isEmpty_iff {α : Type} {cap : Nat} [DecidableEq α]
    (a b : CxxVector α cap) :
    ((a.deleteElements b).toList.isEmpty = true ∧ (b.deleteElements a).toList.isEmpty = true) ↔
      b.toList.Perm a.toList := by
  rw [deleteElements_isEmpty_iff, deleteElements_isEmpty_iff, ← Multiset.coe_eq_coe]
  constructor
  · rintro ⟨hab, hba⟩
    exact le_antisymm hba hab
  · intro heq
    exact ⟨heq.ge, heq.le⟩

theorem LocalState.unchanged_iff (old new : LocalState) :
    old.unchanged new = true ↔ old.SamePorts new := by
  unfold unchanged
  simp only [Bool.and_eq_true]
  constructor
  · rintro ⟨⟨⟨hp, hs⟩, hp'⟩, hs'⟩
    exact ⟨(CxxVector.deleteElements_both_isEmpty_iff _ _).mp ⟨hp, hp'⟩,
      (CxxVector.deleteElements_both_isEmpty_iff _ _).mp ⟨hs, hs'⟩⟩
  · rintro ⟨hp, hs⟩
    obtain ⟨hp₁, hp₂⟩ := (CxxVector.deleteElements_both_isEmpty_iff _ _).mpr hp
    obtain ⟨hs₁, hs₂⟩ := (CxxVector.deleteElements_both_isEmpty_iff _ _).mpr hs
    exact ⟨⟨⟨hp₁, hs₁⟩, hp₂⟩, hs₂⟩

/-- A second service. -/
def demoOtherService : ServiceDescription :=
  { demoService with instanceID := .ofString "FrontRight" (by decide) }

/-- Subscribers of these services. -/
def demoSubscribers (services : List ServiceDescription) : LocalState :=
  ⟨.empty, CxxVector.empty.pushAll services, .empty⟩

namespace Discovery

variable {d : Discovery} {new : LocalState}

/-- The announced subscribers are the local ones: a vector has room for what another one has. -/
theorem mem_generateDiscoveryInfo (d : Discovery) (bitset : Bitset) (infoHash : Hash)
    (x : ServiceDescription) :
    x ∈ (d.generateDiscoveryInfo bitset infoHash).userSubscribers.toList ↔
      x ∈ d.localState.userSubscribers.toList := by
  have hfit : d.localState.userSubscribers.toList.toFinset.card ≤ maxTopics :=
    Nat.le_trans (List.toFinset_card_le _) d.localState.userSubscribers.size_le
  exact CxxVector.mem_foldl_pushNew_empty hfit x

/-- The needed services fit or do not, whatever the order of the ports. -/
theorem Fits.of_samePorts (h : d.Fits) (hsame : d.localState.SamePorts new) :
    ({ d with localState := new } : Discovery).Fits := by
  have hmem := mem_neededServices_of_unchanged ((LocalState.unchanged_iff _ _).mpr hsame)
  have heq : ({ d with localState := new } : Discovery).neededServices.toFinset
      = d.neededServices.toFinset := by
    ext x
    rw [List.mem_toFinset, List.mem_toFinset]
    exact hmem x
  unfold Fits
  rw [heq]
  exact h

/-- **Nothing is missed by returning early.**  `readPortSubscriber` returns early exactly when the
new ports are the old ones up to order, and then the needed channels (if they fit) and the
announced subscribers are the same sets for the old and for the new local state. -/
theorem unchanged_return_sound (d : Discovery) (new : LocalState) :
    (d.localState.unchanged new = true ↔ d.localState.SamePorts new) ∧
      (∀ sample, LocalState.ofSample sample = new →
        ((d.readPorts sample).2 = none ↔ d.localState.SamePorts new)) ∧
      (d.localState.SamePorts new →
        (d.Fits → ∀ x, x ∈ ({ d with localState := new } : Discovery).updateNeededChannels.toList ↔
          x ∈ d.updateNeededChannels.toList) ∧
        ∀ bitset infoHash bitset' infoHash' x,
          x ∈ (({ d with localState := new } : Discovery).generateDiscoveryInfo bitset
              infoHash).userSubscribers.toList ↔
            x ∈ (d.generateDiscoveryInfo bitset' infoHash').userSubscribers.toList) := by
  have hiff := LocalState.unchanged_iff d.localState new
  refine ⟨hiff, fun sample hnew => ?_, fun hsame => ⟨fun hfits x => ?_, ?_⟩⟩
  · subst hnew
    rw [← hiff]
    unfold readPorts
    dsimp only
    split
    · rename_i hunchanged
      simp [hunchanged]
    · rename_i hchanged
      simp [hchanged]
  · rw [(updateNeededChannels_spec (hfits.of_samePorts hsame)).2,
      (updateNeededChannels_spec hfits).2]
    exact mem_neededServices_of_unchanged (hiff.mpr hsame) x
  · intro bitset infoHash bitset' infoHash' x
    rw [mem_generateDiscoveryInfo, mem_generateDiscoveryInfo]
    exact hsame.subscribers.mem_iff

/-- The same two subscribers in another order. -/
theorem unchanged_return_sound_demo :
    let d : Discovery := { Discovery.construct 1 .none with
      localState := demoSubscribers [demoService, demoOtherService] }
    let new := demoSubscribers [demoOtherService, demoService]
    d.localState ≠ new ∧ d.localState.unchanged new = true ∧
      ∀ x, x ∈ ({ d with localState := new } : Discovery).updateNeededChannels.toList ↔
        x ∈ d.updateNeededChannels.toList := by
  intro d new
  have hsame : d.localState.SamePorts new := by decide
  obtain ⟨hiff, -, hsound⟩ := unchanged_return_sound d new
  exact ⟨by decide, hiff.mpr hsame, (hsound hsame).1 (by decide)⟩

end Discovery

/-! ## The announced subscribers -/

namespace PortIntrospection

/-- The user subscribers of a sample, in its order. -/
def userSubscribers (sample : PortIntrospection) : List PortData :=
  sample.subscriberList.filter PortData.isUser

/-- The services of the user subscribers, with repetitions. -/
def subscribedServices (sample : PortIntrospection) : List ServiceDescription :=
  sample.userSubscribers.map PortData.service

/-- Every subscribed service is that of one of the first `MAX_TOPICS` user subscribers. -/
def SubscribersEarly (sample : PortIntrospection) : Prop :=
  ∀ p ∈ sample.userSubscribers, ∃ q ∈ sample.userSubscribers.take maxTopics, q.service = p.service

instance (sample : PortIntrospection) : Decidable sample.SubscribersEarly :=
  inferInstanceAs (Decidable (∀ p ∈ _, ∃ q ∈ _, _))

end PortIntrospection

/-- The discovery info announces each service of the list once, and nothing else. -/
structure PubSubInfo.Announces (info : PubSubInfo) (services : List ServiceDescription) : Prop where
  once : info.userSubscribers.toList.Nodup
  exactly : ∀ x, x ∈ info.userSubscribers.toList ↔ x ∈ services

/-- The subscribers that fit into the vector. -/
theorem LocalState.userSubscribers_ofSample (sample : PortIntrospection) :
    (ofSample (some sample)).userSubscribers.toList
      = (sample.userSubscribers.take maxTopics).map PortData.service := by
  unfold ofSample
  dsimp only
  rw [CxxVector.toList_pushAll_take, List.map_take]
  rfl

/-- After `readPortSubscriber` the local state is that of the sample, whether it returned early or
not. -/
theorem Channels.localState_readPortSubscriber {getClassHash : ServiceDescription → ClassHash}
    {s s' : State} {sample : Option PortIntrospection} {bitset : Bitset} {infoHash : Hash}
    (h : step getClassHash s (.readPortSubscriber sample bitset infoHash) = some s') :
    s'.discovery.localState = LocalState.ofSample sample := by
  obtain ⟨d, rfl, ⟨-, rfl⟩ | ⟨-, rfl⟩⟩ := step_readPortSubscriber h
  · rfl
  · exact (Discovery.sendIfChanged_frame _ bitset infoHash).1

/-- **When the announced subscribers are complete**: exactly when every subscribed service has a
port among the first `MAX_TOPICS` user subscribers of the sample. -/
theorem Channels.announced_subscribers_complete_iff
    (getClassHash : ServiceDescription → ClassHash) (s : State) (sample : PortIntrospection)
    (bitset bitset' : Bitset) (infoHash infoHash' : Hash) :
    ∃ s', step getClassHash s (.readPortSubscriber (some sample) bitset infoHash) = some s' ∧
      ((s'.discovery.generateDiscoveryInfo bitset' infoHash').Announces sample.subscribedServices ↔
        sample.SubscribersEarly) := by
  obtain ⟨s', hs'⟩ : ∃ s', step getClassHash s
      (.readPortSubscriber (some sample) bitset infoHash) = some s' := by
    simp only [step]
    split <;> exact ⟨_, rfl⟩
  refine ⟨s', hs', ?_⟩
  -- what is announced is what has been kept of the ports
  have hmem : ∀ x, x ∈ (s'.discovery.generateDiscoveryInfo bitset'
      infoHash').userSubscribers.toList ↔
      ∃ q ∈ sample.userSubscribers.take maxTopics, q.service = x := by
    intro x
    rw [Discovery.mem_generateDiscoveryInfo, localState_readPortSubscriber hs',
      LocalState.userSubscribers_ofSample, List.mem_map]
  constructor
  · intro hann p hp
    rw [← hmem, hann.exactly]
    exact List.mem_map_of_mem hp
  · intro hearly
    refine ⟨CxxVector.nodup_foldl_pushNew List.nodup_nil _, fun x => ?_⟩
    rw [hmem]
    constructor
    · rintro ⟨q, hq, rfl⟩
      exact List.mem_map_of_mem (List.mem_of_mem_take hq)
    · intro hx
      obtain ⟨p, hp, rfl⟩ := List.mem_map.mp hx
      exact hearly p hp

/-- `n` subscribers of one service, and then one of another. -/
def demoManySubscribers (n : Nat) : PortIntrospection where
  publisherList := []
  subscriberList := List.replicate n ⟨demoNode, demoService, 1⟩ ++ [⟨demoNode, demoOtherService, 2⟩]

/-- Two services are subscribed, one of them by `MAX_TOPICS` ports.  The other one is not
announced. -/
theorem Channels.subscriber_not_announced :
    (demoManySubscribers maxTopics).subscribedServices.toFinset.card ≤ maxTopics ∧
      demoOtherService ∈ (demoManySubscribers maxTopics).subscribedServices ∧
      ∃ s, step demoClassHash (State.init 1 .none)
          (.readPortSubscriber (some (demoManySubscribers maxTopics)) 4 0) = some s ∧
        (s.discovery.generateDiscoveryInfo 4 0).userSubscribers = demoServices ∧
        ¬ (s.discovery.generateDiscoveryInfo 4 0).Announces
          (demoManySubscribers maxTopics).subscribedServices := by
  have hother : demoOtherService ∈ (demoManySubscribers maxTopics).subscribedServices := by
    decide +kernel
  have hrun : (step demoClassHash (State.init 1 .none)
      (.readPortSubscriber (some (demoManySubscribers maxTopics)) 4 0)).map
      (fun s => (s.discovery.generateDiscoveryInfo 4 0).userSubscribers) = some demoServices := by
    decide +kernel
  obtain ⟨s, hs, hinfo⟩ := Option.map_eq_some_iff.mp hrun
  refine ⟨by decide +kernel, hother, s, hs, hinfo, fun h => ?_⟩
  have hmem := (h.exactly demoOtherService).mpr hother
  rw [hinfo] at hmem
  exact absurd hmem (by decide)

end P3com
