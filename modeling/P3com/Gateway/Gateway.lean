/-
# Channels: the endpoints of a gateway

`include/p3com/internal/gateway/gateway.inl`.  `Gateway<Endpoint>` keeps one endpoint (a publisher
in `Transport2Iceoryx`, a subscriber in `Iceoryx2Transport`) for every service that needs a
channel, under the class hash of the service.  An endpoint object is modelled by its identity and
its service description.

`updateChannels` makes the services that have an endpoint exactly the ones it is given
(`services_updateChannels`), provided that no two services among the old and the new ones share a
class hash: the services to set up are found by class hash, before anything is deleted.
-/
import P3com.Generic.Types

namespace P3com

/-- An endpoint object: its identity and `getServiceDescription()`. -/
structure Endpoint where
  id : Nat
  service : ServiceDescription
deriving DecidableEq

/-- `m_endpoints`. -/
abbrev Endpoints := VectorMap ClassHash Endpoint maxTopics

namespace Endpoints

section

variable (getClassHash : ServiceDescription → ClassHash)

/-- The first loop of `updateChannelsInternal`: the endpoints whose service is not listed. -/
def servicesToDelete (m : Endpoints) (services : ServiceVector) : ServiceVector :=
  CxxVector.empty.pushAll
    ((m.elems.map Endpoint.service).filter fun service => !services.containsElement service)

/-- The second loop: the listed services without an endpoint, looked up by class hash. -/
def servicesToSetup (m : Endpoints) (services : ServiceVector) : ServiceVector :=
  CxxVector.empty.pushAll
    (services.toList.filter fun service => (m.find (getClassHash service)).isNone)

/-- `addChannel`: a full table is only logged. -/
def addChannel (m : Endpoints) (id : Nat) (service : ServiceDescription) : Endpoints :=
  (m.emplace (getClassHash service) ⟨id, service⟩).getD m

/-- `discardChannel`, and the endpoint it discards. -/
def discardChannel (m : Endpoints) (service : ServiceDescription) : Option Endpoint × Endpoints :=
  match m.findElem (getClassHash service) with
  | none => (none, m)
  | some (i, e) => (some e, m.erase i)

/-- `doForChannel`: the endpoint that the function is called on. -/
def doForChannel (m : Endpoints) (hash : ClassHash) : Option Endpoint :=
  (m.findElem hash).map Prod.snd

/-- `updateChannelsInternal`, with the identities of the new endpoints counted from `next`. -/
def updateChannels (m : Endpoints) (next : Nat) (services : ServiceVector) : Endpoints × Nat :=
  let toDelete := m.servicesToDelete services
  let toSetup := m.servicesToSetup getClassHash services
  let m := toDelete.toList.foldl (fun m service => (m.discardChannel getClassHash service).2) m
  toSetup.toList.foldl (fun (m, next) service => (m.addChannel getClassHash next service, next + 1))
    (m, next)

/-- The services that have an endpoint. -/
def services (m : Endpoints) : List ServiceDescription := m.elems.map Endpoint.service

/-- Every endpoint is kept under the class hash of its service, and under no other. -/
structure Keyed (m : Endpoints) : Prop where
  nodup : m.keys.Nodup
  key : ∀ k e, (k, e) ∈ m.entries → k = getClassHash e.service

end

/-! ## What `updateChannels` does -/

variable {getClassHash : ServiceDescription → ClassHash} {m m' : Endpoints}
  {service : ServiceDescription} {L : List ServiceDescription}

theorem mem_services : service ∈ m.services ↔ ∃ k e, (k, e) ∈ m.entries ∧ e.service = service := by
  unfold services
  rw [VectorMap.elems_eq]
  simp

theorem keyed_empty : Keyed getClassHash (VectorMap.empty : Endpoints) where
  nodup := List.nodup_nil
  key := by
    intro k e h
    cases h

theorem length_services (m : Endpoints) : m.services.length = m.size := by
  simp [services, VectorMap.size]

theorem Keyed.keys_eq (h : Keyed getClassHash m) : m.keys = m.services.map getClassHash := by
  rw [VectorMap.keys_eq, services, VectorMap.elems_eq, List.map_map, List.map_map]
  apply List.map_congr_left
  rintro ⟨k, e⟩ hmem
  exact h.key k e hmem

theorem Keyed.nodup_services (h : Keyed getClassHash m) : m.services.Nodup := by
  have := h.nodup
  rw [h.keys_eq] at this
  exact this.of_map

/-- A service whose class hash is taken has an endpoint, unless another service has its hash. -/
theorem Keyed.mem_services_of_mem_keys (h : Keyed getClassHash m)
    (hinj : ∀ x ∈ m.services, getClassHash x = getClassHash service → x = service)
    (hk : getClassHash service ∈ m.keys) : service ∈ m.services := by
  rw [h.keys_eq] at hk
  obtain ⟨x, hx, hxs⟩ := List.mem_map.mp hk
  rwa [hinj x hx hxs] at hx

theorem Keyed.discardChannel (h : Keyed getClassHash m)
    (hinj : ∀ x ∈ m.services, getClassHash x = getClassHash service → x = service) :
    Keyed getClassHash (m.discardChannel getClassHash service).2 ∧
      ∀ x, x ∈ (m.discardChannel getClassHash service).2.services ↔
        x ∈ m.services ∧ x ≠ service := by
  unfold Endpoints.discardChannel
  split
  · -- no endpoint under the hash, so none with the service
    rename_i hnone
    refine ⟨h, fun x => ⟨fun hx => ⟨hx, ?_⟩, And.left⟩⟩
    rintro rfl
    refine VectorMap.findElem_eq_none.mp hnone ?_
    rw [h.keys_eq]
    exact List.mem_map_of_mem hx
  · rename_i i e hsome
    have hi := VectorMap.findElem_eq_some hsome
    refine ⟨⟨VectorMap.nodup_keys_erase h.nodup i, fun k e hmem => ?_⟩, fun x => ?_⟩
    · exact h.key k e (VectorMap.mem_entries_of_mem_erase hmem)
    · rw [mem_services, mem_services]
      constructor
      · rintro ⟨k, e', hmem, rfl⟩
        have hmem' := VectorMap.mem_entries_of_mem_erase hmem
        refine ⟨⟨k, e', hmem', rfl⟩, fun heq => ?_⟩
        refine VectorMap.ne_of_mem_erase h.nodup hi hmem ?_
        rw [h.key k e' hmem', heq]
      · rintro ⟨⟨k, e', hmem, rfl⟩, hne⟩
        refine ⟨k, e', VectorMap.mem_erase_of_ne hi hmem fun hk => hne ?_, rfl⟩
        refine hinj _ (mem_services.mpr ⟨k, e', hmem, rfl⟩) ?_
        rw [← h.key k e' hmem, hk]

/-- Discarding one channel after another. -/
theorem Keyed.discardChannels (h : Keyed getClassHash m)
    (hinj : ∀ x ∈ m.services, ∀ y ∈ L, getClassHash x = getClassHash y → x = y) :
    Keyed getClassHash (L.foldl (fun m y => (m.discardChannel getClassHash y).2) m) ∧
      ∀ x, x ∈ (L.foldl (fun m y => (m.discardChannel getClassHash y).2) m).services ↔
        x ∈ m.services ∧ x ∉ L := by
  induction L generalizing m with
  | nil => exact ⟨h, by simp⟩
  | cons y L ih =>
    obtain ⟨h', hmem⟩ := h.discardChannel fun x hx => hinj x hx y List.mem_cons_self
    obtain ⟨h'', hmem'⟩ := ih h' fun x hx z hz =>
      hinj x ((hmem x).mp hx).1 z (List.mem_cons_of_mem y hz)
    refine ⟨h'', fun x => ?_⟩
    rw [List.foldl_cons, hmem', hmem, List.mem_cons, not_or, and_assoc]

theorem Keyed.addChannel (h : Keyed getClassHash m) (id : Nat)
    (hk : getClassHash service ∉ m.keys) (hsize : m.size < maxTopics) :
    Keyed getClassHash (m.addChannel getClassHash id service) ∧
      (m.addChannel getClassHash id service).services = m.services ++ [service] := by
  obtain ⟨m', hm'⟩ := VectorMap.emplace_isSome hsize (getClassHash service) ⟨id, service⟩
  unfold Endpoints.addChannel
  rw [hm', Option.getD_some]
  refine ⟨⟨VectorMap.nodup_keys_emplace h.nodup hk hm', fun k e hmem => ?_⟩, ?_⟩
  · rw [VectorMap.entries_emplace hm', List.mem_append, List.mem_singleton] at hmem
    rcases hmem with hmem | heq
    · exact h.key k e hmem
    · obtain ⟨rfl, rfl⟩ := Prod.mk.inj heq
      rfl
  · unfold services
    rw [VectorMap.elems_eq, VectorMap.elems_eq, VectorMap.entries_emplace hm']
    simp

/-- Adding one channel after another. -/
theorem Keyed.addChannels (h : Keyed getClassHash m) (next : Nat)
    (hn : (m.services ++ L).map getClassHash |>.Nodup) (hsize : m.size + L.length ≤ maxTopics) :
    Keyed getClassHash (L.foldl (fun (m, next) y =>
        (m.addChannel getClassHash next y, next + 1)) (m, next)).1 ∧
      (L.foldl (fun (m, next) y =>
        (m.addChannel getClassHash next y, next + 1)) (m, next)).1.services = m.services ++ L := by
  induction L generalizing m next with
  | nil => exact ⟨h, by simp⟩
  | cons y L ih =>
    rw [List.length_cons] at hsize
    have hy : getClassHash y ∉ m.keys := by
      rw [h.keys_eq]
      rw [List.map_append] at hn
      exact fun hmem => (List.nodup_append.mp hn).2.2 _ hmem _ List.mem_cons_self rfl
    obtain ⟨h', hs⟩ := h.addChannel next hy (by omega)
    have hlen : (m.addChannel getClassHash next y).size = m.size + 1 := by
      rw [← length_services, hs, List.length_append, length_services, List.length_singleton]
    have := ih (m := m.addChannel getClassHash next y) h' (next + 1)
      (by rw [hs, List.append_assoc]; exact hn) (by omega)
    rw [hs, List.append_assoc] at this
    exact this

theorem toList_servicesToDelete (m : Endpoints) (services : ServiceVector) :
    (m.servicesToDelete services).toList
      = m.services.filter fun service => !services.containsElement service := by
  unfold servicesToDelete
  rw [CxxVector.toList_pushAll, CxxVector.toList_empty, List.nil_append]
  · rfl
  · have := List.length_filter_le (fun service => !services.containsElement service) m.services
    have := m.size_le_cap
    rw [length_services] at *
    simp only [CxxVector.size, CxxVector.toList_empty, List.length_nil]
    unfold Endpoints.services at *
    omega

theorem toList_servicesToSetup (getClassHash : ServiceDescription → ClassHash) (m : Endpoints)
    (services : ServiceVector) :
    (m.servicesToSetup getClassHash services).toList
      = services.toList.filter fun service => (m.find (getClassHash service)).isNone := by
  unfold servicesToSetup
  rw [CxxVector.toList_pushAll, CxxVector.toList_empty, List.nil_append]
  have := List.length_filter_le (fun service => (m.find (getClassHash service)).isNone)
    services.toList
  have := services.size_le
  simp only [CxxVector.size, CxxVector.toList_empty, List.length_nil]
  omega

/-- No two services of the list share a class hash. -/
def HashesDistinct (getClassHash : ServiceDescription → ClassHash)
    (services : List ServiceDescription) : Prop :=
  ∀ x ∈ services, ∀ y ∈ services, getClassHash x = getClassHash y → x = y

instance (services : List ServiceDescription) :
    Decidable (HashesDistinct getClassHash services) :=
  inferInstanceAs (Decidable (∀ x ∈ services, ∀ y ∈ services, _ → _))

/-- **`updateChannels` reaches its target.**  The services with an endpoint are the given ones. -/
theorem services_updateChannels (h : Keyed getClassHash m) (next : Nat) {services : ServiceVector}
    (hn : services.toList.Nodup)
    (hd : HashesDistinct getClassHash (m.services ++ services.toList)) :
    Keyed getClassHash (m.updateChannels getClassHash next services).1 ∧
      ∀ x, x ∈ (m.updateChannels getClassHash next services).1.services ↔ x ∈ services.toList := by
  have hl : ∀ x, x ∈ m.services → x ∈ m.services ++ services.toList :=
    fun x => List.mem_append_left _
  have hr : ∀ x, x ∈ services.toList → x ∈ m.services ++ services.toList :=
    fun x => List.mem_append_right _
  have hdel := toList_servicesToDelete m services
  have hset := toList_servicesToSetup getClassHash m services
  unfold updateChannels
  dsimp only
  rw [hset, hdel]
  generalize hD : m.services.filter (fun service => !services.containsElement service) = D
  generalize hS : services.toList.filter
    (fun service => (m.find (getClassHash service)).isNone) = S
  have hmemD : ∀ x, x ∈ D ↔ x ∈ m.services ∧ x ∉ services.toList := by
    intro x
    rw [← hD, List.mem_filter]
    simp [CxxVector.containsElement]
  have hmemS : ∀ x, x ∈ S ↔ x ∈ services.toList ∧ getClassHash x ∉ m.keys := by
    intro x
    rw [← hS, List.mem_filter]
    simp [VectorMap.find]
  obtain ⟨h₁, hmem₁⟩ := h.discardChannels (L := D) fun x hx y hy =>
    hd x (hl x hx) y (hl y ((hmemD y).mp hy).1)
  generalize D.foldl (fun m y => (m.discardChannel getClassHash y).2) m = m₁ at h₁ hmem₁ ⊢
  -- what is left after the deletions and what is to be set up are distinct listed services
  have hleft : ∀ x, x ∈ m₁.services ↔ x ∈ m.services ∧ x ∈ services.toList := by
    intro x
    rw [hmem₁, hmemD]
    tauto
  have hdisj : ∀ x ∈ m₁.services, x ∉ S := by
    intro x hx hxS
    refine ((hmemS x).mp hxS).2 ?_
    rw [h.keys_eq]
    exact List.mem_map_of_mem ((hleft x).mp hx).1
  have hsub : ∀ x ∈ m₁.services ++ S, x ∈ services.toList := by
    intro x hx
    rcases List.mem_append.mp hx with hx | hx
    · exact ((hleft x).mp hx).2
    · exact ((hmemS x).mp hx).1
  have hnodup : (m₁.services ++ S).Nodup := by
    refine List.nodup_append.mpr ⟨h₁.nodup_services, hS ▸ hn.filter _, fun x hx y hy heq => ?_⟩
    exact hdisj x hx (heq ▸ hy)
  have hlen : m₁.size + S.length ≤ maxTopics := by
    have := (List.subperm_of_subset hnodup hsub).length_le
    have := services.size_le
    rw [List.length_append, length_services] at *
    omega
  have hhash : ((m₁.services ++ S).map getClassHash).Nodup :=
    hnodup.map_on fun x hx y hy => hd x (hr x (hsub x hx)) y (hr y (hsub y hy))
  obtain ⟨h₂, hs₂⟩ := h₁.addChannels next hhash hlen
  refine ⟨h₂, fun x => ?_⟩
  rw [hs₂]
  refine ⟨hsub x, fun hx => List.mem_append.mpr ?_⟩
  by_cases hk : getClassHash x ∈ m.keys
  · left
    refine (hleft x).mpr ⟨h.mem_services_of_mem_keys (fun y hy => ?_) hk, hx⟩
    exact hd y (hl y hy) x (hr x hx)
  · exact Or.inr ((hmemS x).mpr ⟨hx, hk⟩)

end Endpoints

end P3com
