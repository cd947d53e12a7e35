/-
# What `updateChannels` does on the way

`services_updateChannels` says which services have an endpoint after `updateChannelsInternal`.
Here the calls are looked at one by one: which endpoints are deleted and which are set up, in which
order, and whether the table ever refuses one.  `Updating` is the state of a call, with the calls of
`setupFn` and `deleteFn` that have had an effect, or failed to have one, as events.

The two first loops test the presence of a service in two ways, by its description and by its class
hash, and the deletions shift both vectors of the table between two lookups.  Neither matters when
the table is keyed by the hashes and no two hashes collide: `events_update` gives the events as two
lists, first the old endpoints that are not listed, then the listed services without an endpoint.
The deletions come first, so the table has room for every endpoint to be set up.

`Transport2Iceoryx` keeps the port ids of its publishers in `m_gatewayPublisherUids`, one
`push_back` for each set-up and one `deleteElement` for each deletion.
-/
import P3com.Gateway.Gateway

namespace P3com.Endpoints

/-! ## The calls -/

/-- What a call of `setupFn` or `deleteFn` did. -/
inductive Event
  | setup (e : Endpoint)
  | delete (e : Endpoint)
  /-- `addChannel`: could not add the channel. -/
  | notAdded (service : ServiceDescription)
  /-- `discardChannel`: could not find the channel. -/
  | notDiscarded (service : ServiceDescription)
deriving DecidableEq

/-- The table, the identity of the next endpoint, and the events so far. -/
structure Updating where
  endpoints : Endpoints
  next : Nat
  events : List Event
deriving DecidableEq

section

variable (getClassHash : ServiceDescription → ClassHash)

/-- `deleteFn`. -/
def Updating.deleteFn (u : Updating) (service : ServiceDescription) : Updating :=
  match u.endpoints.findElem (getClassHash service) with
  | none => { u with events := u.events ++ [.notDiscarded service] }
  | some (i, e) =>
    { u with endpoints := u.endpoints.erase i, events := u.events ++ [.delete e] }

/-- `setupFn`. -/
def Updating.setupFn (u : Updating) (service : ServiceDescription) : Updating :=
  match u.endpoints.emplace (getClassHash service) ⟨u.next, service⟩ with
  | none => { u with next := u.next + 1, events := u.events ++ [.notAdded service] }
  | some m => ⟨m, u.next + 1, u.events ++ [.setup ⟨u.next, service⟩]⟩

/-- `updateChannelsInternal`, with its events. -/
def update (m : Endpoints) (next : Nat) (services : ServiceVector) : Updating :=
  (m.servicesToSetup getClassHash services).toList.foldl (Updating.setupFn getClassHash)
    ((m.servicesToDelete services).toList.foldl (Updating.deleteFn getClassHash) ⟨m, next, []⟩)

end

/-- The endpoints that are made for the services, in this order. -/
def created (next : Nat) : List ServiceDescription → List Endpoint
  | [] => []
  | service :: services => ⟨next, service⟩ :: created (next + 1) services

variable {getClassHash : ServiceDescription → ClassHash} {m : Endpoints} {next : Nat}
  {services : ServiceVector} {u : Updating}

/-- Without its events the call is `updateChannels`. -/
theorem update_eq (getClassHash : ServiceDescription → ClassHash) (m : Endpoints) (next : Nat)
    (services : ServiceVector) :
    ((m.update getClassHash next services).endpoints, (m.update getClassHash next services).next)
      = m.updateChannels getClassHash next services := by
  have hdelete : ∀ (L : List ServiceDescription) (u : Updating),
      (L.foldl (Updating.deleteFn getClassHash) u).endpoints
        = L.foldl (fun m service => (m.discardChannel getClassHash service).2) u.endpoints ∧
      (L.foldl (Updating.deleteFn getClassHash) u).next = u.next := by
    intro L
    induction L with
    | nil => exact fun u => ⟨rfl, rfl⟩
    | cons service L ih =>
      intro u
      have hone : (u.deleteFn getClassHash service).endpoints
          = (u.endpoints.discardChannel getClassHash service).2 ∧
          (u.deleteFn getClassHash service).next = u.next := by
        unfold Updating.deleteFn discardChannel
        cases u.endpoints.findElem (getClassHash service) <;> exact ⟨rfl, rfl⟩
      rw [List.foldl_cons, List.foldl_cons, (ih _).1, (ih _).2, hone.1]
      exact ⟨rfl, hone.2⟩
  have hsetup : ∀ (L : List ServiceDescription) (u : Updating),
      ((L.foldl (Updating.setupFn getClassHash) u).endpoints,
        (L.foldl (Updating.setupFn getClassHash) u).next)
        = L.foldl (fun p service => (p.1.addChannel getClassHash p.2 service, p.2 + 1))
          (u.endpoints, u.next) := by
    intro L
    induction L with
    | nil => exact fun u => rfl
    | cons service L ih =>
      intro u
      have hone : ((u.setupFn getClassHash service).endpoints,
          (u.setupFn getClassHash service).next)
          = (u.endpoints.addChannel getClassHash u.next service, u.next + 1) := by
        unfold Updating.setupFn addChannel
        cases u.endpoints.emplace (getClassHash service) ⟨u.next, service⟩ <;> rfl
      rw [List.foldl_cons, List.foldl_cons, ih, hone]
  unfold update updateChannels
  rw [hsetup, (hdelete _ _).1, (hdelete _ _).2]

/-! ## The deletions -/

theorem Keyed.nodup_elems (h : Keyed getClassHash m) : m.elems.Nodup := h.nodup_services.of_map

/-- The table without the endpoint at an index. -/
theorem elems_erase (hn : m.elems.Nodup) {i : Nat} {e : Endpoint} (h : m.elems[i]? = some e) :
    (m.erase i).elems = m.elems.filter (· ≠ e) := by
  obtain ⟨hlt, rfl⟩ := List.getElem?_eq_some_iff.mp h
  calc (m.erase i).elems = m.elems.eraseIdx i := rfl
    _ = m.elems.erase m.elems[i] := (hn.erase_getElem i hlt).symm
    _ = m.elems.filter (· ≠ m.elems[i]) := by
      rw [hn.erase_eq_filter]
      exact List.filter_congr fun x _ => by simp [bne, beq_eq_decide]

/-- The endpoint that `deleteFn` finds. -/
theorem deleteFn_eq (h : Keyed getClassHash u.endpoints) {e : Endpoint}
    (he : e ∈ u.endpoints.elems) :
    Keyed getClassHash (u.deleteFn getClassHash e.service).endpoints ∧
      (u.deleteFn getClassHash e.service).endpoints.elems = u.endpoints.elems.filter (· ≠ e) ∧
      (u.deleteFn getClassHash e.service).next = u.next ∧
      (u.deleteFn getClassHash e.service).events = u.events ++ [.delete e] := by
  obtain ⟨k, hk⟩ : ∃ k, (k, e) ∈ u.endpoints.entries := by
    rw [VectorMap.elems_eq] at he
    obtain ⟨⟨k, e'⟩, hmem, rfl⟩ := List.mem_map.mp he
    exact ⟨k, hmem⟩
  obtain rfl := h.key k e hk
  obtain ⟨i, hi⟩ := VectorMap.findElem_of_mem h.nodup hk
  have hidx := (VectorMap.getElem?_entries.mp (VectorMap.findElem_eq_some hi)).2
  unfold Updating.deleteFn
  rw [hi]
  refine ⟨⟨VectorMap.nodup_keys_erase h.nodup i, fun k e hmem => ?_⟩,
    elems_erase h.nodup_elems hidx, rfl, rfl⟩
  exact h.key k e (VectorMap.mem_entries_of_mem_erase hmem)

/-- One deletion after another. -/
theorem deleteFn_all (h : Keyed getClassHash u.endpoints) {old : List Endpoint}
    (hn : old.Nodup) (hold : ∀ e ∈ old, e ∈ u.endpoints.elems) :
    Keyed getClassHash
        ((old.map Endpoint.service).foldl (Updating.deleteFn getClassHash) u).endpoints ∧
      ((old.map Endpoint.service).foldl (Updating.deleteFn getClassHash) u).endpoints.elems
        = u.endpoints.elems.filter (· ∉ old) ∧
      ((old.map Endpoint.service).foldl (Updating.deleteFn getClassHash) u).next = u.next ∧
      ((old.map Endpoint.service).foldl (Updating.deleteFn getClassHash) u).events
        = u.events ++ old.map Event.delete := by
  induction old generalizing u with
  | nil => exact ⟨h, by simp, rfl, by simp⟩
  | cons e old ih =>
    obtain ⟨hk, helems, hnext, hevents⟩ := deleteFn_eq h (hold e List.mem_cons_self)
    obtain ⟨henew, hn⟩ := List.nodup_cons.mp hn
    have hleft : ∀ e' ∈ old, e' ∈ (u.deleteFn getClassHash e.service).endpoints.elems := by
      intro e' he'
      rw [helems, List.mem_filter]
      refine ⟨hold e' (List.mem_cons_of_mem _ he'), decide_eq_true ?_⟩
      rintro rfl
      exact henew he'
    obtain ⟨hk', helems', hnext', hevents'⟩ := ih hk hn hleft
    rw [List.map_cons, List.foldl_cons]
    refine ⟨hk', ?_, hnext'.trans hnext, ?_⟩
    · rw [helems', helems, List.filter_filter]
      refine List.filter_congr fun x _ => ?_
      simp only [List.mem_cons, not_or]
      rw [Bool.decide_and, Bool.and_comm]
    · rw [hevents', hevents, List.map_cons, List.append_assoc, List.singleton_append]

/-! ## The set-ups -/

/-- One set-up after another, in a table with room for all of them. -/
theorem setupFn_all (getClassHash : ServiceDescription → ClassHash) (L : List ServiceDescription)
    (hsize : u.endpoints.size + L.length ≤ maxTopics) :
    (L.foldl (Updating.setupFn getClassHash) u).endpoints.elems
        = u.endpoints.elems ++ created u.next L ∧
      (L.foldl (Updating.setupFn getClassHash) u).events
        = u.events ++ (created u.next L).map Event.setup := by
  induction L generalizing u with
  | nil => exact ⟨by simp [created], by simp [created]⟩
  | cons service L ih =>
    rw [List.length_cons] at hsize
    obtain ⟨m, hm⟩ := VectorMap.emplace_isSome (m := u.endpoints) (by omega)
      (getClassHash service) (⟨u.next, service⟩ : Endpoint)
    have hone : u.setupFn getClassHash service
        = ⟨m, u.next + 1, u.events ++ [.setup ⟨u.next, service⟩]⟩ := by
      unfold Updating.setupFn
      rw [hm]
    have helems : m.elems = u.endpoints.elems ++ [⟨u.next, service⟩] := by
      rw [VectorMap.elems_eq, VectorMap.elems_eq, VectorMap.entries_emplace hm]
      simp
    have hsize' : m.size + L.length ≤ maxTopics := by
      unfold VectorMap.size at hsize ⊢
      rw [helems, List.length_append, List.length_singleton]
      omega
    obtain ⟨h₁, h₂⟩ := ih (u := u.setupFn getClassHash service) (by rw [hone]; exact hsize')
    rw [List.foldl_cons, h₁, h₂, hone]
    simp [created, helems]

/-! ## The whole call -/

section Parts

variable (m : Endpoints) (next : Nat) (services : ServiceVector)

/-- The old endpoints whose service is not listed. -/
def dropped : List Endpoint := m.elems.filter fun e => e.service ∉ services.toList

/-- The old endpoints whose service is listed. -/
def kept : List Endpoint := m.elems.filter fun e => e.service ∈ services.toList

/-- The endpoints for the listed services that have none. -/
def added : List Endpoint :=
  created next (services.toList.filter fun service => service ∉ m.services)

end Parts

theorem map_service_created (next : Nat) (L : List ServiceDescription) :
    (created next L).map Endpoint.service = L := by
  induction L generalizing next with
  | nil => rfl
  | cons service L ih => simp [created, ih]

/-- The class hash of a listed service is found if and only if the service has an endpoint. -/
theorem find_isNone_iff (h : Keyed getClassHash m)
    (hd : HashesDistinct getClassHash (m.services ++ services.toList)) {service : ServiceDescription}
    (hs : service ∈ services.toList) :
    (m.find (getClassHash service)).isNone = true ↔ service ∉ m.services := by
  have hkeys : (m.find (getClassHash service)).isNone = true ↔ getClassHash service ∉ m.keys := by
    simp [VectorMap.find]
  rw [hkeys]
  refine not_congr ⟨fun hk => ?_, fun hmem => ?_⟩
  · refine h.mem_services_of_mem_keys (fun x hx => ?_) hk
    exact hd x (List.mem_append_left _ hx) service (List.mem_append_right _ hs)
  · rw [h.keys_eq]
    exact List.mem_map_of_mem hmem

/-- The services of the table after the call, without repetition. -/
theorem nodup_kept_added (h : Keyed getClassHash m) (next : Nat) (hn : services.toList.Nodup) :
    ((kept m services ++ added m next services).map Endpoint.service).Nodup := by
  rw [List.map_append, added, map_service_created]
  refine List.nodup_append.mpr ⟨?_, hn.filter _, fun x hx y hy heq => ?_⟩
  · exact h.nodup_services.sublist (List.filter_sublist.map _)
  · subst heq
    obtain ⟨e, he, rfl⟩ := List.mem_map.mp hx
    have hnot := of_decide_eq_true (List.mem_filter.mp hy).2
    exact hnot (List.mem_map_of_mem (List.mem_filter.mp he).1)

theorem mem_kept_added {x : ServiceDescription} :
    x ∈ (kept m services ++ added m next services).map Endpoint.service ↔ x ∈ services.toList := by
  rw [List.map_append, added, map_service_created, List.mem_append, List.mem_filter]
  constructor
  · rintro (hx | hx)
    · obtain ⟨e, he, rfl⟩ := List.mem_map.mp hx
      exact of_decide_eq_true (List.mem_filter.mp he).2
    · exact hx.1
  · intro hx
    by_cases hm : x ∈ m.services
    · obtain ⟨e, he, rfl⟩ := List.mem_map.mp hm
      exact Or.inl (List.mem_map_of_mem (List.mem_filter.mpr ⟨he, decide_eq_true hx⟩))
    · exact Or.inr ⟨hx, decide_eq_true hm⟩

theorem servicesToDelete_eq (m : Endpoints) (services : ServiceVector) :
    (m.servicesToDelete services).toList = (dropped m services).map Endpoint.service := by
  rw [toList_servicesToDelete, Endpoints.services, List.filter_map]
  congr 1
  exact List.filter_congr fun e _ => by simp [CxxVector.containsElement]

theorem servicesToSetup_eq (h : Keyed getClassHash m)
    (hd : HashesDistinct getClassHash (m.services ++ services.toList)) :
    (m.servicesToSetup getClassHash services).toList
      = services.toList.filter fun service => service ∉ m.services := by
  rw [toList_servicesToSetup]
  refine List.filter_congr fun service hs => ?_
  rw [Bool.eq_iff_iff, find_isNone_iff h hd hs, decide_eq_true_iff]

/-- The table has room for every endpoint. -/
theorem length_kept_added (h : Keyed getClassHash m) (next : Nat) (hn : services.toList.Nodup) :
    (kept m services ++ added m next services).length ≤ maxTopics := by
  have hle := (List.subperm_of_subset (nodup_kept_added h next hn)
    fun x hx => mem_kept_added.mp hx).length_le
  rw [List.length_map] at hle
  exact Nat.le_trans hle services.size_le

/-- **The table and the events of a call.** -/
theorem events_update (h : Keyed getClassHash m) (next : Nat) (hn : services.toList.Nodup)
    (hd : HashesDistinct getClassHash (m.services ++ services.toList)) :
    (m.update getClassHash next services).endpoints.elems
        = kept m services ++ added m next services ∧
      (m.update getClassHash next services).events
        = (dropped m services).map Event.delete ++ (added m next services).map Event.setup := by
  obtain ⟨hk, helems, hnext, hevents⟩ := deleteFn_all (u := ⟨m, next, []⟩) h
    (show (dropped m services).Nodup from h.nodup_elems.filter _)
    fun e he => (List.mem_filter.mp he).1
  unfold update
  rw [servicesToDelete_eq, servicesToSetup_eq h hd]
  generalize ((dropped m services).map Endpoint.service).foldl (Updating.deleteFn getClassHash)
    ⟨m, next, []⟩ = u at *
  -- what is left is what is listed
  have hkept : u.endpoints.elems = kept m services := by
    rw [helems]
    refine List.filter_congr fun e he => ?_
    simp [dropped, he]
  have hsize : u.endpoints.size
      + (services.toList.filter fun service => service ∉ m.services).length ≤ maxTopics := by
    have hle := length_kept_added h next hn
    have hlen := congrArg List.length (map_service_created next
      (services.toList.filter fun service => service ∉ m.services))
    rw [List.length_map] at hlen
    rw [List.length_append, added, hlen] at hle
    unfold VectorMap.size
    rw [hkept]
    exact hle
  obtain ⟨h₁, h₂⟩ := setupFn_all getClassHash _ hsize
  rw [h₁, h₂, hnext, hkept, hevents]
  exact ⟨rfl, rfl⟩

/-! ## The port ids of the publishers -/

/-- What an event does to `m_gatewayPublisherUids`: `addGatewayPublisher` and
`discardGatewayPublisher`. -/
def updateUids {maxPublishers : Nat} (uid : Endpoint → UInt64)
    (uids : CxxVector UInt64 maxPublishers) : Event → CxxVector UInt64 maxPublishers
  | .setup e => uids.pushBack (uid e)
  | .delete e => uids.deleteElement (uid e)
  | .notAdded _ => uids
  | .notDiscarded _ => uids

/-- iceoryx gives every publisher a port id of its own. -/
def UniquePorts (uid : Endpoint → UInt64) (L : List Endpoint) : Prop :=
  ∀ e ∈ L, ∀ e' ∈ L, uid e = uid e' → e = e'

variable {maxPublishers : Nat} {uid : Endpoint → UInt64} {uids : CxxVector UInt64 maxPublishers}

theorem UniquePorts.nodup_map {L L' : List Endpoint} (h : UniquePorts uid L)
    (hsub : ∀ e ∈ L', e ∈ L) (hn : L'.Nodup) : (L'.map uid).Nodup :=
  hn.map_on fun e he e' he' => h e (hsub e he) e' (hsub e' he')

theorem uids_delete_all {L old : List Endpoint} (hL : L.Nodup) (hunique : UniquePorts uid L)
    (hold : ∀ e ∈ old, e ∈ L) (hn : old.Nodup) (hu : uids.toList = L.map uid) :
    ((old.map Event.delete).foldl (updateUids uid) uids).toList
      = (L.filter (· ∉ old)).map uid := by
  induction old generalizing uids L with
  | nil => simpa using hu
  | cons e old ih =>
    obtain ⟨henew, hn⟩ := List.nodup_cons.mp hn
    have he := hold e List.mem_cons_self
    -- the id of `e` occurs once, where `e` does
    have hone : (uids.deleteElement (uid e)).toList = (L.filter (· ≠ e)).map uid := by
      rw [CxxVector.toList_deleteElement, hu,
        (hunique.nodup_map (fun _ => id) hL).erase_eq_filter, List.filter_map]
      congr 1
      refine List.filter_congr fun e' he' => ?_
      have hiff : uid e' = uid e ↔ e' = e := ⟨hunique e' he' e he, fun h => h ▸ rfl⟩
      simp [bne, beq_eq_decide, hiff]
    have hsub : ∀ e' ∈ L.filter (· ≠ e), e' ∈ L := fun e' he' => (List.mem_filter.mp he').1
    rw [List.map_cons, List.foldl_cons]
    have hrest := ih (L := L.filter (· ≠ e)) (hL.filter _)
      (fun x hx y hy => hunique x (hsub x hx) y (hsub y hy)) (fun e' he' => ?_) hn hone
    · refine hrest.trans ?_
      rw [List.filter_filter]
      congr 1
      refine List.filter_congr fun x _ => ?_
      simp only [List.mem_cons, not_or]
      rw [Bool.decide_and, Bool.and_comm]
    · refine List.mem_filter.mpr ⟨hold e' (List.mem_cons_of_mem _ he'), decide_eq_true ?_⟩
      rintro rfl
      exact henew he'

theorem uids_setup_all (new : List Endpoint) :
    (new.map Event.setup).foldl (updateUids uid) uids = uids.pushAll (new.map uid) := by
  unfold CxxVector.pushAll
  rw [List.foldl_map, List.foldl_map]
  rfl

/-! ## The account of a call -/

def Event.service : Event → ServiceDescription
  | .setup e => e.service
  | .delete e => e.service
  | .notAdded service => service
  | .notDiscarded service => service

/-- What `updateChannelsInternal` is to do with the table `m`. -/
structure Reconciled (getClassHash : ServiceDescription → ClassHash) (m : Endpoints)
    (services : ServiceVector) (u : Updating) : Prop where
  keyed : Keyed getClassHash u.endpoints
  /-- One endpoint for each listed service, and no other. -/
  one : ∀ service, u.endpoints.services.count service = if service ∈ services.toList then 1 else 0
  /-- An endpoint whose service is listed is still there, and nothing happened to it. -/
  kept : ∀ e ∈ m.elems, e.service ∈ services.toList →
    e ∈ u.endpoints.elems ∧ u.events.filter (fun ev => ev.service = e.service) = []
  /-- Any other endpoint was deleted, once. -/
  deleted : ∀ e ∈ m.elems, e.service ∉ services.toList →
    e ∉ u.endpoints.elems ∧ u.events.filter (fun ev => ev.service = e.service) = [.delete e]
  /-- A listed service without an endpoint was set up, once. -/
  setUp : ∀ service ∈ services.toList, service ∉ m.services → ∃ e ∈ u.endpoints.elems,
    e.service = service ∧ u.events.filter (fun ev => ev.service = service) = [.setup e]
  /-- No other service had anything done to it, and nothing was refused or missing. -/
  noOther : ∀ ev ∈ u.events, (∃ e, ev = .setup e ∧ e ∈ u.endpoints.elems) ∨
    ∃ e, ev = .delete e ∧ e ∈ m.elems
  /-- A second call with the list does nothing. -/
  again : u.endpoints.update getClassHash u.next services = ⟨u.endpoints, u.next, []⟩

/-- The one element of a list with this service. -/
theorem filter_service_eq {α : Type} [DecidableEq α] {f : α → ServiceDescription} {L : List α}
    (hn : (L.map f).Nodup) {a : α} (ha : a ∈ L) : L.filter (fun x => f x = f a) = [a] := by
  have hcongr : L.filter (fun x => f x = f a) = L.filter (fun x => x = a) := by
    refine List.filter_congr fun x hx => decide_eq_decide.mpr ⟨fun h => ?_, fun h => h ▸ rfl⟩
    exact List.inj_on_of_nodup_map hn hx ha h
  rw [hcongr, List.filter_eq]
  rw [List.count_eq_one_of_mem hn.of_map ha]
  rfl

theorem filter_service_eq_nil {α : Type} {f : α → ServiceDescription} {L : List α}
    {service : ServiceDescription} (h : service ∉ L.map f) :
    L.filter (fun x => f x = service) = [] := by
  refine List.filter_eq_nil_iff.mpr fun x hx heq => h ?_
  rw [← of_decide_eq_true heq]
  exact List.mem_map_of_mem hx

/-- The events of a call that are about one service. -/
theorem filter_events (m : Endpoints) (next : Nat) (services : ServiceVector)
    (service : ServiceDescription) :
    ((dropped m services).map Event.delete
        ++ (added m next services).map Event.setup).filter (fun ev => ev.service = service)
      = ((dropped m services).filter fun e => e.service = service).map Event.delete
        ++ ((added m next services).filter fun e => e.service = service).map Event.setup := by
  rw [List.filter_append, List.filter_map, List.filter_map]
  rfl

/-- A call with the services that have an endpoint already. -/
theorem update_of_services (h : Keyed getClassHash m)
    (hd : HashesDistinct getClassHash (m.services ++ services.toList))
    (hs : ∀ x, x ∈ m.services ↔ x ∈ services.toList) (next : Nat) :
    m.update getClassHash next services = ⟨m, next, []⟩ := by
  have hdropped : dropped m services = [] := by
    refine List.filter_eq_nil_iff.mpr fun e he hnot => ?_
    exact of_decide_eq_true hnot ((hs e.service).mp (List.mem_map_of_mem he))
  have hadded : (services.toList.filter fun service => service ∉ m.services) = [] := by
    refine List.filter_eq_nil_iff.mpr fun x hx hnot => ?_
    exact of_decide_eq_true hnot ((hs x).mpr hx)
  unfold update
  rw [servicesToDelete_eq, servicesToSetup_eq h hd, hdropped, hadded]
  rfl

theorem reconciled_update (h : Keyed getClassHash m) (next : Nat) (hn : services.toList.Nodup)
    (hd : HashesDistinct getClassHash (m.services ++ services.toList)) :
    Reconciled getClassHash m services (m.update getClassHash next services) := by
  obtain ⟨helems, hevents⟩ := events_update h next hn hd
  obtain ⟨hkeyed, hmem⟩ := services_updateChannels h next hn hd
  rw [← update_eq] at hkeyed hmem
  have hdropped : ((dropped m services).map Endpoint.service).Nodup :=
    h.nodup_services.sublist (List.filter_sublist.map _)
  have hadded : ((added m next services).map Endpoint.service).Nodup := by
    rw [added, map_service_created]
    exact hn.filter _
  have hmemDropped : ∀ x, x ∈ (dropped m services).map Endpoint.service ↔
      x ∈ m.services ∧ x ∉ services.toList := by
    intro x
    rw [← servicesToDelete_eq, toList_servicesToDelete, List.mem_filter]
    simp [CxxVector.containsElement]
  have hmemAdded : ∀ x, x ∈ (added m next services).map Endpoint.service ↔
      x ∈ services.toList ∧ x ∉ m.services := by
    intro x
    rw [added, map_service_created, List.mem_filter, decide_eq_true_iff]
  refine
    { keyed := hkeyed
      one := fun service => ?_
      kept := fun e he hl => ⟨?_, ?_⟩
      deleted := fun e he hl => ⟨?_, ?_⟩
      setUp := fun service hl hnew => ?_
      noOther := fun ev hev => ?_
      again := ?_ }
  · split
    · exact List.count_eq_one_of_mem hkeyed.nodup_services ((hmem service).mpr ‹_›)
    · exact List.count_eq_zero.mpr fun hx => ‹¬ _› ((hmem service).mp hx)
  · rw [helems]
    exact List.mem_append_left _ (List.mem_filter.mpr ⟨he, decide_eq_true hl⟩)
  · have hs : e.service ∈ m.services := List.mem_map_of_mem he
    rw [hevents, filter_events, filter_service_eq_nil fun hx => ((hmemDropped _).mp hx).2 hl,
      filter_service_eq_nil fun hx => ((hmemAdded _).mp hx).2 hs]
    rfl
  · intro hin
    exact hl ((hmem e.service).mp (List.mem_map_of_mem hin))
  · have hd : e ∈ dropped m services := List.mem_filter.mpr ⟨he, decide_eq_true hl⟩
    rw [hevents, filter_events, filter_service_eq hdropped hd,
      filter_service_eq_nil fun hx => hl ((hmemAdded _).mp hx).1]
    rfl
  · obtain ⟨e, he, rfl⟩ := List.mem_map.mp ((hmemAdded service).mpr ⟨hl, hnew⟩)
    refine ⟨e, by rw [helems]; exact List.mem_append_right _ he, rfl, ?_⟩
    rw [hevents, filter_events, filter_service_eq hadded he,
      filter_service_eq_nil fun hx => ((hmemDropped _).mp hx).2 hl]
    rfl
  · rw [hevents] at hev
    rcases List.mem_append.mp hev with hev | hev
    · obtain ⟨e, he, rfl⟩ := List.mem_map.mp hev
      exact Or.inr ⟨e, rfl, (List.mem_filter.mp he).1⟩
    · obtain ⟨e, he, rfl⟩ := List.mem_map.mp hev
      refine Or.inl ⟨e, rfl, ?_⟩
      rw [helems]
      exact List.mem_append_right _ he
  · refine update_of_services hkeyed (fun x hx y hy => ?_) hmem _
    have hin : ∀ z, z ∈ (m.update getClassHash next services).endpoints.services ++
        services.toList → z ∈ m.services ++ services.toList := by
      intro z hz
      rw [List.mem_append, hmem, or_self] at hz
      exact List.mem_append_right _ hz
    exact hd x (hin x hx) y (hin y hy)

/-- **`updateChannelsInternal` reconciles exactly.**  Every listed service has one endpoint, the
old one if there was one; every other old endpoint was deleted once, every other listed service was
set up once, nothing was refused, and a second call does nothing.  If `m_gatewayPublisherUids` had
the port ids of the endpoints of `Transport2Iceoryx`, it has those of the new ones, each once. -/
theorem updateChannels_reconciles (h : Keyed getClassHash m) (next : Nat)
    (hn : services.toList.Nodup)
    (hd : HashesDistinct getClassHash (m.services ++ services.toList)) :
    Reconciled getClassHash m services (m.update getClassHash next services) ∧
      ∀ (maxPublishers : Nat) (uid : Endpoint → UInt64) (uids : CxxVector UInt64 maxPublishers),
        maxTopics ≤ maxPublishers →
        UniquePorts uid (m.elems ++ (m.update getClassHash next services).endpoints.elems) →
        uids.toList = m.elems.map uid →
        ((m.update getClassHash next services).events.foldl (updateUids uid) uids).toList
            = (m.update getClassHash next services).endpoints.elems.map uid ∧
          ((m.update getClassHash next services).endpoints.elems.map uid).Nodup := by
  obtain ⟨helems, hevents⟩ := events_update h next hn hd
  refine ⟨reconciled_update h next hn hd, fun maxPublishers uid uids hcap hunique hu => ⟨?_, ?_⟩⟩
  · rw [hevents, helems, List.foldl_append, uids_setup_all]
    have hdelete : (((dropped m services).map Event.delete).foldl (updateUids uid) uids).toList
        = (kept m services).map uid := by
      refine (uids_delete_all h.nodup_elems
        (fun x hx y hy => hunique x (List.mem_append_left _ hx) y (List.mem_append_left _ hy))
        (fun e he => (List.mem_filter.mp he).1) (h.nodup_elems.filter _) hu).trans ?_
      congr 1
      refine List.filter_congr fun e he => ?_
      simp [he]
    have hlen := length_kept_added h next hn
    rw [CxxVector.toList_pushAll, hdelete, List.map_append]
    unfold CxxVector.size
    rw [hdelete, List.length_map, List.length_map, ← List.length_append]
    exact Nat.le_trans hlen hcap
  · have hnodup : (m.update getClassHash next services).endpoints.elems.Nodup := by
      rw [helems]
      exact (nodup_kept_added h next hn).of_map
    exact hunique.nodup_map (fun e he => List.mem_append_right _ he) hnodup

/-! ## A call -/

/-- A hash by the length of the service id. -/
def demoLengthHash (service : ServiceDescription) : ClassHash :=
  ⟨UInt32.ofNat service.serviceID.bytes.length, 0, 0, 0⟩

/-- A second service. -/
def demoCamera : ServiceDescription := { demoService with
  serviceID := .ofString "Camera" (by decide) }

/-- One endpoint, of the first service. -/
def demoTable : Endpoints := addChannel demoLengthHash .empty 0 demoService

/-- The second service only. -/
def demoList : ServiceVector := CxxVector.empty.pushAll [demoCamera]

/-- The endpoint of the first service is deleted, and one for the second is set up. -/
theorem updateChannels_reconciles_demo :
    (demoTable.update demoLengthHash 1 demoList).events
        = [.delete ⟨0, demoService⟩, .setup ⟨1, demoCamera⟩] ∧
      Reconciled demoLengthHash demoTable demoList (demoTable.update demoLengthHash 1 demoList) ∧
      ((demoTable.update demoLengthHash 1 demoList).events.foldl
        (updateUids fun e => UInt64.ofNat e.id)
        (CxxVector.empty.pushBack 0 : CxxVector UInt64 maxTopics)).toList = [1] := by
  have hkeyed : Keyed demoLengthHash demoTable := by
    refine ⟨by decide, fun k e hmem => ?_⟩
    obtain ⟨rfl, rfl⟩ := Prod.mk.inj (List.mem_singleton.mp hmem)
    rfl
  have hn : demoList.toList.Nodup := by decide
  have hd : HashesDistinct demoLengthHash (demoTable.services ++ demoList.toList) := by decide
  obtain ⟨hrec, huids⟩ := updateChannels_reconciles hkeyed 1 hn hd
  refine ⟨by decide, hrec, ?_⟩
  have hunique : UniquePorts (fun e => UInt64.ofNat e.id)
      (demoTable.elems ++ (demoTable.update demoLengthHash 1 demoList).endpoints.elems) := by
    unfold UniquePorts
    decide
  exact (huids maxTopics (fun e => UInt64.ofNat e.id) _ (Nat.le_refl _) hunique rfl).1

end P3com.Endpoints
