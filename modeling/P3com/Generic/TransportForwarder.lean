/-
# The transport forwarder

`source/p3com/generic/transport_forwarder.cpp`.  When `Transport2Iceoryx` publishes a chunk of a
forwarded service, `push` records the device it came from under the address of the chunk.  The
thread of the forwarder takes the chunks of these services from its subscribers, looks the address
up, and asks the discovery manager to which devices a message from that device is forwarded.

The table and the chunks part in three ways.

* A lookup that misses is not noticed.  `find` of a `vector_map` returns `end()`, which is never
  null, so the test against `nullptr` always succeeds and the device index is read from the memory
  after the last element, where the last erased element may still stand.  Chunks of local
  publishers and chunks that found the table full meet this.
* When a queue of the forwarder drops a chunk, its entry stays.  The next chunk at that address is
  taken for the old one.
* A service that is configured twice has two subscribers.  The second one to take a chunk misses.

In every run without these three, each chunk is attributed to its source, and a chunk without a
recorded source is not forwarded (`forwarder_attributes_sources`).

A step is one section under a mutex.  Chunks carry what `push` has recorded for them, for the
statement only.  An address is in use as long as a chunk there is loaned, waits in a queue or is in
the hands of the thread; then iceoryx may hand it out again.
-/
import P3com.Generic.Forwarding
import P3com.Lib.Count

namespace P3com.TransportForwarder

/-! ## State -/

/-- `MAX_FORWARDED_SERVICES`. -/
def maxForwardedServices : Nat := 8

/-- A `const void*` to a user payload. -/
abbrev Address := Nat

/-- A chunk of some service, and what `push` has recorded for it. -/
structure Chunk where
  address : Address
  serviceHash : ClassHash
  recorded : Option DeviceIndex
deriving DecidableEq

/-- `m_messagesToForward`. -/
abbrev MessagesToForward := VectorMap Address DeviceIndex maxForwardedServices

/-- The body of the loop of `waitsetLoop`: before `take`, before the lookup, and before the call of
`generateDeviceIndicesForwarding` with its `deviceIndex`.  `found` says whether the lookup has
found the address. -/
inductive Thread
  | idle
  | taken (c : Chunk)
  | looked (c : Chunk) (deviceIndex : DeviceIndex) (found : Bool)
deriving DecidableEq

/-- What became of a chunk: the index passed to `generateDeviceIndicesForwarding`, and whether the
chunk was passed to `writeSegmented` or released. -/
structure Outcome where
  chunk : Chunk
  deviceIndex : DeviceIndex
  forwarded : Bool
deriving DecidableEq

structure State where
  messagesToForward : MessagesToForward
  /-- The chunks that `Transport2Iceoryx` has pushed and not yet published. -/
  pushed : List Chunk
  /-- The chunks in the queues of the subscribers. -/
  queue : List Chunk
  thread : Thread
  records : Records
  transports : TransportInfo
  log : List Outcome
deriving DecidableEq

inductive Label
  /-- `push`, in `receive` or `releaseBuffer`. -/
  | push (address : Address) (serviceHash : ClassHash) (deviceIndex : DeviceIndex)
  /-- `publish` of a chunk that was pushed. -/
  | publish (i : Nat)
  /-- A local publisher publishes a chunk. -/
  | publishLocal (address : Address) (serviceHash : ClassHash)
  /-- A full queue drops a chunk. -/
  | drop (i : Nat)
  | take (i : Nat)
  /-- The lookup; `stray` stands after the last element of the table. -/
  | lookup (stray : DeviceIndex)
  | generate
  /-- The discovery manager or the transports change. -/
  | discover (records : Records) (transports : TransportInfo)
deriving DecidableEq

/-- The configuration. -/
structure Config where
  getClassHash : ServiceDescription → ClassHash
  preferredType : TransportType
  forwardedServices : CxxVector ServiceDescription maxForwardedServices

/-- `m_forwardedServiceHashes`. -/
def Config.hashes (cfg : Config) : List ClassHash :=
  cfg.forwardedServices.toList.map cfg.getClassHash

def State.init (transports : TransportInfo) : State :=
  ⟨.empty, [], [], .idle, .empty, transports, []⟩

/-! ## Steps -/

/-- The chunk in the hands of the thread. -/
def Thread.chunks : Thread → List Chunk
  | .idle => []
  | .taken c => [c]
  | .looked c _ _ => [c]

/-- A chunk at the address has not been given back yet. -/
def State.inUse (s : State) (address : Address) : Bool :=
  (s.pushed ++ s.queue ++ s.thread.chunks).any fun c => c.address = address

/-- `TransportForwarder::push`, and what it has recorded: a full table is not noticed. -/
def pushMessage (cfg : Config) (m : MessagesToForward) (userPayload : Address)
    (serviceHash : ClassHash) (deviceIndex : DeviceIndex) :
    MessagesToForward × Option DeviceIndex :=
  if serviceHash ∈ cfg.hashes then
    match m.emplace userPayload deviceIndex with
    | some m => (m, some deviceIndex)
    | none => (m, none)
  else (m, none)

/-- A published chunk goes into the queue of every subscriber of its service. -/
def deliver (cfg : Config) (c : Chunk) : List Chunk :=
  List.replicate (cfg.hashes.count c.serviceHash) c

/-- The lookup: the device index and the table afterwards.  Erasing at `end()` does nothing. -/
def lookup (cfg : Config) (m : MessagesToForward) (c : Chunk) (stray : DeviceIndex) :
    DeviceIndex × Bool × MessagesToForward :=
  if c.serviceHash ∈ cfg.hashes then
    match m.findElem c.address with
    | some (i, deviceIndex) => (deviceIndex, true, m.erase i)
    | none => (stray, false, m)
  else (stray, false, m)

def step (cfg : Config) (s : State) : Label → Option State
  | .push address serviceHash deviceIndex =>
    if s.inUse address then none
    else
      let (m, recorded) := pushMessage cfg s.messagesToForward address serviceHash deviceIndex
      some { s with
        messagesToForward := m
        pushed := ⟨address, serviceHash, recorded⟩ :: s.pushed }
  | .publish i =>
    s.pushed[i]?.map fun c =>
      { s with pushed := s.pushed.eraseIdx i, queue := s.queue ++ deliver cfg c }
  | .publishLocal address serviceHash =>
    if s.inUse address then none
    else some { s with queue := s.queue ++ deliver cfg ⟨address, serviceHash, none⟩ }
  | .drop i => some { s with queue := s.queue.eraseIdx i }
  | .take i =>
    match s.thread, s.queue[i]? with
    | .idle, some c => some { s with queue := s.queue.eraseIdx i, thread := .taken c }
    | _, _ => none
  | .lookup stray =>
    match s.thread with
    | .taken c =>
      let (deviceIndex, found, m) := lookup cfg s.messagesToForward c stray
      some { s with messagesToForward := m, thread := .looked c deviceIndex found }
    | _ => none
  | .generate =>
    match s.thread with
    | .looked c deviceIndex _ =>
      let deviceIndices := generateDeviceIndicesForwarding cfg.getClassHash s.transports
        cfg.preferredType c.serviceHash s.records deviceIndex
      some { s with
        thread := .idle
        log := ⟨c, deviceIndex, !deviceIndices.toList.isEmpty⟩ :: s.log }
    | _ => none
  | .discover records transports => some { s with records, transports }

/-! ## The condition -/

/-- No chunk of a forwarded service comes in at an address that is still in the table, and what is
read after a lookup that misses is not the index of a known device. -/
def Attributable (cfg : Config) (s : State) : Label → Prop
  | .push address serviceHash _ =>
    serviceHash ∈ cfg.hashes → address ∉ s.messagesToForward.keys
  | .publishLocal address serviceHash =>
    serviceHash ∈ cfg.hashes → address ∉ s.messagesToForward.keys
  | .generate =>
    match s.thread with
    | .looked _ deviceIndex false => fromDeviceBitset s.records deviceIndex = 0
    | _ => True
  | _ => True

instance (cfg : Config) (s : State) : (l : Label) → Decidable (Attributable cfg s l)
  | .push address serviceHash _ =>
    inferInstanceAs (Decidable (serviceHash ∈ cfg.hashes → address ∉ s.messagesToForward.keys))
  | .publishLocal address serviceHash =>
    inferInstanceAs (Decidable (serviceHash ∈ cfg.hashes → address ∉ s.messagesToForward.keys))
  | .generate =>
    match h : s.thread with
    | .looked _ deviceIndex false =>
      decidable_of_iff (fromDeviceBitset s.records deviceIndex = 0) (by simp [Attributable, h])
    | .looked _ _ true => isTrue (by simp [Attributable, h])
    | .taken _ => isTrue (by simp [Attributable, h])
    | .idle => isTrue (by simp [Attributable, h])
  | .publish _ => isTrue trivial
  | .drop _ => isTrue trivial
  | .take _ => isTrue trivial
  | .lookup _ => isTrue trivial
  | .discover _ _ => isTrue trivial

/-- What is claimed of the outcome: the index is the recorded one, and without one the chunk is not
forwarded. -/
def Outcome.Right (o : Outcome) : Prop :=
  (∀ d, o.chunk.recorded = some d → o.deviceIndex = d) ∧
    (o.chunk.recorded = none → o.forwarded = false)

/-! ## The invariant -/

variable {cfg : Config} {s s' : State}

/-- The chunks that the forwarder has still to look up. -/
def State.waiting (s : State) : List Chunk :=
  s.pushed ++ s.queue ++ match s.thread with
    | .taken c => [c]
    | _ => []

/-- The table has exactly what was recorded for the chunk. -/
def Tracked (cfg : Config) (m : MessagesToForward) (c : Chunk) : Prop :=
  c.serviceHash ∈ cfg.hashes →
    (∀ d, c.recorded = some d → (c.address, d) ∈ m.entries) ∧
      (c.recorded = none → c.address ∉ m.keys)

/-- The table and the chunks that have still to be looked up. -/
structure Booked (cfg : Config) (m : MessagesToForward) (waiting : List Chunk) : Prop where
  keys : m.keys.Nodup
  addresses : (waiting.map Chunk.address).Nodup
  tracked : ∀ c ∈ waiting, Tracked cfg m c

structure Inv (cfg : Config) (s : State) : Prop where
  booked : Booked cfg s.messagesToForward s.waiting
  /-- What the subscribers receive is of a forwarded service. -/
  queued : ∀ c ∈ s.queue, c.serviceHash ∈ cfg.hashes
  taken : ∀ c, s.thread = .taken c → c.serviceHash ∈ cfg.hashes
  looked : ∀ c deviceIndex found, s.thread = .looked c deviceIndex found →
    (∀ d, c.recorded = some d → deviceIndex = d) ∧ (c.recorded = none → found = false)
  log : ∀ o ∈ s.log, o.Right

theorem inv_init (cfg : Config) (transports : TransportInfo) : Inv cfg (State.init transports) where
  booked := ⟨List.nodup_nil, List.nodup_nil, by simp [State.init, State.waiting]⟩
  queued := by simp [State.init]
  taken := by simp [State.init]
  looked := by simp [State.init]
  log := by simp [State.init]

/-- Chunks may be dropped, and their order does not matter. -/
theorem Booked.subperm {m : MessagesToForward} {waiting waiting' : List Chunk}
    (h : Booked cfg m waiting) (hsub : waiting'.Subperm waiting) : Booked cfg m waiting' where
  keys := h.keys
  addresses := by
    obtain ⟨l, hperm, hsublist⟩ := hsub
    have hl : (l.map Chunk.address).Nodup := h.addresses.sublist (hsublist.map _)
    exact (hperm.map _).nodup_iff.mp hl
  tracked := fun c hc => h.tracked c (hsub.subset hc)

/-- A chunk at a new address. -/
theorem Booked.cons {m m' : MessagesToForward} {waiting : List Chunk} {c : Chunk}
    (h : Booked cfg m waiting) (hkeys : m'.keys.Nodup)
    (hnew : c.address ∉ waiting.map Chunk.address) (hc : Tracked cfg m' c)
    (hother : ∀ c', c'.address ≠ c.address → Tracked cfg m c' → Tracked cfg m' c') :
    Booked cfg m' (c :: waiting) where
  keys := hkeys
  addresses := List.nodup_cons.mpr ⟨hnew, h.addresses⟩
  tracked := by
    intro c' hc'
    rcases List.mem_cons.mp hc' with rfl | hc'
    · exact hc
    · refine hother c' (fun heq => hnew ?_) (h.tracked c' hc')
      rw [← heq]
      exact List.mem_map_of_mem hc'

/-! ## The operations on the table -/

/-- `push` keeps the keys apart, and records the chunk or leaves it without a record. -/
theorem pushMessage_spec {m m' : MessagesToForward} {address : Address} {serviceHash : ClassHash}
    {deviceIndex : DeviceIndex} {recorded : Option DeviceIndex} (hn : m.keys.Nodup)
    (hnew : serviceHash ∈ cfg.hashes → address ∉ m.keys)
    (h : pushMessage cfg m address serviceHash deviceIndex = (m', recorded)) :
    m'.keys.Nodup ∧ Tracked cfg m' ⟨address, serviceHash, recorded⟩ ∧
      ∀ c, c.address ≠ address → Tracked cfg m c → Tracked cfg m' c := by
  unfold pushMessage at h
  split at h
  case isTrue hmem =>
    split at h
    case h_1 m₁ hm =>
      obtain ⟨rfl, rfl⟩ := Prod.mk.inj h
      have hentries := VectorMap.entries_emplace hm
      refine ⟨VectorMap.nodup_keys_emplace hn (hnew hmem) hm, fun _ => ⟨?_, by simp⟩, ?_⟩
      · rintro d hd
        obtain rfl := Option.some.inj hd
        rw [hentries]
        simp
      · intro c hne hc hhash
        obtain ⟨hsome, hnone⟩ := hc hhash
        refine ⟨fun d hd => ?_, fun hd hkey => ?_⟩
        · rw [hentries]
          exact List.mem_append_left _ (hsome d hd)
        · rw [VectorMap.keys_eq, hentries, List.map_append, ← VectorMap.keys_eq] at hkey
          rcases List.mem_append.mp hkey with hkey | hkey
          · exact hnone hd hkey
          · exact hne (by simpa using hkey)
    case h_2 =>
      -- the table is full: nothing is recorded, and `push` does not say so
      obtain ⟨rfl, rfl⟩ := Prod.mk.inj h
      exact ⟨hn, fun _ => ⟨by simp, fun _ => hnew hmem⟩, fun c _ hc => hc⟩
  case isFalse hmem =>
    obtain ⟨rfl, rfl⟩ := Prod.mk.inj h
    exact ⟨hn, fun hhash => absurd hhash hmem, fun c _ hc => hc⟩

/-- The lookup finds what was recorded for the chunk, and takes no other chunk's entry. -/
theorem lookup_spec {m m' : MessagesToForward} {c : Chunk} {stray deviceIndex : DeviceIndex}
    {found : Bool} (hn : m.keys.Nodup) (hhash : c.serviceHash ∈ cfg.hashes)
    (hc : Tracked cfg m c) (h : lookup cfg m c stray = (deviceIndex, found, m')) :
    (∀ d, c.recorded = some d → deviceIndex = d) ∧ (c.recorded = none → found = false) ∧
      m'.keys.Nodup ∧ ∀ c', c'.address ≠ c.address → Tracked cfg m c' → Tracked cfg m' c' := by
  obtain ⟨hsome, hnone⟩ := hc hhash
  unfold lookup at h
  rw [if_pos hhash] at h
  cases hfind : m.findElem c.address with
  | none =>
    rw [hfind] at h
    obtain ⟨rfl, rfl, rfl⟩ : stray = deviceIndex ∧ false = found ∧ m = m' := by simpa using h
    refine ⟨fun d hd => ?_, fun _ => rfl, hn, fun c' _ hc' => hc'⟩
    exact absurd (VectorMap.mem_keys_of_mem_entries (hsome d hd))
      (VectorMap.findElem_eq_none.mp hfind)
  | some r =>
    obtain ⟨i, d'⟩ := r
    rw [hfind] at h
    obtain ⟨rfl, rfl, rfl⟩ : d' = deviceIndex ∧ true = found ∧ m.erase i = m' := by simpa using h
    have hentry := VectorMap.findElem_eq_some hfind
    refine ⟨fun d hd => ?_, fun hd => ?_, VectorMap.nodup_keys_erase hn i, ?_⟩
    · obtain ⟨j, hj⟩ := VectorMap.findElem_of_mem hn (hsome d hd)
      rw [hfind] at hj
      exact (Prod.mk.inj (Option.some.inj hj)).2
    · exact absurd (VectorMap.mem_keys_of_mem_entries (VectorMap.mem_of_findElem hfind)) (hnone hd)
    · intro c' hne hc' hhash'
      obtain ⟨hsome', hnone'⟩ := hc' hhash'
      refine ⟨fun d hd => VectorMap.mem_erase_of_ne hentry (hsome' d hd) hne, fun hd hkey => ?_⟩
      obtain ⟨d, hd'⟩ := VectorMap.exists_of_mem_keys hkey
      exact hnone' hd
        (VectorMap.mem_keys_of_mem_entries (VectorMap.mem_entries_of_mem_erase hd'))

/-- An address that is not in use belongs to no waiting chunk. -/
theorem not_inUse {address : Address} (h : s.inUse address = false) :
    address ∉ s.waiting.map Chunk.address := by
  intro hmem
  obtain ⟨c, hc, rfl⟩ := List.mem_map.mp hmem
  have hall : c ∈ s.pushed ++ s.queue ++ s.thread.chunks := by
    unfold State.waiting at hc
    rcases List.mem_append.mp hc with hc | hc
    · exact List.mem_append_left _ hc
    · refine List.mem_append_right _ ?_
      cases hthread : s.thread with
      | taken c' =>
        rw [hthread] at hc
        exact hc
      | _ =>
        rw [hthread] at hc
        cases hc
  unfold State.inUse at h
  have := List.any_eq_false.mp h c hall
  simp at this

/-- With no service configured twice, a chunk goes into at most one queue. -/
theorem deliver_subperm (hn : cfg.hashes.Nodup) (c : Chunk) : (deliver cfg c).Subperm [c] := by
  have hcount : cfg.hashes.count c.serviceHash ≤ 1 := List.nodup_iff_count_le_one.mp hn _
  exact ((List.replicate_sublist_replicate c).mpr hcount).subperm

/-- Only chunks of forwarded services are delivered. -/
theorem queued_deliver {queue : List Chunk} (hq : ∀ c ∈ queue, c.serviceHash ∈ cfg.hashes)
    (c : Chunk) : ∀ c' ∈ queue ++ deliver cfg c, c'.serviceHash ∈ cfg.hashes := by
  intro c' hc'
  rcases List.mem_append.mp hc' with hc' | hc'
  · exact hq c' hc'
  · obtain ⟨hcount, rfl⟩ := List.mem_replicate.mp hc'
    exact List.count_pos_iff.mp (Nat.pos_of_ne_zero hcount)

/-! ## The steps -/

section Steps

variable {i : Nat} {c : Chunk} {address : Address} {serviceHash : ClassHash}
  {deviceIndex stray : DeviceIndex}

theorem inv_push (hs : Inv cfg s)
    (hg : serviceHash ∈ cfg.hashes → address ∉ s.messagesToForward.keys)
    (h : step cfg s (.push address serviceHash deviceIndex) = some s') : Inv cfg s' := by
  simp only [step] at h
  split at h
  · cases h
  case isFalse huse =>
    obtain ⟨⟨m, recorded⟩, hm⟩ : ∃ r, pushMessage cfg s.messagesToForward address serviceHash
      deviceIndex = r := ⟨_, rfl⟩
    rw [hm] at h
    obtain rfl := Option.some.inj h
    obtain ⟨hkeys, hnew, hother⟩ := pushMessage_spec hs.booked.keys hg hm
    have haddr := not_inUse (Bool.eq_false_iff.mpr huse)
    exact ⟨hs.booked.cons hkeys haddr hnew hother, hs.queued, hs.taken, hs.looked, hs.log⟩

theorem inv_publish (hn : cfg.hashes.Nodup) (hs : Inv cfg s)
    (h : step cfg s (.publish i) = some s') : Inv cfg s' := by
  simp only [step] at h
  obtain ⟨c, hc, rfl⟩ := Option.map_eq_some_iff.mp h
  have hmoved : (s.pushed.eraseIdx i ++ (s.queue ++ deliver cfg c)).Subperm
      (s.pushed ++ s.queue) := by
    have hone : (s.pushed.eraseIdx i ++ s.queue ++ deliver cfg c).Subperm
        (s.pushed.eraseIdx i ++ s.queue ++ [c]) :=
      (List.subperm_append_left _).mpr (deliver_subperm hn c)
    have hperm : (s.pushed.eraseIdx i ++ s.queue ++ [c]).Perm (s.pushed ++ s.queue) :=
      (List.perm_append_singleton c _).trans
        ((List.perm_cons_eraseIdx hc).append_right s.queue).symm
    rw [← List.append_assoc]
    exact hone.trans hperm.subperm
  exact ⟨hs.booked.subperm ((List.subperm_append_right _).mpr hmoved), queued_deliver hs.queued c,
    hs.taken, hs.looked, hs.log⟩

theorem inv_publishLocal (hn : cfg.hashes.Nodup) (hs : Inv cfg s)
    (hg : serviceHash ∈ cfg.hashes → address ∉ s.messagesToForward.keys)
    (h : step cfg s (.publishLocal address serviceHash) = some s') : Inv cfg s' := by
  simp only [step] at h
  split at h
  · cases h
  case isFalse huse =>
    obtain rfl := Option.some.inj h
    obtain ⟨c, hc⟩ : ∃ c : Chunk, ⟨address, serviceHash, none⟩ = c := ⟨_, rfl⟩
    have hbooked : Booked cfg s.messagesToForward (c :: s.waiting) := by
      subst hc
      exact hs.booked.cons hs.booked.keys (not_inUse (Bool.eq_false_iff.mpr huse))
        (fun hhash => ⟨by simp, fun _ => hg hhash⟩) (fun c' _ hc' => hc')
    have hadded : (s.pushed ++ (s.queue ++ deliver cfg c)).Subperm
        (c :: (s.pushed ++ s.queue)) := by
      rw [← List.append_assoc]
      exact ((List.subperm_append_left _).mpr (deliver_subperm hn c)).trans
        (List.perm_append_singleton c _).subperm
    rw [hc]
    exact ⟨hbooked.subperm ((List.subperm_append_right _).mpr hadded), queued_deliver hs.queued c,
      hs.taken, hs.looked, hs.log⟩

theorem inv_drop (hs : Inv cfg s) (h : step cfg s (.drop i) = some s') : Inv cfg s' := by
  obtain rfl := Option.some.inj h
  refine ⟨hs.booked.subperm (List.Sublist.subperm ?_), fun c hc => ?_, hs.taken, hs.looked, hs.log⟩
  · unfold State.waiting
    refine List.Sublist.append_right (List.Sublist.append_left ?_ _) _
    exact List.eraseIdx_sublist _ _
  · exact hs.queued c (List.mem_of_mem_eraseIdx hc)

theorem inv_take (hs : Inv cfg s) (h : step cfg s (.take i) = some s') : Inv cfg s' := by
  simp only [step] at h
  split at h
  case h_1 c hthread hc =>
    obtain rfl := Option.some.inj h
    have hperm := List.perm_cons_eraseIdx hc
    refine ⟨hs.booked.subperm (List.Perm.subperm ?_), fun c' hc' => ?_, ?_, ?_, hs.log⟩
    · unfold State.waiting
      rw [hthread, List.append_nil, List.append_assoc]
      refine List.Perm.append_left _ ?_
      exact (List.perm_append_singleton c _).trans hperm.symm
    · exact hs.queued c' (List.mem_of_mem_eraseIdx hc')
    · rintro c' hc'
      obtain rfl := Thread.taken.inj hc'
      exact hs.queued c (List.mem_of_getElem? hc)
    · rintro c' d found ⟨⟩
  · cases h

theorem inv_lookup (hs : Inv cfg s) (h : step cfg s (.lookup stray) = some s') : Inv cfg s' := by
  simp only [step] at h
  split at h
  case h_1 c hthread =>
    obtain ⟨⟨d, found, m⟩, hm⟩ : ∃ r, lookup cfg s.messagesToForward c stray = r := ⟨_, rfl⟩
    rw [hm] at h
    obtain rfl := Option.some.inj h
    have hwaiting : s.waiting = s.pushed ++ s.queue ++ [c] := by
      unfold State.waiting
      rw [hthread]
    have hc : c ∈ s.waiting := by
      rw [hwaiting]
      simp
    obtain ⟨hsome, hnone, hkeys, hother⟩ :=
      lookup_spec hs.booked.keys (hs.taken c hthread) (hs.booked.tracked c hc) hm
    -- no other chunk that waits has the address of this one
    have haddr : ((s.pushed ++ s.queue).map Chunk.address).Nodup ∧
        c.address ∉ (s.pushed ++ s.queue).map Chunk.address := by
      have := hs.booked.addresses
      rw [hwaiting, List.map_append] at this
      rw [List.nodup_append] at this
      refine ⟨this.1, fun hmem => ?_⟩
      exact this.2.2 _ hmem c.address (by simp) rfl
    refine ⟨⟨hkeys, ?_, fun c' hc' => ?_⟩, hs.queued, ?_, ?_, hs.log⟩
    · simpa [State.waiting] using haddr.1
    · have hc' : c' ∈ s.pushed ++ s.queue := by simpa [State.waiting] using hc'
      refine hother c' (fun heq => haddr.2 ?_) (hs.booked.tracked c' ?_)
      · rw [← heq]
        exact List.mem_map_of_mem hc'
      · rw [hwaiting]
        exact List.mem_append_left _ hc'
    · rintro c' ⟨⟩
    · rintro c' d' found' ⟨⟩
      exact ⟨hsome, hnone⟩
  · cases h

/-- Without a source that is known, nothing is forwarded. -/
theorem generateDeviceIndicesForwarding_of_unknown {getClassHash : ServiceDescription → ClassHash}
    {t : TransportInfo} {preferredType : TransportType} {records : Records}
    (h : fromDeviceBitset records deviceIndex = 0) :
    (generateDeviceIndicesForwarding getClassHash t preferredType serviceHash records
      deviceIndex).toList = [] := by
  unfold generateDeviceIndicesForwarding
  simp only [h, if_true]
  rfl

theorem inv_generate (hs : Inv cfg s) (hg : Attributable cfg s .generate)
    (h : step cfg s .generate = some s') : Inv cfg s' := by
  simp only [step] at h
  split at h
  case h_1 c d found hthread =>
    obtain rfl := Option.some.inj h
    obtain ⟨hsome, hnone⟩ := hs.looked c d found hthread
    have hbooked : Booked cfg s.messagesToForward (s.pushed ++ s.queue) := by
      have := hs.booked
      unfold State.waiting at this
      rwa [hthread, List.append_nil] at this
    refine ⟨?_, hs.queued, ?_, ?_, ?_⟩
    · unfold State.waiting
      rwa [List.append_nil]
    · rintro c' ⟨⟩
    · rintro c' d' found' ⟨⟩
    · intro o ho
      rcases List.mem_cons.mp ho with rfl | ho
      · refine ⟨hsome, fun hc => ?_⟩
        have hunknown : fromDeviceBitset s.records d = 0 := by
          unfold Attributable at hg
          rwa [hthread, hnone hc] at hg
        simp [generateDeviceIndicesForwarding_of_unknown hunknown]
      · exact hs.log o ho
  · cases h

end Steps

/-- **One step.** -/
theorem inv_step (hn : cfg.hashes.Nodup) {l : Label} (hs : Inv cfg s) (hg : Attributable cfg s l)
    (h : step cfg s l = some s') : Inv cfg s' := by
  cases l with
  | push address serviceHash deviceIndex => exact inv_push hs hg h
  | publish i => exact inv_publish hn hs h
  | publishLocal address serviceHash => exact inv_publishLocal hn hs hg h
  | drop i => exact inv_drop hs h
  | take i => exact inv_take hs h
  | lookup stray => exact inv_lookup hs h
  | generate => exact inv_generate hs hg h
  | discover records transports =>
    obtain rfl := Option.some.inj h
    exact ⟨hs.booked, hs.queued, hs.taken, hs.looked, hs.log⟩

/-! ## The result -/

/-- **In every run without the three defects, the forwarder attributes every chunk to its source.**
The index it passes on is the one recorded for that chunk, and a chunk without a record is not
forwarded. -/
theorem forwarder_attributes_sources (cfg : Config) (hn : cfg.hashes.Nodup)
    (transports : TransportInfo) (ls : List Label) (s : State)
    (hg : Run.Guarded (step cfg) (Attributable cfg) (State.init transports) ls)
    (h : Run.exec (step cfg) (State.init transports) ls = some s) : ∀ o ∈ s.log, o.Right :=
  (Run.invariant_guarded (Inv cfg) (fun _ _ _ => inv_step hn) (inv_init cfg transports) hg h).log

/-! ## Two runs -/

/-- One forwarded service. -/
def demoConfig : Config where
  getClassHash := demoClassHash
  preferredType := .none
  forwardedServices := CxxVector.empty.pushAll [demoService]

/-- The forwarder has PCIe and UDP. -/
def demoTransports : TransportInfo := ⟨some .good, some .good, none, 6⟩

/-- The PCIe device 0, from which the messages come, and the UDP device 0, which subscribes. -/
def demoRecords : Records :=
  CxxVector.empty.pushAll
    [Forwarding.demoRecord 1 2 ⟨.pcie, 0⟩, Forwarding.demoRecord 2 4 ⟨.udp, 0⟩]

/-- A message from the PCIe device is forwarded; then a local publisher publishes a chunk at
another address.  What is read for it, at the end of the empty table, is `stray`. -/
def demoRun (stray : DeviceIndex) : List Label :=
  [.discover demoRecords demoTransports, .push 100 (demoClassHash demoService) ⟨.pcie, 0⟩,
    .publish 0, .take 0, .lookup stray, .generate,
    .publishLocal 200 (demoClassHash demoService), .take 0, .lookup stray, .generate]

/-- The two outcomes. -/
def demoLog (stray : DeviceIndex) (forwarded : Bool) : List Outcome :=
  [⟨⟨200, demoClassHash demoService, none⟩, stray, forwarded⟩,
    ⟨⟨100, demoClassHash demoService, some ⟨.pcie, 0⟩⟩, ⟨.pcie, 0⟩, true⟩]

/-- What is read for the local chunk is the index of no known device: it is not forwarded. -/
theorem forwarder_attributes_sources_demo :
    ∃ s, Run.exec (step demoConfig) (State.init demoTransports) (demoRun ⟨.tcp, 7⟩) = some s ∧
      s.log = demoLog ⟨.tcp, 7⟩ false ∧ ∀ o ∈ s.log, o.Right := by
  have hrun : (Run.exec (step demoConfig) (State.init demoTransports)
      (demoRun ⟨.tcp, 7⟩)).map State.log = some (demoLog ⟨.tcp, 7⟩ false) := by
    decide +kernel
  obtain ⟨s, hs, hlog⟩ := Option.map_eq_some_iff.mp hrun
  exact ⟨s, hs, hlog, forwarder_attributes_sources demoConfig (by decide) demoTransports
    (demoRun ⟨.tcp, 7⟩) s (by decide +kernel) hs⟩

/-- **A local chunk is forwarded as if it had come from the PCIe device.**  The entry of the first
message has been erased, and still stands in the memory after the last element: the lookup of the
second chunk reads it. -/
theorem local_chunk_forwarded : ∃ s, Run.exec (step demoConfig) (State.init demoTransports)
    (demoRun ⟨.pcie, 0⟩) = some s ∧ ∃ o ∈ s.log, ¬ o.Right := by
  have hrun : (Run.exec (step demoConfig) (State.init demoTransports)
      (demoRun ⟨.pcie, 0⟩)).map State.log = some (demoLog ⟨.pcie, 0⟩ true) := by
    decide +kernel
  obtain ⟨s, hs, hlog⟩ := Option.map_eq_some_iff.mp hrun
  refine ⟨s, hs, ⟨⟨200, demoClassHash demoService, none⟩, ⟨.pcie, 0⟩, true⟩, ?_, ?_⟩
  · rw [hlog]
    exact List.mem_cons_self
  · intro hright
    exact absurd (hright.2 rfl) (by decide)

end P3com.TransportForwarder
