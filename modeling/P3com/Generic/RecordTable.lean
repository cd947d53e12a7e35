/-
# The table of remote gateways

`receiveRemoteDiscoveryInfo` keeps one record for every gateway it has heard of, in a vector of
`MAX_DEVICE_COUNT` elements.  Read as a map from gateway hashes to records the table is faithful
in two respects, over every sequence of messages: no hash has two records, and a record holds the
info of the last message of its gateway.

In a third respect it is not.  When the table is full, `emplace_back` fails for a new gateway, the
result is not looked at, and `back()` is then the record of another gateway, which is overwritten.
`receive_other_iff` says that this is the only case in which a message changes the record of
another gateway.
-/
import P3com.Generic.Discovery
import Mathlib.Data.List.Induction
import Mathlib.Tactic.Tauto

namespace P3com

namespace Records

variable {r : Records} {info : PubSubInfo} {deviceIndex : DeviceIndex}

/-- The gateways with a record. -/
def hashes (r : Records) : List Hash := r.toList.map fun record => record.info.gatewayHash

/-- The record of a gateway. -/
def lookup (r : Records) (h : Hash) : Option DeviceRecord :=
  r.toList.find? fun record => record.info.gatewayHash = h

/-- The message would need a new record, and there is no room. -/
def Overflows (r : Records) (info : PubSubInfo) : Prop :=
  info.isTermination = false ∧ info.gatewayHash ∉ r.hashes ∧ r.size = maxDeviceCount

instance (r : Records) (info : PubSubInfo) : Decidable (r.Overflows info) :=
  inferInstanceAs (Decidable (_ ∧ _ ∧ _))

theorem findHash_eq_none {h : Hash} : r.findHash h = none ↔ h ∉ r.hashes := by
  unfold findHash hashes
  rw [List.findIdx?_eq_none_iff]
  simp only [decide_eq_false_iff_not, List.mem_map, not_exists, not_and]

theorem findHash_eq_some {h : Hash} {i : Nat} (hf : r.findHash h = some i) :
    ∃ record, r.toList[i]? = some record ∧ record.info.gatewayHash = h := by
  obtain ⟨hlt, hp, -⟩ := List.findIdx?_eq_some_iff_getElem.mp hf
  exact ⟨r.toList[i], List.getElem?_eq_getElem hlt, by simpa using hp⟩

/-! ## What a message does -/

/-- What `register` leaves: a new record at the end, or at capacity the last record overwritten. -/
theorem register_eq (r : Records) (info : PubSubInfo) (deviceIndex : DeviceIndex) :
    (r.size < maxDeviceCount ∧ (r.register info deviceIndex).toList
      = r.toList ++ [update ⟨.default, .empty⟩ info deviceIndex]) ∨
    (r.size = maxDeviceCount ∧ ∃ front last, r.toList = front ++ [last] ∧
      (r.register info deviceIndex).toList = front ++ [update last info deviceIndex]) := by
  have hset : ∀ (v : Records) (front : List DeviceRecord) (last : DeviceRecord) (x : DeviceRecord),
      v.toList = front ++ [last] → (v.set (v.size - 1) x).toList = front ++ [x] := by
    intro v front last x hv
    have hsize : v.size - 1 = front.length := by simp [CxxVector.size, hv]
    change v.toList.set (v.size - 1) x = front ++ [x]
    rw [hv, hsize, List.set_append_right _ _ (Nat.le_refl _), Nat.sub_self]
    rfl
  rcases Nat.lt_or_ge r.size maxDeviceCount with hlt | hge
  · refine Or.inl ⟨hlt, ?_⟩
    have hpush := CxxVector.toList_pushBack hlt ⟨PubSubInfo.default, CxxVector.empty⟩
    unfold register
    simp only [hpush, List.getLast?_concat]
    exact hset _ _ _ _ hpush
  · have hfull : r.size = maxDeviceCount := Nat.le_antisymm r.size_le hge
    refine Or.inr ⟨hfull, ?_⟩
    have hne : r.toList ≠ [] := by
      rintro hnil
      simp [CxxVector.size, hnil, maxDeviceCount] at hfull
    refine ⟨r.toList.dropLast, r.toList.getLast hne, (List.dropLast_append_getLast hne).symm, ?_⟩
    unfold register
    simp only [CxxVector.pushBack_full hfull, List.getLast?_eq_some_getLast hne]
    exact hset _ _ _ _ (List.dropLast_append_getLast hne).symm

/-- **What a message can do to the table.** -/
theorem receive_cases (r : Records) (info : PubSubInfo) (deviceIndex : DeviceIndex) :
    (∃ front record back, r.toList = front ++ record :: back ∧
      record.info.gatewayHash = info.gatewayHash ∧
      ((info.isTermination = true ∧ (r.receive info deviceIndex).toList = front ++ back) ∨
        (info.isTermination = false ∧ (r.receive info deviceIndex).toList
          = front ++ update record info deviceIndex :: back))) ∨
    (info.gatewayHash ∉ r.hashes ∧
      ((info.isTermination = true ∧ r.receive info deviceIndex = r) ∨
        (info.isTermination = false ∧ r.size < maxDeviceCount ∧
          (r.receive info deviceIndex).toList
            = r.toList ++ [update ⟨.default, .empty⟩ info deviceIndex]) ∨
        (info.isTermination = false ∧ r.size = maxDeviceCount ∧ ∃ front last,
          r.toList = front ++ [last] ∧
          (r.receive info deviceIndex).toList = front ++ [update last info deviceIndex]))) := by
  unfold receive
  cases hf : r.findHash info.gatewayHash with
  | some i =>
    obtain ⟨record, hi, hhash⟩ := findHash_eq_some hf
    obtain ⟨hlt, hget⟩ := List.getElem?_eq_some_iff.mp hi
    have hsplit : r.toList = r.toList.take i ++ record :: r.toList.drop (i + 1) := by
      rw [← hget, List.getElem_cons_drop, List.take_append_drop]
    refine Or.inl ⟨r.toList.take i, record, r.toList.drop (i + 1), hsplit, hhash, ?_⟩
    cases ht : info.isTermination with
    | true =>
      refine Or.inl ⟨rfl, ?_⟩
      exact List.eraseIdx_eq_take_drop_succ _ _
    | false =>
      refine Or.inr ⟨rfl, ?_⟩
      simp only [hi, Bool.false_eq_true, if_false]
      exact List.set_eq_take_append_cons_drop.trans (if_pos hlt)
  | none =>
    refine Or.inr ⟨findHash_eq_none.mp hf, ?_⟩
    cases ht : info.isTermination with
    | true => exact Or.inl ⟨rfl, rfl⟩
    | false =>
      refine Or.inr ?_
      simp only [Bool.false_eq_true, if_false]
      rcases register_eq r info deviceIndex with ⟨hlt, heq⟩ | ⟨hfull, front, last, hr, heq⟩
      · exact Or.inl ⟨trivial, hlt, heq⟩
      · exact Or.inr ⟨trivial, hfull, front, last, hr, heq⟩

/-! ## One record for each gateway, with its last info -/

theorem nodup_hashes_receive (h : r.hashes.Nodup) : (r.receive info deviceIndex).hashes.Nodup := by
  unfold hashes at h ⊢
  rcases receive_cases r info deviceIndex with
    ⟨front, record, back, hr, hhash, ⟨-, heq⟩ | ⟨-, heq⟩⟩ |
    ⟨hnew, ⟨-, heq⟩ | ⟨-, -, heq⟩ | ⟨-, -, front, last, hr, heq⟩⟩
  · rw [heq]
    rw [hr] at h
    exact h.sublist ((List.Sublist.append_left (List.sublist_cons_self _ _) _).map _)
  · rw [heq]
    rw [hr] at h
    simpa [update, hhash] using h
  · rw [heq]
    exact h
  · rw [heq, List.map_append]
    refine h.append (List.nodup_singleton _) (List.disjoint_singleton.mpr ?_)
    exact hnew
  · rw [heq, List.map_append]
    rw [hr, List.map_append] at h
    refine (List.nodup_append.mp h).1.append (List.nodup_singleton _)
      (List.disjoint_singleton.mpr fun hmem => hnew ?_)
    unfold hashes
    rw [hr, List.map_append]
    exact List.mem_append_left _ hmem

/-- A record after a message: the record of the message, or one that was there before. -/
theorem mem_receive {record : DeviceRecord} (h : r.hashes.Nodup)
    (hmem : record ∈ (r.receive info deviceIndex).toList) :
    (record.info = info ∧ info.isTermination = false) ∨
      (record ∈ r.toList ∧ record.info.gatewayHash ≠ info.gatewayHash) := by
  unfold hashes at h
  rcases receive_cases r info deviceIndex with
    ⟨front, old, back, hr, hhash, hcases⟩ |
    ⟨hnew, ⟨-, heq⟩ | ⟨hterm, -, heq⟩ | ⟨hterm, -, front, last, hr, heq⟩⟩
  · -- the other records of the table have other hashes
    have hother : ∀ record, record ∈ front ∨ record ∈ back →
        record ∈ r.toList ∧ record.info.gatewayHash ≠ info.gatewayHash := by
      intro record hrec
      rw [hr, List.map_append, List.map_cons] at h
      have hn := List.nodup_middle.mp h
      refine ⟨?_, fun heq => ?_⟩
      · rw [hr]
        rcases hrec with hrec | hrec
        · exact List.mem_append_left _ hrec
        · exact List.mem_append_right _ (List.mem_cons_of_mem _ hrec)
      · apply (List.nodup_cons.mp hn).1
        rw [hhash, ← heq]
        rcases hrec with hrec | hrec
        · exact List.mem_append_left _ (List.mem_map_of_mem hrec)
        · exact List.mem_append_right _ (List.mem_map_of_mem hrec)
    rcases hcases with ⟨-, heq⟩ | ⟨hterm, heq⟩
    · rw [heq] at hmem
      exact Or.inr (hother record (List.mem_append.mp hmem))
    · rw [heq] at hmem
      rcases List.mem_append.mp hmem with hmem | hmem
      · exact Or.inr (hother record (Or.inl hmem))
      · rcases List.mem_cons.mp hmem with rfl | hmem
        · exact Or.inl ⟨rfl, hterm⟩
        · exact Or.inr (hother record (Or.inr hmem))
  · rw [heq] at hmem
    exact Or.inr ⟨hmem, fun h => hnew (h ▸ List.mem_map_of_mem hmem)⟩
  · rw [heq] at hmem
    rcases List.mem_append.mp hmem with hmem | hmem
    · exact Or.inr ⟨hmem, fun h => hnew (h ▸ List.mem_map_of_mem hmem)⟩
    · rw [List.mem_singleton.mp hmem]
      exact Or.inl ⟨rfl, hterm⟩
  · rw [heq] at hmem
    rcases List.mem_append.mp hmem with hmem | hmem
    · have hmem' : record ∈ r.toList := by
        rw [hr]
        exact List.mem_append_left _ hmem
      exact Or.inr ⟨hmem', fun h => hnew (h ▸ List.mem_map_of_mem hmem')⟩
    · rw [List.mem_singleton.mp hmem]
      exact Or.inl ⟨rfl, hterm⟩

/-! ## The device indices of a record -/

/-- What storing keeps, a message keeps in every record. -/
theorem forall_deviceIndices_receive {P : CxxVector DeviceIndex transportTypeCount → Prop}
    (hnew : P (storeDeviceIndex .empty deviceIndex))
    (hstore : ∀ v, P v → P (storeDeviceIndex v deviceIndex))
    (h : ∀ record ∈ r.toList, P record.deviceIndices) :
    ∀ record ∈ (r.receive info deviceIndex).toList, P record.deviceIndices := by
  intro record hmem
  rcases receive_cases r info deviceIndex with
    ⟨front, old, back, hr, -, ⟨-, heq⟩ | ⟨-, heq⟩⟩ |
    ⟨-, ⟨-, heq⟩ | ⟨-, -, heq⟩ | ⟨-, -, front, last, hr, heq⟩⟩
  · rw [hr] at h
    rw [heq, List.mem_append] at hmem
    rcases hmem with hmem | hmem
    · exact h record (List.mem_append_left _ hmem)
    · exact h record (List.mem_append_right _ (List.mem_cons_of_mem _ hmem))
  · rw [hr] at h
    rw [heq, List.mem_append, List.mem_cons] at hmem
    rcases hmem with hmem | rfl | hmem
    · exact h record (List.mem_append_left _ hmem)
    · exact hstore _ (h old (List.mem_append_right _ List.mem_cons_self))
    · exact h record (List.mem_append_right _ (List.mem_cons_of_mem _ hmem))
  · rw [heq] at hmem
    exact h record hmem
  · rw [heq, List.mem_append, List.mem_singleton] at hmem
    rcases hmem with hmem | rfl
    · exact h record hmem
    · exact hnew
  · rw [hr] at h
    rw [heq, List.mem_append, List.mem_singleton] at hmem
    rcases hmem with hmem | rfl
    · exact h record (List.mem_append_left _ hmem)
    · exact hstore _ (h last (List.mem_append_right _ (List.mem_singleton_self _)))

/-- A vector of device indices has at most one index of each type. -/
theorem nodup_types_storeDeviceIndex {v : CxxVector DeviceIndex transportTypeCount}
    (h : (v.toList.map DeviceIndex.type).Nodup) :
    ((storeDeviceIndex v deviceIndex).toList.map DeviceIndex.type).Nodup := by
  unfold storeDeviceIndex
  split
  · exact h
  · rename_i hnew
    unfold CxxVector.pushBack
    split
    · rw [List.map_append]
      refine h.append (List.nodup_singleton _) (List.disjoint_singleton.mpr ?_)
      simpa using hnew
    · exact h

/-! ## The records of other gateways -/

/-- A list of records in which one record of gateway `g` is replaced, added or removed. -/
theorem find?_congr_middle (front mid mid' back : List DeviceRecord) {g h : Hash}
    (hmid : ∀ record ∈ mid, record.info.gatewayHash = g)
    (hmid' : ∀ record ∈ mid', record.info.gatewayHash = g) (hne : h ≠ g) :
    (front ++ mid ++ back).find? (fun record => record.info.gatewayHash = h)
      = (front ++ mid' ++ back).find? fun record => record.info.gatewayHash = h := by
  have hnone : ∀ l : List DeviceRecord, (∀ record ∈ l, record.info.gatewayHash = g) →
      l.find? (fun record => record.info.gatewayHash = h) = none := by
    intro l hl
    rw [List.find?_eq_none]
    intro record hrec
    rw [hl record hrec]
    simpa using hne.symm
  simp [List.find?_append, hnone mid hmid, hnone mid' hmid']

/-- **A message leaves the records of other gateways alone, unless it overflows the table.** -/
theorem receive_other_iff (hn : r.hashes.Nodup) :
    (∀ h, h ≠ info.gatewayHash → (r.receive info deviceIndex).lookup h = r.lookup h) ↔
      ¬ r.Overflows info := by
  unfold lookup
  rcases receive_cases r info deviceIndex with
    ⟨front, record, back, hr, hhash, hcases⟩ |
    ⟨hnew, ⟨hterm, heq⟩ | ⟨hterm, hlt, heq⟩ | ⟨hterm, hfull, front, last, hr, heq⟩⟩
  · have hseen : info.gatewayHash ∈ r.hashes := by
      unfold hashes
      rw [hr, ← hhash]
      exact List.mem_map_of_mem (List.mem_append_right _ List.mem_cons_self)
    refine iff_of_true (fun h hne => ?_) fun ho => ho.2.1 hseen
    rcases hcases with ⟨-, heq⟩ | ⟨-, heq⟩
    · rw [heq, hr]
      have := find?_congr_middle front [] [record] back (by simp) (by simpa using hhash) hne
      simpa using this
    · rw [heq, hr]
      have := find?_congr_middle front [update record info deviceIndex] [record] back
        (by simp [update]) (by simpa using hhash) hne
      simpa using this
  · refine iff_of_true (fun h _ => by rw [heq]) fun ho => ?_
    rw [ho.1] at hterm
    cases hterm
  · refine iff_of_true (fun h hne => ?_) fun ho => by have := ho.2.2; omega
    rw [heq]
    have := find?_congr_middle r.toList
      [update ⟨PubSubInfo.default, CxxVector.empty⟩ info deviceIndex] [] []
      (g := info.gatewayHash) (by simp [update]) (by simp) hne
    simpa using this
  · refine iff_of_false (fun hall => ?_) fun ho => ho ⟨hterm, hnew, hfull⟩
    -- the gateway of the last record loses it
    have hlast : last.info.gatewayHash ≠ info.gatewayHash := by
      rintro heq'
      apply hnew
      unfold hashes
      rw [hr, ← heq']
      exact List.mem_map_of_mem (List.mem_append_right _ (List.mem_singleton_self _))
    have hfront : ∀ record ∈ front, record.info.gatewayHash ≠ last.info.gatewayHash := by
      unfold hashes at hn
      rw [hr, List.map_append] at hn
      intro record hrec heq'
      exact (List.nodup_append.mp hn).2.2 _ (List.mem_map_of_mem hrec) _
        (List.mem_singleton_self _) heq'
    have h := hall last.info.gatewayHash hlast
    have hnone : front.find? (fun record => record.info.gatewayHash = last.info.gatewayHash)
        = none := by
      rw [List.find?_eq_none]
      intro record hrec
      simpa using hfront record hrec
    rw [heq, hr, List.find?_append, List.find?_append, hnone] at h
    simp [update, hlast.symm] at h

/-- Which gateways have a record after a message that does not overflow the table. -/
theorem mem_hashes_receive (hn : r.hashes.Nodup) (hover : ¬ r.Overflows info) {h : Hash} :
    h ∈ (r.receive info deviceIndex).hashes ↔
      (h = info.gatewayHash ∧ info.isTermination = false) ∨
        (h ≠ info.gatewayHash ∧ h ∈ r.hashes) := by
  unfold hashes at hn ⊢
  rcases receive_cases r info deviceIndex with
    ⟨front, record, back, hr, hhash, hcases⟩ |
    ⟨hnew, ⟨hterm, heq⟩ | ⟨hterm, hlt, heq⟩ | ⟨hterm, hfull, -⟩⟩
  · rw [hr, List.map_append, List.map_cons, hhash] at hn
    obtain ⟨hnot, -⟩ := List.nodup_cons.mp (List.nodup_middle.mp hn)
    rw [List.mem_append, not_or] at hnot
    rw [hr]
    rcases hcases with ⟨hterm, heq⟩ | ⟨hterm, heq⟩
    · rw [heq]
      simp only [List.map_append, List.map_cons, List.mem_append, List.mem_cons, hhash, hterm]
      by_cases hh : h = info.gatewayHash
      · subst hh
        simp [hnot.1, hnot.2]
      · simp [hh]
    · rw [heq]
      simp only [List.map_append, List.map_cons, List.mem_append, List.mem_cons, hhash, hterm,
        update]
      tauto
  · rw [heq, hterm]
    by_cases hh : h = info.gatewayHash
    · subst hh
      simpa [hashes] using hnew
    · simp [hh]
  · rw [heq, hterm]
    simp only [List.map_append, List.map_cons, List.map_nil, List.mem_append, List.mem_singleton,
      update]
    by_cases hh : h = info.gatewayHash
    · simp [hh]
    · simp [hh]
  · exact absurd ⟨hterm, hnew, hfull⟩ hover

/-! ## Every sequence of messages -/

/-- A discovery message and the device it came from. -/
abbrev Message := PubSubInfo × DeviceIndex

/-- The table after a sequence of messages. -/
def run (ms : List Message) : Records := ms.foldl (fun r m => r.receive m.1 m.2) .empty

/-- The info of the last message of a gateway. -/
def lastInfo (ms : List Message) (g : Hash) : Option PubSubInfo :=
  (ms.filter fun m => m.1.gatewayHash = g).getLast?.map Prod.fst

/-- What is asked of the table when the message `m` arrives after the messages `ms`. -/
structure Faithful (ms : List Message) (m : Message) : Prop where
  nodup : (run (ms ++ [m])).hashes.Nodup
  others : ∀ h, h ≠ m.1.gatewayHash → (run (ms ++ [m])).lookup h = (run ms).lookup h
  last : ∀ record ∈ (run (ms ++ [m])).toList,
    lastInfo (ms ++ [m]) record.info.gatewayHash = some record.info ∧
      record.info.isTermination = false

theorem run_append (ms : List Message) (m : Message) :
    run (ms ++ [m]) = (run ms).receive m.1 m.2 := by
  rw [run, List.foldl_append]
  rfl

theorem lastInfo_append (ms : List Message) (m : Message) (g : Hash) :
    lastInfo (ms ++ [m]) g = if m.1.gatewayHash = g then some m.1 else lastInfo ms g := by
  unfold lastInfo
  rw [List.filter_append]
  by_cases h : m.1.gatewayHash = g
  · rw [if_pos h, List.filter_cons_of_pos (by simpa using h)]
    simp
  · rw [if_neg h, List.filter_cons_of_neg (by simpa using h)]
    simp

/-- **The table of every run**: distinct hashes, and the last info of each gateway. -/
theorem run_spec (ms : List Message) : (run ms).hashes.Nodup ∧
    ∀ record ∈ (run ms).toList, lastInfo ms record.info.gatewayHash = some record.info ∧
      record.info.isTermination = false := by
  induction ms using List.reverseRecOn with
  | nil => exact ⟨List.nodup_nil, by simp [run]⟩
  | append_singleton ms m ih =>
    obtain ⟨hn, hlast⟩ := ih
    rw [run_append]
    refine ⟨nodup_hashes_receive hn, fun record hmem => ?_⟩
    rw [lastInfo_append]
    rcases mem_receive hn hmem with ⟨hinfo, hterm⟩ | ⟨hmem, hne⟩
    · rw [if_pos (by rw [hinfo]), hinfo]
      exact ⟨rfl, hterm⟩
    · rw [if_neg (Ne.symm hne)]
      exact hlast record hmem

/-- **The table is a faithful map exactly as long as no message overflows it.** -/
theorem record_table_faithful_iff (ms : List Message) :
    (∀ before m after, ms = before ++ m :: after → Faithful before m) ↔
      ∀ before m after, ms = before ++ m :: after → ¬ (run before).Overflows m.1 := by
  refine forall_congr' fun before => forall_congr' fun m => forall_congr' fun after =>
    imp_congr_right fun _ => ?_
  have hother : (∀ h, h ≠ m.1.gatewayHash →
      ((run before).receive m.1 m.2).lookup h = (run before).lookup h) ↔ _ :=
    receive_other_iff (run_spec before).1
  rw [← run_append] at hother
  constructor
  · intro h
    exact hother.mp h.others
  · intro h
    exact ⟨(run_spec _).1, hother.mpr h, (run_spec _).2⟩

/-- An ordinary message of a gateway without subscribers. -/
def demoMessage (g : Nat) : Message :=
  (⟨.empty, 0, UInt32.ofNat g, 0, false⟩, ⟨.udp, UInt32.ofNat g⟩)

/-- The message of the eleventh gateway takes the record of the tenth. -/
theorem record_table_overwritten :
    ¬ Faithful ((List.range maxDeviceCount).map demoMessage) (demoMessage maxDeviceCount) := by
  intro h
  have := h.others 9 (by decide)
  revert this
  decide

end Records

end P3com
