/-
# Device indices of the TCP transport

A device index of the TCP transport is reported with a discovery message and comes back in two
ways: `sendUserData` takes it as a position in `m_transportSessions`, and user data is reported
with a position in `m_devices`.  The number that is reported is the position of the session at that
time.  So three things have to be right: the address has the same position in both tables when it
is reported, no other session comes to that position, and no session before it is erased.  None of
them is ensured by the code.

`tcp_indices_consistent` says that these three are all that is needed (with room for the device):
in every run in which they hold at each step, an index leads to the address for which it was
reported last.  `closed_session_redirects` is the shortest run in which it does not: a session is
closed, and the index of its address leads to the next one.
-/
import P3com.Transport.TcpTransport

namespace P3com.TcpTransport

variable {interfaceEndpoints : List Endpoint} {s s' : State}

/-- The index that was last reported for the address. -/
def State.lastReported (s : State) (address : Address) : Option Nat :=
  (s.reports.find? fun call => call.sender = address).map Call.device

/-! ## The condition -/

/-- The position of the address among the sessions; for an address without a session, the position
where its session would be added. -/
def State.sessionPlace (s : State) (address : Address) : Nat :=
  s.transportSessions.toList.findIdx fun session => session.address = address

/-- The position of the address among the devices, or where it would be added. -/
def State.devicePlace (s : State) (address : Address) : Nat :=
  s.devices.toList.findIdx fun e => e.address = address

/-- If an index is reported now for the address, then the address has the same position in both
tables. -/
def SamePlace (s : State) (address : Address) : Prop :=
  s.callbacks.remoteDiscovery = true → s.devicePlace address = s.sessionPlace address

/-- A discovery message of the address waits until a session is open. -/
def Waiting (s : State) (address : Address) : Prop :=
  ∃ info ∈ s.infoToReport.toList, info.address = address

/-- No other address was last reported with the position where the next session is added. -/
def PlaceFree (s : State) (address : Address) : Prop :=
  ∀ call ∈ s.reports, s.lastReported call.sender = some s.transportSessions.size →
    call.sender = address

/-- What the steps of a run have to meet. -/
def Consistent (interfaceEndpoints : List Endpoint) (s : State) : Label → Prop
  | .datagram e _ _ =>
    e ∈ interfaceEndpoints ∨ s.callbacks.broadcast = false ∨
      (e ∈ s.devices.toList ∨ s.devices.size < maxDeviceCount) ∧
        (if (s.findSession e.address).isSome then SamePlace s e.address
          else PlaceFree s e.address)
  | .accepted address _ =>
    s.findSession address = none →
      if s.transportSessions.size < maxDeviceCount then
        PlaceFree s address ∧ (Waiting s address → SamePlace s address)
      else ∀ back ∈ s.transportSessions.toList.getLast?,
        Waiting s back.address → SamePlace s back.address
  | .opened id => ∀ session ∈ s.session id, Waiting s session.address → SamePlace s session.address
  | .closed id => ∀ k ∈ s.transportSessions.toList.findIdx? fun session => session.id = id,
      ∀ call ∈ s.reports, ∀ i ∈ s.lastReported call.sender,
        k ≤ i → s.transportSessions.size ≤ i + 1
  | _ => True

instance (s : State) (address : Address) : Decidable (SamePlace s address) :=
  inferInstanceAs (Decidable (_ → _))

instance (s : State) (address : Address) : Decidable (Waiting s address) :=
  inferInstanceAs (Decidable (∃ _ ∈ _, _))

instance (s : State) (address : Address) : Decidable (PlaceFree s address) :=
  inferInstanceAs (Decidable (∀ _ ∈ _, _ → _))

instance (interfaceEndpoints : List Endpoint) (s : State) :
    (l : Label) → Decidable (Consistent interfaceEndpoints s l)
  | .datagram _ _ _ => inferInstanceAs (Decidable (_ ∨ _ ∨ _ ∧ ite _ _ _))
  | .accepted _ _ => inferInstanceAs (Decidable (_ → ite _ _ _))
  | .opened _ => inferInstanceAs (Decidable (∀ _ ∈ _, _ → _))
  | .closed _ => inferInstanceAs (Decidable (∀ _ ∈ _, ∀ _ ∈ _, ∀ _ ∈ _, _ → _))
  | .register _ => isTrue trivial
  | .received _ _ => isTrue trivial

/-! ## The invariant -/

structure Inv (s : State) : Prop where
  infos : ∀ info ∈ s.infoToReport.toList, info.sender = info.address ∧
    (s.getIndex info.address).isSome = true
  sessions : ∀ address i session, s.lastReported address = some i →
    s.transportSessions.toList[i]? = some session → session.address = address
  devices : ∀ address i, s.lastReported address = some i → s.getIndex address = some i

theorem inv_init : Inv State.init :=
  ⟨by simp [State.init], by simp [State.init, State.lastReported],
    by simp [State.init, State.lastReported]⟩

theorem exists_call_of_lastReported {address : Address} {i : Nat}
    (h : s.lastReported address = some i) : ∃ call ∈ s.reports, call.sender = address := by
  obtain ⟨call, hcall, -⟩ := Option.map_eq_some_iff.mp h
  have hsender : call.sender = address := by simpa using List.find?_some hcall
  exact ⟨call, List.mem_of_find?_eq_some hcall, hsender⟩

theorem getIndex_eq_some_iff {address : Address} {i : Nat} :
    s.getIndex address = some i ↔ i < s.devices.size ∧ s.devicePlace address = i := by
  unfold State.getIndex State.devicePlace CxxVector.size
  exact List.findIdx?_eq_some_iff_findIdx_eq

theorem findSession_eq_some_iff {address : Address} {p : Nat} :
    s.findSession address = some p ↔
      p < s.transportSessions.size ∧ s.sessionPlace address = p := by
  unfold State.findSession State.sessionPlace CxxVector.size
  exact List.findIdx?_eq_some_iff_findIdx_eq

theorem address_of_findSession {address : Address} {p : Nat} {session : Session}
    (h : s.findSession address = some p) (hp : s.transportSessions.toList[p]? = some session) :
    session.address = address := by
  obtain ⟨hlt, hsat, -⟩ := List.findIdx?_eq_some_iff_getElem.mp h
  rw [List.getElem?_eq_getElem hlt] at hp
  obtain rfl := Option.some.inj hp
  simpa using hsat

/-! ## A report -/

/-- What `remoteDiscoveryHandler` does to the invariant: the index that is reported is the position
of the address in both tables. -/
theorem inv_remoteDiscoveryHandler (hs : Inv s) {sender : Address} {data : List Byte} {p : Nat}
    (hsession : ∀ session, s.transportSessions.toList[p]? = some session →
      session.address = sender)
    (hdevice : s.callbacks.remoteDiscovery = true → s.getIndex sender = some p) :
    Inv (s.remoteDiscoveryHandler sender data p) := by
  unfold State.remoteDiscoveryHandler
  split
  case isTrue hcallback =>
    have hlast : ∀ address i, State.lastReported
        { s with reports := ⟨sender, data, p⟩ :: s.reports } address = some i →
        (address = sender ∧ i = p) ∨ s.lastReported address = some i := by
      intro address i h
      unfold State.lastReported at h
      rw [List.find?_cons] at h
      split at h
      case h_1 heq =>
        refine .inl ⟨?_, by simpa using h.symm⟩
        exact (of_decide_eq_true heq).symm
      · exact .inr h
    refine ⟨hs.infos, fun address i session h hi => ?_, fun address i h => ?_⟩
    · rcases hlast address i h with ⟨rfl, rfl⟩ | h
      · exact hsession session hi
      · exact hs.sessions address i session h hi
    · rcases hlast address i h with ⟨rfl, rfl⟩ | h
      · exact hdevice hcallback
      · exact hs.devices address i h
  case isFalse => exact hs

/-- Infos that wait may be dropped. -/
theorem Inv.eraseInfo (hs : Inv s) (j : Nat) :
    Inv { s with infoToReport := s.infoToReport.erase j } :=
  ⟨fun info hinfo => hs.infos info (List.mem_of_mem_eraseIdx hinfo), hs.sessions, hs.devices⟩

theorem findSession_isSome {session : Session} (h : session ∈ s.transportSessions.toList) :
    ∃ p, s.findSession session.address = some p := by
  refine Option.isSome_iff_exists.mp ?_
  unfold State.findSession
  rw [List.findIdx?_isSome, List.any_eq_true]
  exact ⟨session, h, by simp⟩

/-- Opening a session reports what waits for it. -/
theorem inv_handleSessionOpen (hs : Inv s) {session : Session}
    (hmem : session ∈ s.transportSessions.toList)
    (hplace : Waiting s session.address → SamePlace s session.address) :
    Inv (s.handleSessionOpen session) := by
  unfold State.handleSessionOpen
  split
  · exact hs
  case h_2 j hj =>
    obtain ⟨hlt, hsat, -⟩ := List.findIdx?_eq_some_iff_getElem.mp hj
    rw [List.getElem?_eq_getElem hlt]
    obtain ⟨info, hinfo⟩ : ∃ info, s.infoToReport.toList[j] = info := ⟨_, rfl⟩
    have hinfomem : info ∈ s.infoToReport.toList := hinfo ▸ List.getElem_mem hlt
    have haddress : info.address = session.address := by simpa [hinfo] using hsat
    obtain ⟨hsender, hknown⟩ := hs.infos info hinfomem
    obtain ⟨p, hp⟩ := findSession_isSome hmem
    obtain ⟨i, hi⟩ := Option.isSome_iff_exists.mp hknown
    rw [haddress] at hsender hi
    simp only [hinfo, hp, Option.getD_some, hsender]
    have hreport : Inv (s.remoteDiscoveryHandler session.address info.data p) := by
      refine inv_remoteDiscoveryHandler hs (fun session' h => address_of_findSession hp h) ?_
      intro hcallback
      have hsame := hplace ⟨info, hinfomem, haddress⟩ hcallback
      rw [hi, ← (getIndex_eq_some_iff.mp hi).2, hsame, (findSession_eq_some_iff.mp hp).2]
    have := hreport.eraseInfo j
    rwa [remoteDiscoveryHandler_infoToReport] at this

/-! ## A new session -/

theorem inv_pushSession (hs : Inv s) (session : Session) (hfree : PlaceFree s session.address) :
    Inv { s with transportSessions := s.transportSessions.pushBack session } := by
  refine ⟨hs.infos, fun address i session' h hi => ?_, hs.devices⟩
  by_cases hroom : s.transportSessions.size < maxDeviceCount
  · rw [CxxVector.toList_pushBack hroom] at hi
    rcases Nat.lt_trichotomy i s.transportSessions.size with hlt | rfl | hgt
    · rw [List.getElem?_append_left hlt] at hi
      exact hs.sessions address i session' h hi
    · -- the position of the new session was last reported for no other address
      obtain ⟨call, hcall, rfl⟩ := exists_call_of_lastReported h
      have hnew : session = session' := by
        simpa [CxxVector.size] using hi
      rw [← hnew]
      exact (hfree call hcall h).symm
    · have hlen : (s.transportSessions.toList ++ [session]).length ≤ i := by
        rw [List.length_append]
        exact hgt
      rw [List.getElem?_eq_none hlen] at hi
      cases hi
  · rw [CxxVector.pushBack_full (Nat.le_antisymm s.transportSessions.size_le (by omega))] at hi
    exact hs.sessions address i session' h hi

/-! ## A new device -/

/-- Devices are only added at the end: positions stay. -/
theorem getIndex_registerDevice (e : Endpoint) {address : Address} {i : Nat}
    (h : s.getIndex address = some i) : (s.registerDevice e).1.getIndex address = some i := by
  unfold State.registerDevice
  split
  · exact h
  · by_cases hroom : s.devices.size < maxDeviceCount
    · unfold State.getIndex at h ⊢
      rw [CxxVector.toList_pushBack hroom, List.findIdx?_append, h]
      rfl
    · rw [CxxVector.pushBack_full (Nat.le_antisymm s.devices.size_le (by omega))]
      exact h

theorem inv_registerDevice (hs : Inv s) (e : Endpoint) : Inv (s.registerDevice e).1 := by
  obtain ⟨hinfos, hsessions, hreports, -⟩ := registerDevice_same s e
  have hlast : ∀ address, (s.registerDevice e).1.lastReported address = s.lastReported address := by
    intro address
    unfold State.lastReported
    rw [hreports]
  refine ⟨fun info hinfo => ?_, fun address i session h hi => ?_, fun address i h => ?_⟩
  · rw [hinfos] at hinfo
    obtain ⟨hsender, hknown⟩ := hs.infos info hinfo
    obtain ⟨i, hi⟩ := Option.isSome_iff_exists.mp hknown
    exact ⟨hsender, by rw [getIndex_registerDevice e hi]; rfl⟩
  · rw [hlast] at h
    rw [hsessions] at hi
    exact hs.sessions address i session h hi
  · rw [hlast] at h
    exact getIndex_registerDevice e (hs.devices address i h)

theorem getIndex_of_mem {e : Endpoint} (h : e ∈ s.devices.toList) :
    s.getIndex e.address = some (s.devicePlace e.address) := by
  have hsome : (s.getIndex e.address).isSome = true := by
    unfold State.getIndex
    rw [List.findIdx?_isSome, List.any_eq_true]
    exact ⟨e, h, by simp⟩
  obtain ⟨i, hi⟩ := Option.isSome_iff_exists.mp hsome
  rw [hi, (getIndex_eq_some_iff.mp hi).2]

/-- A sender that is known, or for which there is room, has its position afterwards. -/
theorem getIndex_registerDevice_self {e : Endpoint}
    (h : e ∈ s.devices.toList ∨ s.devices.size < maxDeviceCount) :
    (s.registerDevice e).1.getIndex e.address = some (s.devicePlace e.address) := by
  unfold State.registerDevice
  split
  case h_1 device hdevice =>
    obtain ⟨hlt, he, -⟩ := List.idxOf?_eq_some_iff.mp hdevice
    exact getIndex_of_mem (he ▸ List.getElem_mem hlt)
  case h_2 hdevice =>
    have hroom := h.resolve_left (by simpa using hdevice)
    unfold State.getIndex State.devicePlace
    rw [CxxVector.toList_pushBack hroom, List.findIdx?_append]
    cases hfind : s.devices.toList.findIdx? fun e' => e'.address = e.address with
    | some i => simp [(List.findIdx?_eq_some_iff_findIdx_eq.mp hfind).2]
    | none => simp [List.findIdx?_eq_none_iff_findIdx_eq.mp hfind]

/-! ## The steps -/

section Steps

variable {e : Endpoint} {address : Address} {data : List Byte} {id : Nat}

theorem inv_datagram (hs : Inv s) (hg : Consistent interfaceEndpoints s (.datagram e data id))
    (h : s.discoverySocketCallback interfaceEndpoints e data id = some s') : Inv s' := by
  unfold State.discoverySocketCallback at h
  split at h
  · obtain rfl := Option.some.inj h
    exact hs
  case isFalse hown =>
    obtain ⟨⟨s₁, device⟩, hs₁⟩ : ∃ r, s.registerDevice e = r := ⟨_, rfl⟩
    have hinv := inv_registerDevice hs e
    obtain ⟨hinfos, hsessions, hreports, hcallbacks⟩ := registerDevice_same s e
    simp only [hs₁] at h hinv hinfos hsessions hreports hcallbacks
    split at h
    case isFalse =>
      obtain rfl := Option.some.inj h
      exact hinv
    case isTrue hbroadcast =>
      rw [hcallbacks] at hbroadcast
      obtain ⟨hknown, hplace⟩ := (hg.resolve_left hown).resolve_left (by simp [hbroadcast])
      have hendpoint := getEndpoint_registerDevice hknown
      have hindex := getIndex_registerDevice_self hknown
      rw [hs₁] at hendpoint hindex
      have hfind : s₁.findSession e.address = s.findSession e.address := by
        unfold State.findSession
        rw [hsessions]
      simp only [State.udpDiscoveryCallback, hendpoint, hfind] at h
      split at h
      case h_1 hnone =>
        rw [hnone] at hplace
        split at h
        · obtain rfl := Option.some.inj h
          have hfree : PlaceFree s₁ e.address := by
            unfold PlaceFree State.lastReported
            rw [hsessions, hreports]
            exact hplace
          have hpush := inv_pushSession hinv ⟨id, true, e.address⟩ hfree
          refine ⟨fun info hinfo => ?_, hpush.sessions, hpush.devices⟩
          rcases CxxVector.mem_of_mem_pushBack hinfo with hinfo | rfl
          · exact hinv.infos info hinfo
          · refine ⟨rfl, ?_⟩
            show (s₁.getIndex e.address).isSome = true
            rw [hindex]
            rfl
        · cases h
      case h_2 p hp =>
        obtain rfl := Option.some.inj h
        rw [hp] at hplace
        refine inv_remoteDiscoveryHandler hinv (fun session hsession => ?_) (fun hcallback => ?_)
        · rw [hsessions] at hsession
          exact address_of_findSession hp hsession
        · rw [hcallbacks] at hcallback
          rw [hindex, hplace hcallback, (findSession_eq_some_iff.mp hp).2]

theorem inv_accepted (hs : Inv s) (hg : Consistent interfaceEndpoints s (.accepted address id)) :
    Inv (s.accept address id) := by
  unfold State.accept
  split
  case h_2 => exact hs
  case h_1 hnone =>
    have hg := hg hnone
    unfold State.addSession
    split at hg
    case isTrue hroom =>
      obtain ⟨hfree, hplace⟩ := hg
      have hpush := inv_pushSession hs ⟨id, false, address⟩ hfree
      have hlist := CxxVector.toList_pushBack hroom (⟨id, false, address⟩ : Session)
      simp only [hlist, List.getLast?_append, List.getLast?_singleton, Option.some_or]
      refine inv_handleSessionOpen hpush (by rw [hlist]; simp) (fun hwaiting hcallback => ?_)
      -- the position where the session was added is the position that it has now
      have hsame := hplace hwaiting hcallback
      have hnew : State.sessionPlace { s with
          transportSessions := s.transportSessions.pushBack ⟨id, false, address⟩ } address
          = s.sessionPlace address := by
        have hend : s.sessionPlace address = s.transportSessions.toList.length :=
          List.findIdx?_eq_none_iff_findIdx_eq.mp hnone
        unfold State.sessionPlace at hend ⊢
        rw [hlist, List.findIdx_append, hend]
        simp
      exact hsame.trans hnew.symm
    case isFalse hfull =>
      have hsize : s.transportSessions.size = maxDeviceCount :=
        Nat.le_antisymm s.transportSessions.size_le (Nat.le_of_not_lt hfull)
      simp only [CxxVector.pushBack_full hsize]
      split
      · exact hs
      case h_2 back hback =>
        exact inv_handleSessionOpen hs (List.mem_of_getLast? hback) (hg back hback)

theorem inv_closed (hs : Inv s) (hg : Consistent interfaceEndpoints s (.closed id)) :
    Inv (s.handleSessionClose id) := by
  unfold State.handleSessionClose
  split
  · exact hs
  case h_2 k hk =>
    refine ⟨hs.infos, fun address i session h hi => ?_, hs.devices⟩
    obtain ⟨call, hcall, hsender⟩ := exists_call_of_lastReported h
    have hi : (s.transportSessions.toList.eraseIdx k)[i]? = some session := hi
    rcases Nat.lt_or_ge i k with hlt | hge
    · rw [List.getElem?_eraseIdx_of_lt hlt] at hi
      exact hs.sessions address i session h hi
    · have hend := hg k hk call hcall i (by rw [hsender]; exact h) hge
      rw [List.getElem?_eraseIdx_of_ge hge, List.getElem?_eq_none hend] at hi
      cases hi

theorem inv_received (hs : Inv s) : Inv (s.handleUserDataCallback address data) := by
  unfold State.handleUserDataCallback
  split
  · exact hs
  · split
    · exact ⟨hs.infos, hs.sessions, hs.devices⟩
    · exact hs

theorem mem_of_session {session : Session} (h : s.session id = some session) :
    session ∈ s.transportSessions.toList :=
  List.mem_of_find?_eq_some h

/-- **One step.** -/
theorem inv_step {l : Label} (hs : Inv s) (hg : Consistent interfaceEndpoints s l)
    (h : step interfaceEndpoints s l = some s') : Inv s' := by
  cases l with
  | register callbacks =>
    obtain rfl := Option.some.inj h
    exact ⟨hs.infos, hs.sessions, hs.devices⟩
  | datagram e data id =>
    simp only [step] at h
    split at h
    · cases h
    · exact inv_datagram hs hg h
  | accepted address id =>
    simp only [step] at h
    split at h
    · cases h
    · obtain rfl := Option.some.inj h
      exact inv_accepted hs hg
  | opened id =>
    simp only [step] at h
    split at h
    case h_1 session hsession =>
      split at h
      · obtain rfl := Option.some.inj h
        exact inv_handleSessionOpen hs (mem_of_session hsession) (hg session hsession)
      · cases h
    · cases h
  | closed id =>
    obtain rfl := Option.some.inj h
    exact inv_closed hs hg
  | received id data =>
    simp only [step] at h
    obtain ⟨session, -, rfl⟩ := Option.map_eq_some_iff.mp h
    exact inv_received hs

end Steps

/-! ## The result -/

/-- What is claimed of the indices: the last one reported for an address leads to its session or to
none, and user data from the address is reported with it. -/
def Identifies (interfaceEndpoints : List Endpoint) (s : State) : Prop :=
  ∀ address i, s.lastReported address = some i →
    (∀ session, s.sendUserData i = some session → session.address = address) ∧
    ∀ id session data s', s.session id = some session → session.address = address →
      s.callbacks.userData = true → step interfaceEndpoints s (.received id data) = some s' →
      s'.userData = ⟨address, data, i⟩ :: s.userData

theorem Inv.identifies (hs : Inv s) : Identifies interfaceEndpoints s := by
  intro address i h
  refine ⟨fun session hsession => hs.sessions address i session h hsession, ?_⟩
  rintro id session data s' hid rfl hcallback hstep
  simp only [step, hid, Option.map_some, State.handleUserDataCallback,
    hs.devices session.address i h, hcallback, if_true] at hstep
  obtain rfl := Option.some.inj hstep
  rfl

/-- **Indices identify peers in every run whose steps meet the condition.** -/
theorem tcp_indices_consistent (interfaceEndpoints : List Endpoint) (ls : List Label) (s : State)
    (hg : Run.Guarded (step interfaceEndpoints) (Consistent interfaceEndpoints) State.init ls)
    (h : Run.exec (step interfaceEndpoints) State.init ls = some s) :
    Identifies interfaceEndpoints s :=
  (Run.invariant_guarded Inv (fun _ _ _ => inv_step) inv_init hg h).identifies

/-! ## Two runs -/

/-- Two peers are discovered and connected. -/
def demoRun : List Label :=
  [.register ⟨true, true, true⟩, .datagram ⟨1, 9332⟩ [7] 1, .datagram ⟨2, 9332⟩ [8] 2, .opened 2,
    .opened 1]

/-- The last of the two sessions is closed; the peer is discovered once more. -/
def demoReconnect : List Label :=
  demoRun ++ [.closed 2, .datagram ⟨2, 9332⟩ [8] 3, .opened 3]

theorem tcp_indices_consistent_demo :
    ∃ s, Run.exec (step []) State.init demoReconnect = some s ∧
      s.reports.map Call.device = [1, 0, 1] ∧ Identifies [] s := by
  have hrun : (Run.exec (step []) State.init demoReconnect).map
      (fun s => s.reports.map Call.device) = some [1, 0, 1] := by
    decide +kernel
  obtain ⟨s, hs, hreports⟩ := Option.map_eq_some_iff.mp hrun
  exact ⟨s, hs, hreports, tcp_indices_consistent [] demoReconnect s (by decide +kernel) hs⟩

/-- **After a session is closed, its index leads to the next one.**  The first of the two sessions
is closed; what is meant for its address goes to the second. -/
theorem closed_session_redirects : ∃ s, Run.exec (step []) State.init (demoRun ++ [.closed 1]) =
    some s ∧ s.lastReported 1 = some 0 ∧ s.sendUserData 0 = some ⟨2, true, 2⟩ ∧
      ¬ Identifies [] s := by
  have hrun : (Run.exec (step []) State.init (demoRun ++ [.closed 1])).map
      (fun s => (s.lastReported 1, s.sendUserData 0)) = some (some 0, some ⟨2, true, 2⟩) := by
    decide +kernel
  obtain ⟨s, hs, hpair⟩ := Option.map_eq_some_iff.mp hrun
  obtain ⟨hlast, hsend⟩ := Prod.mk.inj hpair
  refine ⟨s, hs, hlast, hsend, fun h => ?_⟩
  exact absurd ((h 1 0 hlast).1 _ hsend) (by decide)

end P3com.TcpTransport
