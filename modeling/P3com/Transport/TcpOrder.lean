/-
# The order of the discovery infos over TCP

`udpDiscoveryCallback` and `handleSessionOpen` of `source/tcp/tcp_transport.cpp`.  A discovery info
takes one of two ways to `m_remoteDiscoveryCallback`.  With a session to the sender it is reported
at once.  Without one it is put into `m_infoToReport` until the session opens, and a client session
is added, which counts as a session from then on.  So the second datagram of a new peer, coming in
while the session connects, overtakes the first, which is reported later as if it were the newest.

What is kept in every run without overtaking (`NotOvertaking`): for each peer, what has been
reported, followed by what waits in `m_infoToReport`, is a sublist of what has arrived.  A session
that opens moves the first waiting info over, which is the oldest one of its sender.
-/
import P3com.Transport.TcpTransport

namespace P3com.TcpTransport

/-! ## What arrives and what is reported -/

/-- The data of a discovery datagram from the address. -/
def arrival (a : Address) : Label → List (List Byte)
  | .datagram e data _ => if e.address = a then [data] else []
  | _ => []

/-- The infos of the address that have been passed to `m_remoteDiscoveryCallback`, in order. -/
def State.reported (s : State) (a : Address) : List (List Byte) :=
  ((s.reports.filter fun call => call.sender = a).map Call.data).reverse

/-- The infos of the address in `m_infoToReport`. -/
def State.waiting (s : State) (a : Address) : List (List Byte) :=
  (s.infoToReport.toList.filter fun info => info.sender = a).map InfoToReport.data

/-- The address at which `udpDiscoveryCallback` looks for the session: that of the endpoint at the
index of the sender. -/
def State.contact (s : State) (e : Endpoint) : Address :=
  ((s.registerDevice e).1.getEndpoint (s.registerDevice e).2).address

/-- A datagram is reported at once only when no info of its sender waits, and is put behind infos
of its sender only when they wait for the same session. -/
def NotOvertaking (interfaceEndpoints : List Endpoint) (s : State) : Label → Prop
  | .datagram e _ _ =>
    e ∉ interfaceEndpoints → s.callbacks.broadcast = true →
      ((s.findSession (s.contact e)).isSome = true → s.callbacks.remoteDiscovery = true →
        s.waiting e.address = []) ∧
      (s.findSession (s.contact e) = none → ∀ info ∈ s.infoToReport.toList,
        info.sender = e.address → info.address = s.contact e)
  | _ => True

instance (interfaceEndpoints : List Endpoint) (s : State) :
    DecidablePred (NotOvertaking interfaceEndpoints s) := fun l =>
  match l with
  | .datagram _ _ _ => inferInstanceAs (Decidable (_ → _ → (_ → _ → _) ∧
      (_ → ∀ info ∈ s.infoToReport.toList, _ → _)))
  | .register _ | .accepted _ _ | .opened _ | .closed _ | .received _ _ => isTrue trivial

/-! ## The invariant -/

/-- What is kept for the address, `arrived` being the data that has come in from it. -/
structure InOrder (a : Address) (s : State) (arrived : List (List Byte)) : Prop where
  sublist : (s.reported a ++ s.waiting a).Sublist arrived
  sameSession : ∀ info ∈ s.infoToReport.toList, ∀ info' ∈ s.infoToReport.toList,
    info.sender = a → info'.sender = a → info.address = info'.address

variable {interfaceEndpoints : List Endpoint} {s s' : State} {a : Address}
  {arrived : List (List Byte)} {l : Label}

/-- A handler that reports nothing and leaves the waiting infos alone. -/
theorem InOrder.of_eq (h : InOrder a s arrived) (hreports : s'.reports = s.reports)
    (hinfos : s'.infoToReport = s.infoToReport) : InOrder a s' arrived := by
  refine ⟨?_, ?_⟩
  · unfold State.reported State.waiting
    rw [hreports, hinfos]
    exact h.sublist
  · rw [hinfos]
    exact h.sameSession

theorem reported_remoteDiscoveryHandler (s : State) (sender : Address) (data : List Byte)
    (device : Nat) :
    (s.remoteDiscoveryHandler sender data device).reported a = s.reported a ++
      if sender = a ∧ s.callbacks.remoteDiscovery = true then [data] else [] := by
  unfold State.remoteDiscoveryHandler State.reported
  by_cases hcallback : s.callbacks.remoteDiscovery = true
  · by_cases hsender : sender = a
    · simp [hcallback, hsender]
    · simp [hcallback, hsender]
  · simp [hcallback]

/-- The first info that waits for a session to the address, and those around it. -/
theorem first_waiting {address : Address} {j : Nat} {info : InfoToReport}
    (hj : (s.infoToReport.toList.findIdx? fun info => info.address = address) = some j)
    (hinfo : s.infoToReport.toList[j]? = some info) :
    info.address = address ∧ ∃ front back, s.infoToReport.toList = front ++ info :: back ∧
      (s.infoToReport.erase j).toList = front ++ back ∧ ∀ i ∈ front, i.address ≠ address := by
  obtain ⟨hlt, hmatch, hfirst⟩ := List.findIdx?_eq_some_iff_getElem.mp hj
  obtain ⟨-, rfl⟩ := List.getElem?_eq_some_iff.mp hinfo
  refine ⟨by simpa using hmatch, s.infoToReport.toList.take j, s.infoToReport.toList.drop (j + 1),
    ?_, List.eraseIdx_eq_take_drop_succ _ _, fun i hi => ?_⟩
  · rw [← List.drop_eq_getElem_cons hlt, List.take_append_drop]
  · obtain ⟨n, hn, rfl⟩ := List.mem_take_iff_getElem.mp hi
    simpa using hfirst n (by omega)

/-- **A session opens**: the first info that waits for it is reported, the oldest one of its
sender. -/
theorem InOrder.handleSessionOpen (h : InOrder a s arrived) (session : Session) :
    InOrder a (s.handleSessionOpen session) arrived := by
  unfold State.handleSessionOpen
  split
  · exact h
  · rename_i j hj
    split
    · exact h
    · rename_i info hinfo
      obtain ⟨haddress, front, back, hlist, herase, hfront⟩ := first_waiting hj hinfo
      refine ⟨?_, fun i hi i' hi' => ?_⟩
      · -- the info, if it is one of the sender, is the first of those
        have hwaiting : s.waiting a = (if info.sender = a then [info.data] else []) ++
            ((front ++ back).filter fun i => i.sender = a).map InfoToReport.data := by
          unfold State.waiting
          rw [hlist]
          by_cases hsender : info.sender = a
          · have hnone : front.filter (fun i => i.sender = a) = [] := by
              refine List.filter_eq_nil_iff.mpr fun i hi hia => hfront i hi ?_
              rw [← haddress]
              exact h.sameSession i (by simp [hlist, hi]) info (by simp [hlist])
                (by simpa using hia) hsender
            simp [hsender, hnone]
          · simp [hsender]
        have hold := h.sublist
        rw [hwaiting, ← List.append_assoc] at hold
        refine (List.Sublist.append ?_ ?_).trans hold
        · have hreported := reported_remoteDiscoveryHandler (a := a) s info.sender info.data
            ((s.findSession session.address).getD s.transportSessions.size)
          unfold State.reported at hreported ⊢
          simp only
          rw [hreported]
          refine List.Sublist.append_left ?_ _
          by_cases hsender : info.sender = a
          · by_cases hcallback : s.callbacks.remoteDiscovery = true
            · simp [hsender, hcallback]
            · simp [hcallback]
          · simp [hsender]
        · unfold State.waiting
          simp only
          rw [herase]
      · have hmem : ∀ i ∈ (s.infoToReport.erase j).toList, i ∈ s.infoToReport.toList :=
          fun i hi => List.mem_of_mem_eraseIdx hi
        exact h.sameSession i (hmem i hi) i' (hmem i' hi')

/-! ## Datagrams -/

theorem InOrder.mono (h : InOrder a s arrived) (later : List (List Byte)) :
    InOrder a s (arrived ++ later) :=
  ⟨h.sublist.trans (List.sublist_append_left _ _), h.sameSession⟩

/-- What a discovery datagram does: nothing; or, without a session to its sender, it waits; or it
is reported at once. -/
theorem discoverySocketCallback_cases {e : Endpoint} {data : List Byte} {id : Nat}
    (h : s.discoverySocketCallback interfaceEndpoints e data id = some s') :
    (s'.reports = s.reports ∧ s'.infoToReport = s.infoToReport) ∨
      (e ∉ interfaceEndpoints ∧ s.callbacks.broadcast = true ∧
        s.findSession (s.contact e) = none ∧ s'.reports = s.reports ∧
        s'.infoToReport = s.infoToReport.pushBack ⟨s.contact e, data, e.address⟩) ∨
      (e ∉ interfaceEndpoints ∧ s.callbacks.broadcast = true ∧
        (s.findSession (s.contact e)).isSome = true ∧
        s'.reported e.address = s.reported e.address ++
          (if s.callbacks.remoteDiscovery = true then [data] else []) ∧
        (∀ a, a ≠ e.address → s'.reported a = s.reported a) ∧
        s'.infoToReport = s.infoToReport) := by
  unfold State.discoverySocketCallback at h
  split at h
  · exact Or.inl (Option.some.inj h ▸ ⟨rfl, rfl⟩)
  · rename_i hown
    obtain ⟨hinfos, hsessions, hreports, hcallbacks⟩ := registerDevice_same s e
    simp only at h
    split at h
    · rename_i hbroadcast
      rw [hcallbacks] at hbroadcast
      have hfind : (s.registerDevice e).1.findSession (s.contact e)
          = s.findSession (s.contact e) := by
        unfold State.findSession
        rw [hsessions]
      have hcontact : ((s.registerDevice e).1.getEndpoint (s.registerDevice e).2).address
          = s.contact e := rfl
      simp only [State.udpDiscoveryCallback, hcontact, hfind] at h
      split at h
      · rename_i hnone
        split at h
        · obtain rfl := Option.some.inj h
          refine Or.inr (Or.inl ⟨hown, hbroadcast, hnone, hreports, ?_⟩)
          simp only [hinfos]
        · cases h
      · rename_i p hsome
        obtain rfl := Option.some.inj h
        have hreported : ∀ a, (s.registerDevice e).1.reported a = s.reported a := by
          intro a
          unfold State.reported
          rw [hreports]
        refine Or.inr (Or.inr ⟨hown, hbroadcast, by rw [hsome]; rfl, ?_, fun a hne => ?_, ?_⟩)
        · rw [reported_remoteDiscoveryHandler, hreported, hcallbacks]
          simp
        · rw [reported_remoteDiscoveryHandler, hreported, if_neg fun h => hne h.1.symm,
            List.append_nil]
        · rw [remoteDiscoveryHandler_infoToReport, hinfos]
    · exact Or.inl (Option.some.inj h ▸ ⟨hreports, hinfos⟩)

/-- **A discovery datagram** that does not overtake another one of its sender. -/
theorem InOrder.datagram {e : Endpoint} {data : List Byte} {id : Nat} (h : InOrder a s arrived)
    (hg : NotOvertaking interfaceEndpoints s (.datagram e data id))
    (hstep : s.discoverySocketCallback interfaceEndpoints e data id = some s') :
    InOrder a s' (arrived ++ arrival a (.datagram e data id)) := by
  have harrival : arrival a (.datagram e data id) = if e.address = a then [data] else [] := rfl
  rw [harrival]
  rcases discoverySocketCallback_cases hstep with ⟨hreports, hinfos⟩ |
    ⟨hown, hbroadcast, hnone, hreports, hinfos⟩ |
    ⟨hown, hbroadcast, hsome, hreported, hother, hinfos⟩
  · exact (h.of_eq hreports hinfos).mono _
  · -- it waits behind the others
    have hreported : s'.reported a = s.reported a := by
      unfold State.reported
      rw [hreports]
    rcases Nat.lt_or_ge s.infoToReport.size maxDeviceCount with hroom | hfull
    · have hlist : s'.infoToReport.toList
          = s.infoToReport.toList ++ [⟨s.contact e, data, e.address⟩] := by
        rw [hinfos, CxxVector.toList_pushBack hroom]
      refine ⟨?_, ?_⟩
      · have hwaiting : s'.waiting a = s.waiting a ++ if e.address = a then [data] else [] := by
          unfold State.waiting
          rw [hlist]
          by_cases hsender : e.address = a <;> simp [hsender]
        rw [hreported, hwaiting, ← List.append_assoc]
        exact h.sublist.append_right _
      · have hsame := (hg hown hbroadcast).2 hnone
        rw [hlist]
        intro i hi i' hi' hia hia'
        rcases List.mem_append.mp hi with hi | hi <;> rcases List.mem_append.mp hi' with hi' | hi'
        · exact h.sameSession i hi i' hi' hia hia'
        · obtain rfl := List.mem_singleton.mp hi'
          exact hsame i hi (hia.trans hia'.symm)
        · obtain rfl := List.mem_singleton.mp hi
          exact (hsame i' hi' (hia'.trans hia.symm)).symm
        · rw [List.mem_singleton.mp hi, List.mem_singleton.mp hi']
    · rw [CxxVector.pushBack_full (Nat.le_antisymm s.infoToReport.size_le hfull)] at hinfos
      exact (h.of_eq hreports hinfos).mono _
  · -- it is reported, and nothing of its sender waits
    refine ⟨?_, by rw [hinfos]; exact h.sameSession⟩
    have hwaiting : s'.waiting a = s.waiting a := by
      unfold State.waiting
      rw [hinfos]
    rw [hwaiting]
    by_cases hsender : e.address = a
    · subst hsender
      rw [hreported, if_pos rfl]
      by_cases hcallback : s.callbacks.remoteDiscovery = true
      · have hempty := (hg hown hbroadcast).1 hsome hcallback
        have hold := h.sublist
        rw [hempty, List.append_nil] at hold ⊢
        rw [if_pos hcallback]
        exact hold.append_right _
      · rw [if_neg hcallback, List.append_nil]
        exact h.sublist.trans (List.sublist_append_left _ _)
    · rw [hother a fun heq => hsender heq.symm, if_neg hsender, List.append_nil]
      exact h.sublist

/-! ## Every run -/

theorem InOrder.accept (h : InOrder a s arrived) (address : Address) (id : Nat) :
    InOrder a (s.accept address id) arrived := by
  unfold State.accept State.addSession
  split
  · simp only
    split
    · exact h.of_eq rfl rfl
    · refine InOrder.handleSessionOpen ?_ _
      exact h.of_eq rfl rfl
  · exact h

end P3com.TcpTransport
