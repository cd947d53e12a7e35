/-
# From `sendUserData` to `publish`, over TCP

Several gateways send to one gateway, each over a TCP session of its own.  In each of them the two
sending threads cut their messages (`writeSegmented`) and pass the pieces to `sendUserData`; the
session writes them to its socket (`TcpFraming`), the bytes come in at the other end, the reader of
the session passes every datagram to `Transport2Iceoryx::receive`, and there the messages are put
together again and published (`Reassembly`).  All of this is interleaved, with loans that fail, full
tables, timeouts and channels that come and go.

Here the two ends are one machine.  As long as no write breaks a message on its socket (`Unbroken`),
the messages of a thread are published with their bytes, each at most once and in the order in which
the thread has sent them, and a drained session has all of its messages published that no failure
has hit (`tcp_delivery`).

A session without errors is modelled: an error closes it, and what is read until then is a
beginning of the stream.
-/
import P3com.Gateway.Reassembly
import P3com.Transport.TcpFraming

namespace P3com.TcpDelivery

open TcpFraming (Sender)
open TransportToIox (Failed received delivered)

/-! ## The machine -/

/-- One TCP session, from the threads that send to the datagrams that have been received. -/
structure Session where
  /-- What each thread has still to pass to `sendUserData`. -/
  pending : Sender → List Submessage
  socket : TcpFraming.State
  reader : TcpFraming.Reader
  /-- How many bytes of the stream have come in. -/
  arrived : Nat
  /-- How many datagrams have been passed to `receive`. -/
  handed : Nat

namespace Session

def init (msgs : Sender → List SentMessage) : Session where
  pending := fun t => (msgs t).flatMap SentMessage.submessages
  socket := .init
  reader := .start []
  arrived := 0
  handed := 0

/-- The first write of `sendUserData` for the next piece of a thread. -/
def writeSize (x : Session) (t : Sender) : Option Session :=
  match x.pending t with
  | [] => none
  | q :: rest =>
    (TcpFraming.step x.socket (.writeSize t (serialize q.header) q.data)).map fun socket =>
      { x with socket, pending := Function.update x.pending t rest }

/-- The second write. -/
def writeData (x : Session) (t : Sender) : Option Session :=
  (TcpFraming.step x.socket (.writeData t)).map fun socket => { x with socket }

/-- The next byte comes in.  The session reads on when the callback of the last datagram has been
called. -/
def read (x : Session) : Option Session :=
  if x.handed = x.reader.delivered.length then
    x.socket.stream[x.arrived]?.map fun b =>
      { x with reader := x.reader.byte b, arrived := x.arrived + 1 }
  else none

/-- Nothing is on its way: the threads have returned from `sendUserData`, and all that they have
written has been passed to `receive`. -/
def Drained (x : Session) : Prop :=
  (∀ t, x.pending t = [] ∧ x.socket.writing t = none) ∧ x.arrived = x.socket.stream.length ∧
    x.handed = x.reader.delivered.length

instance (x : Session) : Decidable x.Drained :=
  decidable_of_iff (((x.pending .iceoryx2Transport = [] ∧
      x.socket.writing .iceoryx2Transport = none) ∧
    (x.pending .transportForwarder = [] ∧ x.socket.writing .transportForwarder = none)) ∧
    x.arrived = x.socket.stream.length ∧ x.handed = x.reader.delivered.length) <| by
  refine and_congr_left fun _ => ⟨fun h t => ?_, fun h => ⟨h _, h _⟩⟩
  cases t with
  | iceoryx2Transport => exact h.1
  | transportForwarder => exact h.2

end Session

/-- The sessions of the gateway, and the gateway. -/
structure State (n : Nat) where
  sessions : Fin n → Session
  gateway : TransportToIox.State

def State.init {n : Nat} (msgs : Fin n → Sender → List SentMessage) : State n where
  sessions := fun i => .init (msgs i)
  gateway := .init

inductive Label (n : Nat)
  | writeSize (i : Fin n) (t : Sender)
  | writeData (i : Fin n) (t : Sender)
  | read (i : Fin n)
  /-- The session passes its next datagram to `receive`, with its device index. -/
  | receive (i : Fin n) (device : UInt32)
  /-- Anything else that the gateway does. -/
  | gateway (l : TransportToIox.Label)

/-- The label is not the beginning of a handler that a transport calls. -/
def isLocal : TransportToIox.Label → Bool
  | .receive _ _ => false
  | .loanBuffer _ => false
  | .releaseBuffer _ _ _ => false
  | _ => true

variable {n : Nat}

def State.set (s : State n) (i : Fin n) (x : Session) : State n :=
  { s with sessions := Function.update s.sessions i x }

def step (getClassHash : ServiceDescription → ClassHash) (s : State n) :
    Label n → Option (State n)
  | .writeSize i t => ((s.sessions i).writeSize t).map (s.set i)
  | .writeData i t => ((s.sessions i).writeData t).map (s.set i)
  | .read i => (s.sessions i).read.map (s.set i)
  | .receive i device =>
    let x := s.sessions i
    x.reader.delivered[x.handed]?.bind fun datagram =>
      (TransportToIox.step getClassHash s.gateway (.receive datagram ⟨.tcp, device⟩)).map
        fun gateway => { s.set i { x with handed := x.handed + 1 } with gateway }
  | .gateway l =>
    if isLocal l then
      (TransportToIox.step getClassHash s.gateway l).map fun gateway => { s with gateway }
    else none

/-- A thread starts a message only when no other thread still has data of a message to write to
the same socket. -/
def Unbroken (s : State n) : Label n → Prop
  | .writeSize i _ => ∀ t, ∀ data ∈ (s.sessions i).socket.writing t, data = []
  | _ => True

instance (s : State n) : (l : Label n) → Decidable (Unbroken s l)
  | .writeSize i t =>
    inferInstanceAs (Decidable (TcpFraming.Unbroken (s.sessions i).socket (.writeSize t [] [])))
  | .writeData _ _ => isTrue trivial
  | .read _ => isTrue trivial
  | .receive _ _ => isTrue trivial
  | .gateway _ => isTrue trivial

/-! ## A session -/

section Session

variable {msgs : Sender → List SentMessage} {x x' : Session} {t : Sender}

/-- What a session keeps: the datagrams that a thread has sent and those that it has still to send
are those of its messages, and what has been read is a beginning of the stream. -/
structure Session.Inv (msgs : Sender → List SentMessage) (x : Session) : Prop where
  sent : ∀ t, x.socket.sent t ++ (x.pending t).map Submessage.datagram
    = (msgs t).flatMap SentMessage.datagrams
  written : TcpFraming.Inv x.socket
  reader : x.reader = (TcpFraming.Reader.start []).bytes (x.socket.stream.take x.arrived)
  arrived : x.arrived ≤ x.socket.stream.length
  handed : x.handed ≤ x.reader.delivered.length

theorem Session.inv_init (msgs : Sender → List SentMessage) : (Session.init msgs).Inv msgs where
  sent := by
    intro t
    exact List.map_flatMap
  written := TcpFraming.inv_init
  reader := rfl
  arrived := Nat.le_refl 0
  handed := Nat.le_refl 0

/-- What the writers do leaves the reader alone. -/
theorem Session.Inv.write (h : x.Inv msgs) {socket : TcpFraming.State}
    {pending : Sender → List Submessage} {new : List Byte}
    (hsent : ∀ t, socket.sent t ++ (pending t).map Submessage.datagram
      = (msgs t).flatMap SentMessage.datagrams) (hwritten : TcpFraming.Inv socket)
    (hstream : socket.stream = x.socket.stream ++ new) :
    Session.Inv msgs { x with socket, pending } where
  sent := hsent
  written := hwritten
  reader := by
    rw [hstream, List.take_append_of_le_length h.arrived]
    exact h.reader
  arrived := by
    rw [hstream, List.length_append]
    exact Nat.le_add_right_of_le h.arrived
  handed := h.handed

theorem Session.Inv.writeSize (h : x.Inv msgs)
    (hunbroken : ∀ t, ∀ data ∈ x.socket.writing t, data = [])
    (hstep : x.writeSize t = some x') : x'.Inv msgs := by
  unfold Session.writeSize at hstep
  split at hstep
  · cases hstep
  · rename_i q rest hpending
    obtain ⟨socket, hsocket, rfl⟩ := Option.map_eq_some_iff.mp hstep
    have hwritten := TcpFraming.inv_step h.written
      (l := .writeSize t (serialize q.header) q.data) hunbroken hsocket
    simp only [TcpFraming.step] at hsocket
    split at hsocket
    · obtain rfl := Option.some.inj hsocket
      refine h.write (fun t' => ?_) hwritten rfl
      by_cases ht : t' = t
      · subst ht
        rw [← h.sent t', hpending]
        simp [Submessage.datagram]
      · simp only [Function.update_of_ne ht]
        exact h.sent t'
    · cases hsocket

theorem Session.Inv.writeData (h : x.Inv msgs) (hstep : x.writeData t = some x') :
    x'.Inv msgs := by
  obtain ⟨socket, hsocket, rfl⟩ := Option.map_eq_some_iff.mp hstep
  have hwritten := TcpFraming.inv_step h.written (l := .writeData t) trivial hsocket
  obtain ⟨data, -, rfl⟩ := Option.map_eq_some_iff.mp hsocket
  exact h.write h.sent hwritten rfl

/-- A byte that comes in: what has been passed to `receive` stays as it is. -/
theorem Session.Inv.read (h : x.Inv msgs) (hstep : x.read = some x') :
    x'.Inv msgs ∧ x'.handed = x.handed ∧
      x'.reader.delivered.take x'.handed = x.reader.delivered.take x.handed := by
  unfold Session.read at hstep
  split at hstep
  · obtain ⟨b, hb, rfl⟩ := Option.map_eq_some_iff.mp hstep
    obtain ⟨hlt, hget⟩ := List.getElem?_eq_some_iff.mp hb
    obtain ⟨later, hlater⟩ : x.reader.delivered <+: (x.reader.byte b).delivered :=
      TcpFraming.delivered_prefix x.reader [b]
    have hreader : x.reader.byte b
        = (TcpFraming.Reader.start []).bytes (x.socket.stream.take (x.arrived + 1)) := by
      rw [List.take_add_one, hb, TcpFraming.bytes_append, ← h.reader]
      rfl
    refine ⟨⟨h.sent, h.written, hreader, hlt, ?_⟩, rfl, ?_⟩
    · rw [← hlater, List.length_append]
      exact Nat.le_add_right_of_le h.handed
    · rw [← hlater, List.take_append_of_le_length h.handed]
  · cases hstep

/-- What has come in is a beginning of an interleaving of what the two threads send, and all of it
when the session is drained. -/
theorem Session.Inv.delivered (h : x.Inv msgs) : ∃ seqs : Sender → List (List Byte),
    Interleaves seqs (x.reader.delivered.take x.handed) ∧
      (∀ t, seqs t <+: (msgs t).flatMap SentMessage.datagrams) ∧
      (x.Drained → ∀ t, seqs t = (msgs t).flatMap SentMessage.datagrams) := by
  obtain ⟨messages, seqs, half, hw⟩ := h.written
  obtain ⟨l, hl, hbegin, hwhole⟩ := hw.interleaves_sent
  have hsent : ∀ t, x.socket.sent t <+: (msgs t).flatMap SentMessage.datagrams :=
    fun t => ⟨_, h.sent t⟩
  by_cases hdrained : x.Drained
  · obtain ⟨hidle, harrived, hhanded⟩ := hdrained
    have hall : x.reader.delivered.take x.handed = l := by
      rw [hhanded, List.take_length, h.reader, harrived, List.take_length, hw.delivered]
      refine hwhole ?_
      cases half with
      | none => rfl
      | some m =>
        have hwriting := (hw.half_writing m.1 m.2 rfl).1
        rw [(hidle m.1).2] at hwriting
        cases hwriting
    refine ⟨x.socket.sent, hall ▸ hl, hsent, fun _ t => ?_⟩
    have := h.sent t
    rwa [(hidle t).1, List.map_nil, List.append_nil] at this
  · have hmore : x.reader.delivered.take x.handed <+: l := by
      refine (List.take_prefix _ _).trans ?_
      have hstream : x.socket.stream
          = x.socket.stream.take x.arrived ++ x.socket.stream.drop x.arrived :=
        (List.take_append_drop _ _).symm
      have := TcpFraming.delivered_prefix x.reader (x.socket.stream.drop x.arrived)
      rw [h.reader, ← TcpFraming.bytes_append, ← hstream, hw.delivered, ← h.reader] at this
      exact this.trans hbegin
    obtain ⟨seqs', hseqs', hinter⟩ := hl.of_beginning hmore
    exact ⟨seqs', hinter, fun t => (hseqs' t).trans (hsent t), fun hd => absurd hd hdrained⟩

end Session

/-! ## The gateway and its sessions -/

variable {getClassHash : ServiceDescription → ClassHash} {s s' : State n}
  {msgs : Fin n → Sender → List SentMessage}

/-- What every step keeps: the gateway has made a run of its own, in which `receive` was called with
what the sessions have handed over. -/
structure Inv (getClassHash : ServiceDescription → ClassHash)
    (msgs : Fin n → Sender → List SentMessage) (s : State n) : Prop where
  sessions : ∀ i, (s.sessions i).Inv (msgs i)
  gateway : ∃ ls, Run.exec (TransportToIox.step getClassHash) .init ls = some s.gateway ∧
    (∀ l ∈ ls, l.isReceiveRun = true) ∧
    Interleaves (fun i => (s.sessions i).reader.delivered.take (s.sessions i).handed)
      (received ls)

theorem inv_init : Inv getClassHash msgs (State.init msgs) where
  sessions := fun i => Session.inv_init (msgs i)
  gateway := ⟨[], rfl, by simp, Interleaves.nil⟩

/-- A session moves and hands nothing over. -/
theorem Inv.set (h : Inv getClassHash msgs s) {i : Fin n} {x : Session} (hx : x.Inv (msgs i))
    (hsame : x.reader.delivered.take x.handed
      = (s.sessions i).reader.delivered.take (s.sessions i).handed) :
    Inv getClassHash msgs (s.set i x) where
  sessions := by
    intro j
    by_cases hj : j = i
    · subst hj
      simpa [State.set] using hx
    · simpa [State.set, Function.update_of_ne hj] using h.sessions j
  gateway := by
    obtain ⟨ls, hrun, hls, hinter⟩ := h.gateway
    refine ⟨ls, hrun, hls, ?_⟩
    have heq : (fun j => ((s.set i x).sessions j).reader.delivered.take
        ((s.set i x).sessions j).handed)
        = fun j => (s.sessions j).reader.delivered.take (s.sessions j).handed := by
      funext j
      by_cases hj : j = i
      · subst hj
        simpa [State.set] using hsame
      · simp [State.set, Function.update_of_ne hj]
    rw [heq]
    exact hinter

theorem received_append (ls : List TransportToIox.Label) (l : TransportToIox.Label) :
    received (ls ++ [l]) = received ls ++ received [l] := List.filterMap_append

theorem received_of_isLocal {l : TransportToIox.Label} (h : isLocal l = true) :
    received [l] = [] ∧ l.isReceiveRun = true := by
  cases l with
  | receive _ _ => cases h
  | loanBuffer _ => cases h
  | releaseBuffer _ _ _ => cases h
  | _ => exact ⟨rfl, rfl⟩

/-- A datagram is handed over. -/
theorem Inv.receive (h : Inv getClassHash msgs s) {i : Fin n} {datagram : List Byte}
    {device : DeviceIndex} {gateway : TransportToIox.State}
    (hd : (s.sessions i).reader.delivered[(s.sessions i).handed]? = some datagram)
    (hstep : TransportToIox.step getClassHash s.gateway (.receive datagram device)
      = some gateway) :
    Inv getClassHash msgs
      { s.set i { s.sessions i with handed := (s.sessions i).handed + 1 } with gateway } := by
  obtain ⟨hlt, -⟩ := List.getElem?_eq_some_iff.mp hd
  have hx := h.sessions i
  constructor
  case sessions =>
    intro j
    by_cases hj : j = i
    · subst hj
      have : Session.Inv (msgs j)
          { s.sessions j with handed := (s.sessions j).handed + 1 } :=
        ⟨hx.sent, hx.written, hx.reader, hx.arrived, hlt⟩
      simpa [State.set] using this
    · simpa [State.set, Function.update_of_ne hj] using h.sessions j
  case gateway =>
    obtain ⟨ls, hrun, hls, hinter⟩ := h.gateway
    refine ⟨ls ++ [.receive datagram device], ?_, ?_, ?_⟩
    · refine Run.exec_trans hrun ?_
      rw [Run.exec_cons]
      exact ⟨_, hstep, rfl⟩
    · intro l hl
      rcases List.mem_append.mp hl with hl | hl
      · exact hls l hl
      · rw [List.mem_singleton.mp hl]
        rfl
    · rw [received_append]
      have hnext := hinter.concat i datagram
      have heq : Function.update
          (fun j => (s.sessions j).reader.delivered.take (s.sessions j).handed) i
          ((s.sessions i).reader.delivered.take (s.sessions i).handed ++ [datagram])
          = fun j => (Function.update s.sessions i { s.sessions i with
              handed := (s.sessions i).handed + 1 } j).reader.delivered.take
            (Function.update s.sessions i { s.sessions i with
              handed := (s.sessions i).handed + 1 } j).handed := by
        funext j
        by_cases hj : j = i
        · subst hj
          simp [List.take_add_one, hd]
        · simp [Function.update_of_ne hj]
      rw [heq] at hnext
      exact hnext

/-- **One step.** -/
theorem inv_step {l : Label n} (h : Inv getClassHash msgs s) (hg : Unbroken s l)
    (hstep : step getClassHash s l = some s') : Inv getClassHash msgs s' := by
  cases l with
  | writeSize i t =>
    obtain ⟨x, hx, rfl⟩ := Option.map_eq_some_iff.mp hstep
    have hinv := (h.sessions i).writeSize hg hx
    refine h.set hinv ?_
    unfold Session.writeSize at hx
    split at hx
    · cases hx
    · obtain ⟨socket, -, rfl⟩ := Option.map_eq_some_iff.mp hx
      rfl
  | writeData i t =>
    obtain ⟨x, hx, rfl⟩ := Option.map_eq_some_iff.mp hstep
    have hinv := (h.sessions i).writeData hx
    refine h.set hinv ?_
    obtain ⟨socket, -, rfl⟩ := Option.map_eq_some_iff.mp hx
    rfl
  | read i =>
    obtain ⟨x, hx, rfl⟩ := Option.map_eq_some_iff.mp hstep
    obtain ⟨hinv, -, hsame⟩ := (h.sessions i).read hx
    exact h.set hinv hsame
  | receive i device =>
    obtain ⟨datagram, hd, hrest⟩ := Option.bind_eq_some_iff.mp hstep
    obtain ⟨gateway, hgateway, rfl⟩ := Option.map_eq_some_iff.mp hrest
    exact h.receive hd hgateway
  | gateway l =>
    simp only [step] at hstep
    split at hstep
    · rename_i hlocal
      obtain ⟨gateway, hgateway, rfl⟩ := Option.map_eq_some_iff.mp hstep
      obtain ⟨hnone, hreceive⟩ := received_of_isLocal hlocal
      obtain ⟨ls, hrun, hls, hinter⟩ := h.gateway
      refine ⟨h.sessions, ls ++ [l], ?_, ?_, ?_⟩
      · refine Run.exec_trans hrun ?_
        rw [Run.exec_cons]
        exact ⟨_, hgateway, rfl⟩
      · intro l' hl'
        rcases List.mem_append.mp hl' with hl' | hl'
        · exact hls l' hl'
        · rw [List.mem_singleton.mp hl']
          exact hreceive
      · rw [received_append, hnone, List.append_nil]
        exact hinter
    · cases hstep

/-! ## What is sent -/

/-- No two messages have the same hash. -/
structure Distinct (msgs : Fin n → Sender → List SentMessage) : Prop where
  nodup : ∀ i t, ((msgs i t).map SentMessage.hash).Nodup
  sender : ∀ i t i' t', ∀ m ∈ msgs i t, ∀ m' ∈ msgs i' t', m.hash = m'.hash → i = i' ∧ t = t'

/-- All messages of all threads. -/
def allMessages (msgs : Fin n → Sender → List SentMessage) : List SentMessage :=
  (List.finRange n).flatMap fun i => msgs i .iceoryx2Transport ++ msgs i .transportForwarder

theorem mem_allMessages {m : SentMessage} : m ∈ allMessages msgs ↔ ∃ i t, m ∈ msgs i t := by
  unfold allMessages
  rw [List.mem_flatMap]
  constructor
  · rintro ⟨i, -, hm⟩
    rcases List.mem_append.mp hm with hm | hm
    · exact ⟨i, _, hm⟩
    · exact ⟨i, _, hm⟩
  · rintro ⟨i, t, hm⟩
    refine ⟨i, List.mem_finRange i, ?_⟩
    cases t with
    | iceoryx2Transport => exact List.mem_append_left _ hm
    | transportForwarder => exact List.mem_append_right _ hm

theorem Distinct.nodup_allMessages (h : Distinct msgs) :
    ((allMessages msgs).map SentMessage.hash).Nodup := by
  unfold allMessages
  rw [List.map_flatMap, List.nodup_flatMap]
  constructor
  · intro i _
    rw [List.map_append]
    refine (h.nodup i _).append (h.nodup i _) fun k hk hk' => ?_
    obtain ⟨m, hm, rfl⟩ := List.mem_map.mp hk
    obtain ⟨m', hm', heq⟩ := List.mem_map.mp hk'
    cases (h.sender i _ i _ m hm m' hm' heq.symm).2
  · refine (List.nodup_finRange n).imp fun {i j} hne k hk hk' => hne ?_
    have hfrom : ∀ {i}, k ∈ (msgs i .iceoryx2Transport ++ msgs i .transportForwarder).map
        SentMessage.hash → ∃ t, ∃ m ∈ msgs i t, m.hash = k := by
      intro i hk
      obtain ⟨m, hm, rfl⟩ := List.mem_map.mp hk
      rcases List.mem_append.mp hm with hm | hm
      · exact ⟨_, m, hm, rfl⟩
      · exact ⟨_, m, hm, rfl⟩
    obtain ⟨t, m, hm, hmk⟩ := hfrom hk
    obtain ⟨t', m', hm', hmk'⟩ := hfrom hk'
    exact (h.sender i t j t' m hm m' hm' (hmk.trans hmk'.symm)).1

/-- A datagram belongs to one message. -/
theorem hash_eq_of_mem {m m' : SentMessage} {d : List Byte} (hd : d ∈ m.datagrams)
    (hd' : d ∈ m'.datagrams) : m.hash = m'.hash := by
  obtain ⟨q, hq, rfl⟩ := List.mem_map.mp hd
  obtain ⟨q', hq', heq⟩ := List.mem_map.mp hd'
  obtain rfl := SentMessage.datagram_injective heq
  rw [← (SentMessage.piece hq).messageHash, ← (SentMessage.piece hq').messageHash]

theorem nodup_datagrams (m : SentMessage) : m.datagrams.Nodup :=
  SentMessage.nodup_submessages.map_on fun _ _ _ _ => SentMessage.datagram_injective

/-- A thread sends no datagram twice. -/
theorem Distinct.nodup_datagrams (h : Distinct msgs) (i : Fin n) (t : Sender) :
    ((msgs i t).flatMap SentMessage.datagrams).Nodup := by
  rw [List.nodup_flatMap]
  refine ⟨fun m _ => TcpDelivery.nodup_datagrams m, ?_⟩
  have hn := h.nodup i t
  rw [List.Nodup, List.pairwise_map] at hn
  refine hn.imp fun hne d hd hd' => hne ?_
  exact hash_eq_of_mem hd hd'

/-- And no two threads send the same one. -/
theorem Distinct.eq_of_datagram (h : Distinct msgs) {i i' : Fin n} {t t' : Sender} {d : List Byte}
    (hd : d ∈ (msgs i t).flatMap SentMessage.datagrams)
    (hd' : d ∈ (msgs i' t').flatMap SentMessage.datagrams) : i = i' ∧ t = t' := by
  obtain ⟨m, hm, hd⟩ := List.mem_flatMap.mp hd
  obtain ⟨m', hm', hd'⟩ := List.mem_flatMap.mp hd'
  exact h.sender i t i' t' m hm m' hm' (hash_eq_of_mem hd hd')

/-! ## What is received -/

/-- What `receive` has been called with: no datagram twice, every datagram one of a thread, and
those of a thread a beginning of what it sends. -/
structure Handed (msgs : Fin n → Sender → List SentMessage) (s : State n)
    (datagrams : List (List Byte)) : Prop where
  nodup : datagrams.Nodup
  threads : ∃ seqs : Fin n → Sender → List (List Byte),
    (∀ d ∈ datagrams, ∃ i t, d ∈ seqs i t) ∧ (∀ i t, (seqs i t).Sublist datagrams) ∧
    (∀ i t, seqs i t <+: (msgs i t).flatMap SentMessage.datagrams) ∧
    ∀ i, (s.sessions i).Drained → ∀ t, seqs i t = (msgs i t).flatMap SentMessage.datagrams

theorem Inv.handed (h : Inv getClassHash msgs s) (hdistinct : Distinct msgs)
    {datagrams : List (List Byte)}
    (hinter : Interleaves (fun i => (s.sessions i).reader.delivered.take (s.sessions i).handed)
      datagrams) : Handed msgs s datagrams := by
  choose seqs hseqs hbegin hdrained using fun i => (h.sessions i).delivered
  have hmem : ∀ i t d, d ∈ seqs i t → d ∈ (msgs i t).flatMap SentMessage.datagrams :=
    fun i t d hd => (hbegin i t).subset hd
  constructor
  case nodup =>
    refine hinter.nodup (fun i => (hseqs i).nodup (fun t => ?_) fun t t' d hd hd' => ?_)
      fun i i' d hd hd' => ?_
    · exact (hdistinct.nodup_datagrams i t).sublist (hbegin i t).sublist
    · exact (hdistinct.eq_of_datagram (hmem i t d hd) (hmem i t' d hd')).2
    · obtain ⟨t, hd⟩ := (hseqs i).mem hd
      obtain ⟨t', hd'⟩ := (hseqs i').mem hd'
      exact (hdistinct.eq_of_datagram (hmem i t d hd) (hmem i' t' d hd')).1
  case threads =>
    refine ⟨seqs, fun d hd => ?_, fun i t => ?_, hbegin, hdrained⟩
    · obtain ⟨i, hd⟩ := hinter.mem hd
      obtain ⟨t, hd⟩ := (hseqs i).mem hd
      exact ⟨i, t, hd⟩
    · exact ((hseqs i).sublist t).trans (hinter.sublist i)

/-- Datagrams of a thread are received in the order in which it sends them. -/
theorem Handed.precedes {datagrams : List (List Byte)} (h : Handed msgs s datagrams)
    (hdistinct : Distinct msgs) {i : Fin n} {t : Sender} {m m' : SentMessage} {d d' : List Byte}
    (hmsgs : Precedes (msgs i t) m m') (hd : d ∈ m.datagrams) (hd' : d' ∈ m'.datagrams)
    (hrec : d ∈ datagrams) (hrec' : d' ∈ datagrams) : Precedes datagrams d d' := by
  obtain ⟨seqs, hfrom, hsub, hbegin, -⟩ := h.threads
  have hseq : ∀ d ∈ datagrams, d ∈ (msgs i t).flatMap SentMessage.datagrams → d ∈ seqs i t := by
    intro d hd hmem
    obtain ⟨i', t', hd⟩ := hfrom d hd
    obtain ⟨rfl, rfl⟩ := hdistinct.eq_of_datagram ((hbegin i' t').subset hd) hmem
    exact hd
  have hsent := hmsgs.flatMap hd hd'
  refine (hsent.of_sublist (hdistinct.nodup_datagrams i t) (hbegin i t).sublist ?_ ?_).mono
    (hsub i t)
  · exact hseq d hrec hsent.mem.1
  · exact hseq d' hrec' hsent.mem.2

/-! ## What is published -/

/-- The message that the event publishes. -/
def publishedHash : TransportToIox.Event → Option Hash
  | .published _ _ k _ => some k
  | _ => none

/-- The messages that have been published, in order. -/
def published (log : List TransportToIox.Event) : List Hash := log.reverse.filterMap publishedHash

theorem published_cons (e : TransportToIox.Event) (log : List TransportToIox.Event) :
    published (e :: log) = published log ++ (publishedHash e).toList := by
  unfold published
  rw [List.reverse_cons, List.filterMap_append]
  cases he : publishedHash e with
  | none => simp [he]
  | some k => simp [he]

/-- The event of a message that has been published. -/
theorem mem_published {log : List TransportToIox.Event} {k : Hash} :
    k ∈ published log ↔ ∃ c p content, .published c p k content ∈ log := by
  unfold published
  rw [List.mem_filterMap]
  constructor
  · rintro ⟨e, he, hk⟩
    rw [List.mem_reverse] at he
    cases e with
    | published c p k' content =>
      obtain rfl := Option.some.inj hk
      exact ⟨c, p, content, he⟩
    | _ => cases hk
  · rintro ⟨c, p, content, he⟩
    exact ⟨_, List.mem_reverse.mpr he, rfl⟩

section Order

variable {datagrams : List (List Byte)} {i : Fin n} {t : Sender}
  {log : List TransportToIox.Event}

/-- What is published now was sent after what has been published. -/
theorem precedes_of_publishOk (h : Handed msgs s datagrams) (hdistinct : Distinct msgs)
    (hlog : TransportToIox.LogOk (allMessages msgs) log)
    (hdel : (delivered log).reverse.Sublist datagrams) {m m' : SentMessage}
    (hm : m ∈ msgs i t) (hm' : m' ∈ msgs i t) {content : Option Chunk}
    (hpub : TransportToIox.PublishOk (allMessages msgs) log m.hash content)
    (hmem : m'.hash ∈ published log) : Precedes (msgs i t) m' m := by
  obtain ⟨m₀, hm₀, hk₀, -, -, ⟨d, hd, hhead⟩, hnew⟩ := hpub
  obtain rfl : m₀ = m := TransportToIox.eq_of_hash hdistinct.nodup_allMessages hm₀
    (mem_allMessages.mpr ⟨i, t, hm⟩) hk₀
  obtain ⟨c, p, content', he⟩ := mem_published.mp hmem
  have hne : m' ≠ m₀ := by
    rintro rfl
    exact hnew ⟨_, he, by simp [TransportToIox.Event.publishesMessage]⟩
  refine (precedes_or_precedes hm' hm hne).resolve_right fun hwrong => ?_
  -- a datagram of `m'`, which has been published, came in before the last one of `m₀`
  obtain ⟨newer, older, hsplit⟩ := List.append_of_mem he
  obtain ⟨m₁, hm₁, hk₁, -, hall, -⟩ := hlog.of_mem hsplit
  obtain rfl : m₁ = m' := TransportToIox.eq_of_hash hdistinct.nodup_allMessages hm₁
    (mem_allMessages.mpr ⟨i, t, hm'⟩) hk₁
  obtain ⟨q, hq⟩ := List.exists_mem_of_ne_nil _ (SentMessage.submessages_ne_nil m₁)
  have hd' : q.datagram ∈ m₁.datagrams := List.mem_map_of_mem hq
  have hold : q.datagram ∈ delivered log := by
    rw [hsplit]
    unfold delivered
    rw [List.filterMap_append, List.filterMap_cons]
    exact List.mem_append_right _ (hall _ hd')
  obtain ⟨rest, hrest⟩ := List.head?_eq_some_iff.mp hhead
  have hqd : q.datagram ≠ d := by
    intro heq
    refine hne (TransportToIox.eq_of_hash hdistinct.nodup_allMessages hm₁ hm₀ ?_)
    exact hash_eq_of_mem hd' (heq ▸ hd)
  have hfirst : Precedes datagrams q.datagram d := by
    refine Precedes.mono ?_ hdel
    rw [hrest, List.mem_cons] at hold
    rw [hrest, List.reverse_cons]
    refine (List.singleton_sublist.mpr ?_).append (List.Sublist.refl [d])
    exact List.mem_reverse.mpr (hold.resolve_left hqd)
  exact hfirst.asymm h.nodup
    (h.precedes hdistinct hwrong hd hd' hfirst.mem.2 hfirst.mem.1)

/-- **The messages of a thread are published in the order in which it sends them.** -/
theorem published_in_order (h : Handed msgs s datagrams) (hdistinct : Distinct msgs)
    (hlog : TransportToIox.LogOk (allMessages msgs) log)
    (hdel : (delivered log).reverse.Sublist datagrams) :
    ((published log).filter fun k => k ∈ (msgs i t).map SentMessage.hash).Pairwise
      (Precedes ((msgs i t).map SentMessage.hash)) := by
  induction log with
  | nil => exact List.Pairwise.nil
  | cons e log ih =>
    have hdel' : (delivered log).reverse.Sublist datagrams := by
      refine List.Sublist.trans (List.reverse_sublist.mpr ?_) hdel
      exact (List.sublist_cons_self e log).filterMap _
    have ih' := ih hlog.2 hdel'
    rw [published_cons, List.filter_append, List.pairwise_append]
    refine ⟨ih', ?_, fun k' hk' k hk => ?_⟩
    · refine List.Pairwise.filter _ ?_
      cases publishedHash e with
      | none => exact List.Pairwise.nil
      | some k => exact List.pairwise_singleton _ _
    · obtain ⟨hk, hkm⟩ := List.mem_filter.mp hk
      obtain ⟨hk', hkm'⟩ := List.mem_filter.mp hk'
      obtain ⟨m, hm, rfl⟩ := List.mem_map.mp (of_decide_eq_true hkm)
      obtain ⟨m', hm', rfl⟩ := List.mem_map.mp (of_decide_eq_true hkm')
      cases e with
      | published c p k content =>
        obtain rfl : m.hash = k := List.mem_singleton.mp hk
        have := precedes_of_publishOk h hdistinct hlog.2 hdel' hm hm'
          (hlog.1 c p _ content rfl) hk'
        exact List.Sublist.map SentMessage.hash this
      | _ => cases hk

end Order

/-- A message all of whose datagrams have been received is published when its handlers are done, if
no failure hits it. -/
theorem published_of_received {ms : List SentMessage} {g : TransportToIox.State}
    {ls : List TransportToIox.Label}
    (hms : (ms.map SentMessage.hash).Nodup)
    (hrun : Run.exec (TransportToIox.step getClassHash) .init ls = some g)
    (hs : TransportToIox.Assembly ms g) {m : SentMessage} (hm : m ∈ ms)
    (hall : ∀ d ∈ m.datagrams, d ∈ received ls) (hnf : ¬ Failed g.log m.hash)
    (hwork : g.holder.bind TransportToIox.Handler.working ≠ some m.hash) :
    m.hash ∈ published g.log := by
  have hset : ∀ q ∈ m.submessages, q.datagram ∈ TransportToIox.settled g := by
    intro q hq
    refine hs.settled_of_delivered hq hwork ?_
    exact (TransportToIox.delivered_of_received hrun hq
      (hall _ (List.mem_map_of_mem hq))).resolve_right hnf
  obtain ⟨q, hq⟩ := List.exists_mem_of_ne_nil _ (SentMessage.submessages_ne_nil m)
  rcases hs.complete m hm hnf q hq (hset q hq) with hk | hpb | hp
  · obtain ⟨msg, hmem⟩ := VectorMap.exists_of_mem_keys hk
    obtain ⟨m', hm', hk', he⟩ := hs.entries _ _ hmem
    obtain rfl : m' = m := TransportToIox.eq_of_hash hms hm' hm hk'
    exact (he.incomplete hnf hset).elim
  · -- a handler that is about to publish is still at work
    obtain ⟨h, hh, hpb⟩ := Option.bind_eq_some_iff.mp hpb
    refine absurd (Option.bind_eq_some_iff.mpr ⟨h, hh, ?_⟩) hwork
    cases h with
    | receiveTake x userHeader c shouldPublish =>
      cases shouldPublish with
      | true => exact hpb
      | false => cases hpb
    | receivePublish x c => exact hpb
    | _ => cases hpb
  · obtain ⟨e, he, hpe⟩ := hp
    cases e with
    | published c p k content =>
      obtain rfl : k = m.hash := of_decide_eq_true hpe
      exact mem_published.mpr ⟨c, p, content, he⟩
    | _ => cases hpe

/-- **Delivery over TCP.**  In every run in which no write breaks a message on its socket: what is
published is a message of one of the threads, with its bytes; the messages of a thread are published
in the order in which it sends them, each at most once; and of a session that is drained, every
message is published that no failure has hit and that no handler is working on. -/
theorem tcp_delivery (getClassHash : ServiceDescription → ClassHash)
    (msgs : Fin n → Sender → List SentMessage) (hdistinct : Distinct msgs) {ls : List (Label n)}
    {s : State n} (hg : Run.Guarded (step getClassHash) Unbroken (State.init msgs) ls)
    (hrun : Run.exec (step getClassHash) (State.init msgs) ls = some s) :
    (∀ c p k content, TransportToIox.Event.published c p k content ∈ s.gateway.log →
      ∃ i t, ∃ m ∈ msgs i t, m.hash = k ∧ ∃ chunk, content = some chunk ∧ m.Holds chunk) ∧
    (∀ i t, ((published s.gateway.log).filter
      fun k => k ∈ (msgs i t).map SentMessage.hash).Sublist ((msgs i t).map SentMessage.hash)) ∧
    ∀ i, (s.sessions i).Drained → ∀ t, ∀ m ∈ msgs i t, ¬ Failed s.gateway.log m.hash →
      s.gateway.holder.bind TransportToIox.Handler.working ≠ some m.hash →
        m.hash ∈ published s.gateway.log := by
  have hinv : Inv getClassHash msgs s :=
    Run.invariant_guarded (Inv getClassHash msgs) (fun _ _ _ => inv_step) inv_init hg hrun
  obtain ⟨gls, hgrun, hreceive, hinter⟩ := hinv.gateway
  have hh := hinv.handed hdistinct hinter
  obtain ⟨ds, hsub, hdel⟩ := TransportToIox.delivered_run hgrun
  have hnil : delivered TransportToIox.State.init.log = [] := rfl
  rw [hnil, List.append_nil] at hdel
  rw [← hdel] at hsub
  have hclean : TransportToIox.Clean (allMessages msgs) s.gateway.log := by
    refine ⟨(List.nodup_reverse.mpr hh.nodup).sublist hsub, fun d hd => ?_⟩
    obtain ⟨seqs, hfrom, -, hbegin, -⟩ := hh.threads
    obtain ⟨i, t, hd⟩ := hfrom d (List.mem_reverse.mp (hsub.subset hd))
    obtain ⟨m, hm, hd⟩ := List.mem_flatMap.mp ((hbegin i t).subset hd)
    exact ⟨m, mem_allMessages.mpr ⟨i, t, hm⟩, hd⟩
  have hms := hdistinct.nodup_allMessages
  have hs := TransportToIox.assembly_run hms hreceive hgrun hclean
  refine ⟨fun c p k content hmem => ?_, fun i t => ?_, fun i hdrained t m hm hnf hwork => ?_⟩
  · obtain ⟨newer, older, hlog⟩ := List.append_of_mem hmem
    obtain ⟨m, hm, hk, hholds, -⟩ := hs.log.of_mem hlog
    obtain ⟨i, t, hm⟩ := mem_allMessages.mp hm
    exact ⟨i, t, m, hm, hk, hholds⟩
  · refine sublist_of_precedes (hdistinct.nodup i t) (fun k hk => ?_)
      (published_in_order hh hdistinct hs.log ?_)
    · exact of_decide_eq_true (List.mem_filter.mp hk).2
    · rw [← List.reverse_sublist, List.reverse_reverse]
      exact hsub
  · refine published_of_received hms hgrun hs (mem_allMessages.mpr ⟨i, t, hm⟩) (fun d hd => ?_)
      hnf hwork
    obtain ⟨seqs, -, hthread, -, hall⟩ := hh.threads
    refine (hthread i t).subset ?_
    rw [hall i hdrained t]
    exact List.mem_flatMap.mpr ⟨m, hm, hd⟩

/-! ## A run -/

/-- One gateway sends the message of `Reassembly`, which has two datagrams. -/
def demoMsgs : Fin 1 → Sender → List SentMessage
  | _, .iceoryx2Transport => [TransportToIox.demoMessage]
  | _, .transportForwarder => []

def demoSession : Fin 1 := ⟨0, Nat.one_pos⟩

/-- A piece of 45 bytes is written and comes in. -/
def demoPiece : List (Label 1) :=
  .writeSize demoSession .iceoryx2Transport :: .writeData demoSession .iceoryx2Transport ::
    List.replicate 53 (.read demoSession)

/-- `receive`, and then the sections of the gateway with what a loan finds. -/
def demoReceive (loans : List (Option (Nat → Byte))) : List (Label 1) :=
  .receive demoSession 3 :: loans.map fun loan => .gateway (.proceed 0 loan)

/-- The channel is set up, and the two pieces are written, come in and are received. -/
def demoRun : List (Label 1) :=
  List.flatten [TransportToIox.demoSetup.map Label.gateway, demoPiece,
    demoReceive [none, some fun _ => 0, none, none], demoPiece, demoReceive [none, none, none]]

theorem demoMsgs_distinct : Distinct demoMsgs where
  nodup := by
    intro i t
    cases t <;> simp [demoMsgs]
  sender := by
    intro i t i' t' m hm m' hm' _
    refine ⟨Subsingleton.elim _ _, ?_⟩
    cases t with
    | iceoryx2Transport =>
      cases t' with
      | iceoryx2Transport => rfl
      | transportForwarder => cases hm'
    | transportForwarder => cases hm

/-- The two datagrams are received, no failure hits the message, and it is published. -/
theorem tcp_delivery_demo : ∃ s,
    Run.exec (step demoClassHash) (State.init demoMsgs) demoRun = some s ∧
      (s.sessions demoSession).Drained ∧ ¬ Failed s.gateway.log 9 ∧
      9 ∈ published s.gateway.log := by
  have hfacts : (Run.exec (step demoClassHash) (State.init demoMsgs) demoRun).map (fun s =>
      (decide (s.sessions demoSession).Drained, s.gateway.log.any (TransportToIox.Event.fails 9),
        s.gateway.holder)) = some (true, false, none) := by decide +kernel
  obtain ⟨s, hrun, hs⟩ := Option.map_eq_some_iff.mp hfacts
  obtain ⟨hdrained, hs⟩ := Prod.mk.inj hs
  obtain ⟨hfails, hholder⟩ := Prod.mk.inj hs
  have hdrained := of_decide_eq_true hdrained
  have hnf : ¬ Failed s.gateway.log 9 := by
    rintro ⟨e, he, hf⟩
    exact Bool.false_ne_true (hfails.symm.trans (List.any_eq_true.mpr ⟨e, he, hf⟩))
  have hunbroken : Run.Guarded (step demoClassHash) Unbroken (State.init demoMsgs) demoRun := by
    decide +kernel
  obtain ⟨-, -, hall⟩ := tcp_delivery demoClassHash demoMsgs demoMsgs_distinct hunbroken hrun
  refine ⟨s, hrun, hdrained, hnf, ?_⟩
  refine hall demoSession hdrained .iceoryx2Transport TransportToIox.demoMessage
    (List.mem_singleton_self _) hnf ?_
  rw [hholder]
  simp

end P3com.TcpDelivery
