/-
# Two gateways connect to each other

Two gateways with `TCPTransport` (`source/tcp/tcp_transport.cpp`, `tcp_transport_session.cpp`,
`tcp_client_transport_session.cpp`).  A discovery datagram of a gateway without a session makes a
client session, which connects.  The acceptor of the other side keeps the connection when it has no
session for the address, and closes it when it has one.

So when both sides connect at the same time each of them finds its own client session and closes
the connection of the other.  If both do, no connection is left: `crossed_connects_lose_both`.  The
second one to do so has a session whose connection is closed already, and does not know it yet,
because the close notification is still on its way.  This is the only way in which it goes wrong:
in every run in which no connection is accepted at such a moment, exactly one connection is open
when everything has settled, and both sides have a session for it (`settled_usable`).

A connection has the number under which both sides keep their session for it.  The connect of a
client completes with the handshake of TCP, whether the connection has been accepted or not.
-/
import P3com.Transport.TcpTransport
import P3com.Lib.Count
import Mathlib.Logic.Function.Basic
import Mathlib.Tactic.FinCases

namespace P3com.TcpConnect

open TcpTransport (Address Session)

/-! ## State -/

/-- The two gateways. -/
inductive Side
  | left
  | right
deriving DecidableEq

def Side.other : Side → Side
  | .left => .right
  | .right => .left

/-- The accepting end of a connection: in the backlog, with a session, or closed. -/
inductive ServerEnd
  | waiting
  | held
  | closed
deriving DecidableEq

/-- A TCP connection that a client session has asked for.  `connecting` says that the handler of
`async_connect` has not run yet, and `clientOpen` that the client has not closed its socket. -/
structure Connection where
  client : Side
  connecting : Bool
  clientOpen : Bool
  server : ServerEnd
deriving DecidableEq

structure System where
  transport : Side → TcpTransport.State
  connections : List Connection
  /-- Whether the gateway has received a discovery datagram of the other one. -/
  discovered : Side → Bool

/-- Each gateway is seen under one address, which is not one of the other gateway. -/
structure Config where
  address : Side → Address
  interfaceEndpoints : Side → List TcpTransport.Endpoint
  own : ∀ g, ⟨address g.other, 9332⟩ ∉ interfaceEndpoints g

/-- The sender of the discovery datagrams of a gateway. -/
def Config.endpoint (cfg : Config) (g : Side) : TcpTransport.Endpoint := ⟨cfg.address g, 9332⟩

def System.init : System where
  transport := fun _ => { TcpTransport.State.init with callbacks := ⟨true, true, true⟩ }
  connections := []
  discovered := fun _ => false

/-! ## Steps -/

inductive Label
  /-- The gateway receives a discovery datagram of the other one. -/
  | discovery (g : Side) (data : List Byte)
  /-- The connect of the client completes. -/
  | connected (c : Nat)
  /-- The connection is accepted by the other side. -/
  | accepted (c : Nat)
  /-- A session of the gateway reads the end of the stream. -/
  | closed (g : Side) (c : Nat)
deriving DecidableEq

/-- The other end of the connection has been closed, and this end does not know it yet.  A client
reads only after its connect has completed. -/
def Connection.closePending (conn : Connection) (g : Side) : Bool :=
  if g = conn.client then
    conn.clientOpen && !conn.connecting && conn.server = .closed
  else conn.server = .held && !conn.clientOpen

/-- `sessionClosedHandler` closes the socket. -/
def Connection.close (conn : Connection) (g : Side) : Connection :=
  if g = conn.client then { conn with clientOpen := false } else { conn with server := .closed }

/-- The gateway handles an event. -/
def System.handle (cfg : Config) (s : System) (g : Side) (l : TcpTransport.Label) :
    Option TcpTransport.State :=
  TcpTransport.step (cfg.interfaceEndpoints g) (s.transport g) l

def step (cfg : Config) (s : System) : Label → Option System
  | .discovery g data =>
    let c := s.connections.length
    (s.handle cfg g (.datagram (cfg.endpoint g.other) data c)).map fun t =>
      -- a session was added, and has started to connect
      { transport := Function.update s.transport g t
        connections := if (t.session c).isSome then s.connections ++ [⟨g, true, true, .waiting⟩]
          else s.connections
        discovered := Function.update s.discovered g true }
  | .connected c =>
    match s.connections[c]? with
    | none => none
    | some conn =>
      if conn.connecting then
        (s.handle cfg conn.client (.opened c)).map fun t =>
          { s with
            transport := Function.update s.transport conn.client t
            connections := s.connections.set c { conn with connecting := false } }
      else none
  | .accepted c =>
    match s.connections[c]? with
    | none => none
    | some conn =>
      if conn.server = .waiting then
        (s.handle cfg conn.client.other (.accepted (cfg.address conn.client) c)).map fun t =>
          -- without a session the socket is closed, when `startAccept` makes the next one
          { s with
            transport := Function.update s.transport conn.client.other t
            connections := s.connections.set c
              { conn with server := if (t.session c).isSome then .held else .closed } }
      else none
  | .closed g c =>
    match s.connections[c]? with
    | none => none
    | some conn =>
      if conn.closePending g then
        (s.handle cfg g (.closed c)).map fun t =>
          { s with
            transport := Function.update s.transport g t
            connections := s.connections.set c (conn.close g) }
      else none

/-! ## Crossed connections, settled and usable states -/

/-- A connection is not accepted while the accepting side has a session whose connection the other
side has already closed. -/
def NotCrossed (s : System) : Label → Prop
  | .accepted c => ∀ conn ∈ s.connections[c]?, ∀ conn' ∈ s.connections,
      conn'.client = conn.client.other → conn'.clientOpen = true → conn'.server ≠ .closed
  | _ => True

instance (s : System) : (l : Label) → Decidable (NotCrossed s l)
  | .accepted _ => inferInstanceAs (Decidable (∀ _ ∈ _, ∀ _ ∈ _, _ → _ → _))
  | .discovery _ _ => isTrue trivial
  | .connected _ => isTrue trivial
  | .closed _ _ => isTrue trivial

/-- No connect, accept or close is outstanding. -/
def Settled (s : System) : Prop :=
  ∀ conn ∈ s.connections, conn.connecting = false ∧ conn.server ≠ .waiting ∧
    ∀ g, conn.closePending g = false

instance (p : Side → Prop) [DecidablePred p] : Decidable (∀ g, p g) :=
  decidable_of_iff (p .left ∧ p .right) <| by
    constructor
    · rintro ⟨hl, hr⟩ g
      cases g
      · exact hl
      · exact hr
    · exact fun h => ⟨h .left, h .right⟩

/-- Both ends are open. -/
def System.isOpen (s : System) (c : Nat) : Prop :=
  ∃ conn, s.connections[c]? = some conn ∧ conn.clientOpen = true ∧ conn.server = .held

/-- Exactly one connection is open, and both sides have a session for it. -/
def Usable (s : System) : Prop :=
  ∃ c, (∀ c', s.isOpen c' ↔ c' = c) ∧ ∀ g, ((s.transport g).session c).isSome = true

/-! ## The table of a gateway -/

@[simp] theorem Side.other_other (g : Side) : g.other.other = g := by
  cases g <;> rfl

theorem Side.other_ne (g : Side) : g.other ≠ g := by
  cases g <;> decide

theorem Side.eq_or_eq_other (g h : Side) : h = g ∨ h = g.other := by
  cases g <;> cases h <;> decide

/-- The gateway has a session for the connection, as the client or as the server. -/
def Connection.Holds (conn : Connection) (g : Side) (client : Bool) : Prop :=
  if client then conn.client = g ∧ conn.clientOpen = true
  else conn.client = g.other ∧ conn.server = .held

/-- What the table of a gateway should have. -/
def Entry (cfg : Config) (connections : List Connection) (g : Side) (session : Session) : Prop :=
  session.address = cfg.address g.other ∧
    ∃ conn, connections[session.id]? = some conn ∧ conn.Holds g session.client

variable {cfg : Config} {connections connections' : List Connection} {conn conn' : Connection}
  {c : Nat} {g : Side} {session : Session} {t t' : TcpTransport.State}

theorem entry_set_of_ne (h : session.id ≠ c) :
    Entry cfg (connections.set c conn') g session ↔ Entry cfg connections g session := by
  unfold Entry
  rw [List.getElem?_set_ne (Ne.symm h)]

theorem entry_set_self (hc : connections[c]? = some conn) (h : session.id = c) :
    Entry cfg (connections.set c conn') g session ↔
      session.address = cfg.address g.other ∧ conn'.Holds g session.client := by
  have hlt := (List.getElem?_eq_some_iff.mp hc).1
  unfold Entry
  rw [h, List.getElem?_set_self hlt]
  simp

/-- A change of a connection that does not matter for the gateway. -/
theorem entry_set_same (hc : connections[c]? = some conn)
    (h : ∀ client, conn'.Holds g client ↔ conn.Holds g client) :
    Entry cfg (connections.set c conn') g session ↔ Entry cfg connections g session := by
  by_cases hid : session.id = c
  · rw [entry_set_self hc hid, h]
    unfold Entry
    rw [hid, hc]
    simp
  · exact entry_set_of_ne hid

theorem entry_append : Entry cfg (connections ++ [conn']) g session ↔
    Entry cfg connections g session ∨ (session.id = connections.length ∧
      session.address = cfg.address g.other ∧ conn'.Holds g session.client) := by
  unfold Entry
  rcases Nat.lt_trichotomy session.id connections.length with hlt | heq | hgt
  · rw [List.getElem?_append_left hlt]
    simp [Nat.ne_of_lt hlt]
  · rw [heq]
    simp
  · have hlen : (connections ++ [conn']).length ≤ session.id := by
      rw [List.length_append]
      exact hgt
    rw [List.getElem?_eq_none hlen, List.getElem?_eq_none (Nat.le_of_lt hgt)]
    simp [Nat.ne_of_gt hgt]

/-- What holds of one gateway. -/
structure TableOk (cfg : Config) (connections : List Connection) (g : Side)
    (t : TcpTransport.State) : Prop where
  callbacks : t.callbacks.broadcast = true
  devices : ∀ e ∈ t.devices.toList, e = cfg.endpoint g.other
  single : t.transportSessions.size ≤ 1
  table : ∀ session, session ∈ t.transportSessions.toList ↔ Entry cfg connections g session

/-- The tables have not changed, and should not have. -/
theorem TableOk.congr (h : TableOk cfg connections g t) (hsame : TcpTransport.SameTables t t')
    (hentry : ∀ session, Entry cfg connections' g session ↔ Entry cfg connections g session) :
    TableOk cfg connections' g t' where
  callbacks := by
    rw [hsame.callbacks]
    exact h.callbacks
  devices := by
    rw [hsame.devices]
    exact h.devices
  single := by
    rw [hsame.transportSessions]
    exact h.single
  table := by
    intro session
    rw [hsame.transportSessions, h.table, hentry]

theorem TableOk.eq_of_mem (h : TableOk cfg connections g t) {session session' : Session}
    (hs : session ∈ t.transportSessions.toList) (hs' : session' ∈ t.transportSessions.toList) :
    session = session' := by
  have hlen := h.single
  unfold CxxVector.size at hlen
  match hl : t.transportSessions.toList, hlen with
  | [], _ => simp [hl] at hs
  | [x], _ =>
    rw [hl] at hs hs'
    rw [List.mem_singleton.mp hs, List.mem_singleton.mp hs']

theorem TableOk.eq_singleton (h : TableOk cfg connections g t)
    (hs : session ∈ t.transportSessions.toList) : t.transportSessions.toList = [session] := by
  have hlen := h.single
  unfold CxxVector.size at hlen
  match hl : t.transportSessions.toList, hlen with
  | [], _ => simp [hl] at hs
  | [x], _ =>
    rw [hl] at hs
    rw [List.mem_singleton.mp hs]

/-- Only sessions for the other gateway: when none is found, there is none. -/
theorem TableOk.eq_nil (h : TableOk cfg connections g t)
    (hfind : t.findSession (cfg.address g.other) = none) : t.transportSessions.toList = [] := by
  refine List.eq_nil_iff_forall_not_mem.mpr fun session hs => ?_
  have haddress := ((h.table session).mp hs).1
  have := List.findIdx?_eq_none_iff.mp hfind session hs
  simp [haddress] at this

/-- The first session of an empty table. -/
theorem toList_pushBack_nil {v : CxxVector Session maxDeviceCount} (h : v.toList = [])
    (session : Session) : (v.pushBack session).toList = [session] := by
  have hroom : v.size < maxDeviceCount := by
    unfold CxxVector.size
    rw [h]
    decide
  rw [CxxVector.toList_pushBack hroom, h]
  rfl

theorem session_isSome_iff {c : Nat} :
    (t.session c).isSome = true ↔ ∃ session ∈ t.transportSessions.toList, session.id = c := by
  unfold TcpTransport.State.session
  rw [List.find?_isSome]
  simp

/-! ## The invariant -/

/-- Once there has been a connection there is one that nobody has closed. -/
structure Inv (cfg : Config) (s : System) : Prop where
  tables : ∀ g, TableOk cfg s.connections g (s.transport g)
  ends : ∀ conn ∈ s.connections, conn.clientOpen = false → conn.server = .closed
  alive : s.connections ≠ [] →
    ∃ conn ∈ s.connections, conn.clientOpen = true ∧ conn.server ≠ .closed
  discovered : ∀ g, s.discovered g = true → s.connections ≠ []

variable {s s' : System} {data : List Byte}

theorem not_entry_nil : ¬ Entry cfg [] g session := by
  rintro ⟨-, conn, hconn, -⟩
  simp at hconn

theorem inv_init (cfg : Config) : Inv cfg System.init where
  tables := fun g =>
    { callbacks := rfl
      devices := by simp [System.init, TcpTransport.State.init]
      single := by simp [System.init, TcpTransport.State.init, CxxVector.size]
      table := by
        intro session
        simp [System.init, TcpTransport.State.init, not_entry_nil] }
  ends := by simp [System.init]
  alive := by simp [System.init]
  discovered := by simp [System.init]

/-- One gateway has moved; the tables of both are to be looked at. -/
theorem tables_update (hg : TableOk cfg connections g t)
    (hother : TableOk cfg connections g.other (s.transport g.other)) (h : Side) :
    TableOk cfg connections h (Function.update s.transport g t h) := by
  rcases Side.eq_or_eq_other g h with rfl | rfl
  · rw [Function.update_self]
    exact hg
  · rw [Function.update_of_ne g.other_ne]
    exact hother

theorem sameTables_refl (t : TcpTransport.State) : TcpTransport.SameTables t t := ⟨rfl, rfl, rfl⟩

/-- The other gateway is known, or there is room for it. -/
theorem TableOk.known (h : TableOk cfg connections g t) :
    cfg.endpoint g.other ∈ t.devices.toList ∨ t.devices.size < maxDeviceCount := by
  by_cases hmem : cfg.endpoint g.other ∈ t.devices.toList
  · exact .inl hmem
  · right
    have hnil : t.devices.toList = [] := by
      refine List.eq_nil_iff_forall_not_mem.mpr fun e he => hmem ?_
      rw [← h.devices e he]
      exact he
    unfold CxxVector.size
    rw [hnil]
    decide

/-- A datagram of the other gateway registers no other device. -/
theorem TableOk.devices_registerDevice (h : TableOk cfg connections g t) {e : TcpTransport.Endpoint}
    (he : e ∈ (t.registerDevice (cfg.endpoint g.other)).1.devices.toList) :
    e = cfg.endpoint g.other := by
  unfold TcpTransport.State.registerDevice at he
  split at he
  · exact h.devices e he
  · rcases CxxVector.mem_of_mem_pushBack he with he | rfl
    · exact h.devices e he
    · rfl

/-! ## The steps -/

/-- A new client session, for a connection of its own. -/
theorem TableOk.connects (h : TableOk cfg connections g t) (hnil : t.transportSessions.toList = [])
    (hcallbacks : t'.callbacks = t.callbacks)
    (hdevices : t'.devices = (t.registerDevice (cfg.endpoint g.other)).1.devices)
    (hlist : t'.transportSessions.toList = [⟨connections.length, true, cfg.address g.other⟩]) :
    TableOk cfg (connections ++ [⟨g, true, true, .waiting⟩]) g t' where
  callbacks := by
    rw [hcallbacks]
    exact h.callbacks
  devices := by
    rw [hdevices]
    exact fun e => h.devices_registerDevice
  single := by
    unfold CxxVector.size
    rw [hlist]
    exact Nat.le_refl 1
  table := by
    intro session
    have hold : ¬ Entry cfg connections g session := by
      rw [← h.table session, hnil]
      exact List.not_mem_nil
    rw [hlist, List.mem_singleton, entry_append, or_iff_right hold]
    obtain ⟨id, client, address⟩ := session
    cases client <;> simp [Connection.Holds]

theorem inv_discovery (hs : Inv cfg s) (h : step cfg s (.discovery g data) = some s') :
    Inv cfg s' := by
  simp only [step, System.handle] at h
  obtain ⟨t, ht, rfl⟩ := Option.map_eq_some_iff.mp h
  have hok := hs.tables g
  simp only [TcpTransport.step] at ht
  split at ht
  · cases ht
  case isFalse hnew =>
    obtain ⟨hcallbacks, hdevices, hsessions⟩ :=
      TcpTransport.discoverySocketCallback_tables (cfg.own g) hok.callbacks hok.known ht
    split at hsessions
    case isTrue hfind =>
      have hnil := hok.eq_nil hfind
      have hlist : t.transportSessions.toList =
          [⟨s.connections.length, true, cfg.address g.other⟩] := by
        rw [hsessions, toList_pushBack_nil hnil]
      have hsome : (t.session s.connections.length).isSome = true := by
        rw [session_isSome_iff, hlist]
        exact ⟨_, List.mem_singleton_self _, rfl⟩
      simp only [hsome, if_true]
      refine ⟨tables_update (hok.connects hnil hcallbacks hdevices hlist) ?_, ?_, ?_, by simp⟩
      · -- the other gateway knows nothing of the connection yet
        refine (hs.tables g.other).congr (sameTables_refl _) fun session => ?_
        rw [entry_append]
        obtain ⟨id, client, address⟩ := session
        cases client <;> simp [Connection.Holds, g.other_ne.symm]
      · intro conn hconn hclosed
        rcases List.mem_append.mp hconn with hconn | hconn
        · exact hs.ends conn hconn hclosed
        · rw [List.mem_singleton.mp hconn] at hclosed
          cases hclosed
      · exact fun _ => ⟨⟨g, true, true, .waiting⟩, by simp, rfl, by simp⟩
    case isFalse hfind =>
      have hsame : (t.session s.connections.length).isSome = false := by
        unfold TcpTransport.State.session at hnew ⊢
        rw [hsessions]
        exact Bool.eq_false_iff.mpr hnew
      simp only [hsame, Bool.false_eq_true, if_false]
      refine ⟨tables_update ⟨?_, ?_, ?_, ?_⟩ (hs.tables g.other), hs.ends, hs.alive, ?_⟩
      · rw [hcallbacks]
        exact hok.callbacks
      · rw [hdevices]
        exact fun e => hok.devices_registerDevice
      · rw [hsessions]
        exact hok.single
      · rw [hsessions]
        exact hok.table
      · -- the session that was found is for a connection
        intro _ _ hempty
        obtain ⟨p, hp⟩ := Option.ne_none_iff_exists'.mp hfind
        obtain ⟨hlt, -, -⟩ := List.findIdx?_eq_some_iff_getElem.mp hp
        have hentry := (hok.table _).mp (List.getElem_mem hlt)
        rw [hempty] at hentry
        exact not_entry_nil hentry

/-- The connect of a client completes: what was known is reported, nothing else changes. -/
theorem inv_connected (hs : Inv cfg s) (h : step cfg s (.connected c) = some s') :
    Inv cfg s' := by
  simp only [step] at h
  split at h
  · cases h
  case h_2 conn hc =>
    split at h
    case isFalse => cases h
    case isTrue =>
      simp only [System.handle] at h
      obtain ⟨t, ht, rfl⟩ := Option.map_eq_some_iff.mp h
      have hsame : TcpTransport.SameTables (s.transport conn.client) t := by
        simp only [TcpTransport.step] at ht
        split at ht
        · split at ht
          · obtain rfl := Option.some.inj ht
            exact TcpTransport.sameTables_handleSessionOpen _ _
          · cases ht
        · cases ht
      have hentry : ∀ g session, Entry cfg (s.connections.set c { conn with connecting := false })
          g session ↔ Entry cfg s.connections g session :=
        fun g session => entry_set_same hc fun client => Iff.rfl
      refine ⟨tables_update ((hs.tables _).congr hsame (hentry _))
        ((hs.tables _).congr (sameTables_refl _) (hentry _)), ?_, fun _ => ?_, ?_⟩
      · intro conn' hconn' hclosed
        rcases (List.mem_set_iff hc).mp hconn' with rfl | hconn'
        · exact hs.ends conn (List.mem_of_getElem? hc) hclosed
        · exact hs.ends conn' (List.mem_of_mem_eraseIdx hconn') hclosed
      · obtain ⟨conn', hconn', halive⟩ := hs.alive (List.ne_nil_of_mem (List.mem_of_getElem? hc))
        by_cases heq : conn' = conn
        · subst heq
          exact ⟨_, (List.mem_set_iff hc).mpr (.inl rfl), halive⟩
        · exact ⟨conn', (List.mem_set_iff hc).mpr (.inr (List.mem_eraseIdx_of_ne hc hconn' heq)),
            halive⟩
      · intro g hg hempty
        exact hs.discovered g hg (by simpa using hempty)

/-- Accepting a connection without a session. -/
theorem TableOk.accepts (h : TableOk cfg connections g t) (hc : connections[c]? = some conn)
    (hclient : conn.client = g.other) (hnil : t.transportSessions.toList = [])
    (hcallbacks : t'.callbacks = t.callbacks) (hdevices : t'.devices = t.devices)
    (hlist : t'.transportSessions.toList = [⟨c, false, cfg.address g.other⟩]) :
    TableOk cfg (connections.set c { conn with server := .held }) g t' where
  callbacks := by
    rw [hcallbacks]
    exact h.callbacks
  devices := by
    rw [hdevices]
    exact h.devices
  single := by
    unfold CxxVector.size
    rw [hlist]
    exact Nat.le_refl 1
  table := by
    intro session
    rw [hlist, List.mem_singleton]
    by_cases hid : session.id = c
    · rw [entry_set_self hc hid]
      obtain ⟨id, client, address⟩ := session
      obtain rfl : id = c := hid
      cases client <;> simp [Connection.Holds, hclient, g.other_ne]
    · rw [entry_set_of_ne hid, ← h.table session, hnil]
      constructor
      · rintro rfl
        exact absurd rfl hid
      · exact fun hmem => absurd hmem List.not_mem_nil

/-- The client has a session for its connection. -/
theorem Inv.clientSession (hs : Inv cfg s) (hc : s.connections[c]? = some conn)
    (hopen : conn.clientOpen = true) :
    (⟨c, true, cfg.address conn.client.other⟩ : Session) ∈
      (s.transport conn.client).transportSessions.toList :=
  ((hs.tables conn.client).table _).mpr ⟨rfl, conn, hc, rfl, hopen⟩

/-- The server has a session for a connection that it holds. -/
theorem Inv.serverSession (hs : Inv cfg s) (hc : s.connections[c]? = some conn)
    (hheld : conn.server = .held) :
    (⟨c, false, cfg.address conn.client⟩ : Session) ∈
      (s.transport conn.client.other).transportSessions.toList := by
  have hentry : Entry cfg s.connections conn.client.other ⟨c, false, cfg.address conn.client⟩ := by
    refine ⟨?_, conn, hc, ?_, hheld⟩
    · rw [Side.other_other]
    · rw [Side.other_other]
  exact ((hs.tables conn.client.other).table _).mpr hentry

theorem Inv.clientOpen (hs : Inv cfg s) (hconn : conn ∈ s.connections)
    (hserver : conn.server ≠ .closed) : conn.clientOpen = true := by
  by_contra hclosed
  exact hserver (hs.ends conn hconn (by simpa using hclosed))

/-- **The side that closes a new connection as a duplicate has a client session of its own.** -/
theorem Inv.ownConnection (hs : Inv cfg s) (hc : s.connections[c]? = some conn)
    (hwaiting : conn.server = .waiting) (hsession : session ∈
      (s.transport conn.client.other).transportSessions.toList) :
    ∃ conn' ∈ s.connections, conn'.client = conn.client.other ∧ conn'.clientOpen = true := by
  obtain ⟨-, conn', hconn', hholds⟩ := ((hs.tables conn.client.other).table session).mp hsession
  cases hclient : session.client with
  | true =>
    rw [hclient] at hholds
    exact ⟨conn', List.mem_of_getElem? hconn', hholds⟩
  | false =>
    -- a server session would be for the connection of the client's only session, which is `c`
    rw [hclient] at hholds
    obtain ⟨hpeer, hheld⟩ := hholds
    rw [Side.other_other] at hpeer
    have hopen' : conn'.clientOpen = true :=
      hs.clientOpen (List.mem_of_getElem? hconn') (by simp [hheld])
    have hopen : conn.clientOpen = true :=
      hs.clientOpen (List.mem_of_getElem? hc) (by simp [hwaiting])
    have hmem' := hs.clientSession hconn' hopen'
    rw [hpeer] at hmem'
    have hid := congrArg Session.id
      ((hs.tables conn.client).eq_of_mem (hs.clientSession hc hopen) hmem')
    have hid : c = session.id := hid
    rw [← hid, hc] at hconn'
    obtain rfl := Option.some.inj hconn'
    rw [hwaiting] at hheld
    cases hheld

/-- What the server does is nothing to the table of the client. -/
theorem holds_server (conn : Connection) (server : ServerEnd) (client : Bool) :
    ({ conn with server := server } : Connection).Holds conn.client client ↔
      conn.Holds conn.client client := by
  cases client <;> simp [Connection.Holds, conn.client.other_ne.symm]

/-- The server end of a connection changes, and the table of the server with it. -/
theorem Inv.setServer (hs : Inv cfg s) (hc : s.connections[c]? = some conn)
    (hopen : conn.clientOpen = true) {server : ServerEnd}
    (hserver : TableOk cfg (s.connections.set c { conn with server := server })
      conn.client.other t)
    (halive : ∃ conn' ∈ s.connections.set c { conn with server := server },
      conn'.clientOpen = true ∧ conn'.server ≠ .closed) :
    Inv cfg { s with
      transport := Function.update s.transport conn.client.other t
      connections := s.connections.set c { conn with server := server } } := by
  refine ⟨tables_update hserver ?_, ?_, fun _ => halive, fun g hg hempty => ?_⟩
  · rw [Side.other_other]
    exact (hs.tables conn.client).congr (sameTables_refl _) fun session =>
      entry_set_same hc (holds_server conn server)
  · intro conn' hconn' hclosed
    rcases (List.mem_set_iff hc).mp hconn' with rfl | hconn'
    · rw [hopen] at hclosed
      cases hclosed
    · exact hs.ends conn' (List.mem_of_mem_eraseIdx hconn') hclosed
  · exact hs.discovered g hg (by simpa using hempty)

theorem inv_accepted (hs : Inv cfg s) (hg : NotCrossed s (.accepted c))
    (h : step cfg s (.accepted c) = some s') : Inv cfg s' := by
  simp only [step] at h
  split at h
  · cases h
  case h_2 conn hc =>
    split at h
    case isFalse => cases h
    case isTrue hwaiting =>
      simp only [System.handle] at h
      obtain ⟨t, ht, rfl⟩ := Option.map_eq_some_iff.mp h
      have hopen : conn.clientOpen = true :=
        hs.clientOpen (List.mem_of_getElem? hc) (by simp [hwaiting])
      have hok := hs.tables conn.client.other
      simp only [TcpTransport.step] at ht
      split at ht
      · cases ht
      case isFalse hnew =>
        obtain rfl := Option.some.inj ht
        cases hfind : (s.transport conn.client.other).findSession (cfg.address conn.client) with
        | none =>
          have hnil := hok.eq_nil (by rw [Side.other_other]; exact hfind)
          obtain ⟨hcallbacks, hdevices, hsessions⟩ := TcpTransport.accept_of_unknown c hfind
          have hlist : ((s.transport conn.client.other).accept (cfg.address conn.client)
              c).transportSessions.toList = [⟨c, false, cfg.address conn.client.other.other⟩] := by
            rw [hsessions, toList_pushBack_nil hnil, Side.other_other]
          have hsome : (((s.transport conn.client.other).accept (cfg.address conn.client)
              c).session c).isSome = true := by
            rw [session_isSome_iff, hlist]
            exact ⟨_, List.mem_singleton_self _, rfl⟩
          simp only [hsome, if_true]
          refine hs.setServer hc hopen
            (hok.accepts hc (Side.other_other _).symm hnil hcallbacks hdevices hlist) ?_
          exact ⟨_, (List.mem_set_iff hc).mpr (.inl rfl), hopen, by simp⟩
        | some p =>
          rw [TcpTransport.accept_of_known c hfind]
          simp only [hnew, Bool.false_eq_true, if_false]
          refine hs.setServer hc hopen (hok.congr (sameTables_refl _) fun session =>
            entry_set_same hc fun client => ?_) ?_
          · cases client <;> simp [Connection.Holds, hwaiting, conn.client.other_ne.symm]
          · -- the session that was found is for a connection that the other side has not closed
            obtain ⟨hlt, -, -⟩ := List.findIdx?_eq_some_iff_getElem.mp hfind
            obtain ⟨conn', hconn', hown, hopen'⟩ :=
              hs.ownConnection hc hwaiting (List.getElem_mem hlt)
            have hne : conn' ≠ conn := by
              rintro rfl
              exact conn'.client.other_ne hown.symm
            exact ⟨conn', (List.mem_set_iff hc).mpr (.inr (List.mem_eraseIdx_of_ne hc hconn' hne)),
              hopen', hg conn hc conn' hconn' hown hopen'⟩

/-- The client reads the end of the stream and gives its session up. -/
theorem TableOk.closes (h : TableOk cfg connections g t) (hc : connections[c]? = some conn)
    (hclient : conn.client = g) (hopen : conn.clientOpen = true) :
    TableOk cfg (connections.set c { conn with clientOpen := false }) g
      (t.handleSessionClose c) := by
  have hmem : (⟨c, true, cfg.address g.other⟩ : Session) ∈ t.transportSessions.toList :=
    (h.table _).mpr ⟨rfl, conn, hc, hclient, hopen⟩
  have hlist := h.eq_singleton hmem
  have hclose : t.handleSessionClose c =
      { t with transportSessions := t.transportSessions.erase 0 } := by
    unfold TcpTransport.State.handleSessionClose
    simp [hlist, List.findIdx?_cons]
  have hnil : (t.handleSessionClose c).transportSessions.toList = [] := by
    rw [hclose]
    show t.transportSessions.toList.eraseIdx 0 = []
    rw [hlist]
    rfl
  refine ⟨?_, ?_, ?_, fun session => ?_⟩
  · rw [hclose]
    exact h.callbacks
  · rw [hclose]
    exact h.devices
  · unfold CxxVector.size
    rw [hnil]
    exact Nat.zero_le 1
  · rw [hnil, iff_false_left List.not_mem_nil]
    by_cases hid : session.id = c
    · rw [entry_set_self hc hid]
      cases session.client <;> simp [Connection.Holds, hclient, g.other_ne.symm]
    · rw [entry_set_of_ne hid, ← h.table session, hlist, List.mem_singleton]
      rintro rfl
      exact hid rfl

theorem inv_closed (hs : Inv cfg s) (h : step cfg s (.closed g c) = some s') : Inv cfg s' := by
  simp only [step] at h
  split at h
  · cases h
  case h_2 conn hc =>
    split at h
    case isFalse => cases h
    case isTrue hpending =>
      simp only [System.handle, TcpTransport.step, Option.map_some] at h
      obtain rfl := Option.some.inj h
      unfold Connection.closePending at hpending
      split at hpending
      case isTrue hclient =>
        subst hclient
        simp only [Bool.and_eq_true, decide_eq_true_eq] at hpending
        obtain ⟨⟨hopen, -⟩, hclosed⟩ := hpending
        have hconn : conn.close conn.client = { conn with clientOpen := false } := by
          simp [Connection.close]
        simp only [hconn]
        refine ⟨tables_update ((hs.tables conn.client).closes hc rfl hopen) ?_, ?_, fun _ => ?_, ?_⟩
        · refine (hs.tables conn.client.other).congr (sameTables_refl _) fun session => ?_
          refine entry_set_same hc fun client => ?_
          cases client <;> simp [Connection.Holds, conn.client.other_ne.symm]
        · intro conn' hconn' hopen'
          rcases (List.mem_set_iff hc).mp hconn' with rfl | hconn'
          · exact hclosed
          · exact hs.ends conn' (List.mem_of_mem_eraseIdx hconn') hopen'
        · obtain ⟨conn', hconn', hopen', halive⟩ :=
            hs.alive (List.ne_nil_of_mem (List.mem_of_getElem? hc))
          have hne : conn' ≠ conn := by
            rintro rfl
            exact halive hclosed
          exact ⟨conn', (List.mem_set_iff hc).mpr (.inr (List.mem_eraseIdx_of_ne hc hconn' hne)),
            hopen', halive⟩
        · intro g hg hempty
          exact hs.discovered g hg (by simpa using hempty)
      case isFalse =>
        -- a client never closes a connection that the server holds
        simp only [Bool.and_eq_true, decide_eq_true_eq, Bool.not_eq_true'] at hpending
        have hserver := hs.ends conn (List.mem_of_getElem? hc) hpending.2
        rw [hpending.1] at hserver
        cases hserver

/-- **One step.** -/
theorem inv_step {l : Label} (hs : Inv cfg s) (hg : NotCrossed s l) (h : step cfg s l = some s') :
    Inv cfg s' := by
  cases l with
  | discovery g data => exact inv_discovery hs h
  | connected c => exact inv_connected hs h
  | accepted c => exact inv_accepted hs hg h
  | closed g c => exact inv_closed hs h

/-! ## The result -/

/-- When everything has settled, the connection that nobody has closed is held by both sides. -/
theorem Inv.exists_open (hs : Inv cfg s) (hsettled : Settled s) (hne : s.connections ≠ []) :
    ∃ c, s.isOpen c := by
  obtain ⟨conn, hconn, hopen, halive⟩ := hs.alive hne
  obtain ⟨c, hc⟩ := List.getElem?_of_mem hconn
  refine ⟨c, conn, hc, hopen, ?_⟩
  cases hserver : conn.server with
  | waiting => exact absurd hserver (hsettled conn hconn).2.1
  | held => rfl
  | closed => exact absurd hserver halive

/-- Two open connections would be two sessions in one table. -/
theorem Inv.open_unique (hs : Inv cfg s) {c c' : Nat} (h : s.isOpen c) (h' : s.isOpen c') :
    c' = c := by
  obtain ⟨conn, hc, hopen, hheld⟩ := h
  obtain ⟨conn', hc', hopen', hheld'⟩ := h'
  have hsession := hs.clientSession hc hopen
  rcases Side.eq_or_eq_other conn.client conn'.client with heq | heq
  · have hsession' := hs.clientSession hc' hopen'
    rw [heq] at hsession'
    exact congrArg Session.id ((hs.tables conn.client).eq_of_mem hsession' hsession)
  · have hsession' := hs.serverSession hc' hheld'
    rw [heq, Side.other_other] at hsession'
    exact congrArg Session.id ((hs.tables conn.client).eq_of_mem hsession' hsession)

theorem Inv.sessions (hs : Inv cfg s) {c : Nat} (h : s.isOpen c) (g : Side) :
    ((s.transport g).session c).isSome = true := by
  obtain ⟨conn, hc, hopen, hheld⟩ := h
  rw [session_isSome_iff]
  rcases Side.eq_or_eq_other conn.client g with rfl | rfl
  · exact ⟨_, hs.clientSession hc hopen, rfl⟩
  · exact ⟨_, hs.serverSession hc hheld, rfl⟩

/-- **Simultaneous connects leave one usable connection, when they do not cross.** -/
theorem settled_usable (cfg : Config) (ls : List Label) (s : System)
    (hg : Run.Guarded (step cfg) NotCrossed System.init ls)
    (h : Run.exec (step cfg) System.init ls = some s) (hdiscovered : ∀ g, s.discovered g = true)
    (hsettled : Settled s) : Usable s := by
  have hs := Run.invariant_guarded (Inv cfg) (fun _ _ _ => inv_step) (inv_init cfg) hg h
  obtain ⟨c, hopen⟩ := hs.exists_open hsettled (hs.discovered .left (hdiscovered .left))
  refine ⟨c, fun c' => ⟨hs.open_unique hopen, ?_⟩, hs.sessions hopen⟩
  rintro rfl
  exact hopen

/-! ## Two runs -/

def demoConfig : Config where
  address
    | .left => 1
    | .right => 2
  interfaceEndpoints
    | .left => [⟨1, 9332⟩]
    | .right => [⟨2, 9332⟩]
  own := by
    intro g
    cases g <;> decide

/-- Both sides discover each other and connect. -/
def demoBoth : List Label :=
  [.discovery .left [7], .discovery .right [8], .connected 0, .connected 1]

/-- The left side closes the connection of the right side as a duplicate, and the right side hears
of it before it accepts the connection of the left side. -/
def demoRun : List Label := demoBoth ++ [.accepted 1, .closed .right 1, .accepted 0]

/-- What can be seen of a system. -/
def System.view (s : System) : List Connection × Bool × Bool :=
  (s.connections, s.discovered .left, s.discovered .right)

theorem settled_usable_demo :
    ∃ s, Run.exec (step demoConfig) System.init demoRun = some s ∧ Settled s ∧ Usable s := by
  have hrun : (Run.exec (step demoConfig) System.init demoRun).map System.view =
      some ([⟨.left, false, true, .held⟩, ⟨.right, false, false, .closed⟩], true, true) := by
    decide +kernel
  obtain ⟨s, hs, hview⟩ := Option.map_eq_some_iff.mp hrun
  obtain ⟨hconnections, hleft, hright⟩ : s.connections = _ ∧ s.discovered .left = true ∧
      s.discovered .right = true := by simpa [System.view] using hview
  have hsettled : Settled s := by
    unfold Settled
    rw [hconnections]
    decide
  refine ⟨s, hs, hsettled, settled_usable demoConfig demoRun s (by decide +kernel) hs ?_ hsettled⟩
  intro g
  cases g
  · exact hleft
  · exact hright

/-- **Crossed connects lose both connections.**  Each side closes the connection of the other as a
duplicate of its own, and then hears that its own was closed. -/
theorem crossed_connects_lose_both :
    ∃ s, Run.exec (step demoConfig) System.init (demoBoth ++ [.accepted 1, .accepted 0,
        .closed .left 0, .closed .right 1]) = some s ∧ (∀ g, s.discovered g = true) ∧
      Settled s ∧ ¬ Usable s := by
  have hrun : (Run.exec (step demoConfig) System.init (demoBoth ++ [.accepted 1, .accepted 0,
      .closed .left 0, .closed .right 1])).map System.view =
      some ([⟨.left, false, false, .closed⟩, ⟨.right, false, false, .closed⟩], true, true) := by
    decide +kernel
  obtain ⟨s, hs, hview⟩ := Option.map_eq_some_iff.mp hrun
  obtain ⟨hconnections, hleft, hright⟩ : s.connections = _ ∧ s.discovered .left = true ∧
      s.discovered .right = true := by simpa [System.view] using hview
  refine ⟨s, hs, fun g => ?_, ?_, ?_⟩
  · cases g
    · exact hleft
    · exact hright
  · unfold Settled
    rw [hconnections]
    decide
  · rintro ⟨c, hunique, -⟩
    obtain ⟨conn, hc, hopen, -⟩ := (hunique c).mpr rfl
    rw [hconnections] at hc
    have hmem := List.mem_of_getElem? hc
    fin_cases hmem
    · cases hopen
    · cases hopen

end P3com.TcpConnect
