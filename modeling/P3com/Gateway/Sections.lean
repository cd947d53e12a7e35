/-
# The critical sections of `DiscoveryManager`

A discovery info other than the termination message is broadcast with `m_mutex` held, and, but for
the main thread and that of the discovery manager itself, only in the section in which
`m_terminateFlag` has been found clear (`Fits`).  What one operation puts in front of the rest keeps
to this (`Fits.exec`), and so does what a thread begins a round or a callback with (`Round.fits`).
-/
import P3com.Gateway.TransportThreads
import P3com.Lib.Plan

namespace P3com.TransportThreads

open Locks (Thread)

variable {n : Nat}

/-! ## Kinds of operations -/

/-- A broadcast other than the termination message. -/
def Op.broadcasts : Op n → Bool
  | .ifGood _ calls => .sendBroadcast false ∈ calls
  | .call _ c => c = .sendBroadcast false
  | _ => false

def Op.accesses : Op n → Bool
  | .ifGood _ _ => true
  | .call _ _ => true
  | .ifFailed _ => true
  | _ => false

/-- Only `run` does this. -/
def Op.ofMain : Op n → Bool
  | .ifGood _ calls => .sendBroadcast true ∈ calls
  | .call _ c => c = .sendBroadcast true
  | .registerTransportFailCallback => true
  | .start _ => true
  | .terminate _ => true
  | .join _ => true
  | .clearUpdateCallback => true
  | .stop _ => true
  | .reset _ => true
  | .returned => true
  | _ => false

/-- The operations of `Iceoryx2Transport` and `TransportForwarder`, which broadcast nothing. -/
def Op.ofSender : Op n → Bool
  | .lock => true
  | .unlock => true
  | .use => true
  | .ifGood _ calls => ∀ isTermination, .sendBroadcast isTermination ∉ calls
  | .ifFailed _ => true
  | _ => false

/-- `m_mutex` has to be held. -/
def Op.underMutex : Op n → Bool
  | .unlock => true
  | .ifNotTerminating => true
  | .clearUpdateCallback => true
  | _ => false

/-- The operation leaves `m_mutex` alone. -/
def Op.plain : Op n → Bool
  | .lock => false
  | .unlock => false
  | .ifNotTerminating => false
  | .clearUpdateCallback => false
  | _ => true

/-- What a thread does only with `m_mutex` held, in the section in which it found the flag clear. -/
def confinedTo : Thread n → Op n → Bool
  | .main => fun _ => false
  | .discoveryManager => fun _ => false
  | .iceoryx2Transport => Op.broadcasts
  | .transportForwarder => Op.broadcasts
  | .transport _ => Op.accesses

/-! ## Code with `m_mutex` -/

/-- The code gives the mutex back as often as it has it, and has it where it must. -/
def Balanced : Code n → Nat → Prop
  | [], k => k = 0
  | op :: ops, k => (op.underMutex = true → 0 < k) ∧ Balanced ops (op.depth k)

/-- The code can be put in front of other code when the mutex is held `k` times. -/
def Keeps (k : Nat) (ops : Code n) : Prop := ∀ rest, Balanced rest k → Balanced (ops ++ rest) k

section Keeps

variable {k : Nat} {ops ops' rest : Code n} {op : Op n}

theorem Keeps.nil : Keeps k ([] : Code n) := fun _ h => h

theorem Keeps.append (h : Keeps k ops) (h' : Keeps k ops') : Keeps k (ops ++ ops') := by
  intro rest hrest
  rw [List.append_assoc]
  exact h _ (h' _ hrest)

theorem Keeps.flatMap {ι : Type*} {l : List ι} {f : ι → Code n} (h : ∀ x ∈ l, Keeps k (f x)) :
    Keeps k (l.flatMap f) := by
  induction l with
  | nil => exact Keeps.nil
  | cons x l ih =>
    rw [List.flatMap_cons]
    exact (h x List.mem_cons_self).append (ih fun y hy => h y (List.mem_cons_of_mem x hy))

theorem Keeps.ite {b : Prop} [Decidable b] (h : Keeps k ops) (h' : Keeps k ops') :
    Keeps k (if b then ops else ops') := by
  split
  · exact h
  · exact h'

theorem depth_of_plain (h : op.plain = true) (k : Nat) : op.depth k = k := by
  cases op <;> first | rfl | cases h

theorem underMutex_of_plain (h : op.plain = true) : op.underMutex = false := by
  cases op <;> first | rfl | cases h

theorem Keeps.plain (h : ∀ op ∈ ops, op.plain = true) : Keeps k ops := by
  intro rest hrest
  induction ops with
  | nil => exact hrest
  | cons op ops ih =>
    have hop := h op List.mem_cons_self
    refine ⟨fun hu => ?_, ?_⟩
    · rw [underMutex_of_plain hop] at hu
      cases hu
    · rw [depth_of_plain hop]
      exact ih fun o ho => h o (List.mem_cons_of_mem op ho)

theorem Keeps.locked (h : Keeps (k + 1) ops) : Keeps k ([.lock] ++ ops ++ [.unlock]) := by
  intro rest hrest
  have hunlock : Balanced ([.unlock] ++ rest) (k + 1) := ⟨fun _ => Nat.succ_pos k, hrest⟩
  have hops := h _ hunlock
  rw [← List.append_assoc] at hops
  exact ⟨fun hu => (Bool.false_ne_true hu).elim, hops⟩

theorem Keeps.ifNotTerminating (hk : 0 < k) : Keeps k ([.ifNotTerminating] : Code n) :=
  fun _ hrest => ⟨fun _ => hk, hrest⟩

theorem plain_doForAllEnabled (calls : List Call) :
    ∀ op ∈ (doForAllEnabled calls : Code n), op.plain = true := by
  intro op hop
  rcases List.mem_append.mp hop with hop | hop
  all_goals
    obtain ⟨type, -, rfl⟩ := List.mem_map.mp hop
    rfl

theorem keeps_transportFailCallback : Keeps k (transportFailCallback : Code n) :=
  Keeps.locked (Keeps.ifNotTerminating (Nat.succ_pos k))

theorem keeps_section (ops : Code n) (h : ∀ op ∈ ops, op.plain = true) :
    Keeps k ([.lock] ++ ops ++ [.unlock]) := Keeps.locked (Keeps.plain h)

theorem keeps_use : Keeps k ([.use] : Code n) := Keeps.plain (by simp [Op.plain])

theorem keeps_doFor (type : TransportType) (calls : List Call) :
    Keeps k (doFor type calls : Code n) := Keeps.plain (by simp [doFor, Op.plain])

theorem keeps_discoveryRound (notifications : List PortNotification) :
    Keeps k (discoveryRound notifications : Code n) := by
  have hempty : Keeps k ([.lock, .unlock] : Code n) := keeps_section [] (by simp)
  refine Keeps.flatMap fun x _ =>
    (hempty.append (Keeps.ite ?_ Keeps.nil)).append (Keeps.ite hempty Keeps.nil)
  refine keeps_use.append (keeps_section _ fun op hop => ?_)
  split at hop
  · exact plain_doForAllEnabled _ op hop
  · cases hop

theorem keeps_generateDeviceIndices (lookups : List Nat) :
    Keeps k (generateDeviceIndices lookups : Code n) := by
  refine keeps_section _ fun op hop => ?_
  obtain ⟨count, -, hop⟩ := List.mem_flatMap.mp hop
  obtain ⟨type, -, rfl⟩ := List.mem_map.mp hop
  rfl

theorem keeps_preparePending (type : TransportType) (pushed : Bool) :
    Keeps k (preparePending type pushed : Code n) := by
  refine Keeps.append (Keeps.append (Keeps.plain ?_) (Keeps.ite keeps_use Keeps.nil))
    (Keeps.plain ?_)
  · simp [Op.plain]
  · simp [Op.plain]

theorem keeps_writeSegmented (writes : List Write) (discarded : Option TransportType) :
    Keeps k (writeSegmented writes discarded : Code n) := by
  refine Keeps.append (Keeps.flatMap fun w _ => ?_) ?_
  · exact ((keeps_preparePending _ _).append (keeps_doFor _ _)).append keeps_use
  · cases discarded with
    | none => exact Keeps.nil
    | some type => exact (keeps_preparePending _ _).append keeps_use

theorem keeps_senderRound (notifications : List Notification) :
    Keeps k (senderRound notifications : Code n) := by
  refine Keeps.flatMap fun x _ => ?_
  cases x with
  | noMessage => exact keeps_use
  | noDevice lookups => exact (keeps_use.append (keeps_generateDeviceIndices _)).append keeps_use
  | forwarded lookups writes discarded =>
    refine Keeps.append ?_ (keeps_writeSegmented _ _)
    exact (keeps_use.append (keeps_generateDeviceIndices _)).append keeps_use

theorem keeps_callback (x : Callback) : Keeps k (x.code : Code n) := by
  cases x with
  | bufferSent => exact keeps_use
  | userData => exact keeps_use
  | discovery isTermination isNew =>
    refine Keeps.ite (keeps_section [] (by simp)) ?_
    have hlocked : Keeps k ([.lock] ++ (if isNew then [.ifNotTerminating] else []) ++ [.unlock] :
        Code n) :=
      Keeps.locked (Keeps.ite (Keeps.ifNotTerminating (Nat.succ_pos k)) Keeps.nil)
    have := hlocked.append keeps_use
    rwa [List.append_assoc] at this

theorem keeps_mainRound (resend : Bool) : Keeps k (mainRound resend : Code n) := by
  refine keeps_use.append (Keeps.ite (Keeps.flatMap fun type _ => ?_) Keeps.nil)
  exact keeps_section _ (by simp [doFor, Op.plain])

/-- What an operation puts in front of the rest keeps the balance. -/
theorem keeps_pushes (s : State n) (op : Op n) : Keeps k (s.pushes op) := by
  cases op with
  | ifGood type calls =>
    refine Keeps.ite (Keeps.plain fun o ho => ?_) Keeps.nil
    obtain ⟨c, -, rfl⟩ := List.mem_map.mp ho
    rfl
  | ifFailed type => exact Keeps.ite (Keeps.plain (by simp [Op.plain])) Keeps.nil
  | failCallback type => exact Keeps.ite keeps_transportFailCallback Keeps.nil
  | ifNotTerminating => exact Keeps.ite Keeps.nil (Keeps.plain (plain_doForAllEnabled _))
  | _ => exact Keeps.nil

end Keeps

/-! ## What a thread may still do -/

/-- The code of a thread that holds `m_mutex` so many times. -/
structure Fits (t : Thread n) (ops : Code n) (k : Nat) : Prop where
  balanced : Balanced ops k
  confined : Plan.Confined Op.depth (confinedTo t) ops k
  own : t ≠ .main → ∀ op ∈ ops, op.ofMain = false

section Fits

variable {t : Thread n} {op : Op n} {ops rest : Code n} {k : Nat}

/-- What is put in front of the rest. -/
theorem mem_pushes {s : State n} {o : Op n} (h : o ∈ s.pushes op) :
    (∃ type calls c, op = .ifGood type calls ∧ c ∈ calls ∧ o = .call type c) ∨
    (∃ type, op = .ifFailed type ∧ s.slot type = some .failed ∧ o = .failCallback type) ∨
    ((∃ type, op = .failCallback type) ∧ o ∈ transportFailCallback) ∨
    (op = .ifNotTerminating ∧ s.terminateFlag .discoveryManager = false ∧
      ∃ type, o = .ifGood type [.sendBroadcast false] ∨ o = .ifFailed type) := by
  cases op with
  | ifGood type calls =>
    dsimp only [State.pushes] at h
    split at h
    · obtain ⟨c, hc, rfl⟩ := List.mem_map.mp h
      exact Or.inl ⟨type, calls, c, rfl, hc, rfl⟩
    · cases h
  | ifFailed type =>
    dsimp only [State.pushes] at h
    split at h
    · exact Or.inr (Or.inl ⟨type, rfl, ‹_›, List.mem_singleton.mp h⟩)
    · cases h
  | failCallback type =>
    dsimp only [State.pushes] at h
    split at h
    · exact Or.inr (Or.inr (Or.inl ⟨⟨type, rfl⟩, h⟩))
    · cases h
  | ifNotTerminating =>
    dsimp only [State.pushes] at h
    split at h
    · cases h
    · rename_i hflag
      refine Or.inr (Or.inr (Or.inr ⟨rfl, Bool.eq_false_iff.mpr hflag, ?_⟩))
      rcases List.mem_append.mp h with h | h
      · obtain ⟨type, -, rfl⟩ := List.mem_map.mp h
        exact ⟨type, Or.inl rfl⟩
      · obtain ⟨type, -, rfl⟩ := List.mem_map.mp h
        exact ⟨type, Or.inr rfl⟩
  | _ => cases h

/-- The operations of the fail callback are none of the kinds. -/
theorem kinds_transportFailCallback {o : Op n} (h : o ∈ transportFailCallback) :
    o.broadcasts = false ∧ o.accesses = false ∧ o.ofMain = false ∧ o ≠ .loop ∧
      ∀ type, o ≠ .failCallback type := by
  simp only [transportFailCallback, List.mem_cons, List.not_mem_nil, or_false] at h
  rcases h with rfl | rfl | rfl <;> exact ⟨rfl, rfl, rfl, nofun, nofun⟩

theorem ofMain_pushes {s : State n} (h : op.ofMain = false) :
    ∀ o ∈ s.pushes op, o.ofMain = false := by
  intro o ho
  rcases mem_pushes ho with ⟨type, calls, c, rfl, hc, rfl⟩ | ⟨type, -, -, rfl⟩ | ⟨-, ho⟩ |
    ⟨-, -, type, rfl | rfl⟩
  · refine decide_eq_false fun heq => of_decide_eq_false h ?_
    rwa [heq] at hc
  · rfl
  · exact (kinds_transportFailCallback ho).2.2.1
  · rfl
  · rfl

/-- An operation that broadcasts is put in front only by such an operation, or when the flag is
clear. -/
theorem broadcasts_pushes {s : State n} (h : op.broadcasts = false)
    (hflag : op = .ifNotTerminating → s.terminateFlag .discoveryManager = true) :
    ∀ o ∈ s.pushes op, o.broadcasts = false := by
  intro o ho
  rcases mem_pushes ho with ⟨type, calls, c, rfl, hc, rfl⟩ | ⟨type, -, -, rfl⟩ | ⟨-, ho⟩ |
    ⟨hop, hclear, -⟩
  · refine decide_eq_false fun heq => of_decide_eq_false h ?_
    rwa [heq] at hc
  · rfl
  · exact (kinds_transportFailCallback ho).1
  · rw [hflag hop] at hclear
    cases hclear

theorem accesses_pushes {s : State n} (h : op.accesses = false)
    (hflag : op = .ifNotTerminating → s.terminateFlag .discoveryManager = true) :
    ∀ o ∈ s.pushes op, o.accesses = false := by
  intro o ho
  rcases mem_pushes ho with ⟨type, calls, c, rfl, hc, rfl⟩ | ⟨type, rfl, -, -⟩ | ⟨-, ho⟩ |
    ⟨hop, hclear, -⟩
  · cases h
  · cases h
  · exact (kinds_transportFailCallback ho).2.1
  · rw [hflag hop] at hclear
    cases hclear

theorem confinedTo_pushes {s : State n} (h : confinedTo t op = false)
    (hne : op ≠ .ifNotTerminating) : ∀ o ∈ s.pushes op, confinedTo t o = false := by
  cases t with
  | main => exact fun _ _ => rfl
  | discoveryManager => exact fun _ _ => rfl
  | iceoryx2Transport => exact broadcasts_pushes h fun heq => absurd heq hne
  | transportForwarder => exact broadcasts_pushes h fun heq => absurd heq hne
  | transport i => exact accesses_pushes h fun heq => absurd heq hne

theorem plain_pushes {s : State n} (h : ∀ type, op ≠ .failCallback type) :
    ∀ o ∈ s.pushes op, o.plain = true := by
  intro o ho
  rcases mem_pushes ho with ⟨type, calls, c, -, -, rfl⟩ | ⟨type, -, -, rfl⟩ | ⟨⟨type, heq⟩, -⟩ |
    ⟨-, -, type, rfl | rfl⟩
  · rfl
  · rfl
  · exact absurd heq (h type)
  · rfl
  · rfl

/-- In a section anything may be put in front. -/
theorem confined_pushes {s : State n} {p : Op n → Bool}
    (h : Plan.Confined Op.depth p rest (op.depth (k + 1))) :
    Plan.Confined Op.depth p (s.pushes op ++ rest) (op.depth (k + 1)) := by
  by_cases hop : ∃ type, op = .failCallback type
  · -- the callback locks and unlocks
    obtain ⟨type, rfl⟩ := hop
    dsimp only [State.pushes]
    split
    · exact h
    · exact h
  · have hplain := plain_pushes (s := s) fun type heq => hop ⟨type, heq⟩
    cases op with
    | lock => exact h
    | unlock => exact h
    | failCallback type => exact absurd ⟨type, rfl⟩ hop
    | _ => exact h.push fun o ho => depth_of_plain (hplain o ho) _

/-- **One operation.** -/
theorem Fits.exec (h : Fits t (op :: rest) k) (s : State n) :
    Fits t (s.pushes op ++ rest) (op.depth k) := by
  constructor
  case balanced => exact keeps_pushes s op _ h.balanced.2
  case own =>
    intro hne o ho
    have hop := h.own hne op List.mem_cons_self
    rcases List.mem_append.mp ho with ho | ho
    · exact ofMain_pushes hop o ho
    · exact h.own hne o (List.mem_cons_of_mem op ho)
  case confined =>
    cases k with
    | succ k => exact confined_pushes h.confined
    | zero =>
      -- outside a section nothing of the kind is left
      have hall := Plan.confined_zero.mp h.confined
      refine Plan.confined_of_forall (fun o ho => ?_) _
      rcases List.mem_append.mp ho with ho | ho
      · refine confinedTo_pushes (hall op List.mem_cons_self) ?_ o ho
        rintro rfl
        exact absurd (h.balanced.1 rfl) (lt_irrefl 0)
      · exact hall o (List.mem_cons_of_mem op ho)

/-- A round begins outside a section. -/
theorem Fits.round (h : Fits t rest 0) (hkeeps : Keeps 0 ops)
    (hfree : ∀ op ∈ ops, confinedTo t op = false)
    (hown : ∀ op ∈ ops, op.ofMain = false) : Fits t (ops ++ rest) 0 := by
  have hall := Plan.confined_zero.mp h.confined
  constructor
  case balanced => exact hkeeps _ h.balanced
  case confined =>
    refine Plan.confined_zero.mpr fun o ho => ?_
    exact (List.mem_append.mp ho).elim (hfree o) (hall o)
  case own =>
    intro hne o ho
    exact (List.mem_append.mp ho).elim (hown o) (h.own hne o)

theorem fits_loop (t : Thread n) : Fits t [.loop] 0 where
  balanced := ⟨fun h => (Bool.false_ne_true h).elim, rfl⟩
  confined := by
    refine Plan.confined_of_forall (fun o ho => ?_) 0
    rw [List.mem_singleton.mp ho]
    cases t <;> rfl
  own := by
    intro _ o ho
    rw [List.mem_singleton.mp ho]
    rfl

theorem fits_nil (t : Thread n) : Fits t [] 0 := ⟨rfl, trivial, fun _ _ h => by cases h⟩

theorem Fits.depth_eq_zero (h : Fits t [] k) : k = 0 := h.balanced

theorem Fits.depth_eq_zero_of_loop (h : Fits t [.loop] k) : k = 0 := h.balanced.2


/-! ## Rounds and callbacks -/

variable {cfg : Config n} {s : State n} {old new : Code n}

theorem ofSender_generateDeviceIndices (lookups : List Nat) :
    ∀ o ∈ (generateDeviceIndices lookups : Code n), o.ofSender = true := by
  intro o ho
  simp only [generateDeviceIndices, List.mem_append, List.mem_singleton] at ho
  rcases ho with (rfl | ho) | rfl
  · rfl
  · obtain ⟨count, -, ho⟩ := List.mem_flatMap.mp ho
    obtain ⟨type, -, rfl⟩ := List.mem_map.mp ho
    rfl
  · rfl

theorem ofSender_preparePending (type : TransportType) (pushed : Bool) :
    ∀ o ∈ (preparePending type pushed : Code n), o.ofSender = true := by
  intro o ho
  have hmem : o = .ifGood type [.willBePending] ∨ o = .use ∨ o = .ifFailed type := by
    cases pushed <;> simp [preparePending] at ho <;> tauto
  rcases hmem with rfl | rfl | rfl
  · simp [Op.ofSender]
  · rfl
  · rfl

theorem ofSender_write (w : Write) : ∀ o ∈ (write w : Code n), o.ofSender = true := by
  intro o ho
  simp only [write, doFor, List.mem_append, List.mem_cons, List.not_mem_nil, or_false] at ho
  rcases ho with (ho | rfl | rfl) | rfl
  · exact ofSender_preparePending _ _ o ho
  · simp [Op.ofSender]
  · rfl
  · rfl

theorem ofSender_writeSegmented (writes : List Write) (discarded : Option TransportType) :
    ∀ o ∈ (writeSegmented writes discarded : Code n), o.ofSender = true := by
  refine List.forall_mem_append.mpr ⟨fun o ho => ?_, ?_⟩
  · obtain ⟨w, -, ho⟩ := List.mem_flatMap.mp ho
    exact ofSender_write w o ho
  · cases discarded with
    | none => exact List.forall_mem_nil _
    | some type =>
      exact List.forall_mem_append.mpr
        ⟨ofSender_preparePending _ _, List.forall_mem_singleton.mpr rfl⟩

theorem ofSender_senderNotification (x : Notification) :
    ∀ o ∈ (senderNotification x : Code n), o.ofSender = true := by
  have huse : ∀ o ∈ ([.use] : Code n), o.ofSender = true := List.forall_mem_singleton.mpr rfl
  have hlookups : ∀ lookups, ∀ o ∈ [.use] ++ generateDeviceIndices lookups ++ ([.use] : Code n),
      o.ofSender = true := by
    intro lookups
    have hbefore := List.forall_mem_append.mpr ⟨huse, ofSender_generateDeviceIndices lookups⟩
    exact List.forall_mem_append.mpr ⟨hbefore, huse⟩
  cases x with
  | noMessage => exact huse
  | noDevice lookups => exact hlookups lookups
  | forwarded lookups writes discarded =>
    exact List.forall_mem_append.mpr ⟨hlookups lookups, ofSender_writeSegmented _ _⟩

/-- **What a sender does in a round.** -/
theorem ofSender_senderRound (notifications : List Notification) :
    ∀ o ∈ (senderRound notifications : Code n), o.ofSender = true := by
  intro o ho
  obtain ⟨x, -, ho⟩ := List.mem_flatMap.mp ho
  exact ofSender_senderNotification x o ho

theorem kinds_senderRound (notifications : List Notification) :
    ∀ o ∈ (senderRound notifications : Code n), o.broadcasts = false ∧ o.ofMain = false := by
  intro o ho
  have hsender := ofSender_senderRound notifications o ho
  cases o with
  | ifGood type calls =>
    have hnone := of_decide_eq_true hsender
    exact ⟨decide_eq_false (hnone false), decide_eq_false (hnone true)⟩
  | lock => exact ⟨rfl, rfl⟩
  | unlock => exact ⟨rfl, rfl⟩
  | use => exact ⟨rfl, rfl⟩
  | ifFailed type => exact ⟨rfl, rfl⟩
  | _ => cases hsender

theorem kinds_callback (x : Callback) :
    ∀ o ∈ (x.code : Code n), o.accesses = false ∧ o.broadcasts = false ∧ o.ofMain = false := by
  intro o ho
  cases x with
  | bufferSent =>
    rw [List.mem_singleton.mp ho]
    exact ⟨rfl, rfl, rfl⟩
  | userData =>
    rw [List.mem_singleton.mp ho]
    exact ⟨rfl, rfl, rfl⟩
  | discovery isTermination isNew =>
    have hmem : o = .lock ∨ o = .unlock ∨ o = .ifNotTerminating ∨ o = .use := by
      cases isTermination <;> cases isNew <;>
        simp [Callback.code, receiveRemoteDiscoveryInfo] at ho <;> tauto
    rcases hmem with rfl | rfl | rfl | rfl <;> exact ⟨rfl, rfl, rfl⟩

theorem mem_discoveryRound {notifications : List PortNotification} {o : Op n}
    (ho : o ∈ discoveryRound notifications) :
    o = .lock ∨ o = .unlock ∨ o = .use ∨ o ∈ sendDiscoveryInfo false := by
  obtain ⟨⟨changed, subscribersChanged, loaned⟩, -, ho⟩ := List.mem_flatMap.mp ho
  cases changed <;> cases subscribersChanged <;> cases loaned <;>
    simp [readPortSubscriber] at ho <;> tauto

theorem ofMain_discoveryRound (notifications : List PortNotification) :
    ∀ o ∈ (discoveryRound notifications : Code n), o.ofMain = false := by
  intro o ho
  rcases mem_discoveryRound ho with rfl | rfl | rfl | ho
  · rfl
  · rfl
  · rfl
  · rcases List.mem_append.mp ho with ho | ho
    all_goals
      obtain ⟨type, -, rfl⟩ := List.mem_map.mp ho
      rfl

theorem Round.fits {k : Nat} (hround : Round cfg s t old new) (h : Fits t old k) :
    Fits t new k := by
  cases hround with
  | main resend rest =>
    exact ⟨keeps_mainRound resend _ h.balanced, Plan.confined_of_forall (fun _ _ => rfl) k,
      fun hne => absurd rfl hne⟩
  | terminationRequested rest =>
    exact ⟨h.balanced.2, Plan.confined_of_forall (fun _ _ => rfl) k, fun hne => absurd rfl hne⟩
  | discovery notifications =>
    rw [h.depth_eq_zero_of_loop]
    exact (fits_loop _).round (keeps_discoveryRound _) (fun _ _ => rfl)
      (ofMain_discoveryRound notifications)
  | iceoryx2Transport notifications =>
    rw [h.depth_eq_zero_of_loop]
    exact (fits_loop _).round (keeps_senderRound _)
      (fun o ho => (kinds_senderRound notifications o ho).1)
      (fun o ho => (kinds_senderRound notifications o ho).2)
  | transportForwarder notifications =>
    rw [h.depth_eq_zero_of_loop]
    exact (fits_loop _).round (keeps_senderRound _)
      (fun o ho => (kinds_senderRound notifications o ho).1)
      (fun o ho => (kinds_senderRound notifications o ho).2)
  | endLoop t =>
    rw [h.depth_eq_zero_of_loop]
    exact fits_nil t
  | callback i x hstopped =>
    rw [h.depth_eq_zero]
    have := (fits_nil (.transport i)).round (keeps_callback x)
      (fun o ho => (kinds_callback x o ho).1) fun o ho => (kinds_callback x o ho).2.2
    rwa [List.append_nil] at this

end Fits

end P3com.TransportThreads
