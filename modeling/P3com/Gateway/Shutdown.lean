/-
# Shutting down

At the end of `GatewayApp::run` it says

    discovery->deinitialize();
    // The only remaining places which can instigate sending over transport
    // layers are iox2tr and transportForwarder. [...]
    iox2tr.join();
    transportForwarder->join();
    // Now, no additional transport messages should be sent, so it is safe to
    // terminate transport layers.
    iox::p3com::TransportInfo::terminate();

But a thread of a transport may be in the middle of `receiveRemoteDiscoveryInfo` then, and answer a
new device, and any thread that uses a transport may find that one has failed and broadcast from the
fail callback.  These two test `m_terminateFlag`, which is not part of what a mutex guards: the flag
may be set between the test and the broadcast.

Why it is right all the same:

1. Whoever has found the flag clear has finished its broadcasts when it gives `m_mutex` back
   (`Sections`).
2. `deinitialize` sets the flag before it takes the mutex for the termination message.  From then on
   nobody is in the middle of a broadcast, and nobody finds the flag clear (`Late`).
3. The waitset threads do not test this flag before they send; they are joined, one of them before
   the termination message.

So the termination message is the last discovery message of the gateway, no transport is accessed
once one is being destroyed, and nothing is done after `run` has returned (`orderly_shutdown`).
-/
import P3com.Gateway.Sections

namespace P3com.TransportThreads

open Locks (Thread)

variable {n : Nat}

/-! ## The plan of `run` -/

/-- What becomes true in the course of the shutdown, and stays true. -/
inductive Fact (n : Nat)
  /-- `m_terminateFlag` of the discovery manager is set. -/
  | terminating
  | ended (t : Thread n)
  /-- `deinitialize` has taken the mutex and replaced `m_updateCallback`. -/
  | cleared
  | stopped (type : TransportType)

def Fact.Holds (cfg : Config n) (s : State n) : Fact n → Prop
  | .terminating => s.terminateFlag .discoveryManager = true
  -- a thread of a transport has ended when it can begin no other callback
  | .ended t => s.todo t = some [] ∧ ∀ i, t = .transport i → s.stopped (cfg.typeOf i) = true
  | .cleared => s.updateCallback = false
  | .stopped type => s.stopped type = true

/-- What has to be true when it is the turn of an operation. -/
def needs (cfg : Config n) : Op n → Fact n → Prop
  | .ifGood _ calls, f => .sendBroadcast true ∈ calls ∧ f = .cleared
  | .call _ c, f => c = .sendBroadcast true ∧ f = .cleared
  | .clearUpdateCallback, f => f = .terminating ∨ f = .ended .discoveryManager
  | .join t, f => ∃ i, t = .transport i ∧ f = .stopped (cfg.typeOf i)
  | .stop _, f => f = .cleared ∨ f = .ended .discoveryManager ∨ f = .ended .iceoryx2Transport ∨
      f = .ended .transportForwarder
  | .returned, f => ∃ t, t ≠ .main ∧ f = .ended t
  | _, _ => False

def gives : Op n → Fact n → Prop
  | .terminate t, f => t = .discoveryManager ∧ f = .terminating
  | .join t, f => f = .ended t
  | .clearUpdateCallback, f => f = .cleared
  | .stop type, f => f = .stopped type
  | _, _ => False

/-- No discovery info follows the termination message, no access the first destructor, and nothing
the end. -/
def Follows (a b : Op n) : Prop :=
  (a = .clearUpdateCallback → b.broadcasts = false ∧ b ≠ .loop) ∧
    (∀ type, a = .stop type → b.accesses = false) ∧ a ≠ .returned

section Plan

variable {cfg : Config n} {holds : Fact n → Prop} {a b : Op n} {as bs : Code n}

/-- Most operations may be followed by anything. -/
def Op.marks : Op n → Bool
  | .clearUpdateCallback => true
  | .stop _ => true
  | .returned => true
  | _ => false

theorem follows_of_not_marks (h : a.marks = false) : Follows a b := by
  refine ⟨?_, ?_, ?_⟩
  · rintro rfl
    cases h
  · rintro type rfl
    cases h
  · rintro rfl
    cases h

theorem pairwise_push (has : ∀ a ∈ as, a.marks = false) (hbs : bs.Pairwise Follows) :
    (as ++ bs).Pairwise Follows := by
  induction as with
  | nil => exact hbs
  | cons a as ih =>
    refine List.Pairwise.cons (fun b _ => ?_) (ih fun a ha => has a (List.mem_cons_of_mem _ ha))
    exact follows_of_not_marks (has a List.mem_cons_self)

theorem mem_resetTransport {type : TransportType} (h : a ∈ resetTransport cfg type) :
    a = .stop type ∨ (∃ i, cfg.typeOf i = type ∧ a = .join (.transport i)) ∨ a = .reset type := by
  rcases List.mem_append.mp h with h | h
  · rcases List.mem_append.mp h with h | h
    · exact Or.inl (List.mem_singleton.mp h)
    · obtain ⟨i, hi, rfl⟩ := List.mem_map.mp h
      exact Or.inr (Or.inl ⟨i, of_decide_eq_true (List.mem_filter.mp hi).2, rfl⟩)
  · exact Or.inr (Or.inr (List.mem_singleton.mp h))

/-- The destructors of the transports. -/
theorem ready_resetTransport (h : ∀ type f, needs cfg (.stop type) f → holds f)
    (type : TransportType) : Plan.Ready (needs cfg) gives holds (resetTransport cfg type) := by
  refine ⟨h type, Plan.ready_of_forall fun a ha f hf => ?_⟩
  rcases mem_resetTransport (List.mem_append_right [.stop type] ha) with rfl | ⟨i, hi, rfl⟩ | rfl
  · exact Or.inl (h type f hf)
  · obtain ⟨j, hj, rfl⟩ := hf
    obtain rfl := Thread.transport.inj hj
    exact Or.inr (congrArg Fact.stopped hi)
  · cases hf

theorem ready_resetTransports (h : ∀ type f, needs cfg (.stop type) f → holds f)
    (types : List TransportType) :
    Plan.Ready (needs cfg) gives holds (types.flatMap (resetTransport cfg)) := by
  induction types with
  | nil => trivial
  | cons type types ih =>
    rw [List.flatMap_cons]
    exact (ready_resetTransport h type).append (ih.mono fun _ => Or.inl)

theorem not_needs_doForAllEnabled {calls : List Call} (h : .sendBroadcast true ∉ calls) :
    ∀ a ∈ (doForAllEnabled calls : Code n), ∀ f, ¬ needs cfg a f := by
  intro a ha f hf
  rcases List.mem_append.mp ha with ha | ha
  · obtain ⟨type, -, rfl⟩ := List.mem_map.mp ha
    exact h hf.1
  · obtain ⟨type, -, rfl⟩ := List.mem_map.mp ha
    exact hf

/-- What is done until the loop. -/
theorem forall_start (cfg : Config n) {P : Op n → Prop}
    (hcalls : ∀ calls, .sendBroadcast true ∉ calls → ∀ a ∈ doForAllEnabled calls, P a)
    (hregister : P .registerTransportFailCallback) (hstart : ∀ t, P (.start t)) (hlock : P .lock)
    (hunlock : P .unlock) : ∀ a ∈ constructors cfg ++ initializeDiscovery, P a := by
  intro a ha
  simp only [constructors, initializeDiscovery, sendDiscoveryInfo, List.mem_append, List.mem_cons,
    List.not_mem_nil, or_false] at ha
  rcases ha with ((((((ha | rfl) | ha) | ha) | ha) | rfl) | ((rfl | rfl) | ha) | rfl)
  · exact hcalls _ (by decide) a ha
  · exact hregister
  · exact hcalls _ (by decide) a ha
  · split at ha
    · rw [List.mem_singleton.mp ha]
      exact hstart _
    · cases ha
  · exact hcalls _ (by decide) a ha
  · exact hstart _
  · exact hlock
  · exact hstart _
  · exact hcalls _ (by decide) a ha
  · exact hunlock

theorem ready_deinitializeDiscovery :
    Plan.Ready (needs cfg) gives holds deinitializeDiscovery := by
  refine Plan.Ready.append (Plan.Ready.append ⟨nofun, ?_, nofun, ?_, trivial⟩ ?_) ⟨nofun, trivial⟩
  · rintro f ⟨i, hi, -⟩
    cases hi
  · rintro f (rfl | rfl)
    · exact Or.inl (Or.inl (Or.inr ⟨rfl, rfl⟩))
    · exact Or.inl (Or.inr rfl)
  · refine Plan.ready_of_forall fun a ha f hf => Or.inr ⟨.clearUpdateCallback, by simp, ?_⟩
    rcases List.mem_append.mp ha with ha | ha
    · obtain ⟨type, -, rfl⟩ := List.mem_map.mp ha
      exact hf.2
    · obtain ⟨type, -, rfl⟩ := List.mem_map.mp ha
      cases hf

/-- **`run` keeps to the plan.** -/
theorem ready_run (cfg : Config n) : Plan.Ready (needs cfg) gives holds (run cfg) := by
  have hjoin : ∀ (t : Thread n), (∀ i, t ≠ .transport i) → ∀ holds : Fact n → Prop,
      Plan.Ready (needs cfg) gives holds [.terminate t, .join t] := by
    intro t ht holds
    refine ⟨nofun, ?_, trivial⟩
    rintro f ⟨i, hi, -⟩
    exact absurd hi (ht i)
  have hmem : ∀ op ∈ deinitializeDiscovery ++ [.terminate .iceoryx2Transport,
      .join .iceoryx2Transport] ++ [.terminate .transportForwarder, .join .transportForwarder],
      op ∈ constructors cfg ++ initializeDiscovery ++ [.loop] ++ deinitializeDiscovery ++
        [.terminate .iceoryx2Transport, .join .iceoryx2Transport] ++
        [.terminate .transportForwarder, .join .transportForwarder] := by
    intro op hop
    simp only [List.mem_append] at hop ⊢
    tauto
  refine Plan.Ready.append (Plan.Ready.append (Plan.Ready.append (Plan.Ready.append
    (Plan.Ready.append ?_ ready_deinitializeDiscovery) (hjoin .iceoryx2Transport nofun _))
    (hjoin .transportForwarder nofun _)) (ready_resetTransports ?_ _)) ⟨?_, trivial⟩
  · refine (Plan.ready_of_forall fun a ha f hf => absurd hf ?_).append ⟨nofun, trivial⟩
    exact forall_start cfg (fun calls hcalls => not_needs_doForAllEnabled hcalls) (fun _ => id)
      (fun _ _ => id) (fun _ => id) (fun _ => id) a ha f
  · rintro type f (rfl | rfl | rfl | rfl)
    · exact Or.inr ⟨.clearUpdateCallback, hmem _ (by simp [deinitializeDiscovery]), rfl⟩
    · exact Or.inr ⟨.join _, hmem _ (by simp [deinitializeDiscovery]), rfl⟩
    · exact Or.inr ⟨.join _, hmem _ (by simp), rfl⟩
    · exact Or.inr ⟨.join _, hmem _ (by simp), rfl⟩
  · rintro f ⟨t, hne, rfl⟩
    refine Or.inr ⟨.join t, ?_, rfl⟩
    cases t with
    | main => exact absurd rfl hne
    | transport i =>
      refine List.mem_append_right _ (List.mem_flatMap.mpr ⟨_, cfg.typeOf_mem i, ?_⟩)
      simp [resetTransport]
    | _ => exact List.mem_append_left _ (hmem _ (by simp [deinitializeDiscovery]))

theorem marks_doForAllEnabled (calls : List Call) :
    ∀ a ∈ (doForAllEnabled calls : Code n), a.marks = false := by
  intro a ha
  rcases List.mem_append.mp ha with ha | ha
  all_goals
    obtain ⟨type, -, rfl⟩ := List.mem_map.mp ha
    rfl

/-- After the termination message there is no other discovery info. -/
theorem quiet_sendDiscoveryInfo :
    ∀ b ∈ (sendDiscoveryInfo true : Code n), b.broadcasts = false ∧ b ≠ .loop := by
  intro b hb
  rcases List.mem_append.mp hb with hb | hb
  all_goals
    obtain ⟨type, -, rfl⟩ := List.mem_map.mp hb
    exact ⟨rfl, nofun⟩

theorem quiet_resetTransports :
    ∀ b ∈ TransportInfo.types.flatMap (resetTransport cfg),
      b.broadcasts = false ∧ b ≠ .loop ∧ b.accesses = false ∧ b ≠ .returned := by
  intro b hb
  obtain ⟨type, -, hb⟩ := List.mem_flatMap.mp hb
  rcases mem_resetTransport hb with rfl | ⟨i, -, rfl⟩ | rfl <;> exact ⟨rfl, nofun, rfl, nofun⟩

theorem pairwise_run (cfg : Config n) : (run cfg).Pairwise Follows := by
  set middle : Code n := sendDiscoveryInfo true ++ [.unlock, .terminate .iceoryx2Transport,
    .join .iceoryx2Transport, .terminate .transportForwarder, .join .transportForwarder]
  set resets := TransportInfo.types.flatMap (resetTransport cfg)
  have hrun : run cfg = (constructors cfg ++ initializeDiscovery ++ [.loop,
      .terminate .discoveryManager, .join .discoveryManager, .lock]) ++
      (.clearUpdateCallback :: (middle ++ (resets ++ [.returned]))) := by
    simp [run, deinitializeDiscovery, middle, resets]
  have hmiddle : ∀ b ∈ middle, b.broadcasts = false ∧ b ≠ .loop ∧ b.marks = false := by
    intro b hb
    rcases List.mem_append.mp hb with hb | hb
    · obtain ⟨h₁, h₂⟩ := quiet_sendDiscoveryInfo b hb
      exact ⟨h₁, h₂, marks_doForAllEnabled _ b hb⟩
    · simp only [List.mem_cons, List.not_mem_nil, or_false] at hb
      rcases hb with rfl | rfl | rfl | rfl | rfl <;> exact ⟨rfl, nofun, rfl⟩
  have hend : ∀ b ∈ resets ++ [.returned], b.broadcasts = false ∧ b ≠ .loop ∧
      b.accesses = false := by
    intro b hb
    rcases List.mem_append.mp hb with hb | hb
    · obtain ⟨h₁, h₂, h₃, -⟩ := quiet_resetTransports b hb
      exact ⟨h₁, h₂, h₃⟩
    · rw [List.mem_singleton.mp hb]
      exact ⟨rfl, nofun, rfl⟩
  rw [hrun]
  refine pairwise_push (fun a ha => ?_) (List.Pairwise.cons (fun b hb => ?_) ?_)
  · rcases List.mem_append.mp ha with ha | ha
    · exact forall_start cfg (fun calls _ => marks_doForAllEnabled calls) rfl (fun _ => rfl) rfl rfl
        a ha
    · simp only [List.mem_cons, List.not_mem_nil, or_false] at ha
      rcases ha with rfl | rfl | rfl | rfl <;> rfl
  · refine ⟨fun _ => ?_, nofun, nofun⟩
    rcases List.mem_append.mp hb with hb | hb
    · exact ⟨(hmiddle b hb).1, (hmiddle b hb).2.1⟩
    · exact ⟨(hend b hb).1, (hend b hb).2.1⟩
  · refine pairwise_push (fun b hb => (hmiddle b hb).2.2) (List.pairwise_append.mpr ⟨?_, ?_, ?_⟩)
    · refine List.pairwise_of_forall_mem_list fun a ha b hb => ?_
      obtain ⟨h₁, h₂, h₃, -⟩ := quiet_resetTransports b hb
      exact ⟨fun _ => ⟨h₁, h₂⟩, fun _ _ => h₃, (quiet_resetTransports a ha).2.2.2⟩
    · exact List.pairwise_singleton _ _
    · intro a ha b hb
      rw [List.mem_singleton.mp hb]
      exact ⟨fun _ => ⟨rfl, nofun⟩, fun _ _ => rfl, (quiet_resetTransports a ha).2.2.2⟩

theorem keeps_constructors {k : Nat} (cfg : Config n) : Keeps k (constructors cfg) := by
  have hall : ∀ calls, Keeps k (doForAllEnabled calls : Code n) :=
    fun calls => Keeps.plain (plain_doForAllEnabled calls)
  have hone : ∀ op : Op n, op.plain = true → Keeps k [op] :=
    fun op hop => Keeps.plain (by simpa using hop)
  refine (((((hall _).append (hone _ rfl)).append (hall _)).append ?_).append (hall _)).append
    (hone _ rfl)
  exact Keeps.ite (hone _ rfl) Keeps.nil

theorem fits_run (cfg : Config n) : Fits .main (run cfg) 0 where
  confined := Plan.confined_of_forall (fun _ _ => rfl) 0
  own := fun h => absurd rfl h
  balanced := by
    have hplain : ∀ op : Op n, op.plain = true → Keeps 0 [op] :=
      fun op hop => Keeps.plain (by simpa using hop)
    have hjoin : ∀ t : Thread n, Keeps 0 [.terminate t, .join t] :=
      fun t => (hplain (.terminate t) rfl).append (hplain (.join t) rfl)
    have hinit : Keeps 0 (initializeDiscovery : Code n) := by
      refine keeps_section (.start .discoveryManager :: sendDiscoveryInfo false) ?_
      intro op hop
      rcases List.mem_cons.mp hop with rfl | hop
      · rfl
      · exact plain_doForAllEnabled _ op hop
    have hclear : Keeps 1 (.clearUpdateCallback :: sendDiscoveryInfo true : Code n) :=
      fun rest hrest => ⟨fun _ => Nat.one_pos, Keeps.plain (plain_doForAllEnabled _) rest hrest⟩
    have hdeinit : Keeps 0 (deinitializeDiscovery : Code n) :=
      (hjoin .discoveryManager).append hclear.locked
    have hreset : Keeps 0 (TransportInfo.types.flatMap (resetTransport cfg)) := by
      refine Keeps.flatMap fun type _ => Keeps.plain fun op hop => ?_
      rcases mem_resetTransport hop with rfl | ⟨i, -, rfl⟩ | rfl <;> rfl
    have hrun : Keeps 0 (run cfg) := (((((((keeps_constructors cfg).append hinit).append
      (hplain .loop rfl)).append hdeinit).append (hjoin _)).append (hjoin _)).append hreset).append
      (hplain .returned rfl)
    simpa using hrun [] rfl

end Plan

/-! ## Facts stay true -/

section Facts

variable {cfg : Config n} {s : State n} {t : Thread n} {op : Op n} {rest old new : Code n}

theorem Fact.Holds.exec (htodo : s.todo t = some (op :: rest)) (hpos : s.possible t op = true)
    {f : Fact n} (h : f.Holds cfg s) : f.Holds cfg (s.exec t op rest) := by
  cases f with
  | terminating => exact terminateFlag_exec h
  | cleared => exact cleared_exec h
  | stopped type => exact stopped_exec h
  | ended u =>
    refine ⟨?_, fun i hi => stopped_exec (h.2 i hi)⟩
    have hu : u ≠ t := by
      rintro rfl
      cases h.1.symm.trans htodo
    rcases todo_exec_of_ne rest hpos hu with heq | ⟨hnone, -⟩
    · exact heq.trans h.1
    · cases h.1.symm.trans hnone

theorem Fact.Holds.round (htodo : s.todo t = some old) (hround : Round cfg s t old new)
    {f : Fact n} (h : f.Holds cfg s) : f.Holds cfg (s.setTodo t new) := by
  cases f with
  | ended u =>
    have hu : u ≠ t := by
      rintro rfl
      have hold : old = [] := Option.some.inj (htodo.symm.trans h.1)
      cases hround with
      | callback i x hstopped =>
        rw [h.2 i rfl] at hstopped
        cases hstopped
      | _ => cases hold
    exact ⟨(Function.update_of_ne hu _ _).trans h.1, h.2⟩
  | _ => exact h

theorem Fact.Holds.setFailed {f : Fact n} (type : TransportType) (h : f.Holds cfg s) :
    f.Holds cfg (s.setFailed type) := by
  unfold State.setFailed
  split
  · cases f <;> exact h
  · exact h

/-- An operation makes true what it gives. -/
theorem holds_of_gives (hpos : s.possible t op = true) (htodo : s.todo t = some (op :: rest))
    (hready : ∀ f, needs cfg op f → f.Holds cfg s) {f : Fact n} (hf : gives op f) :
    f.Holds cfg (s.exec t op rest) := by
  cases op with
  | terminate u =>
    obtain ⟨rfl, rfl⟩ := hf
    change Function.update s.terminateFlag .discoveryManager true .discoveryManager = true
    exact Function.update_self _ _ _
  | join u =>
    obtain rfl := hf
    have hended : s.todo u = some [] := of_decide_eq_true hpos
    refine Fact.Holds.exec htodo hpos ⟨hended, ?_⟩
    rintro i rfl
    exact hready _ ⟨i, rfl, rfl⟩
  | clearUpdateCallback =>
    obtain rfl := hf
    rfl
  | stop type =>
    obtain rfl := hf
    change Function.update s.stopped type true type = true
    exact Function.update_self _ _ _
  | _ => cases hf

end Facts

/-! ## The invariant -/

/-- After the termination message has been begun. -/
structure Late (s : State n) : Prop where
  flag : s.terminateFlag .discoveryManager = true
  ended : s.todo .discoveryManager = some []
  quiet : ∀ t, ∀ op ∈ s.code t, op.broadcasts = false
  callbacks : ∀ i, ∀ op ∈ s.code (.transport i), op.accesses = false
  loop : .loop ∉ s.code .main

/-- After the first transport has been stopped. -/
structure Destroying (s : State n) : Prop where
  cleared : s.updateCallback = false
  iceoryx2Transport : s.todo .iceoryx2Transport = some []
  transportForwarder : s.todo .transportForwarder = some []
  main : ∀ op ∈ s.code .main, op.accesses = false

/-- After `run` has returned. -/
def Returned (cfg : Config n) (s : State n) : Prop :=
  ∀ t, s.todo t = some [] ∧ ∀ i, t = .transport i → s.stopped (cfg.typeOf i) = true

/-- The termination message is broadcast. -/
def Event.isTermination : Event n → Bool
  | .access _ _ call => call = some (.sendBroadcast true)
  | _ => false

/-- Another discovery message is broadcast. -/
def Event.isBroadcast : Event n → Bool
  | .access _ _ call => call = some (.sendBroadcast false)
  | _ => false

def Event.isAccess : Event n → Bool
  | .access _ _ _ => true
  | _ => false

def Event.isDestroying : Event n → Bool
  | .destroying _ => true
  | _ => false

/-- What may be in the log after an event. -/
def MayFollow (newer older : Event n) : Prop :=
  (older.isTermination = true → newer.isBroadcast = false) ∧
    (older.isDestroying = true → newer.isAccess = false) ∧ older ≠ .returned

structure Inv (cfg : Config n) (s : State n) : Prop where
  exclusive : ∀ t u, 0 < s.depth t → 0 < s.depth u → t = u
  fits : ∀ t, Fits t (s.code t) (s.depth t)
  main : ∃ ops, s.todo .main = some ops
  ready : Plan.Ready (needs cfg) gives (Fact.Holds cfg s) (s.code .main)
  order : (s.code .main).Pairwise Follows
  late : s.updateCallback = false → Late s
  terminated : ∀ e ∈ s.log, e.isTermination = true → s.updateCallback = false
  destroying : ∀ e ∈ s.log, e.isDestroying = true → Destroying s
  returned : .returned ∈ s.log → Returned cfg s
  log : s.log.Pairwise MayFollow

section Invariant

variable {cfg : Config n} {s s' : State n} {t u : Thread n} {op : Op n} {rest old new : Code n}

/-- Only `run` has the operations that are its own. -/
theorem Inv.eq_main (h : Inv cfg s) (htodo : s.todo t = some (op :: rest))
    (hop : op.ofMain = true) : t = .main := by
  by_contra hne
  have := (h.fits t).own hne op (by rw [code_of_todo htodo]; exact List.mem_cons_self)
  rw [hop] at this
  cases this

theorem Inv.needs (h : Inv cfg s) (htodo : s.todo .main = some (op :: rest)) :
    ∀ f, TransportThreads.needs cfg op f → f.Holds cfg s := by
  have := h.ready
  rw [code_of_todo htodo] at this
  exact this.1

/-- What an operation puts in front needs nothing new. -/
theorem needs_pushes {o : Op n} {f : Fact n} (ho : o ∈ s.pushes op) (hf : needs cfg o f) :
    needs cfg op f := by
  rcases mem_pushes ho with ⟨type, calls, c, rfl, hc, rfl⟩ | ⟨type, -, -, rfl⟩ | ⟨-, ho⟩ |
    ⟨-, -, type, rfl | rfl⟩
  · refine ⟨?_, hf.2⟩
    have := hf.1
    rwa [this] at hc
  · cases hf
  · simp only [transportFailCallback, List.mem_cons, List.not_mem_nil, or_false] at ho
    rcases ho with rfl | rfl | rfl <;> cases hf
  · simp [needs] at hf
  · cases hf

theorem marks_pushes {o : Op n} (ho : o ∈ s.pushes op) : o.marks = false := by
  rcases mem_pushes ho with ⟨type, calls, c, rfl, hc, rfl⟩ | ⟨type, -, -, rfl⟩ | ⟨-, ho⟩ |
    ⟨-, -, type, rfl | rfl⟩
  · rfl
  · rfl
  · simp only [transportFailCallback, List.mem_cons, List.not_mem_nil, or_false] at ho
    rcases ho with rfl | rfl | rfl <;> rfl
  · rfl
  · rfl

/-! ### One operation -/

section Exec

variable (h : Inv cfg s) (htodo : s.todo t = some (op :: rest)) (hpos : s.possible t op = true)
include h htodo hpos

omit h in
/-- What a thread has to do after the operation comes from what it had to do before, or it has been
started. -/
theorem mem_code_exec {o : Op n} (ho : o ∈ (s.exec t op rest).code u) :
    o ∈ s.code u ∨ (u = t ∧ o ∈ s.pushes op) ∨ (s.todo u = none ∧ o = .loop) := by
  by_cases hu : u = t
  · subst hu
    rw [code_of_todo todo_exec_self] at ho
    rcases List.mem_append.mp ho with ho | ho
    · exact Or.inr (Or.inl ⟨rfl, ho⟩)
    · rw [code_of_todo htodo]
      exact Or.inl (List.mem_cons_of_mem op ho)
  · rcases todo_exec_of_ne rest hpos hu with heq | ⟨hnone, heq⟩
    · refine Or.inl ?_
      rwa [State.code, heq] at ho
    · rw [code_of_todo heq] at ho
      exact Or.inr (Or.inr ⟨hnone, List.mem_singleton.mp ho⟩)

theorem exclusive_exec (t' u' : Thread n) (ht' : 0 < (s.exec t op rest).depth t')
    (hu' : 0 < (s.exec t op rest).depth u') : t' = u' := by
  have hself : 0 < op.depth (s.depth t) → op = .lock ∨ 0 < s.depth t := by
    intro hd
    cases op with
    | lock => exact Or.inl rfl
    | unlock => exact Or.inr (Nat.lt_of_lt_of_le hd (Nat.sub_le _ _))
    | _ => exact Or.inr hd
  have hother : ∀ v, v ≠ t → 0 < s.depth v → ¬ 0 < op.depth (s.depth t) := by
    intro v hv hdv hdt
    rcases hself hdt with rfl | hdt
    · have hfree : ∀ v, v ≠ t → s.depth v = 0 := of_decide_eq_true hpos
      exact absurd (hfree v hv) hdv.ne'
    · exact hv (h.exclusive v t hdv hdt)
  by_cases h₁ : t' = t
  · subst h₁
    by_contra hne
    rw [depth_exec_self] at ht'
    rw [depth_exec_of_ne (Ne.symm hne)] at hu'
    exact hother u' (Ne.symm hne) hu' ht'
  · rw [depth_exec_of_ne h₁] at ht'
    by_cases h₂ : u' = t
    · subst h₂
      rw [depth_exec_self] at hu'
      exact absurd hu' (hother t' h₁ ht')
    · rw [depth_exec_of_ne h₂] at hu'
      exact h.exclusive t' u' ht' hu'

theorem fits_exec (u : Thread n) :
    Fits u ((s.exec t op rest).code u) ((s.exec t op rest).depth u) := by
  by_cases hu : u = t
  · subst hu
    rw [code_of_todo todo_exec_self, depth_exec_self]
    refine Fits.exec ?_ s
    rw [← code_of_todo htodo]
    exact h.fits u
  · rw [depth_exec_of_ne hu]
    rcases todo_exec_of_ne rest hpos hu with heq | ⟨hnone, heq⟩
    · rw [State.code, heq]
      exact h.fits u
    · have hfits := h.fits u
      rw [State.code, hnone] at hfits
      rw [code_of_todo heq, hfits.depth_eq_zero]
      exact fits_loop u

theorem main_exec : ∃ ops, (s.exec t op rest).todo .main = some ops := by
  by_cases ht : t = .main
  · subst ht
    exact ⟨_, todo_exec_self⟩
  · obtain ⟨ops, hops⟩ := h.main
    rcases todo_exec_of_ne rest hpos (Ne.symm ht) with heq | ⟨hnone, -⟩
    · exact ⟨ops, heq.trans hops⟩
    · cases hops.symm.trans hnone

omit htodo in
/-- The code of `run` changes only by its own operations. -/
theorem code_main_exec (ht : t ≠ .main) : (s.exec t op rest).code .main = s.code .main := by
  obtain ⟨ops, hops⟩ := h.main
  rcases todo_exec_of_ne rest hpos (Ne.symm ht) with heq | ⟨hnone, -⟩
  · rw [State.code, heq]
    rfl
  · cases hops.symm.trans hnone

theorem ready_exec : Plan.Ready (needs cfg) gives (Fact.Holds cfg (s.exec t op rest))
    ((s.exec t op rest).code .main) := by
  by_cases ht : t = .main
  · subst ht
    have hready := h.ready
    rw [code_of_todo htodo] at hready
    rw [code_of_todo todo_exec_self]
    refine Plan.Ready.push (hready.2.mono fun f hf => ?_) fun o ho f hf => ?_
    · exact hf.elim (Fact.Holds.exec htodo hpos) (holds_of_gives hpos htodo hready.1)
    · exact Fact.Holds.exec htodo hpos (hready.1 f (needs_pushes ho hf))
  · rw [code_main_exec h hpos ht]
    exact h.ready.mono fun f => Fact.Holds.exec htodo hpos

theorem order_exec : ((s.exec t op rest).code .main).Pairwise Follows := by
  by_cases ht : t = .main
  · subst ht
    have horder := h.order
    rw [code_of_todo htodo] at horder
    rw [code_of_todo todo_exec_self]
    exact pairwise_push (fun o => marks_pushes) (List.pairwise_cons.mp horder).2
  · rw [code_main_exec h hpos ht]
    exact h.order

/-- The termination message is begun: whoever found the flag clear has given the mutex back. -/
theorem late_of_clear (hop : op = .clearUpdateCallback) : Late (s.exec t op rest) := by
  subst hop
  obtain rfl := h.eq_main htodo rfl
  have hneeds := h.needs htodo
  have hcode := code_of_todo htodo
  have hmain : 0 < s.depth .main := by
    have := (h.fits .main).balanced
    rw [hcode] at this
    exact this.1 rfl
  have horder := h.order
  rw [hcode] at horder
  have hafter := fun b hb => ((List.pairwise_cons.mp horder).1 b hb).1 rfl
  have hended := (hneeds _ (Or.inr rfl)).1
  have hcode' : (s.exec .main .clearUpdateCallback rest).code .main = rest :=
    code_of_todo todo_exec_self
  have hother : ∀ u, u ≠ .main → ∀ o ∈ (s.exec .main .clearUpdateCallback rest).code u,
      confinedTo u o = false := by
    intro u hu o ho
    rcases mem_code_exec htodo hpos ho with ho | ⟨heq, -⟩ | ⟨-, rfl⟩
    · have hzero : s.depth u = 0 := by
        by_contra hne
        exact hu (h.exclusive u .main (Nat.pos_of_ne_zero hne) hmain)
      have hconf := (h.fits u).confined
      rw [hzero] at hconf
      exact Plan.confined_zero.mp hconf o ho
    · exact absurd heq hu
    · cases u <;> rfl
  have haccess : ∀ i, ∀ o ∈ (s.exec .main .clearUpdateCallback rest).code (.transport i),
      o.accesses = false := fun i o ho => hother (.transport i) nofun o ho
  have hended' : (s.exec .main .clearUpdateCallback rest).todo .discoveryManager = some [] := by
    rcases todo_exec_of_ne rest hpos (u := .discoveryManager) nofun with heq | ⟨hnone, -⟩
    · exact heq.trans hended
    · cases hended.symm.trans hnone
  constructor
  case flag => exact terminateFlag_exec (hneeds _ (Or.inl rfl))
  case ended => exact hended'
  case callbacks => exact haccess
  case loop =>
    rw [hcode']
    exact fun hmem => (hafter _ hmem).2 rfl
  case quiet =>
    intro u o ho
    cases u with
    | main =>
      rw [hcode'] at ho
      exact (hafter o ho).1
    | discoveryManager =>
      rw [code_of_todo hended'] at ho
      cases ho
    | iceoryx2Transport => exact hother .iceoryx2Transport nofun o ho
    | transportForwarder => exact hother .transportForwarder nofun o ho
    | transport i =>
      have := haccess i o ho
      cases o <;> first | rfl | cases this

omit h in
theorem Late.exec (hl : Late s) (hmain : ∃ ops, s.todo .main = some ops) :
    Late (s.exec t op rest) := by
  have hmem : op ∈ s.code t := by
    rw [code_of_todo htodo]
    exact List.mem_cons_self
  constructor
  case flag => exact terminateFlag_exec hl.flag
  case ended =>
    have ht : Thread.discoveryManager ≠ t := by
      rintro rfl
      cases hl.ended.symm.trans htodo
    rcases todo_exec_of_ne rest hpos ht with heq | ⟨hnone, -⟩
    · exact heq.trans hl.ended
    · cases hl.ended.symm.trans hnone
  case quiet =>
    intro u o ho
    rcases mem_code_exec htodo hpos ho with ho | ⟨heq, ho⟩ | ⟨-, rfl⟩
    · exact hl.quiet u o ho
    · exact broadcasts_pushes (hl.quiet t op hmem) (fun _ => hl.flag) o ho
    · rfl
  case callbacks =>
    intro i o ho
    rcases mem_code_exec htodo hpos ho with ho | ⟨heq, ho⟩ | ⟨-, rfl⟩
    · exact hl.callbacks i o ho
    · rw [← heq] at hmem
      exact accesses_pushes (hl.callbacks i op hmem) (fun _ => hl.flag) o ho
    · rfl
  case loop =>
    intro ho
    rcases mem_code_exec htodo hpos ho with ho | ⟨-, ho⟩ | ⟨hnone, -⟩
    · exact hl.loop ho
    · rcases mem_pushes ho with ⟨type, calls, c, -, -, heq⟩ | ⟨type, -, -, heq⟩ | ⟨-, ho⟩ |
        ⟨-, -, type, heq | heq⟩
      · cases heq
      · cases heq
      · exact (kinds_transportFailCallback ho).2.2.2.1 rfl
      · cases heq
      · cases heq
    · obtain ⟨ops, hops⟩ := hmain
      cases hops.symm.trans hnone

theorem late_exec (hc : (s.exec t op rest).updateCallback = false) : Late (s.exec t op rest) := by
  rcases updateCallback_exec hc with hc | hop
  · exact Late.exec htodo hpos (h.late hc) h.main
  · exact late_of_clear h htodo hpos hop

omit hpos in
/-- No thread accesses a transport once one is being destroyed. -/
theorem not_accesses_of_destroying (hd : Destroying s) : op.accesses = false := by
  have hl := h.late hd.cleared
  have hmem : op ∈ s.code t := by
    rw [code_of_todo htodo]
    exact List.mem_cons_self
  cases t with
  | main => exact hd.main op hmem
  | discoveryManager => cases hl.ended.symm.trans htodo
  | iceoryx2Transport => cases hd.iceoryx2Transport.symm.trans htodo
  | transportForwarder => cases hd.transportForwarder.symm.trans htodo
  | transport i => exact hl.callbacks i op hmem

theorem Destroying.exec (hd : Destroying s) : Destroying (s.exec t op rest) := by
  have hended : ∀ u, s.todo u = some [] → (s.exec t op rest).todo u = some [] := by
    intro u hu
    have hne : u ≠ t := by
      rintro rfl
      cases hu.symm.trans htodo
    rcases todo_exec_of_ne rest hpos hne with heq | ⟨hnone, -⟩
    · exact heq.trans hu
    · cases hu.symm.trans hnone
  refine ⟨cleared_exec hd.cleared, hended _ hd.iceoryx2Transport, hended _ hd.transportForwarder,
    fun o ho => ?_⟩
  rcases mem_code_exec htodo hpos ho with ho | ⟨-, ho⟩ | ⟨-, rfl⟩
  · exact hd.main o ho
  · exact accesses_pushes (not_accesses_of_destroying h htodo hd)
      (fun _ => (h.late hd.cleared).flag) o ho
  · rfl

/-- The first transport is stopped. -/
theorem destroying_of_stop {type : TransportType} (hop : op = .stop type) :
    Destroying (s.exec t op rest) := by
  subst hop
  obtain rfl := h.eq_main htodo rfl
  have hneeds := h.needs htodo
  have horder := h.order
  rw [code_of_todo htodo] at horder
  have hended := fun u hu => (Fact.Holds.exec (f := .ended u) htodo hpos (hneeds _ hu)).1
  refine ⟨cleared_exec (hneeds .cleared (Or.inl rfl)),
    hended _ (Or.inr (Or.inr (Or.inl rfl))), hended _ (Or.inr (Or.inr (Or.inr rfl))), ?_⟩
  intro o ho
  rw [code_of_todo todo_exec_self] at ho
  exact ((List.pairwise_cons.mp horder).1 o ho).2.1 type rfl

/-- `run` returns: the other threads have ended. -/
theorem returned_of_returned (hop : op = .returned) : Returned cfg (s.exec t op rest) := by
  subst hop
  obtain rfl := h.eq_main htodo rfl
  have hneeds := h.needs htodo
  have horder := h.order
  rw [code_of_todo htodo] at horder
  intro u
  by_cases hu : u = .main
  · subst hu
    refine ⟨?_, nofun⟩
    rw [todo_exec_self]
    cases rest with
    | nil => rfl
    | cons o rest => exact absurd rfl ((List.pairwise_cons.mp horder).1 o List.mem_cons_self).2.2
  · exact Fact.Holds.exec (f := .ended u) htodo hpos (hneeds _ ⟨u, hu, rfl⟩)

omit h htodo hpos in
/-- The events of an operation. -/
theorem mem_events {e : Event n} (he : e ∈ s.events t op) :
    (e.isBroadcast = true → op.broadcasts = true) ∧ (e.isAccess = true → op.accesses = true) ∧
      (e.isTermination = true → ∃ type, op = .call type (.sendBroadcast true)) ∧
      (e.isDestroying = true → ∃ type, op = .stop type) ∧ (e = .returned → op = .returned) := by
  cases op with
  | ifGood type calls =>
    rw [List.mem_singleton.mp he]
    exact ⟨nofun, fun _ => rfl, nofun, nofun, nofun⟩
  | call type c =>
    rw [List.mem_singleton.mp he]
    refine ⟨fun hb => ?_, fun _ => rfl, fun ht => ⟨type, ?_⟩, nofun, nofun⟩
    · exact decide_eq_true (Option.some.inj (of_decide_eq_true hb))
    · rw [Option.some.inj (of_decide_eq_true ht)]
  | ifFailed type =>
    rcases List.mem_append.mp he with he | he
    · split at he
      · rw [List.mem_singleton.mp he]
        exact ⟨nofun, fun _ => rfl, nofun, nofun, nofun⟩
      · cases he
    · rw [List.mem_singleton.mp he]
      exact ⟨nofun, fun _ => rfl, nofun, nofun, nofun⟩
  | failCallback type =>
    rw [List.mem_singleton.mp he]
    exact ⟨nofun, nofun, nofun, nofun, nofun⟩
  | use =>
    rw [List.mem_singleton.mp he]
    exact ⟨nofun, nofun, nofun, nofun, nofun⟩
  | stop type =>
    rw [List.mem_singleton.mp he]
    exact ⟨nofun, nofun, nofun, fun _ => ⟨type, rfl⟩, nofun⟩
  | returned =>
    rw [List.mem_singleton.mp he]
    exact ⟨nofun, nofun, nofun, nofun, fun _ => rfl⟩
  | _ => cases he

omit h htodo hpos in
theorem pairwise_events : (s.events t op).Pairwise MayFollow := by
  cases op with
  | ifFailed type =>
    refine List.pairwise_append.mpr ⟨?_, List.pairwise_singleton _ _, fun a _ b hb => ?_⟩
    · split
      · exact List.pairwise_singleton _ _
      · exact List.Pairwise.nil
    · rw [List.mem_singleton.mp hb]
      exact ⟨nofun, nofun, nofun⟩
  | ifGood type calls => exact List.pairwise_singleton _ _
  | call type c => exact List.pairwise_singleton _ _
  | failCallback type => exact List.pairwise_singleton _ _
  | use => exact List.pairwise_singleton _ _
  | stop type => exact List.pairwise_singleton _ _
  | returned => exact List.pairwise_singleton _ _
  | _ => exact List.Pairwise.nil

omit hpos in
theorem log_exec : (s.exec t op rest).log.Pairwise MayFollow := by
  refine List.pairwise_append.mpr ⟨pairwise_events, h.log, fun e he older hmem => ?_⟩
  obtain ⟨hbroadcast, haccess, -, -, -⟩ := mem_events he
  have hop : op ∈ s.code t := by
    rw [code_of_todo htodo]
    exact List.mem_cons_self
  refine ⟨fun ht => ?_, fun hd => ?_, ?_⟩
  · have hquiet := (h.late (h.terminated older hmem ht)).quiet t op hop
    refine Bool.eq_false_iff.mpr fun hb => ?_
    rw [hbroadcast hb] at hquiet
    cases hquiet
  · have hno := not_accesses_of_destroying h htodo (h.destroying older hmem hd)
    refine Bool.eq_false_iff.mpr fun ha => ?_
    rw [haccess ha] at hno
    cases hno
  · rintro rfl
    cases (h.returned hmem t).1.symm.trans htodo

/-- **One operation.** -/
theorem Inv.exec : Inv cfg (s.exec t op rest) where
  exclusive := exclusive_exec h htodo hpos
  fits := fits_exec h htodo hpos
  main := main_exec h htodo hpos
  ready := ready_exec h htodo hpos
  order := order_exec h htodo hpos
  late := late_exec h htodo hpos
  log := log_exec h htodo
  terminated := by
    intro e he ht
    rcases List.mem_append.mp he with he | he
    · obtain ⟨type, rfl⟩ := (mem_events he).2.2.1 ht
      obtain rfl := h.eq_main htodo rfl
      exact cleared_exec (h.needs htodo .cleared ⟨rfl, rfl⟩)
    · exact cleared_exec (h.terminated e he ht)
  destroying := by
    intro e he hd
    rcases List.mem_append.mp he with he | he
    · obtain ⟨type, hop⟩ := (mem_events he).2.2.2.1 hd
      exact destroying_of_stop h htodo hpos hop
    · exact Destroying.exec h htodo hpos (h.destroying e he hd)
  returned := by
    intro he
    rcases List.mem_append.mp he with he | he
    · exact returned_of_returned h htodo hpos ((mem_events he).2.2.2.2 rfl)
    · cases (h.returned he t).1.symm.trans htodo

end Exec

/-! ### The other steps -/

theorem kinds_mainRound (cfg : Config n) (resend : Bool) :
    ∀ o ∈ (mainRound resend : Code n), o.marks = false ∧ ∀ f, ¬ needs cfg o f := by
  intro o ho
  have hmem : o = .use ∨ o = .lock ∨ o = .unlock ∨ ∃ type,
      o = .ifGood type [.sendBroadcast false] ∨ o = .ifFailed type := by
    cases resend with
    | false => exact Or.inl (List.mem_singleton.mp ho)
    | true =>
      simp [mainRound, resendDiscoveryInfoToTransport, doFor] at ho
      grind
  rcases hmem with rfl | rfl | rfl | ⟨type, rfl | rfl⟩
  · exact ⟨rfl, fun _ => id⟩
  · exact ⟨rfl, fun _ => id⟩
  · exact ⟨rfl, fun _ => id⟩
  · exact ⟨rfl, fun f hf => by simp [needs] at hf⟩
  · exact ⟨rfl, fun _ => id⟩

section Round

variable (h : Inv cfg s) (htodo : s.todo t = some old) (hround : Round cfg s t old new)
include h htodo hround

omit h in
/-- After the termination message the loop of `run` and that of the discovery manager have been
left. -/
theorem Late.round (hl : Late s) : Late (s.setTodo t new) := by
  have hcode := code_of_todo htodo
  have hmain : t ≠ .main := by
    rintro rfl
    refine hl.loop ?_
    rw [hcode]
    cases hround <;> exact List.mem_cons_self
  have hdiscovery : t ≠ .discoveryManager := by
    rintro rfl
    have hold : old = [] := Option.some.inj (htodo.symm.trans hl.ended)
    cases hround <;> cases hold
  have hquiet : ∀ o ∈ new, o.broadcasts = false := by
    intro o ho
    cases hround with
    | main resend rest => exact absurd rfl hmain
    | terminationRequested => exact absurd rfl hmain
    | discovery notifications => exact absurd rfl hdiscovery
    | endLoop => cases ho
    | callback i x hstopped => exact (kinds_callback x o ho).2.1
    | _ =>
      rcases List.mem_append.mp ho with ho | ho
      · exact (kinds_senderRound _ o ho).1
      · rw [List.mem_singleton.mp ho]
        rfl
  constructor
  case flag => exact hl.flag
  case ended => exact (Function.update_of_ne (Ne.symm hdiscovery) _ _).trans hl.ended
  case quiet =>
    intro u o ho
    by_cases hu : u = t
    · subst hu
      rw [code_setTodo_self] at ho
      exact hquiet o ho
    · rw [code_setTodo_of_ne hu] at ho
      exact hl.quiet u o ho
  case callbacks =>
    intro i o ho
    by_cases hu : Thread.transport i = t
    · subst hu
      rw [code_setTodo_self] at ho
      cases hround with
      | endLoop => cases ho
      | callback i x hstopped => exact (kinds_callback x o ho).1
    · rw [code_setTodo_of_ne hu] at ho
      exact hl.callbacks i o ho
  case loop =>
    rw [code_setTodo_of_ne (Ne.symm hmain)]
    exact hl.loop

/-- **A round or a callback begins, or a loop is left.** -/
theorem Inv.round : Inv cfg (s.setTodo t new) := by
  have hcode := code_of_todo htodo
  have hlate : s.updateCallback = false → Late (s.setTodo t new) :=
    fun hc => Late.round htodo hround (h.late hc)
  have hother : ∀ u, s.todo u = some [] → u ≠ .main → (∀ i, u ≠ .transport i) →
      (s.setTodo t new).todo u = some [] := by
    intro u hu hne htr
    have hut : u ≠ t := by
      rintro rfl
      have hold : old = [] := Option.some.inj (htodo.symm.trans hu)
      cases hround with
      | callback i x hstopped => exact htr i rfl
      | _ => cases hold
    exact (Function.update_of_ne hut _ _).trans hu
  constructor
  case exclusive => exact h.exclusive
  case log => exact h.log
  case terminated => exact h.terminated
  case late => exact hlate
  case fits =>
    intro u
    by_cases hu : u = t
    · subst hu
      rw [code_setTodo_self]
      refine hround.fits ?_
      rw [← hcode]
      exact h.fits u
    · rw [code_setTodo_of_ne hu]
      exact h.fits u
  case main =>
    by_cases ht : t = .main
    · subst ht
      exact ⟨new, todo_setTodo_self⟩
    · obtain ⟨ops, hops⟩ := h.main
      exact ⟨ops, (Function.update_of_ne (Ne.symm ht) _ _).trans hops⟩
  case ready =>
    by_cases ht : t = .main
    · subst ht
      have hready := h.ready
      rw [hcode] at hready
      rw [code_setTodo_self]
      have hready' := hready.mono fun f => Fact.Holds.round htodo hround
      cases hround with
      | main resend rest =>
        exact hready'.push fun o ho f hf => absurd hf ((kinds_mainRound cfg resend o ho).2 f)
      | terminationRequested => exact hready'.2.mono fun f hf => hf.resolve_right id
      | endLoop => trivial
    · rw [code_setTodo_of_ne (Ne.symm ht)]
      exact h.ready.mono fun f => Fact.Holds.round htodo hround
  case order =>
    by_cases ht : t = .main
    · subst ht
      have horder := h.order
      rw [hcode] at horder
      rw [code_setTodo_self]
      cases hround with
      | main resend rest =>
        exact pairwise_push (fun o ho => (kinds_mainRound cfg resend o ho).1) horder
      | terminationRequested => exact (List.pairwise_cons.mp horder).2
      | endLoop => exact List.Pairwise.nil
    · rw [code_setTodo_of_ne (Ne.symm ht)]
      exact h.order
  case destroying =>
    intro e he hd
    have hds := h.destroying e he hd
    refine ⟨hds.cleared, hother _ hds.iceoryx2Transport nofun nofun,
      hother _ hds.transportForwarder nofun nofun, fun o ho => ?_⟩
    by_cases ht : t = .main
    · subst ht
      refine absurd ?_ (h.late hds.cleared).loop
      rw [hcode]
      cases hround <;> exact List.mem_cons_self
    · rw [code_setTodo_of_ne (Ne.symm ht)] at ho
      exact hds.main o ho
  case returned =>
    intro he
    have hold : old = [] := Option.some.inj (htodo.symm.trans (h.returned he t).1)
    cases hround with
    | callback i x hstopped =>
      rw [(h.returned he _).2 i rfl] at hstopped
      cases hstopped
    | _ => cases hold

end Round

theorem Inv.setFailed (h : Inv cfg s) (type : TransportType) : Inv cfg (s.setFailed type) := by
  have hready := h.ready.mono fun _ => Fact.Holds.setFailed type
  unfold State.setFailed at hready ⊢
  split
  · rename_i hgood
    rw [if_pos hgood] at hready
    refine ⟨h.exclusive, h.fits, h.main, hready, h.order, fun hc => ?_, h.terminated,
      fun e he hd => ?_, h.returned, h.log⟩
    · exact ⟨(h.late hc).flag, (h.late hc).ended, (h.late hc).quiet, (h.late hc).callbacks,
        (h.late hc).loop⟩
    · obtain ⟨h₁, h₂, h₃, h₄⟩ := h.destroying e he hd
      exact ⟨h₁, h₂, h₃, h₄⟩
  · exact h

theorem inv_init (cfg : Config n) : Inv cfg (State.init cfg) := by
  have hcode : ∀ t, t ≠ .main → (State.init cfg).code t = [] := by
    intro t ht
    cases t with
    | main => exact absurd rfl ht
    | transportForwarder =>
      unfold State.code State.init
      dsimp only
      split <;> rfl
    | _ => rfl
  constructor
  case exclusive => exact fun _ _ h => absurd h (lt_irrefl 0)
  case main => exact ⟨_, rfl⟩
  case ready => exact ready_run cfg
  case order => exact pairwise_run cfg
  case late => exact nofun
  case terminated => exact nofun
  case destroying => exact nofun
  case returned => exact nofun
  case log => exact List.Pairwise.nil
  case fits =>
    intro t
    by_cases ht : t = .main
    · subst ht
      exact fits_run cfg
    · rw [hcode t ht]
      exact fits_nil t

/-- **One step.** -/
theorem inv_step {l : Label n} (h : Inv cfg s) (hstep : step cfg s l = some s') : Inv cfg s' := by
  rcases step_cases hstep with ⟨t, op, rest, htodo, hpos, rfl⟩ | ⟨t, old, new, htodo, hround, rfl⟩ |
    ⟨type, rfl⟩
  · exact Inv.exec h htodo hpos
  · exact Inv.round h htodo hround
  · exact h.setFailed type

/-- **Every run.** -/
theorem inv_of_run {ls : List (Label n)} (h : Run.exec (step cfg) (State.init cfg) ls = some s) :
    Inv cfg s :=
  Run.invariant (Inv cfg) (fun _ _ _ => inv_step) (inv_init cfg) h

end Invariant

/-- **The order of the shutdown**, in every run: after the termination message no other discovery
info is broadcast, also not on another transport; after the first transport is stopped none is
accessed; and after `run` has returned nothing is done, and no thread has anything left to do. -/
theorem orderly_shutdown (cfg : Config n) {ls : List (Label n)} {s : State n}
    (h : Run.exec (step cfg) (State.init cfg) ls = some s) {newer older : List (Event n)}
    {e : Event n} (hlog : s.log = newer ++ e :: older) :
    (∀ t type, e = .access t type (some (.sendBroadcast true)) →
      ∀ t' type', .access t' type' (some (.sendBroadcast false)) ∉ newer) ∧
    (∀ type, e = .destroying type → ∀ t type' call, .access t type' call ∉ newer) ∧
    (e = .returned → newer = [] ∧ ∀ t, s.todo t = some []) := by
  have hinv := inv_of_run h
  have hpair := hinv.log
  rw [hlog] at hpair
  have hfollow : ∀ e' ∈ newer, MayFollow e' e := fun e' he' =>
    (List.pairwise_append.mp hpair).2.2 e' he' e List.mem_cons_self
  refine ⟨?_, ?_, ?_⟩
  · rintro t type rfl t' type' hmem
    exact absurd ((hfollow _ hmem).1 (by simp [Event.isTermination])) (by simp [Event.isBroadcast])
  · rintro type rfl t type' call hmem
    exact absurd ((hfollow _ hmem).2.1 rfl) (by simp [Event.isAccess])
  · rintro rfl
    refine ⟨List.eq_nil_iff_forall_not_mem.mpr fun e' he' => (hfollow e' he').2.2 rfl, fun t => ?_⟩
    exact (hinv.returned (by rw [hlog]; simp) t).1

/-- The thread of the transport answers a new device: it finds the flag clear, the main thread sets
it and has to wait for the mutex. -/
def demoRun : List (Label 1) :=
  List.flatten [demoSteps .main 33,
    [.terminationRequested, .callback demoThread (.discovery false true)],
    demoSteps (.transport demoThread) 2, demoSteps .main 1, [.endLoop .discoveryManager],
    demoSteps .main 1, demoSteps (.transport demoThread) 9, demoSteps .main 11,
    [.endLoop .iceoryx2Transport], demoSteps .main 11]

theorem orderly_shutdown_demo : ∃ s newer older,
    Run.exec (step demoConfig) (State.init demoConfig) demoRun = some s ∧
      s.log = newer ++ .access .main .udp (some (.sendBroadcast true)) :: older ∧
      .access (.transport demoThread) .udp (some (.sendBroadcast false)) ∈ s.log ∧
      ∀ t type, .access t type (some (.sendBroadcast false)) ∉ newer := by
  have hfacts : (Run.exec (step demoConfig) (State.init demoConfig) demoRun).map (fun s =>
      (decide (.access .main .udp (some (.sendBroadcast true)) ∈ s.log),
        decide (.access (.transport demoThread) .udp (some (.sendBroadcast false)) ∈ s.log)))
      = some (true, true) := by decide +kernel
  obtain ⟨s, hrun, hs⟩ := Option.map_eq_some_iff.mp hfacts
  obtain ⟨hterm, hreply⟩ := Prod.mk.inj hs
  obtain ⟨newer, older, hlog⟩ := List.append_of_mem (of_decide_eq_true hterm)
  exact ⟨s, newer, older, hrun, hlog, of_decide_eq_true hreply,
    (orderly_shutdown demoConfig hrun hlog).1 _ _ rfl⟩

end P3com.TransportThreads
