/-
# Failures under concurrency

Several threads may come by a failed transport, in `doFor` or `doForAllEnabled`, and some of them
hold `m_mutex` and some do not.  `hasFailedSetDisabled` is a compare-and-exchange, so one of them
disables the transport, and this one calls the fail callback (`failure_handled_once`).
-/
import P3com.Gateway.Sections

namespace P3com.TransportThreads

open Locks (Thread)

variable {n : Nat}

/-- The transport is found failed, and disabled. -/
def Event.disables (type : TransportType) : Event n → Bool
  | .disabled _ type' => type' = type
  | _ => false

/-- The thread is at the fail callback for the transport, registered or not. -/
def Event.callsFor (t : Thread n) (type : TransportType) : Event n → Bool
  | .failCallback t' type' _ => t' = t ∧ type' = type
  | _ => false

/-- How often the transport has been disabled. -/
def State.disabledCount (s : State n) (type : TransportType) : Nat :=
  s.log.countP (Event.disables type)

/-- A transport that has been disabled has been so once, and each thread has still to call the
callback for what it has disabled and not called it for. -/
structure Handled (cfg : Config n) (s : State n) : Prop where
  once : ∀ type, s.disabledCount type = 0 ∨ (s.disabledCount type = 1 ∧
    (s.slot type = some .disabled ∨ s.slot type = none))
  account : ∀ type, s.slot type = some .disabled →
    cfg.transports.slot type = some .disabled ∨ s.disabledCount type = 1
  called : ∀ t type, s.log.count (.disabled t type)
    = s.log.countP (Event.callsFor t type) + (s.code t).count (.failCallback type)

section Handled

variable {cfg : Config n} {s s' : State n} {t u : Thread n} {op : Op n} {rest old new : Code n}
  {type : TransportType}

theorem count_pushes : (s.pushes op).count (.failCallback type)
    = if op = .ifFailed type ∧ s.slot type = some .failed then 1 else 0 := by
  cases op with
  | ifFailed type' =>
    by_cases hslot : s.slot type' = some .failed
    · by_cases htype : type' = type
      · subst htype
        simp [State.pushes, hslot]
      · simp [State.pushes, hslot, htype]
    · simp only [State.pushes, if_neg hslot, List.count_nil]
      rw [if_neg]
      rintro ⟨heq, hf⟩
      rw [Op.ifFailed.inj heq] at hslot
      exact hslot hf
  | _ =>
    rw [if_neg (by simp)]
    refine List.count_eq_zero.mpr fun hmem => ?_
    rcases mem_pushes hmem with ⟨type', calls, c, -, -, heq⟩ | ⟨type', heq, -, -⟩ | ⟨-, ho⟩ |
      ⟨-, -, type', heq | heq⟩
    · cases heq
    · cases heq
    · exact (kinds_transportFailCallback ho).2.2.2.2 type rfl
    · cases heq
    · cases heq

/-- The operation disables the transport. -/
def Disables (s : State n) (op : Op n) (type : TransportType) : Prop :=
  op = .ifFailed type ∧ s.slot type = some .failed

instance : Decidable (Disables s op type) := inferInstanceAs (Decidable (_ ∧ _))

theorem countP_disables_events :
    (s.events t op).countP (Event.disables type) = if Disables s op type then 1 else 0 := by
  cases op with
  | ifFailed type' =>
    by_cases htype : type' = type
    · subst htype
      by_cases hslot : s.slot type' = some .failed <;>
        simp [State.events, Disables, Event.disables, hslot]
    · by_cases hslot : s.slot type' = some .failed <;>
        simp [State.events, Disables, Event.disables, hslot, htype]
  | _ => simp [State.events, Disables, Event.disables]

theorem count_disabled_events :
    (s.events t op).count (.disabled u type) = if u = t ∧ Disables s op type then 1 else 0 := by
  cases op with
  | ifFailed type' =>
    by_cases htype : type' = type
    · subst htype
      by_cases hslot : s.slot type' = some .failed <;> by_cases hu : t = u <;>
        simp [State.events, Disables, hslot, hu, Ne.symm, eq_comm]
    · by_cases hslot : s.slot type' = some .failed <;>
        simp [State.events, Disables, hslot, htype]
  | _ => simp [State.events, Disables]

theorem countP_callsFor_events : (s.events t op).countP (Event.callsFor u type)
    = if u = t ∧ op = .failCallback type then 1 else 0 := by
  cases op with
  | failCallback type' =>
    by_cases htype : type' = type
    · subst htype
      by_cases hu : t = u <;> simp [State.events, Event.callsFor, hu, eq_comm]
    · simp [State.events, Event.callsFor, htype]
  | ifFailed type' =>
    by_cases hslot : s.slot type' = some .failed <;>
      simp [State.events, Event.callsFor, hslot]
  | _ => simp [State.events, Event.callsFor]

theorem slot_exec : (s.exec t op rest).slot type = if Disables s op type then some .disabled
    else if op = .reset type then none else s.slot type := by
  change (s.effect op).slot type = _
  cases op with
  | ifFailed type' =>
    by_cases htype : type = type'
    · subst htype
      by_cases hslot : s.slot type = some .failed <;> simp [State.effect, Disables, hslot]
    · by_cases hslot : s.slot type' = some .failed <;>
        simp [State.effect, Disables, hslot, htype, Ne.symm htype]
  | reset type' =>
    by_cases htype : type = type'
    · subst htype
      simp [State.effect, Disables]
    · simp [State.effect, Disables, htype, Ne.symm htype]
  | _ => simp [State.effect, Disables, State.setTodo]

theorem Handled.exec (h : Handled cfg s) (htodo : s.todo t = some (op :: rest))
    (hpos : s.possible t op = true) : Handled cfg (s.exec t op rest) := by
  have hcount : ∀ type, (s.exec t op rest).disabledCount type
      = (if Disables s op type then 1 else 0) + s.disabledCount type := by
    intro type
    rw [← countP_disables_events]
    exact List.countP_append
  constructor
  case once =>
    intro type
    rw [hcount, slot_exec]
    by_cases hd : Disables s op type
    · rw [if_pos hd, if_pos hd]
      rcases h.once type with hzero | ⟨-, hslot | hslot⟩
      · exact Or.inr ⟨by omega, Or.inl rfl⟩
      · cases hslot.symm.trans hd.2
      · cases hslot.symm.trans hd.2
    · rw [if_neg hd, if_neg hd, Nat.zero_add]
      refine (h.once type).imp_right fun hone => ⟨hone.1, ?_⟩
      split
      · exact Or.inr rfl
      · exact hone.2
  case account =>
    intro type
    rw [hcount, slot_exec]
    by_cases hd : Disables s op type
    · rw [if_pos hd, if_pos hd]
      intro _
      rcases h.once type with hzero | ⟨-, hslot | hslot⟩
      · exact Or.inr (by omega)
      · cases hslot.symm.trans hd.2
      · cases hslot.symm.trans hd.2
    · rw [if_neg hd, if_neg hd, Nat.zero_add]
      split
      · exact nofun
      · exact h.account type
  case called =>
    intro u type
    have hlog : (s.exec t op rest).log = s.events t op ++ s.log := rfl
    rw [hlog, List.count_append, List.countP_append, count_disabled_events,
      countP_callsFor_events, h.called u type]
    by_cases hu : u = t
    · subst hu
      rw [code_of_todo todo_exec_self, code_of_todo htodo, List.count_append, count_pushes,
        List.count_cons]
      simp only [true_and, Disables, beq_iff_eq]
      omega
    · have hcode : ((s.exec t op rest).code u).count (.failCallback type)
          = (s.code u).count (.failCallback type) := by
        rcases todo_exec_of_ne rest hpos hu with heq | ⟨hnone, heq⟩
        · rw [State.code, heq]
          rfl
        · rw [code_of_todo heq, State.code, hnone]
          simp
      rw [hcode]
      simp [hu]

/-- A round has no callback to call. -/
theorem count_round (hround : Round cfg s t old new) :
    new.count (.failCallback type) = old.count (.failCallback type) := by
  have hsender : ∀ notifications, Op.failCallback type ∉ (senderRound notifications : Code n) := by
    intro notifications hmem
    cases ofSender_senderRound notifications _ hmem
  cases hround with
  | main resend rest =>
    have hnot : Op.failCallback type ∉ (mainRound resend : Code n) := by
      cases resend <;> simp [mainRound, resendDiscoveryInfoToTransport, doFor]
    rw [List.count_append, List.count_eq_zero.mpr hnot, Nat.zero_add]
  | discovery notifications =>
    have hnot : Op.failCallback type ∉ (discoveryRound notifications : Code n) := by
      intro hmem
      rcases mem_discoveryRound hmem with heq | heq | heq | hmem
      · cases heq
      · cases heq
      · cases heq
      · simp [sendDiscoveryInfo, doForAllEnabled] at hmem
    rw [List.count_append, List.count_eq_zero.mpr hnot, Nat.zero_add]
  | iceoryx2Transport notifications =>
    rw [List.count_append, List.count_eq_zero.mpr (hsender _), Nat.zero_add]
  | transportForwarder notifications =>
    rw [List.count_append, List.count_eq_zero.mpr (hsender _), Nat.zero_add]
  | callback i x hstopped =>
    refine List.count_eq_zero.mpr ?_
    cases x with
    | discovery isTermination isNew =>
      cases isTermination <;> cases isNew <;> simp [Callback.code, receiveRemoteDiscoveryInfo]
    | _ => simp [Callback.code]
  | _ => simp

theorem handled_step {l : Label n} (h : Handled cfg s) (hstep : step cfg s l = some s') :
    Handled cfg s' := by
  rcases step_cases hstep with ⟨t, op, rest, htodo, hpos, rfl⟩ | ⟨t, old, new, htodo, hround, rfl⟩ |
    ⟨type, rfl⟩
  · exact h.exec htodo hpos
  · refine ⟨h.once, h.account, fun u type => ?_⟩
    by_cases hu : u = t
    · subst hu
      rw [code_setTodo_self, count_round hround, ← code_of_todo htodo]
      exact h.called u type
    · rw [code_setTodo_of_ne hu]
      exact h.called u type
  · unfold State.setFailed
    split
    · rename_i hgood
      refine ⟨fun type' => ?_, fun type' => ?_, h.called⟩
      · by_cases heq : type' = type
        · subst heq
          rcases h.once type' with hzero | ⟨-, hslot | hslot⟩
          · exact Or.inl hzero
          · cases hslot.symm.trans hgood
          · cases hslot.symm.trans hgood
        · dsimp only
          rw [Function.update_of_ne heq]
          exact h.once type'
      · by_cases heq : type' = type
        · subst heq
          dsimp only
          rw [Function.update_self]
          exact nofun
        · dsimp only
          rw [Function.update_of_ne heq]
          exact h.account type'
    · exact h

end Handled

/-- Nothing is to be called at the start. -/
theorem failCallback_notMem_init (cfg : Config n) (t : Thread n) (type : TransportType) :
    Op.failCallback type ∉ (State.init cfg).code t := by
  intro hmem
  cases t with
  | main =>
    simp [code_of_todo (s := State.init cfg) (t := .main) rfl, run, constructors,
      initializeDiscovery, deinitializeDiscovery, sendDiscoveryInfo, doForAllEnabled,
      resetTransport] at hmem
  | transportForwarder =>
    cases hforwards : cfg.forwards <;> simp [State.code, State.init, hforwards] at hmem
  | _ => cases hmem

theorem handled_init (cfg : Config n) : Handled cfg (State.init cfg) where
  once := fun _ => Or.inl rfl
  account := fun _ => Or.inl
  called := by
    intro t type
    rw [List.count_eq_zero.mpr (failCallback_notMem_init cfg t type)]
    rfl

/-- **Every failure is handled once**, in every run: a transport is disabled at most once, and once
if it has become disabled in the run; the fail callback is called for it only by the thread that has
disabled it, at most once, and once when the thread has nothing left to do. -/
theorem failure_handled_once (cfg : Config n) {ls : List (Label n)} {s : State n}
    (h : Run.exec (step cfg) (State.init cfg) ls = some s) (type : TransportType) :
    s.disabledCount type ≤ 1 ∧
    (s.slot type = some .disabled → cfg.transports.slot type ≠ some .disabled →
      s.disabledCount type = 1) ∧
    ∀ t, s.log.countP (Event.callsFor t type) ≤ s.log.count (.disabled t type) ∧
      (s.code t = [] →
        s.log.countP (Event.callsFor t type) = s.log.count (.disabled t type)) := by
  have hh : Handled cfg s :=
    Run.invariant (Handled cfg) (fun _ _ _ => handled_step) (handled_init cfg) h
  refine ⟨?_, fun hslot hstart => (hh.account type hslot).resolve_left hstart, fun t => ?_⟩
  · rcases hh.once type with hzero | ⟨hone, -⟩ <;> omega
  · have hcalled := hh.called t type
    refine ⟨by omega, fun hnil => ?_⟩
    rw [hnil] at hcalled
    exact hcalled.symm

/-- The transport fails, and a thread that looks for a device and the main thread come by it, one
after the other. -/
def demoFailure : List (Label 1) :=
  List.flatten [demoSteps .main 33, [.setFailed .udp, .mainRound true,
    .iceoryx2TransportRound [.forwarded [3] [⟨.udp, false, 1⟩] none]],
    demoSteps .iceoryx2Transport 8, demoSteps .main 4, demoSteps .iceoryx2Transport 1]

theorem failure_handled_once_demo : ∃ s,
    Run.exec (step demoConfig) (State.init demoConfig) demoFailure = some s ∧
      s.slot .udp = some .disabled ∧ s.disabledCount .udp = 1 := by
  have hfacts : (Run.exec (step demoConfig) (State.init demoConfig) demoFailure).map
      (State.slot · .udp) = some (some .disabled) := by decide +kernel
  obtain ⟨s, hrun, hslot⟩ := Option.map_eq_some_iff.mp hfacts
  exact ⟨s, hrun, hslot, (failure_handled_once demoConfig hrun .udp).2.1 hslot nofun⟩

end P3com.TransportThreads
