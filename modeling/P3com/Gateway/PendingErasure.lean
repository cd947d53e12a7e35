/-
# Pending messages and the erasure of their subscriber

`deleteChannel` polls `anyPending` and erases the subscriber once it is false.  What it waits for is
that the table has no message of the subscriber; what it needs is that nobody is going to call
`release` on the subscriber.  Between the two is the call of `PendingMessageManager::release` that
has taken a message out of the table and waits for the endpoints mutex, which `deleteChannel` holds
while it polls.  Such a call gets the mutex when the subscriber is gone.

So a message that is in the table when the polling begins always ends badly.  In every run in which
`anyPending` is not asked while a call for the subscriber is between its sections, and in which
nothing is pushed for a subscriber whose polling is over (`NotBetween`), both halves hold
(`none_pending_all_given_back`): when `anyPending` returns false everything that was pushed has been
given back, and nothing is released to a subscriber after its channel was erased.

The invariant counts: what was pushed is in the table, between the sections, or given back
(`Inv.counted`).
-/
import P3com.Gateway.IoxToTransport

namespace P3com.IoxToTransport

variable {getClassHash : ServiceDescription → ClassHash} {s s' : State}

/-! ## The condition -/

/-- The subscriber that is polled next. -/
def Updater.polling : Updater → Option SubscriberId
  | .poll _ e _ _ => some e.id
  | _ => none

/-- The polling for the subscriber is over. -/
def State.Gone (s : State) (q : SubscriberId) : Prop :=
  .erased q ∈ s.log ∨ s.updater.bind Updater.erasing = some q

instance (s : State) (q : SubscriberId) : Decidable (s.Gone q) :=
  inferInstanceAs (Decidable (_ ∨ _))

/-- When `anyPending` is asked and returns false, no call of `release` for the subscriber is between
its sections; and nothing is pushed for a subscriber whose polling is over. -/
def NotBetween (s : State) : Label → Prop
  | .proceed => ∀ u ∈ s.updater, ∀ q ∈ u.polling, s.pending.anyPending q = false →
      ∀ r ∈ s.releases, r.2 ≠ q
  | .push _ q => ¬ s.Gone q
  | _ => True

instance (s : State) : (l : Label) → Decidable (NotBetween s l)
  | .proceed => inferInstanceAs (Decidable (∀ u ∈ s.updater, ∀ q ∈ u.polling, _ → ∀ r ∈ _, _))
  | .push _ _ => inferInstanceAs (Decidable (¬ _))
  | .release _ | .finishRelease _ | .updateChannels _ => isTrue trivial

/-! ## The log -/

/-- Whenever `anyPending` returned false, everything pushed had been given back. -/
def PolledOk (log : List Event) : Prop :=
  ∀ newer older q, log = newer ++ .polled q false :: older →
    ∀ p, older.count (.pushed p q) = older.count (.released p q)

/-- Nothing was released to an erased subscriber. -/
def ReleasedOk (log : List Event) : Prop :=
  ∀ newer older p q, log = newer ++ .released p q :: older → .erased q ∉ older

theorem PolledOk.cons {log : List Event} {e : Event} (h : PolledOk log)
    (he : ∀ q, e = .polled q false → ∀ p, log.count (.pushed p q) = log.count (.released p q)) :
    PolledOk (e :: log) := by
  intro newer older q heq
  cases newer with
  | nil =>
    obtain ⟨rfl, rfl⟩ := List.cons.inj heq
    exact he q rfl
  | cons e' newer => exact h newer older q (List.cons.inj heq).2

theorem ReleasedOk.cons {log : List Event} {e : Event} (h : ReleasedOk log)
    (he : ∀ p q, e = .released p q → .erased q ∉ log) : ReleasedOk (e :: log) := by
  intro newer older p q heq
  cases newer with
  | nil =>
    obtain ⟨rfl, rfl⟩ := List.cons.inj heq
    exact he p q rfl
  | cons e' newer => exact h newer older p q (List.cons.inj heq).2

/-! ## The invariant -/

structure Inv (s : State) : Prop where
  single : s.pending.Single
  /-- What was pushed is in the table, between the sections of `release`, or given back. -/
  counted : ∀ p q, s.log.count (.pushed p q)
    = s.pending.pendingOf p q + s.releases.count (p, q) + s.log.count (.released p q)
  /-- Nobody is going to call `release` on a subscriber whose polling is over. -/
  gone : ∀ q, s.Gone q → s.pending.anyPending q = false ∧ ∀ r ∈ s.releases, r.2 ≠ q
  polled : PolledOk s.log
  released : ReleasedOk s.log

theorem inv_init : Inv State.init where
  single := by
    intro k msg h
    cases h
  counted := by
    intro p q
    rfl
  gone := by
    rintro q (h | h)
    · cases h
    · cases h
  polled := by
    intro newer older q h
    cases newer <;> cases h
  released := by
    intro newer older p q h
    cases newer <;> cases h

/-! ## Every step -/

/-- A step of `updateChannels` that neither polls nor erases. -/
theorem Inv.move (hs : Inv s) (hpending : s'.pending = s.pending)
    (hreleases : s'.releases = s.releases) (hlog : s'.log = s.log)
    (hgone : ∀ q, s'.Gone q → s.Gone q) : Inv s' where
  single := hpending ▸ hs.single
  counted := by
    rw [hpending, hreleases, hlog]
    exact hs.counted
  gone := by
    rw [hpending, hreleases]
    exact fun q hq => hs.gone q (hgone q hq)
  polled := hlog ▸ hs.polled
  released := hlog ▸ hs.released

/-- A step that changes the stage of `updateChannels` to one before the erasure. -/
theorem gone_of_updater {u : Option Updater} (hlog : s'.log = s.log) (hu : s'.updater = u)
    (he : u.bind Updater.erasing = none) : ∀ q, s'.Gone q → s.Gone q := by
  rintro q (h | h)
  · exact Or.inl (hlog ▸ h)
  · rw [hu, he] at h
    cases h

theorem inv_push {p : UserPayload} {q : SubscriberId} (hs : Inv s) (hg : ¬ s.Gone q) :
    Inv (s.push p q).2 := by
  rcases push_cases s p q with heq | ⟨pending, hpush, heq⟩
  · rw [heq]
    exact hs
  · rw [heq]
    have hgone : ∀ q', State.Gone { s with pending, log := .pushed p q :: s.log } q' →
        s.Gone q' := by
      rintro q' (h | h)
      · rcases List.mem_cons.mp h with h | h
        · cases h
        · exact Or.inl h
      · exact Or.inr h
    refine ⟨hs.single.push hpush, fun p' q' => ?_, fun q' hq' => ?_, hs.polled.cons (by simp),
      hs.released.cons (by simp)⟩
    · have hcount := hs.counted p' q'
      rw [PendingMessageManager.pendingOf_push hpush, List.count_cons, List.count_cons, hcount]
      simp only [beq_iff_eq, reduceCtorEq, if_false, Event.pushed.injEq]
      split <;> omega
    · obtain ⟨hnone, hrel⟩ := hs.gone q' (hgone q' hq')
      refine ⟨not_anyPending_iff.mpr fun k msg hmem => ?_, hrel⟩
      rw [PendingMessageManager.push_eq_some hpush] at hmem
      rcases List.mem_append.mp hmem with hmem | hmem
      · exact not_anyPending_iff.mp hnone k msg hmem
      · obtain ⟨-, rfl⟩ := Prod.mk.inj (List.mem_singleton.mp hmem)
        rintro rfl
        exact hg (hgone _ hq')

/-- The first section of `release` moves the message from the table to the calls between their
sections. -/
theorem inv_release {p : UserPayload} {i : Nat} {msg : PendingMessage}
    {pending : PendingMessageManager} (hs : Inv s)
    (hi : s.pending.pendingMessages.entries[i]? = some (p, msg))
    (herase : pending.pendingMessages = s.pending.pendingMessages.erase i)
    (hsingle : pending.Single) :
    Inv { s with pending, releases := s.releases ++ [(p, msg.subscriber)] } := by
  refine ⟨hsingle, fun p' q => ?_, fun q hq => ?_, hs.polled, hs.released⟩
  · have hcount := hs.counted p' q
    have htable : s.pending.pendingOf p' q
        = pending.pendingOf p' q + if p = p' ∧ msg.subscriber = q then 1 else 0 := by
      unfold PendingMessageManager.pendingOf
      rw [VectorMap.countP_entries_erase hi, herase]
      simp
    rw [List.count_append, List.count_singleton, hcount, htable]
    simp only [beq_iff_eq, Prod.mk.injEq]
    split <;> omega
  · obtain ⟨hnone, hrel⟩ := hs.gone q hq
    refine ⟨not_anyPending_iff.mpr fun k msg' hmem => ?_, fun r hr => ?_⟩
    · rw [herase] at hmem
      exact not_anyPending_iff.mp hnone k msg' (VectorMap.mem_entries_of_mem_erase hmem)
    · rcases List.mem_append.mp hr with hr | hr
      · exact hrel r hr
      · obtain rfl := List.mem_singleton.mp hr
        exact not_anyPending_iff.mp hnone p msg (List.mem_of_getElem? hi)

/-- The second section of `release`: the subscriber is not gone, since a call for it was under
way. -/
theorem inv_finishRelease {i : Nat} {r : UserPayload × SubscriberId} (hs : Inv s)
    (hi : s.releases[i]? = some r) :
    Inv { s with releases := s.releases.eraseIdx i, log := .released r.1 r.2 :: s.log } := by
  have hmem := List.mem_of_getElem? hi
  refine ⟨hs.single, fun p q => ?_, fun q hq => ?_, hs.polled.cons (by simp),
    hs.released.cons fun p q heq herased => ?_⟩
  · have hcount := hs.counted p q
    have hbetween := List.countP_eraseIdx hi (· == (p, q))
    rw [List.count_cons, List.count_cons, hcount, List.count, hbetween, ← List.count]
    obtain ⟨p', q'⟩ := r
    simp only [beq_iff_eq, reduceCtorEq, if_false, Event.released.injEq, Prod.mk.injEq]
    split <;> omega
  · have hq' : s.Gone q := by
      rcases hq with h | h
      · rcases List.mem_cons.mp h with h | h
        · cases h
        · exact Or.inl h
      · exact Or.inr h
    obtain ⟨hnone, hrel⟩ := hs.gone q hq'
    exact ⟨hnone, fun r hr => hrel r (List.mem_of_mem_eraseIdx hr)⟩
  · obtain ⟨-, rfl⟩ := Event.released.inj heq
    exact (hs.gone r.2 (Or.inl herased)).2 r hmem rfl

theorem inv_proceed {u : Updater} (hs : Inv s) (hu : s.updater = some u)
    (hg : NotBetween s .proceed) : Inv (s.proceed getClassHash u) := by
  cases u with
  | select toDelete toSetup =>
    cases toDelete with
    | cons service toDelete =>
      simp only [State.proceed]
      unfold State.deleteChannel
      split
      · exact hs.move rfl rfl rfl (gone_of_updater rfl rfl rfl)
      · exact hs.move rfl rfl rfl (gone_of_updater rfl rfl rfl)
    | nil =>
      cases toSetup with
      | cons service toSetup =>
        simp only [State.proceed]
        unfold State.setupChannel
        dsimp only
        split
        · exact hs.move rfl rfl rfl (gone_of_updater rfl rfl rfl)
        · exact hs.move rfl rfl rfl (gone_of_updater rfl rfl rfl)
      | nil => exact hs.move rfl rfl rfl (gone_of_updater rfl rfl rfl)
  | change attach i e toDelete toSetup =>
    cases attach <;> exact hs.move rfl rfl rfl (gone_of_updater rfl rfl rfl)
  | resume attach i e toDelete toSetup =>
    cases attach <;> exact hs.move rfl rfl rfl (gone_of_updater rfl rfl rfl)
  | poll i e toDelete toSetup =>
    simp only [State.proceed]
    cases hany : s.pending.anyPending e.id with
    | true =>
      refine ⟨hs.single, fun p q => ?_, fun q hq => ?_, hs.polled.cons (by simp),
        hs.released.cons (by simp)⟩
      · simpa using hs.counted p q
      · refine hs.gone q ?_
        rcases hq with h | h
        · exact Or.inl (by simpa using h)
        · cases h
    | false =>
      have hbetween := hg _ hu e.id rfl hany
      refine ⟨hs.single, fun p q => ?_, fun q hq => ?_, hs.polled.cons fun q heq p => ?_,
        hs.released.cons (by simp)⟩
      · simpa using hs.counted p q
      · rcases hq with h | h
        · exact hs.gone q (Or.inl (by simpa using h))
        · -- the subscriber that was polled
          obtain rfl : e.id = q := Option.some.inj h
          exact ⟨hany, hbetween⟩
      · obtain ⟨rfl, -⟩ := Event.polled.inj heq
        have hnone : s.releases.count (p, e.id) = 0 :=
          List.count_eq_zero.mpr fun hmem => hbetween _ hmem rfl
        rw [hs.counted p e.id, pendingOf_eq_zero hany, hnone, Nat.zero_add]
  | erase i e toDelete toSetup =>
    refine ⟨hs.single, fun p q => ?_, fun q hq => hs.gone q ?_, hs.polled.cons (by simp),
      hs.released.cons (by simp)⟩
    · simpa [State.proceed] using hs.counted p q
    · rcases hq with h | h
      · rcases List.mem_cons.mp h with h | h
        · obtain rfl := Event.erased.inj h
          exact Or.inr (by rw [hu]; rfl)
        · exact Or.inl h
      · cases h

/-- **Every step that meets the condition keeps the invariant.** -/
theorem inv_step {l : Label} (hs : Inv s) (hg : NotBetween s l)
    (h : step getClassHash s l = some s') : Inv s' := by
  cases l with
  | push p q =>
    obtain rfl := Option.some.inj h
    exact inv_push hs hg
  | release p =>
    simp only [step] at h
    rcases release_cases hs.single p with heq | ⟨i, msg, pending, hi, herase, hsingle, heq⟩
    · rw [heq] at h
      obtain rfl := Option.some.inj h
      exact hs
    · rw [heq] at h
      rw [← Option.some.inj h]
      exact inv_release (s := s) hs hi herase hsingle
  | finishRelease i =>
    obtain ⟨r, hr, h⟩ := Option.bind_eq_some_iff.mp h
    split at h
    · obtain rfl := Option.some.inj h
      exact inv_finishRelease hs hr
    · cases h
  | updateChannels services =>
    simp only [step] at h
    split at h
    · obtain rfl := Option.some.inj h
      exact hs.move rfl rfl rfl (gone_of_updater rfl rfl rfl)
    · cases h
  | proceed =>
    obtain ⟨u, hu, rfl⟩ := Option.map_eq_some_iff.mp h
    exact inv_proceed hs hu hg

/-- **No pending means nothing outstanding, and nothing is released after the erasure**, in every
run whose steps meet the condition. -/
theorem none_pending_all_given_back (getClassHash : ServiceDescription → ClassHash)
    (ls : List Label) (s : State) (hrun : Run.exec (step getClassHash) State.init ls = some s)
    (hg : Run.Guarded (step getClassHash) NotBetween State.init ls) :
    (∀ newer older q, s.log = newer ++ .polled q false :: older →
      ∀ p, older.count (.pushed p q) = older.count (.released p q)) ∧
    ∀ newer older p q, s.log = newer ++ .released p q :: older → .erased q ∉ older := by
  have hs := Run.invariant_guarded _ (fun _ _ _ hs hg h => inv_step hs hg h) inv_init hg hrun
  exact ⟨hs.polled, hs.released⟩

/-! ## Runs -/

/-- The channel of a service is set up; its subscriber is number 8. -/
def demoSetup : List Label :=
  [.updateChannels demoServices, .proceed, .proceed, .proceed, .proceed]

/-- The channel is deleted: the flag is raised, the subscriber detached, the flag lowered, then the
poll, the erasure and the end. -/
def demoDelete : List Label :=
  [.updateChannels .empty, .proceed, .proceed, .proceed, .proceed, .proceed, .proceed]

/-- A message is pushed and given back before the channel is deleted. -/
def demoGivenBack : List Label :=
  demoSetup ++ [.push 5 8, .release 5, .finishRelease 0] ++ demoDelete

theorem none_pending_all_given_back_demo :
    ∃ s, Run.exec (step demoClassHash) State.init demoGivenBack = some s ∧
      s.log = [.erased 8, .polled 8 false, .released 5 8, .pushed 5 8] ∧
      ∀ newer older q, s.log = newer ++ .polled q false :: older →
        ∀ p, older.count (.pushed p q) = older.count (.released p q) := by
  refine ⟨_, rfl, by decide, ?_⟩
  exact (none_pending_all_given_back demoClassHash demoGivenBack _ rfl (by decide)).1

/-- The transport reports the message just before the channel is deleted: the message is out of the
table when `anyPending` is asked, and its subscriber is released when it has been erased. -/
theorem released_after_erasure :
    ∃ s, Run.exec (step demoClassHash) State.init
        (demoSetup ++ [.push 5 8, .release 5] ++ demoDelete ++ [.finishRelease 0]) = some s ∧
      s.log = [.released 5 8, .erased 8, .polled 8 false, .pushed 5 8] := by
  exact ⟨_, rfl, by decide⟩

end P3com.IoxToTransport
