/-
# Pending messages

`include/p3com/generic/pending_messages.hpp` and `source/p3com/generic/pending_messages.cpp`.  A
transport may go on reading a chunk after `sendUserData` has returned; the chunk is then kept in
the table of pending messages until the transport calls back.  The keys of the table are the
addresses of the user payloads.

`release` has two sections: under the mutex of the table it counts the message down and erases
it, and afterwards, under the mutex of the subscriber, it releases the chunk.  The function here
is the first section; it returns the message whose chunk is to be released.
-/
import P3com.Utility.VectorMap

namespace P3com

/-- `MAX_PENDING_MESSAGE_COUNT`. -/
def maxPendingMessageCount : Nat := 512

/-- A user payload pointer. -/
abbrev UserPayload := Nat

/-- `PendingMessage_t`.  The mutex is the one of the gateway that owns the subscriber. -/
structure PendingMessage where
  counter : UInt32
  subscriber : Nat
deriving DecidableEq

/-- `m_pendingMessages`: `push` never adds a key twice. -/
structure PendingMessageManager where
  pendingMessages : VectorMap UserPayload PendingMessage maxPendingMessageCount
  nodup : pendingMessages.keys.Nodup

namespace PendingMessageManager

def empty : PendingMessageManager := ⟨.empty, List.nodup_nil⟩

/-- `push`: `none` when it returns false, because the message exists already or the table is
full. -/
def push (m : PendingMessageManager) (userPayload : UserPayload) (subscriber : Nat) :
    Option PendingMessageManager :=
  if hk : userPayload ∈ m.pendingMessages.keys then none
  else
    match hm : m.pendingMessages.emplace userPayload ⟨1, subscriber⟩ with
    | none => none
    | some m' => some ⟨m', VectorMap.nodup_keys_emplace m.nodup hk hm⟩

/-- The first section of `release`. -/
def release (m : PendingMessageManager) (userPayload : UserPayload) :
    PendingMessageManager × Option PendingMessage :=
  match m.pendingMessages.findElem userPayload with
  | none => (m, none)
  | some (i, msg) =>
    let msg := { msg with counter := msg.counter - 1 }
    if msg.counter = 0 then
      (⟨m.pendingMessages.erase i, VectorMap.nodup_keys_erase m.nodup i⟩, some msg)
    else (⟨m.pendingMessages.set i msg, m.nodup⟩, none)

/-- `anyPending`. -/
def anyPending (m : PendingMessageManager) (subscriber : Nat) : Bool :=
  m.pendingMessages.elems.any fun msg => msg.subscriber = subscriber

/-! ## Whose messages are in the table -/

/-- The number of entries, zero or one, for a payload that a subscriber has taken. -/
def pendingOf (m : PendingMessageManager) (userPayload : UserPayload) (subscriber : Nat) : Nat :=
  m.pendingMessages.entries.countP fun e => e.1 = userPayload && e.2.subscriber = subscriber

/-- Every message counts one transfer. -/
def Single (m : PendingMessageManager) : Prop :=
  ∀ k msg, (k, msg) ∈ m.pendingMessages.entries → msg.counter = 1

variable {m m' : PendingMessageManager} {userPayload other : UserPayload} {subscriber : Nat}

theorem push_eq_some (h : m.push userPayload subscriber = some m') :
    m'.pendingMessages.entries = m.pendingMessages.entries ++ [(userPayload, ⟨1, subscriber⟩)] := by
  unfold push at h
  split at h
  · cases h
  · split at h
    · cases h
    · rename_i hm
      rw [← Option.some.inj h]
      exact VectorMap.entries_emplace hm

theorem not_mem_keys_of_push (h : m.push userPayload subscriber = some m') :
    userPayload ∉ m.pendingMessages.keys := by
  intro hk
  rw [push, dif_pos hk] at h
  cases h

/-- `push` fails on a message that is pending already, and on a full table. -/
theorem push_eq_none : m.push userPayload subscriber = none ↔
    userPayload ∈ m.pendingMessages.keys ∨ m.pendingMessages.size = maxPendingMessageCount := by
  unfold push
  split
  · rename_i hk
    exact iff_of_true rfl (Or.inl hk)
  · rename_i hk
    split
    · rename_i hm
      exact iff_of_true rfl (Or.inr (VectorMap.emplace_eq_none.mp hm))
    · rename_i m' hm
      refine iff_of_false (by simp) fun h => ?_
      rw [VectorMap.emplace_eq_none.mpr (h.resolve_left hk)] at hm
      cases hm

theorem push_isSome (hk : userPayload ∉ m.pendingMessages.keys)
    (hsize : m.pendingMessages.size < maxPendingMessageCount) (subscriber : Nat) :
    ∃ m', m.push userPayload subscriber = some m' := by
  refine Option.ne_none_iff_exists'.mp fun h => ?_
  rcases push_eq_none.mp h with hmem | hfull
  · exact hk hmem
  · omega

theorem Single.push (hs : m.Single) (h : m.push userPayload subscriber = some m') :
    m'.Single := by
  intro k msg hmem
  rw [push_eq_some h, List.mem_append, List.mem_singleton] at hmem
  rcases hmem with hmem | heq
  · exact hs k msg hmem
  · rw [(Prod.mk.inj heq).2]

theorem pendingOf_push (h : m.push userPayload subscriber = some m') (p : UserPayload) (q : Nat) :
    m'.pendingOf p q
      = m.pendingOf p q + if userPayload = p ∧ subscriber = q then 1 else 0 := by
  unfold pendingOf
  rw [push_eq_some h, List.countP_append, List.countP_singleton]
  simp

/-- **The first section of `release`**, on a table of single transfers: it finds nothing, or it
takes the message out. -/
theorem release_cases (hs : m.Single) (userPayload : UserPayload) :
    (userPayload ∉ m.pendingMessages.keys ∧ m.release userPayload = (m, none)) ∨
      ∃ i msg m', m.pendingMessages.entries[i]? = some (userPayload, msg) ∧
        m'.pendingMessages = m.pendingMessages.erase i ∧
        m.release userPayload = (m', some { msg with counter := 0 }) := by
  unfold release
  cases hf : m.pendingMessages.findElem userPayload with
  | none => exact Or.inl ⟨VectorMap.findElem_eq_none.mp hf, rfl⟩
  | some r =>
    obtain ⟨i, msg⟩ := r
    have hcount : msg.counter = 1 := hs _ _ (VectorMap.mem_of_findElem hf)
    refine Or.inr ⟨i, msg, ⟨_, VectorMap.nodup_keys_erase m.nodup i⟩,
      VectorMap.findElem_eq_some hf, rfl, ?_⟩
    simp [hcount]

theorem Single.release (hs : m.Single) (userPayload : UserPayload) :
    (m.release userPayload).1.Single := by
  rcases release_cases hs userPayload with ⟨-, heq⟩ | ⟨i, msg, m', -, hm', heq⟩
  · rw [heq]
    exact hs
  · rw [heq]
    intro k msg' hmem
    rw [hm'] at hmem
    exact hs k msg' (VectorMap.mem_entries_of_mem_erase hmem)

/-- A released message has left the table. -/
theorem pendingOf_release (hs : m.Single) (userPayload : UserPayload) (q : Nat) :
    (m.release userPayload).1.pendingOf userPayload q
        + ((m.release userPayload).2.toList.countP fun msg => msg.subscriber = q)
      = m.pendingOf userPayload q := by
  rcases release_cases hs userPayload with ⟨-, heq⟩ | ⟨i, msg, m', hi, hm', heq⟩
  · simp [heq]
  · rw [heq]
    unfold pendingOf
    rw [VectorMap.countP_entries_erase hi, hm']
    simp

theorem pendingOf_release_other (hs : m.Single) (hne : other ≠ userPayload) (q : Nat) :
    (m.release other).1.pendingOf userPayload q = m.pendingOf userPayload q := by
  rcases release_cases hs other with ⟨-, heq⟩ | ⟨i, msg, m', hi, hm', heq⟩
  · rw [heq]
  · rw [heq]
    unfold pendingOf
    rw [VectorMap.countP_entries_erase hi, hm']
    simp [hne]

/-- After `release` there is no message for the payload. -/
theorem pendingOf_release_eq_zero (hs : m.Single) (userPayload : UserPayload) (q : Nat) :
    (m.release userPayload).1.pendingOf userPayload q = 0 := by
  have hnone : ∀ m : PendingMessageManager, userPayload ∉ m.pendingMessages.keys →
      m.pendingOf userPayload q = 0 := by
    intro m hk
    refine List.countP_eq_zero.mpr ?_
    rintro ⟨k, msg⟩ hmem
    have : k ≠ userPayload := fun h => hk (h ▸ VectorMap.mem_keys_of_mem_entries hmem)
    simp [this]
  rcases release_cases hs userPayload with ⟨hk, heq⟩ | ⟨i, msg, m', hi, hm', heq⟩
  · rw [heq]
    exact hnone m hk
  · rw [heq]
    apply hnone
    rw [hm']
    exact VectorMap.not_mem_keys_erase m.nodup hi

end PendingMessageManager

end P3com
