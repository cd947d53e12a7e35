/-
# Malformed input

What a transport hands to the gateway is bytes from the network: discovery datagrams for
`receiveRemoteDiscoveryInfo`, user data for `receive`, and datagram headers for `loanBuffer` and
`releaseBuffer`.  `receive` logs "Received invalid user message, discarding!" for a datagram of the
wrong size and returns.  But each of the four handlers decodes first, and the decoders check the
bytes with `Expects`, so that a datagram that is too short, or a discovery datagram outside its
grammar, terminates the gateway.

The two halves of the gateway run side by side here: the discovery manager with its routing cache
(`RoutingCache`) and `Transport2Iceoryx` with the table of segmented messages (`TransportToIox`).
-/
import P3com.Generic.DiscoveryWire
import P3com.Generic.RoutingCache
import P3com.Gateway.TransportToIox

namespace P3com.MalformedInput

open DiscoveryWire (Memory readBytes Grammar)

/-! ## The gateway and its input -/

/-- The discovery manager and `Transport2Iceoryx`. -/
structure State (maxPublishers : Nat) where
  routing : RoutingCache.State maxPublishers
  channels : TransportToIox.State
deriving DecidableEq

/-- What a transport delivers: to `receiveRemoteDiscoveryInfo` a buffer and a size, to the handlers
of user data a string of bytes. -/
inductive Delivery
  | discovery (mem : Memory) (size : Nat) (device : DeviceIndex)
  | userData (datagram : List Byte) (device : DeviceIndex)
  | bufferNeeded (serializedHeader : List Byte)
  | bufferReleased (serializedHeader : List Byte) (shouldRelease : Bool) (device : DeviceIndex)

inductive Label
  | deliver (delivery : Delivery)
  /-- Any other step of the discovery manager. -/
  | routing (l : RoutingCache.Label)
  /-- Any step of `Transport2Iceoryx`. -/
  | channels (l : TransportToIox.Label)

section

variable {maxPublishers : Nat} (getClassHash : ServiceDescription → ClassHash)

def State.init (gatewayHash : Hash) (preferredType : TransportType) (transports : TransportInfo) :
    State maxPublishers :=
  ⟨.init gatewayHash preferredType transports, .init⟩

/-- The handler of a delivery, up to its return or to its first section under a mutex.  It is
`none` when an `Expects` fails in the decoder. -/
def handle (s : State maxPublishers) : Delivery → Option (State maxPublishers)
  | .discovery mem size device =>
    match DiscoveryWire.deserialize mem size with
    | none => none
    | some (info, _) =>
      (RoutingCache.step getClassHash s.routing (.receiveRemoteDiscoveryInfo info device)).map
        fun routing => { s with routing }
  | .userData datagram device =>
    (TransportToIox.receive s.channels datagram device).map fun channels => { s with channels }
  | .bufferNeeded header =>
    (TransportToIox.loanBuffer s.channels header).map fun channels => { s with channels }
  | .bufferReleased header shouldRelease device =>
    (TransportToIox.releaseBuffer s.channels header shouldRelease device).map
      fun channels => { s with channels }

/-- One step.  A delivery is taken up when the endpoints mutex is free. -/
def step (s : State maxPublishers) : Label → Option (State maxPublishers)
  | .deliver delivery => if s.channels.holder = none then handle getClassHash s delivery else none
  | .routing l => (RoutingCache.step getClassHash s.routing l).map fun routing => { s with routing }
  | .channels l =>
    (TransportToIox.step getClassHash s.channels l).map fun channels => { s with channels }

end

/-! ## Well-formed input -/

/-- The bytes are a well-formed message of their kind: a discovery datagram of the grammar, a
header with as many bytes after it as it says, or a header. -/
def WellFormed : Delivery → Prop
  | .discovery mem size _ => Grammar (readBytes mem 0 size)
  | .userData datagram _ => ∃ h data, datagram = serialize h ++ data ∧
      data.length = h.submessageSize.toNat
  | .bufferNeeded header => ∃ h rest, header = serialize h ++ rest
  | .bufferReleased header _ _ => ∃ h rest, header = serialize h ++ rest

/-- The bytes contain a whole discovery message or a whole datagram header. -/
def Complete : Delivery → Prop
  | .discovery mem size _ => Grammar (readBytes mem 0 size)
  | .userData datagram _ => maxIoxChunkDatagramHeaderSerializationSize ≤ datagram.length
  | .bufferNeeded header => maxIoxChunkDatagramHeaderSerializationSize ≤ header.length
  | .bufferReleased header _ _ => maxIoxChunkDatagramHeaderSerializationSize ≤ header.length

variable {maxPublishers : Nat} {getClassHash : ServiceDescription → ClassHash}
  {s : State maxPublishers}

/-- No `Expects` fails, and a malformed message changes nothing. -/
def Discards (getClassHash : ServiceDescription → ClassHash) (s : State maxPublishers)
    (delivery : Delivery) : Prop :=
  ∃ s', handle getClassHash s delivery = some s' ∧ (¬ WellFormed delivery → s' = s)

/-- A datagram that passes the size check of `receive` has as many bytes after its header as the
header says: the sum of the source wraps only where it is smaller than a header. -/
theorem length_of_sizeCheck {datagram data : List Byte} {h : IoxChunkDatagramHeader}
    (hd : datagram = serialize h ++ data)
    (hcheck : TransportToIox.sizeCheck datagram h maxIoxChunkDatagramHeaderSerializationSize
      = true) : data.length = h.submessageSize.toNat := by
  have hlt := h.submessageSize.toNat_lt
  unfold TransportToIox.sizeCheck at hcheck
  rw [decide_eq_true_eq, hd, List.length_append, length_serialize, UInt32.toNat_add,
    UInt32.toNat_ofNat_of_lt' (by decide)] at hcheck
  unfold maxIoxChunkDatagramHeaderSerializationSize at hcheck
  omega

/-- The header that is read is the one that stands there. -/
theorem eq_serialize_of_deserialize {bytes : List Byte} {h : IoxChunkDatagramHeader} {n : Nat}
    (hdes : deserialize bytes = some (h, n)) :
    n = maxIoxChunkDatagramHeaderSerializationSize ∧ ∃ rest, bytes = serialize h ++ rest := by
  obtain ⟨rfl, hle⟩ := deserialize_eq_some hdes
  obtain ⟨h', rest, rfl⟩ := exists_serialize hle
  rw [deserialize_serialize] at hdes
  obtain ⟨rfl, -⟩ := Prod.mk.inj (Option.some.inj hdes)
  exact ⟨rfl, rest, rfl⟩

/-! ## The four handlers -/

theorem discards_discovery_iff {mem : Memory} {size : Nat} {device : DeviceIndex} :
    Discards getClassHash s (.discovery mem size device) ↔ Grammar (readBytes mem 0 size) := by
  rw [← DiscoveryWire.isSome_deserialize_iff]
  constructor
  · rintro ⟨s', h, -⟩
    simp only [handle] at h
    split at h
    · cases h
    · rename_i heq
      rw [heq]
      rfl
  · intro h
    obtain ⟨⟨info, offset⟩, heq⟩ := Option.isSome_iff_exists.mp h
    have hgrammar := DiscoveryWire.isSome_deserialize_iff.mp h
    obtain ⟨routing, hstep⟩ : ∃ routing, RoutingCache.step getClassHash s.routing
        (.receiveRemoteDiscoveryInfo info device) = some routing := ⟨_, rfl⟩
    refine ⟨{ s with routing }, ?_, fun hnot => absurd hgrammar hnot⟩
    simp only [handle, heq, hstep, Option.map_some]

theorem discards_userData_iff {datagram : List Byte} {device : DeviceIndex} :
    Discards getClassHash s (.userData datagram device) ↔
      maxIoxChunkDatagramHeaderSerializationSize ≤ datagram.length := by
  rw [← isSome_deserialize_iff]
  constructor
  · rintro ⟨s', h, -⟩
    obtain ⟨channels, hreceive, -⟩ := Option.map_eq_some_iff.mp h
    obtain ⟨hd, n, hdes, -⟩ := TransportToIox.receive_eq_some hreceive
    rw [hdes]
    rfl
  · intro h
    obtain ⟨⟨hd, n⟩, hdes⟩ := Option.isSome_iff_exists.mp h
    obtain ⟨rfl, data, hbytes⟩ := eq_serialize_of_deserialize hdes
    by_cases hcheck : TransportToIox.sizeCheck datagram hd
        maxIoxChunkDatagramHeaderSerializationSize = true
    · -- the datagram is well-formed, and something is done with it
      have hwf : WellFormed (.userData datagram device) :=
        ⟨hd, data, hbytes, length_of_sizeCheck hbytes hcheck⟩
      have hreceive : ∃ channels,
          TransportToIox.receive s.channels datagram device = some channels := by
        simp only [TransportToIox.receive, hdes, hcheck, if_true]
        split <;> exact ⟨_, rfl⟩
      obtain ⟨channels, hreceive⟩ := hreceive
      exact ⟨{ s with channels }, by simp [handle, hreceive], fun hnot => absurd hwf hnot⟩
    · refine ⟨s, ?_, fun _ => rfl⟩
      simp [handle, TransportToIox.receive, hdes, hcheck]

/-- A handler that takes the header and ignores what follows it. -/
theorem discards_header_iff {delivery : Delivery} {header : List Byte}
    {channels : Option TransportToIox.State}
    (hhandle : handle getClassHash s delivery = channels.map fun channels => { s with channels })
    (hwell : (∃ h rest, header = serialize h ++ rest) → WellFormed delivery)
    (hchannels : channels.isSome = (deserialize header).isSome) :
    Discards getClassHash s delivery ↔
      maxIoxChunkDatagramHeaderSerializationSize ≤ header.length := by
  rw [← isSome_deserialize_iff, ← hchannels]
  constructor
  · rintro ⟨s', h, -⟩
    rw [hhandle] at h
    obtain ⟨channels', rfl, -⟩ := Option.map_eq_some_iff.mp h
    rfl
  · intro h
    obtain ⟨channels', rfl⟩ := Option.isSome_iff_exists.mp h
    have hlen := isSome_deserialize_iff.mp (hchannels.symm.trans h)
    exact ⟨{ s with channels := channels' }, hhandle,
      fun hnot => absurd (hwell (exists_serialize hlen)) hnot⟩

theorem isSome_loanBuffer (s : TransportToIox.State) (header : List Byte) :
    (TransportToIox.loanBuffer s header).isSome = (deserialize header).isSome := by
  unfold TransportToIox.loanBuffer
  cases deserialize header with
  | none => rfl
  | some r =>
    simp only
    split <;> rfl

theorem isSome_releaseBuffer (s : TransportToIox.State) (header : List Byte)
    (shouldRelease : Bool) (device : DeviceIndex) :
    (TransportToIox.releaseBuffer s header shouldRelease device).isSome =
      (deserialize header).isSome := by
  unfold TransportToIox.releaseBuffer
  cases deserialize header with
  | none => rfl
  | some r =>
    simp only
    split <;> rfl

/-- In any state, a handler copes with a delivery exactly when the delivery is complete. -/
theorem discards_iff (delivery : Delivery) :
    Discards getClassHash s delivery ↔ Complete delivery := by
  cases delivery with
  | discovery mem size device => exact discards_discovery_iff
  | userData datagram device => exact discards_userData_iff
  | bufferNeeded header => exact discards_header_iff rfl id (isSome_loanBuffer s.channels header)
  | bufferReleased header shouldRelease device =>
    exact discards_header_iff rfl id
      (isSome_releaseBuffer s.channels header shouldRelease device)

/-- The states that some run of the gateway reaches. -/
def Reachable (getClassHash : ServiceDescription → ClassHash) (s : State maxPublishers) : Prop :=
  ∃ gatewayHash preferredType transports ls, Run.exec (step getClassHash)
    (State.init gatewayHash preferredType transports) ls = some s

/-- **Which input a gateway survives.**  In every reachable state, a delivery is dealt with, and
discarded if it is malformed, exactly when it contains a whole discovery message or a whole
datagram header; otherwise an `Expects` fails. -/
theorem malformed_input_discarded_iff (getClassHash : ServiceDescription → ClassHash)
    (s : State maxPublishers) (_ : Reachable getClassHash s) (delivery : Delivery) :
    Discards getClassHash s delivery ↔ Complete delivery :=
  discards_iff delivery

/-- A gateway with UDP, after its construction. -/
def demoState : State 512 := .init 7 .none ⟨none, some .good, none, 4⟩

/-- A datagram header that announces two bytes, without these bytes, is discarded. -/
theorem malformed_input_discarded_iff_demo :
    Reachable demoClassHash demoState ∧
      Discards demoClassHash demoState
        (.userData (serialize ⟨⟨1, 2, 3, 4⟩, 5, 1, 0, 2, 2, 8, 0⟩) ⟨.udp, 0⟩) := by
  have hreach : Reachable demoClassHash demoState := ⟨_, _, _, [], rfl⟩
  refine ⟨hreach, (malformed_input_discarded_iff demoClassHash demoState hreach _).mpr ?_⟩
  exact Nat.le_of_eq (length_serialize _).symm

/-- A datagram of three bytes terminates the gateway. -/
theorem malformed_input_fatal :
    Reachable demoClassHash demoState ∧
      ¬ WellFormed (.userData [1, 2, 3] ⟨.udp, 0⟩) ∧
      handle demoClassHash demoState (.userData [1, 2, 3] ⟨.udp, 0⟩) = none ∧
      ¬ ∀ delivery, Discards demoClassHash demoState delivery := by
  have hnone : handle demoClassHash demoState (.userData [1, 2, 3] ⟨.udp, 0⟩) = none := rfl
  refine ⟨⟨_, _, _, [], rfl⟩, ?_, hnone, ?_⟩
  · rintro ⟨h, data, heq, -⟩
    have hlen := congrArg List.length heq
    rw [List.length_append, length_serialize] at hlen
    unfold maxIoxChunkDatagramHeaderSerializationSize at hlen
    simp only [List.length_cons, List.length_nil] at hlen
    omega
  · intro hall
    obtain ⟨s', hs', -⟩ := hall (.userData [1, 2, 3] ⟨.udp, 0⟩)
    rw [hnone] at hs'
    cases hs'

end P3com.MalformedInput
