import CoreServer.Network.SessionGroup
import CoreServer.RecvDelivery

/-!
# What a new session finds in its slot

`AddSession` builds a `Session` in a slot of the table, and neither the constructor of
`RecvJob` nor the one of `RecvBuffer` sets `mFront` and `mRear`.  The histories of this file
are those of a session group together with what the receive jobs of its sessions do to their
buffers, so that the memory that `AddSession` finds is what earlier sessions have left there.
-/

namespace CoreServer

/-- A call on the group, or what a round of the receive job in a slot does to its buffer. -/
inductive ReuseCall where
  | addSession (clientFD : SocketFD)
  | deleteSession (sessionID : SessionID)
  | receive (slot : ℤ) (bytes : List Byte)
  | onRecv (slot : ℤ) (readSize : ℤ)
deriving DecidableEq, Repr

/-- A session group and the number of the next session. -/
structure ReuseRun where
  group : SessionGroup
  sUniqueNumber : BitVec 64

namespace ReuseRun

open CircularBuffer

/-- The receive buffer in a slot. -/
def buffer (s : ReuseRun) (slot : ℤ) : RecvBuffer :=
  (s.group.mSessionVector slot.toNat).mRecvJob.mRecvBuffer

/-- The receive buffer in a slot is replaced. -/
def setBuffer (s : ReuseRun) (slot : ℤ) (b : RecvBuffer) : ReuseRun :=
  { s with group := { s.group with
    mSessionVector := Function.update s.group.mSessionVector slot.toNat
      { s.group.mSessionVector slot.toNat with mRecvJob := ⟨b⟩ } } }

/-- One call. -/
def step (s : ReuseRun) : ReuseCall → Option ReuseRun
  | .addSession clientFD => do
    let (_, g) ← s.group.addSession s.sUniqueNumber clientFD
    return ⟨g, s.sUniqueNumber + 1⟩
  | .deleteSession sessionID => do
    let (_, g) ← s.group.deleteSession sessionID
    return { s with group := g }
  | .receive slot bytes => do
    let session ← s.group.slot slot
    let b ← RecvRun.receive session.mRecvJob.mRecvBuffer bytes
    return s.setBuffer slot b
  | .onRecv slot readSize => do
    let session ← s.group.slot slot
    let usedSize ← session.mRecvJob.mRecvBuffer.getUsedSize
    if usedSize > 0 then
      let b ← RecvRun.consume session.mRecvJob.mRecvBuffer usedSize readSize
      return s.setBuffer slot b
    else none

/-- The machine of the histories of one group. -/
def machine : StepMachine ReuseRun ReuseCall := ⟨step⟩

/-- A group that has just been constructed. -/
def start (memory : ℕ → Session) (maxSessions : ℕ) (uniqueNumber : BitVec 64) : ReuseRun :=
  ⟨SessionGroup.construct memory maxSessions, uniqueNumber⟩

/-- The slot in which the next `AddSession` constructs its session. -/
def nextSlot (s : ReuseRun) : ℤ := s.group.allocSession.1

/-- What the memory of a slot holds is an empty buffer. -/
def HoldsEmptyBuffer (s : ReuseRun) (slot : ℤ) : Prop :=
  (s.buffer slot).mFront = (s.buffer slot).mRear ∧ 0 ≤ (s.buffer slot).mFront ∧
    (s.buffer slot).mFront < BUFFER_SIZE

instance (s : ReuseRun) (slot : ℤ) : Decidable (s.HoldsEmptyBuffer slot) :=
  inferInstanceAs (Decidable (_ ∧ _ ∧ _))

end ReuseRun

/-- The first block that `OnRecv` is given consists of what the session's own `recv` calls
have returned. -/
def RecvRun.FirstBlockOwn (b : RecvBuffer) : Prop :=
  ∀ as r block, (∀ readSize, .onRecv readSize ∉ as) →
    RecvRun.machine.exec (RecvRun.startWith b) as = some r →
      RecvRun.inputBlock r.job.mRecvBuffer = some block → block = r.received

/-- A session that starts clean: both offsets of its buffer are in range, nothing is in the
buffer, and the application sees first what comes from the socket of the session. -/
structure Session.StartsClean (s : Session) : Prop where
  valid : s.mRecvJob.mRecvBuffer.Valid
  empty : s.mRecvJob.mRecvBuffer.getUsedSize = some 0
  own : RecvRun.FirstBlockOwn s.mRecvJob.mRecvBuffer

/-! ## The first block -/

namespace RecvRun

open CircularBuffer

/-- As long as `OnRecv` is not called, nothing is consumed. -/
lemma stream_of_no_onRecv {r r' : RecvRun} {as : List RecvJob.Input} (hr : r.Stream)
    (hnone : r.consumed = []) (has : ∀ readSize, .onRecv readSize ∉ as)
    (h : machine.exec r as = some r') : r'.Stream ∧ r'.consumed = [] := by
  induction as generalizing r with
  | nil =>
    obtain rfl : r = r' := Option.some.inj h
    exact ⟨hr, hnone⟩
  | cons a as ih =>
    obtain ⟨r₁, hstep, hrest⟩ := StepMachine.exec_cons_eq_some.1 h
    have hin : r.OnRecvInRange a := by
      cases a with
      | onRecv readSize => exact absurd List.mem_cons_self (has readSize)
      | execute => trivial
      | socketFD valid => trivial
      | recv result => trivial
      | noData => trivial
      | epollCtl ok => trivial
      | disconnected => trivial
    refine ih (hr.step hin hstep) ?_ (fun x hx => has x (List.mem_cons_of_mem _ hx)) hrest
    rcases step_cases hstep with ⟨-, -, hconsumed, -⟩ | ⟨bytes, b, -, -, rfl⟩ |
      ⟨readSize, usedSize, block, b, rfl, -⟩
    · rw [hconsumed, hnone]
    · exact hnone
    · exact absurd List.mem_cons_self (has readSize)

lemma firstBlockOwn {b : RecvBuffer} (hb : b.Valid) (hempty : b.mFront = b.mRear) :
    FirstBlockOwn b := by
  intro as r block has hrun hblock
  obtain ⟨hr, hnone⟩ := stream_of_no_onRecv (stream_startWith hb hempty) rfl has hrun
  rw [inputBlock_eq hr.valid hr.front_le, hr.content_eq, hnone] at hblock
  exact (Option.some.inj hblock).symm

end RecvRun

namespace ReuseRun

open CircularBuffer

variable {s s' : ReuseRun}

/-- The constructors leave the buffer as the memory holds it. -/
lemma buffer_addSession {uniqueNumber : BitVec 64} {clientFD : SocketFD} {sessionID : SessionID}
    {g : SessionGroup}
    (h : s.group.addSession uniqueNumber clientFD = some (sessionID, g)) (slot : ℤ) :
    (g.mSessionVector slot.toNat).mRecvJob.mRecvBuffer = s.buffer slot := by
  obtain ⟨-, rfl⟩ := SessionGroup.addSession_eq_some h
  simp only [SessionGroup.stamp, SessionGroup.mSessionVector_allocSession,
    Function.update_apply, buffer]
  split
  · rename_i heq
    rw [heq]
    rfl
  · rfl

/-- The session that a call of `AddSession` constructs starts clean. -/
def AddsClean (s : ReuseRun) : ReuseCall → Prop
  | .addSession clientFD =>
    ∀ sessionID g, s.group.addSession s.sUniqueNumber clientFD = some (sessionID, g) →
      (g.mSessionVector s.nextSlot.toNat).StartsClean
  | _ => True

/-- A call of `AddSession` takes a slot whose memory holds an empty buffer. -/
def AddsToEmptyBuffer (s : ReuseRun) : ReuseCall → Prop
  | .addSession clientFD =>
    (s.group.addSession s.sUniqueNumber clientFD).isSome → s.HoldsEmptyBuffer s.nextSlot
  | _ => True

instance (s : ReuseRun) (a : ReuseCall) : Decidable (s.AddsToEmptyBuffer a) :=
  match a with
  | .addSession _ => inferInstanceAs (Decidable (_ → _))
  | .deleteSession _ | .receive _ _ | .onRecv _ _ => inferInstanceAs (Decidable True)

/-- A buffer without unread bytes whose offsets are in range. -/
lemma valid_and_used_eq_zero_iff {b : RecvBuffer} :
    (b.Valid ∧ b.getUsedSize = some 0) ↔ b.mFront = b.mRear ∧ 0 ≤ b.mFront ∧
      b.mFront < BUFFER_SIZE := by
  constructor
  · rintro ⟨hb, hused⟩
    rw [hb.getUsedSize, Option.some.injEq] at hused
    obtain ⟨h₁, h₂, h₃, h₄⟩ := hb
    have hzero : b.used = 0 := by omega
    unfold used at hzero
    split at hzero <;> omega
  · rintro ⟨heq, hnonneg, hlt⟩
    have hb : b.Valid := ⟨hnonneg, hlt, heq ▸ hnonneg, heq ▸ hlt⟩
    refine ⟨hb, ?_⟩
    rw [hb.getUsedSize]
    simp [used, heq]

lemma addsClean_iff (a : ReuseCall) : s.AddsClean a ↔ s.AddsToEmptyBuffer a := by
  cases a with
  | addSession clientFD =>
    simp only [AddsClean, AddsToEmptyBuffer, Option.isSome_iff_exists, Prod.exists,
      forall_exists_index]
    refine forall_congr' fun sessionID => forall_congr' fun g => forall_congr' fun hadd => ?_
    have hbuffer := buffer_addSession hadd s.nextSlot
    rw [HoldsEmptyBuffer, ← hbuffer]
    constructor
    · rintro ⟨hvalid, hempty, -⟩
      exact valid_and_used_eq_zero_iff.1 ⟨hvalid, hempty⟩
    · intro hslot
      obtain ⟨hvalid, hempty⟩ := valid_and_used_eq_zero_iff.2 hslot
      exact ⟨hvalid, hempty, RecvRun.firstBlockOwn hvalid hslot.1⟩
  | deleteSession sessionID => exact Iff.rfl
  | receive slot bytes => exact Iff.rfl
  | onRecv slot readSize => exact Iff.rfl

lemma along_addsClean_iff (s : ReuseRun) (as : List ReuseCall) :
    machine.Along AddsClean s as ↔ machine.Along AddsToEmptyBuffer s as :=
  StepMachine.along_congr (I := fun _ => True) (G := fun _ _ => True)
    (fun _ _ _ _ _ _ => trivial) (fun _ a _ _ => addsClean_iff a) trivial
    (StepMachine.along_of_forall (fun _ _ => trivial) _ _)

/-! ## The history of a slot -/

/-- How a call changes the number of bytes that the receive jobs in a slot have received and
the application has not consumed. -/
def countUnread (_ : ReuseRun) : ReuseCall → (ℤ → ℤ) → ℤ → ℤ
  | .receive slot bytes, unread => Function.update unread slot (unread slot + bytes.length)
  | .onRecv slot readSize, unread => Function.update unread slot (unread slot - readSize)
  | .addSession _, unread => unread
  | .deleteSession _, unread => unread

/-- The count that `OnRecv` returns is between 0 and the `inputSize` that it was given. -/
def OnRecvInRange (s : ReuseRun) : ReuseCall → Prop
  | .onRecv slot readSize =>
    0 ≤ readSize ∧ ∀ inputSize ∈ (s.buffer slot).getDirectReadSize, readSize ≤ inputSize
  | _ => True

/-- The buffer of each slot holds what has been received and not consumed there. -/
def CountInv (s : ReuseRun × (ℤ → ℤ)) : Prop :=
  ∀ slot, 0 ≤ slot → (s.1.buffer slot).Valid ∧ ((s.1.buffer slot).used : ℤ) = s.2 slot

/-- Where the buffer of one slot is replaced, the others stay. -/
lemma buffer_setBuffer {slot i : ℤ} (hslot : 0 ≤ slot) (hi : 0 ≤ i) (b : RecvBuffer) :
    (s.setBuffer slot b).buffer i = if i = slot then b else s.buffer i := by
  have hsame : i.toNat = slot.toNat ↔ i = slot := by omega
  simp only [buffer, setBuffer, Function.update_apply, hsame]
  split <;> rfl

/-- A step that replaces the buffer of one slot. -/
lemma CountInv.setBuffer {unread : ℤ → ℤ} (hs : CountInv (s, unread)) {slot : ℤ}
    (hslot : 0 ≤ slot) {b : RecvBuffer} (hb : b.Valid) {k : ℤ} (hk : (b.used : ℤ) = k) :
    CountInv (s.setBuffer slot b, Function.update unread slot k) := by
  intro i hi
  simp only [buffer_setBuffer hslot hi, Function.update_apply]
  split
  · exact ⟨hb, hk⟩
  · exact hs i hi

theorem CountInv.step {s s' : ReuseRun × (ℤ → ℤ)} (hs : CountInv s) {a : ReuseCall}
    (ha : s.1.OnRecvInRange a) (h : (machine.withHistory countUnread).step s a = some s') :
    CountInv s' := by
  obtain ⟨hstep, hcount⟩ := StepMachine.withHistory_step_eq_some.1 h
  obtain ⟨s, unread⟩ := s
  obtain ⟨s', unread'⟩ := s'
  simp only at hstep hcount ha
  subst hcount
  cases a with
  | addSession clientFD =>
    obtain ⟨⟨sessionID, g⟩, hadd, h⟩ := Option.bind_eq_some_iff.1 hstep
    obtain rfl := Option.some.inj h
    intro slot hslot
    have hbuffer : ReuseRun.buffer ⟨g, s.sUniqueNumber + 1⟩ slot = s.buffer slot :=
      buffer_addSession hadd slot
    simp only [hbuffer]
    exact hs slot hslot
  | deleteSession sessionID =>
    obtain ⟨⟨deleted, g⟩, hdelete, h⟩ := Option.bind_eq_some_iff.1 hstep
    obtain rfl := Option.some.inj h
    obtain ⟨session, -, hdelete⟩ := Option.bind_eq_some_iff.1 hdelete
    split at hdelete
    · obtain ⟨-, rfl⟩ := Prod.mk.inj (Option.some.inj hdelete)
      exact hs
    · obtain ⟨-, rfl⟩ := Prod.mk.inj (Option.some.inj hdelete)
      exact hs
  | receive slot bytes =>
    obtain ⟨session, hsession, h⟩ := Option.bind_eq_some_iff.1 hstep
    obtain ⟨hin, rfl⟩ := SessionGroup.of_slot_eq_some hsession
    obtain ⟨b, hb, h⟩ := Option.bind_eq_some_iff.1 h
    obtain rfl := Option.some.inj h
    obtain ⟨hvalid, hused⟩ := hs slot hin.1
    obtain ⟨hpos, hle, rfl⟩ := RecvRun.receive_eq_some hvalid hb
    have hroom := hvalid.used_add_directWrite_lt
    refine hs.setBuffer hin.1 (hvalid.store bytes) ?_
    rw [hvalid.used_store (by omega), Nat.cast_add]
    exact congrArg (· + (bytes.length : ℤ)) hused
  | onRecv slot readSize =>
    obtain ⟨session, hsession, h⟩ := Option.bind_eq_some_iff.1 hstep
    obtain ⟨hin, rfl⟩ := SessionGroup.of_slot_eq_some hsession
    obtain ⟨usedSize, husedSize, h⟩ := Option.bind_eq_some_iff.1 h
    obtain ⟨hpos, h⟩ := Option.ite_none_right_eq_some.1 h
    obtain ⟨b, hb, h⟩ := Option.bind_eq_some_iff.1 h
    obtain rfl := Option.some.inj h
    obtain ⟨hvalid, hused⟩ : (s.buffer slot).Valid ∧ ((s.buffer slot).used : ℤ) = unread slot :=
      hs slot hin.1
    obtain ⟨hnonneg, hread⟩ := ha
    have hle := hread _ hvalid.getDirectReadSize
    have hdirect := hvalid.directRead_le
    lift readSize to ℕ using hnonneg
    change (s.buffer slot).getUsedSize = some usedSize at husedSize
    change RecvRun.consume (s.buffer slot) usedSize readSize = some b at hb
    rw [hvalid.getUsedSize, Option.some.injEq] at husedSize
    subst husedSize
    have hn : readSize ≤ (s.buffer slot).used := by omega
    have hconsume := RecvRun.consume_eq hvalid (by omega) hn
    rw [hconsume, Option.some.injEq] at hb
    subst hb
    refine hs.setBuffer hin.1 ?_ ?_
    · split
      · exact valid_reset _
      · exact hvalid.advanceFront readSize
    · split
      · rename_i hall
        rw [used_reset]
        omega
      · rw [hvalid.used_advanceFront hn]
        omega

/-- A group whose slots hold empty buffers, and nothing unread. -/
lemma countInv_start {memory : ℕ → Session} {maxSessions : ℕ} {uniqueNumber : BitVec 64}
    (hvalid : ∀ i, (memory i).mRecvJob.mRecvBuffer.Valid)
    (hempty : ∀ i, (memory i).mRecvJob.mRecvBuffer.used = 0) :
    CountInv (start memory maxSessions uniqueNumber, fun _ => 0) := by
  intro slot _
  refine ⟨hvalid slot.toNat, ?_⟩
  have hused : ((start memory maxSessions uniqueNumber).buffer slot).used = 0 := hempty slot.toNat
  rw [hused]
  rfl

/-- **What a slot holds is what its sessions have left unread.** -/
theorem CountInv.holdsEmptyBuffer_iff {unread : ℤ → ℤ} (hs : CountInv (s, unread)) {slot : ℤ}
    (hslot : 0 ≤ slot) : s.HoldsEmptyBuffer slot ↔ unread slot = 0 := by
  obtain ⟨hvalid, hused⟩ : (s.buffer slot).Valid ∧ ((s.buffer slot).used : ℤ) = unread slot :=
    hs slot hslot
  rw [HoldsEmptyBuffer, ← valid_and_used_eq_zero_iff, and_iff_right hvalid, hvalid.getUsedSize,
    Option.some.injEq, ← hused]

end ReuseRun

/-- **When a new session starts clean.**  Whatever the memory of the slots holds at first and
whatever earlier sessions have received, a session that `AddSession` constructs has an empty
buffer, and sees first what comes from its own socket, exactly when the offsets that it finds
in the memory of its slot are equal and in range. -/
theorem addSession_startsClean_iff (memory : ℕ → Session) (maxSessions : ℕ)
    (uniqueNumber : BitVec 64) (as : List ReuseCall) :
    ReuseRun.machine.Along ReuseRun.AddsClean (ReuseRun.start memory maxSessions uniqueNumber) as ↔
      ReuseRun.machine.Along ReuseRun.AddsToEmptyBuffer
        (ReuseRun.start memory maxSessions uniqueNumber) as :=
  ReuseRun.along_addsClean_iff _ as

/-- In a table whose memory holds empty buffers at first, a slot holds an empty buffer exactly
when everything that its earlier sessions have received has been consumed. -/
theorem reuseRun_holdsEmptyBuffer_iff {memory : ℕ → Session}
    (hvalid : ∀ i, (memory i).mRecvJob.mRecvBuffer.Valid)
    (hempty : ∀ i, (memory i).mRecvJob.mRecvBuffer.used = 0) (maxSessions : ℕ)
    (uniqueNumber : BitVec 64) {as : List ReuseCall} {s : ReuseRun} {unread : ℤ → ℤ}
    (hrun : (ReuseRun.machine.withHistory ReuseRun.countUnread).exec
      (ReuseRun.start memory maxSessions uniqueNumber, fun _ => 0) as = some (s, unread))
    (hin : ReuseRun.machine.Along ReuseRun.OnRecvInRange
      (ReuseRun.start memory maxSessions uniqueNumber) as) {slot : ℤ} (hslot : 0 ≤ slot) :
    s.HoldsEmptyBuffer slot ↔ unread slot = 0 := by
  have hs : ReuseRun.CountInv (s, unread) := StepMachine.exec_invariant_along
    (fun _ _ _ hs ha h => hs.step ha h) (ReuseRun.countInv_start hvalid hempty)
    (StepMachine.along_withHistory.2 hin) hrun
  exact hs.holdsEmptyBuffer_iff hslot

/-- The session that reuses the slot of a session which was deleted with a byte unread has
this byte in its buffer. -/
theorem addSession_inherits_unread_byte :
    ¬ ReuseRun.machine.Along ReuseRun.AddsClean
      (ReuseRun.start (fun _ => Session.zeroMemory) 1 0)
      [.addSession 5, .receive 0 [65], .deleteSession 0, .addSession 6] := by
  rw [ReuseRun.along_addsClean_iff]
  decide +kernel

end CoreServer
