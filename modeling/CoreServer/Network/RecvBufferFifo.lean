import CoreServer.Network.RecvBuffer
import CoreServer.Lib.BoundedQueue
import CoreServer.Lib.StepMachine

/-!
# Histories of a receive buffer

A history of `Write`, `Peek`, `Read` and `Reset` calls on a `CircularBuffer`, with the log
of what was accepted and handed out since the last `Reset`.  The buffer is meant to be a
first-in first-out queue of at most `BUFFER_SIZE - 1` bytes, and it refines one
(`BufferRun.refines_queue`) as long as no accepted `Write` is split at a direct size that
stops one cell short of the end of the array.  A `Write` that is split there breaks the
order for good (`BufferRun.Inv`), up to the next `Reset`.
-/

namespace CoreServer

open CircularBuffer

variable {α : Type}

/-- A buffer whose offsets are in range holds a queue of at most `BUFFER_SIZE - 1` bytes. -/
def CircularBuffer.Valid.toQueue {b : CircularBuffer α} (h : b.Valid) :
    BoundedQueue α (BUFFER_SIZE - 1) :=
  ⟨b.content, by
    have := h.used_lt
    rw [length_content]
    omega⟩

/-- A buffer, the log of its use since its last `Reset`, and whether every `Write` accepted
since then was harmless. -/
structure BufferRun (α : Type) where
  buffer : CircularBuffer α
  log : QueueLog α
  harmless : Bool

namespace BufferRun

/-- The start of a history: `Reset` on an object with any memory. -/
def start (memory : CircularBuffer α) : BufferRun α := ⟨memory.reset, ⟨[], []⟩, true⟩

section Machine

variable [DecidableEq α]

/-- One call.  The caller of `Write` passes its bytes with their number, and `Peek` leaves
the object as it is. -/
def step (s : BufferRun α) : QueueOp α → Option (BufferRun α)
  | .write input => do
    let (accepted, b) ← s.buffer.write input input.length
    if accepted then
      return ⟨b, { s.log with accepted := s.log.accepted ++ input },
        s.harmless && decide (s.buffer.WriteHarmless input)⟩
    else return { s with buffer := b }
  | .peek size => do
    let _ ← s.buffer.peek size
    return s
  | .read size => do
    let (_, bytes, b) ← s.buffer.read size
    return { s with buffer := b, log := { s.log with handedOut := s.log.handedOut ++ bytes } }
  | .reset => return ⟨s.buffer.reset, ⟨[], []⟩, true⟩

/-- The machine of the histories of one buffer. -/
def machine (α : Type) [DecidableEq α] : StepMachine (BufferRun α) (QueueOp α) := ⟨step⟩

end Machine

/-- What the `Read`s have handed out, followed by what a `Peek` of `GetUsedSize()` bytes
would return, is what the accepted `Write`s have put in. -/
def Fifo (s : BufferRun α) : Prop :=
  ∃ usedSize bytes, s.buffer.getUsedSize = some usedSize ∧
    s.buffer.peek usedSize = some (usedSize, bytes) ∧
    s.log.handedOut ++ bytes = s.log.accepted

/-- `Write` returns true exactly when the input fits in `GetRemainSize()`, and changes
nothing when it returns false. -/
def WriteExact (s : BufferRun α) : Prop :=
  ∀ input : List α, ∃ accepted b remainSize,
    s.buffer.write input input.length = some (accepted, b) ∧
    s.buffer.getRemainSize = some remainSize ∧
    (accepted = true ↔ (input.length : ℤ) ≤ remainSize) ∧
    (accepted = false → b = s.buffer)

/-- The state of a bounded first-in first-out queue. -/
def BoundedFifo (s : BufferRun α) : Prop := s.Fifo ∧ s.WriteExact

/-! ## One call -/

variable {s : BufferRun α}

lemma fifo_iff (h : s.buffer.Valid) :
    s.Fifo ↔ s.log.handedOut ++ s.buffer.content = s.log.accepted := by
  have hpeek : s.buffer.peek s.buffer.used = some ((s.buffer.used : ℤ), s.buffer.content) := by
    rw [h.peek, Nat.min_self, List.take_of_length_le (by simp)]
  constructor
  · rintro ⟨usedSize, bytes, hused, hbytes, hlog⟩
    rw [h.getUsedSize, Option.some.injEq] at hused
    subst hused
    rw [hpeek, Option.some.injEq, Prod.mk.injEq] at hbytes
    rw [hbytes.2, hlog]
  · exact fun hlog => ⟨_, _, h.getUsedSize, hpeek, hlog⟩

lemma writeExact (h : s.buffer.Valid) : s.WriteExact := by
  intro input
  have hwrite := h.write input
  by_cases hroom : s.buffer.used + input.length < BUFFER_SIZE
  · rw [if_pos hroom] at hwrite
    exact ⟨_, _, _, hwrite, h.getRemainSize, ⟨fun _ => by omega, fun _ => rfl⟩, by simp⟩
  · rw [if_neg hroom] at hwrite
    exact ⟨_, _, _, hwrite, h.getRemainSize, ⟨by simp, fun hle => by omega⟩, fun _ => rfl⟩

variable [DecidableEq α]

lemma step_write_of_lt (h : s.buffer.Valid) {input : List α}
    (hroom : s.buffer.used + input.length < BUFFER_SIZE) :
    s.step (.write input) = some ⟨s.buffer.store input,
      { s.log with accepted := s.log.accepted ++ input },
      s.harmless && decide (s.buffer.WriteHarmless input)⟩ := by
  rw [step, h.write, if_pos hroom]
  rfl

lemma step_write_of_ge (h : s.buffer.Valid) {input : List α}
    (hroom : BUFFER_SIZE ≤ s.buffer.used + input.length) : s.step (.write input) = some s := by
  rw [step, h.write, if_neg (Nat.not_lt.2 hroom)]
  rfl

lemma step_peek (h : s.buffer.Valid) (size : ℕ) : s.step (.peek size) = some s := by
  rw [step, h.peek]
  rfl

lemma step_read (h : s.buffer.Valid) (size : ℕ) :
    s.step (.read size) = some { s with
      buffer := s.buffer.advanceFront (min s.buffer.used size)
      log := { s.log with handedOut := s.log.handedOut ++ s.buffer.content.take size } } := by
  rw [step, h.read]
  rfl

/-- **A call refines the operation of the queue**, except for an accepted `Write` that is
not harmless. -/
theorem refines_queue (h : s.buffer.Valid) (op : QueueOp α)
    (hop : ∀ input, op = .write input → s.buffer.used + input.length < BUFFER_SIZE →
      s.buffer.WriteHarmless input) :
    ∃ (s' : BufferRun α) (h' : s'.buffer.Valid), s.step op = some s' ∧
      (h'.toQueue, s'.log) = BoundedQueue.apply op (h.toQueue, s.log) := by
  have hN := BUFFER_SIZE_eq
  have hlen : h.toQueue.items.length = s.buffer.used := length_content _
  cases op with
  | write input =>
    -- the queue is full exactly when one cell of the buffer is free
    rcases Nat.lt_or_ge (s.buffer.used + input.length) BUFFER_SIZE with hroom | hroom
    · have hle : h.toQueue.items.length + input.length ≤ BUFFER_SIZE - 1 := by omega
      have hq := BoundedQueue.write_of_le hle
      refine ⟨_, h.store input, step_write_of_lt h hroom, ?_⟩
      have hcontent : (h.store input).toQueue = (h.toQueue.write input).2 := by
        apply BoundedQueue.ext
        rw [hq.2]
        change (s.buffer.store input).content = s.buffer.content ++ input
        rw [h.content_store hroom, (h.stored_eq_iff hroom).2 (hop input rfl hroom)]
      rw [BoundedQueue.apply, hq.1, ← hcontent]
      rfl
    · have hlt : BUFFER_SIZE - 1 < h.toQueue.items.length + input.length := by omega
      have hq := BoundedQueue.write_of_lt hlt
      exact ⟨s, h, step_write_of_ge h hroom, by simp [BoundedQueue.apply, hq]⟩
  | peek size => exact ⟨s, h, step_peek h size, rfl⟩
  | read size =>
    refine ⟨_, h.advanceFront _, step_read h size, ?_⟩
    have hcontent : (h.advanceFront (min s.buffer.used size)).toQueue =
        (h.toQueue.read size).2 := by
      apply BoundedQueue.ext
      exact h.content_read size
    rw [BoundedQueue.apply, ← hcontent]
    rfl
  | reset =>
    refine ⟨⟨s.buffer.reset, ⟨[], []⟩, true⟩, valid_reset s.buffer, rfl, ?_⟩
    have hcontent : (valid_reset s.buffer).toQueue = BoundedQueue.empty := by
      apply BoundedQueue.ext
      exact content_reset s.buffer
    rw [BoundedQueue.apply, ← hcontent]

/-! ## Every history -/

/-- The offsets are in range, the number of bytes is right, and the bytes are the right
ones exactly when every `Write` accepted since the last `Reset` was harmless. -/
structure Inv (s : BufferRun α) : Prop where
  valid : s.buffer.Valid
  length_eq : (s.log.handedOut ++ s.buffer.content).length = s.log.accepted.length
  fifo : s.harmless = true → BoundedQueue.Conserved (valid.toQueue, s.log)
  broken : s.harmless = false → s.log.handedOut ++ s.buffer.content ≠ s.log.accepted

omit [DecidableEq α] in
lemma inv_start (memory : CircularBuffer α) : (start memory).Inv where
  valid := valid_reset memory
  length_eq := by simp [start]
  fifo := fun _ => by simp [start, BoundedQueue.Conserved, Valid.toQueue]
  broken := by simp [start]

/-- A call that refines the queue keeps the order. -/
lemma Inv.conserved_step (hs : s.Inv) (hharm : s.harmless = true) {op : QueueOp α}
    (hop : ∀ input, op = .write input → s.buffer.used + input.length < BUFFER_SIZE →
      s.buffer.WriteHarmless input)
    {s' : BufferRun α} (hstep : s.step op = some s') (h' : s'.buffer.Valid) :
    BoundedQueue.Conserved (h'.toQueue, s'.log) := by
  obtain ⟨t, ht, hstep', hq⟩ := refines_queue hs.valid op hop
  obtain rfl : t = s' := Option.some.inj (hstep'.symm.trans hstep)
  rw [hq]
  exact BoundedQueue.conserved_apply (hs.fifo hharm) op

/-- Every call has a defined result and keeps the invariant. -/
theorem Inv.step (hs : s.Inv) (op : QueueOp α) : ∃ s', s.step op = some s' ∧ s'.Inv := by
  cases op with
  | write input =>
    rcases Nat.lt_or_ge (s.buffer.used + input.length) BUFFER_SIZE with hroom | hroom
    · have hstep := step_write_of_lt hs.valid hroom
      have hlen := hs.length_eq
      have hcontent := hs.valid.content_store hroom
      refine ⟨_, hstep, hs.valid.store input, ?_, fun hharm => ?_, fun hharm => ?_⟩
      · simp only [hcontent, List.length_append, length_stored] at hlen ⊢
        omega
      · rw [Bool.and_eq_true, decide_eq_true_eq] at hharm
        refine hs.conserved_step hharm.1 (fun input' hop _ => ?_) hstep _
        obtain rfl : input = input' := QueueOp.write.inj hop
        exact hharm.2
      · -- the parts have equal lengths, so the whole is right only if both parts are
        rw [hcontent, ← List.append_assoc]
        intro heq
        obtain ⟨hold, hnew⟩ := List.append_inj heq hlen
        rw [hs.valid.stored_eq_iff hroom] at hnew
        rw [Bool.and_eq_false_iff, decide_eq_false_iff_not] at hharm
        exact hharm.elim (fun hbroken => hs.broken hbroken hold) fun h => h hnew
    · exact ⟨s, step_write_of_ge hs.valid hroom, hs⟩
  | peek size => exact ⟨s, step_peek hs.valid size, hs⟩
  | read size =>
    have hstep := step_read hs.valid size
    have hstream : (s.log.handedOut ++ s.buffer.content.take size) ++
        (s.buffer.advanceFront (min s.buffer.used size)).content =
          s.log.handedOut ++ s.buffer.content := by
      rw [hs.valid.content_read, List.append_assoc, List.take_append_drop]
    refine ⟨_, hstep, hs.valid.advanceFront _, ?_, fun hharm => ?_, fun hharm => ?_⟩
    · rw [hstream]
      exact hs.length_eq
    · exact hs.conserved_step hharm (by rintro _ ⟨⟩) hstep _
    · rw [hstream]
      exact hs.broken hharm
  | reset => exact ⟨_, rfl, inv_start s.buffer⟩

/-- Every history has a defined result, and ends in the state of a bounded first-in
first-out queue exactly when every `Write` accepted since the last `Reset` was harmless. -/
theorem exec_start (memory : CircularBuffer α) (ops : List (QueueOp α)) :
    ∃ s, (machine α).exec (start memory) ops = some s ∧
      (s.BoundedFifo ↔ s.harmless = true) := by
  obtain ⟨s, hexec, hs⟩ := StepMachine.exec_total (M := machine α) (I := Inv)
    (fun _ op hs => hs.step op) (inv_start memory) ops
  refine ⟨s, hexec, ?_⟩
  rw [BoundedFifo, and_iff_left (writeExact hs.valid), fifo_iff hs.valid]
  constructor
  · intro hfifo
    by_contra hharm
    exact hs.broken (Bool.eq_false_iff.2 hharm) hfifo
  · exact fun hharm => hs.fifo hharm

end BufferRun

/-- **When the receive buffer is a bounded queue.**  Every history of `core::RecvBuffer`,
and every history of `test::RingBuffer`, has a defined result, and ends in the state of a
bounded first-in first-out queue exactly when each `Write` accepted since the last `Reset`
fits in the direct size or repeats the byte of the last cell after the split. -/
theorem recvBuffer_boundedFifo_iff (memory : RecvBuffer) (ops : List (QueueOp Byte))
    (ringMemory : Test.RingBuffer) (ringOps : List (QueueOp Int8)) :
    (∃ s, (BufferRun.machine Byte).exec (BufferRun.start memory) ops = some s ∧
      (s.BoundedFifo ↔ s.harmless = true)) ∧
    ∃ s, (BufferRun.machine Int8).exec (BufferRun.start ringMemory) ringOps = some s ∧
      (s.BoundedFifo ↔ s.harmless = true) :=
  ⟨BufferRun.exec_start memory ops, BufferRun.exec_start ringMemory ringOps⟩

/-- In an empty buffer whose offsets stand at the last cell, a `Write` of one byte is split
before that byte. -/
lemma CircularBuffer.not_writeHarmless_at_end {b : CircularBuffer α} {x : α}
    (hf : b.mFront = BUFFER_SIZE - 1) (hr : b.mRear = BUFFER_SIZE - 1)
    (hx : x ≠ b.mBuffer (BUFFER_SIZE - 1)) : ¬ b.WriteHarmless [x] := by
  have hdw : b.directWrite = 0 := by
    rw [directWrite, if_pos (by omega)]
    omega
  rintro (hle | hall)
  · simp [hdw] at hle
  · exact hx (hall x (by simp [hdw]))

/-- Filling an empty buffer of offset zero up to the last cell leaves the rear offset there,
and the last cell as it was. -/
lemma CircularBuffer.store_full {b : CircularBuffer α} {full : List α}
    (hlen : full.length = BUFFER_SIZE - 1) :
    (b.reset.store full).Valid ∧ (b.reset.store full).used = BUFFER_SIZE - 1 ∧
      (b.reset.store full).mFront = 0 ∧ (b.reset.store full).mRear = BUFFER_SIZE - 1 ∧
      (b.reset.store full).mBuffer (BUFFER_SIZE - 1) = b.mBuffer (BUFFER_SIZE - 1) := by
  have hN := BUFFER_SIZE_eq
  have hv := valid_reset b
  have hdw := directWrite_reset b
  refine ⟨hv.store full, ?_, rfl, ?_, ?_⟩
  · rw [hv.used_store (by rw [used_reset]; omega), used_reset, hlen, zero_add]
  · simp only [store, advanceRear, reset, Int.toNat_zero, zero_add, hlen]
    rw [Nat.mod_eq_of_lt (by omega)]
    omega
  · simp only [store, mBuffer_advanceRear, copyIn, hdw, hlen, le_refl, if_true]
    rw [Circular.blit_of_ge (by simp [reset, hlen])]
    rfl

/-- The buffer is filled up to the last cell and drained; then a `Write` of one byte is
accepted, and what a `Peek` returns is the zero of the last cell. -/
theorem recvBuffer_wrapped_write_loses_byte :
    ∃ s, (BufferRun.machine Byte).exec (BufferRun.start RecvBuffer.zeroMemory)
      [.write (List.replicate (BUFFER_SIZE - 1) 0), .read (BUFFER_SIZE - 1), .write [1]] =
        some s ∧ ¬ s.BoundedFifo := by
  have hN := BUFFER_SIZE_eq
  -- the run is not evaluated: a list of a million bytes gets a name, and each step a lemma
  obtain ⟨full, hfull⟩ : ∃ full : List Byte, full = List.replicate (BUFFER_SIZE - 1) 0 := ⟨_, rfl⟩
  have hlen : full.length = BUFFER_SIZE - 1 := by rw [hfull, List.length_replicate]
  rw [← hfull]
  obtain ⟨s, hexec, hiff⟩ := BufferRun.exec_start RecvBuffer.zeroMemory
    [.write full, .read (BUFFER_SIZE - 1), .write [1]]
  refine ⟨s, hexec, ?_⟩
  obtain ⟨hv₁, hused₁, hfront₁, hrear₁, hlast₁⟩ := store_full (b := RecvBuffer.zeroMemory) hlen
  have hroom : (BufferRun.start RecvBuffer.zeroMemory).buffer.used + full.length < BUFFER_SIZE := by
    change RecvBuffer.zeroMemory.reset.used + full.length < BUFFER_SIZE
    rw [hlen, used_reset]
    omega
  obtain ⟨s₁, h₁, hb₁⟩ : ∃ s₁,
      (BufferRun.start RecvBuffer.zeroMemory).step (.write full) = some s₁ ∧
        s₁.buffer = RecvBuffer.zeroMemory.reset.store full :=
    ⟨_, BufferRun.step_write_of_lt (valid_reset RecvBuffer.zeroMemory) hroom, rfl⟩
  rw [← hb₁] at hv₁ hused₁ hfront₁ hrear₁ hlast₁
  obtain ⟨s₂, h₂, hb₂⟩ : ∃ s₂, s₁.step (.read (BUFFER_SIZE - 1)) = some s₂ ∧
      s₂.buffer = s₁.buffer.advanceFront (BUFFER_SIZE - 1) :=
    ⟨_, BufferRun.step_read hv₁ _, by rw [hused₁, Nat.min_self]⟩
  have hv₂ : s₂.buffer.Valid := by
    rw [hb₂]
    exact hv₁.advanceFront _
  have hused₂ : s₂.buffer.used = 0 := by
    rw [hb₂, hv₁.used_advanceFront (by omega), hused₁, Nat.sub_self]
  have hfront₂ : s₂.buffer.mFront = BUFFER_SIZE - 1 := by
    simp only [hb₂, advanceFront, hfront₁, Int.toNat_zero, zero_add]
    rw [Nat.mod_eq_of_lt (by omega)]
    omega
  have hbad : ¬ s₂.buffer.WriteHarmless [1] := by
    refine not_writeHarmless_at_end hfront₂ (by rw [hb₂, mRear_advanceFront, hrear₁]) ?_
    rw [hb₂, mBuffer_advanceFront, hlast₁]
    decide
  obtain ⟨s₃, h₃, hs₃⟩ : ∃ s₃, s₂.step (.write [1]) = some s₃ ∧
      s₃.harmless = (s₂.harmless && decide (s₂.buffer.WriteHarmless [1])) :=
    ⟨_, BufferRun.step_write_of_lt hv₂ (by rw [hused₂, List.length_singleton]; omega), rfl⟩
  have hrun : (BufferRun.machine Byte).exec (BufferRun.start RecvBuffer.zeroMemory)
      [.write full, .read (BUFFER_SIZE - 1), .write [1]] = some s₃ :=
    StepMachine.exec_cons_eq_some.2 ⟨s₁, h₁, StepMachine.exec_cons_eq_some.2
      ⟨s₂, h₂, StepMachine.exec_cons_eq_some.2 ⟨s₃, h₃, rfl⟩⟩⟩
  obtain rfl : s = s₃ := Option.some.inj (hexec.symm.trans hrun)
  rw [hiff, hs₃, decide_eq_false hbad, Bool.and_false]
  decide

end CoreServer
