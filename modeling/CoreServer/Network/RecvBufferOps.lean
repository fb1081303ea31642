import CoreServer.Network.RecvBuffer
import CoreServer.Lib.StepMachine

/-!
# All the calls of a receive buffer

Runs of every method that moves an offset: besides `Write`, `Peek`, `Read` and `Reset`, the pair
`MoveReadOffset` and `MoveWriteOffset`, by which a caller reads and writes the cells itself.  Along
such a run the offsets stay in range, the sizes add up, and every call copies inside `mBuffer` and
to free cells only (`recvBuffer_accounted`).

The two ways to add bytes do not agree, however: `GetDirectWriteSize` never counts the cells in
front of `mFront`, so what `MoveWriteOffset` can add is what `Write` would accept only if there are
none, or if the content wraps (`recvBuffer_fillable_iff`).
-/

namespace CoreServer

open Circular CircularBuffer

/-- A call.  `moveWrite filled` is `MoveWriteOffset` of the number of the bytes `filled`, which the
caller has put at `GetRearBufferPtr()`; if it has put none there, they are what the cells hold. -/
inductive BufferOp (α : Type) where
  | write (input : List α)
  | peek (size : ℕ)
  | read (size : ℕ)
  | moveRead (moveSize : ℕ)
  | moveWrite (filled : List α)
  | reset
deriving DecidableEq, Repr

namespace CircularBuffer

variable {α : Type}

/-- One call. -/
def step (b : CircularBuffer α) : BufferOp α → Option (CircularBuffer α)
  | .write input => do
    let (_, b') ← b.write input input.length
    return b'
  | .peek size => do
    let _ ← b.peek size
    return b
  | .read size => do
    let (_, _, b') ← b.read size
    return b'
  | .moveRead moveSize => b.moveReadOffset moveSize
  | .moveWrite filled => do
    let mBuffer ← memcpyIn b.mBuffer b.mRear filled filled.length
    moveWriteOffset { b with mBuffer := mBuffer } filled.length
  | .reset => return b.reset

/-- The machine of the calls of one buffer. -/
def machine (α : Type) : StepMachine (CircularBuffer α) (BufferOp α) := ⟨step⟩

/-- What the callers keep to: `MoveReadOffset` of at most `GetUsedSize()`, and `MoveWriteOffset` of
at most `GetDirectWriteSize()`. -/
def Permitted (b : CircularBuffer α) : BufferOp α → Prop
  | .moveRead moveSize => ∃ usedSize ∈ b.getUsedSize, (moveSize : ℤ) ≤ usedSize
  | .moveWrite filled => ∃ size ∈ b.getDirectWriteSize, (filled.length : ℤ) ≤ size
  | _ => True

instance (b : CircularBuffer α) : ∀ op, Decidable (b.Permitted op)
  | .moveRead _ => inferInstanceAs (Decidable (∃ usedSize ∈ b.getUsedSize, _ ≤ _))
  | .moveWrite _ => inferInstanceAs (Decidable (∃ size ∈ b.getDirectWriteSize, _ ≤ _))
  | .write _ | .peek _ | .read _ | .reset => isTrue trivial

/-- The number of bytes that a call adds, by what it returns: `Write` all of its input or nothing,
`Read` takes out as many as it returns. -/
def added (b : CircularBuffer α) : BufferOp α → Option ℤ
  | .write input => do
    let (accepted, _) ← b.write input input.length
    return if accepted then input.length else 0
  | .peek _ => some 0
  | .read size => do
    let (readSize, _, _) ← b.read size
    return -readSize
  | .moveRead moveSize => some (-moveSize)
  | .moveWrite filled => some filled.length
  | .reset => do
    let usedSize ← b.getUsedSize
    return -usedSize

/-- The offsets and lengths of the `memcpy`s of `size` bytes from the offset `offset` on, if
`directSize` of them go there. -/
def copies (offset size directSize : ℤ) : List (ℤ × ℤ) :=
  if size ≤ directSize then [(offset, size)] else [(offset, directSize), (0, size - directSize)]

/-- The ranges of `mBuffer` that a call writes. -/
def writes (b : CircularBuffer α) : BufferOp α → Option (List (ℤ × ℤ))
  | .write input => do
    let remainSize ← b.getRemainSize
    if remainSize < input.length then return []
    let directWriteSize ← b.getDirectWriteSize
    return copies b.mRear input.length directWriteSize
  | .moveWrite filled => some [(b.mRear, filled.length)]
  | _ => some []

/-- The ranges of `mBuffer` that a call reads. -/
def reads (b : CircularBuffer α) : BufferOp α → Option (List (ℤ × ℤ))
  | .peek size | .read size => do
    let usedSize ← b.getUsedSize
    let directReadSize ← b.getDirectReadSize
    return copies b.mFront (if usedSize ≤ size then usedSize else size) directReadSize
  | _ => some []

/-- The range lies inside `mBuffer`, and its length is not negative. -/
def Inside (range : ℤ × ℤ) : Prop := 0 ≤ range.2 ∧ 0 ≤ range.1 ∧ range.1 + range.2 ≤ BUFFER_SIZE

/-- The cell `i` is in the range. -/
def InRange (range : ℤ × ℤ) (i : ℕ) : Prop := range.1 ≤ i ∧ (i : ℤ) < range.1 + range.2

/-- The cell `i` holds an unread byte: it is the `k`-th one from the front offset on. -/
def Unread (b : CircularBuffer α) (i : ℕ) : Prop :=
  ∃ usedSize ∈ b.getUsedSize, ∃ k : ℕ, (k : ℤ) < usedSize ∧
    i = (b.mFront.toNat + k) % BUFFER_SIZE

/-- The offsets are in range, and the sizes are not negative and add up to the capacity. -/
def Accounted (b : CircularBuffer α) : Prop :=
  (0 ≤ b.mFront ∧ b.mFront < BUFFER_SIZE) ∧ (0 ≤ b.mRear ∧ b.mRear < BUFFER_SIZE) ∧
    ∃ usedSize remainSize, b.getUsedSize = some usedSize ∧ b.getRemainSize = some remainSize ∧
      0 ≤ usedSize ∧ 0 ≤ remainSize ∧ usedSize + remainSize = BUFFER_SIZE - 1

/-- The call has a defined result, and changes the number of unread bytes by what it adds; the
ranges that it reads and writes lie inside `mBuffer`, those that it writes are free, and it leaves
the other cells as they are. -/
def Exact (b : CircularBuffer α) (op : BufferOp α) : Prop :=
  ∃ b' usedSize added reads writes, b.step op = some b' ∧
    b.getUsedSize = some usedSize ∧ b.added op = some added ∧
    b'.getUsedSize = some (usedSize + added) ∧
    b.reads op = some reads ∧ b.writes op = some writes ∧
    (∀ range ∈ reads ++ writes, Inside range) ∧
    (∀ range ∈ writes, ∀ i, InRange range i → ¬ b.Unread i) ∧
    ∀ i, (∀ range ∈ writes, ¬ InRange range i) → b'.mBuffer i = b.mBuffer i

/-! ## The calls in a buffer whose offsets are in range -/

variable {b b' : CircularBuffer α}

lemma Valid.step_write_of_lt (h : b.Valid) {input : List α}
    (hroom : b.used + input.length < BUFFER_SIZE) :
    b.step (.write input) = some (b.store input) := by
  rw [step, h.write, if_pos hroom]
  rfl

lemma Valid.step_write_of_ge (h : b.Valid) {input : List α}
    (hroom : BUFFER_SIZE ≤ b.used + input.length) : b.step (.write input) = some b := by
  rw [step, h.write, if_neg (Nat.not_lt.2 hroom)]
  rfl

lemma Valid.step_peek (h : b.Valid) (size : ℕ) : b.step (.peek size) = some b := by
  rw [step, h.peek]
  rfl

lemma Valid.step_read (h : b.Valid) (size : ℕ) :
    b.step (.read size) = some (b.advanceFront (min b.used size)) := by
  rw [step, h.read]
  rfl

lemma Valid.step_moveRead (h : b.Valid) {moveSize : ℕ} (hle : moveSize ≤ b.used) :
    b.step (.moveRead moveSize) = some (b.advanceFront moveSize) := h.moveReadOffset hle

/-- What the caller puts in the cells that it is offered is stored as by `Write`. -/
lemma Valid.step_moveWrite (h : b.Valid) {filled : List α} (hle : filled.length ≤ b.directWrite) :
    b.step (.moveWrite filled) = some (b.store filled) := by
  have hN := BUFFER_SIZE_eq
  have hroom := h.used_add_directWrite_lt
  have hmove := (h.withBuffer (b.copyIn filled)).moveWriteOffset (n := filled.length) (by omega)
  have hcells : b.writeCells filled filled.length b.directWrite = some (b.copyIn filled) :=
    h.writeCells (by omega)
  rw [CircularBuffer.writeCells, if_pos (by omega)] at hcells
  rw [step, hcells, Option.bind_eq_bind, Option.bind_some, hmove]
  rfl

lemma Valid.permitted_moveRead (h : b.Valid) {moveSize : ℕ} :
    b.Permitted (.moveRead moveSize) ↔ moveSize ≤ b.used := by
  simp [Permitted, h.getUsedSize]

lemma Valid.permitted_moveWrite (h : b.Valid) {filled : List α} :
    b.Permitted (.moveWrite filled) ↔ filled.length ≤ b.directWrite := by
  simp [Permitted, h.getDirectWriteSize]

lemma Valid.accounted (h : b.Valid) : b.Accounted := by
  have hlt := h.used_lt
  exact ⟨⟨h.front_nonneg, h.front_lt⟩, ⟨h.rear_nonneg, h.rear_lt⟩, _, _, h.getUsedSize,
    h.getRemainSize, by omega, by omega, by omega⟩

/-! ### The cells that are read and written -/

/-- The unread cells are those from the front offset up to the rear offset, or up to the end of the
array and from its beginning up to the rear offset. -/
lemma Valid.unread_cases (h : b.Valid) {i : ℕ} (hi : b.Unread i) :
    (b.mFront.toNat ≤ b.mRear.toNat ∧ b.mFront.toNat ≤ i ∧ i < b.mRear.toNat) ∨
      (b.mRear.toNat < b.mFront.toNat ∧ (b.mFront.toNat ≤ i ∨ i < b.mRear.toNat)) := by
  obtain ⟨usedSize, hused, k, hk, rfl⟩ := hi
  obtain rfl := Option.some.inj (h.getUsedSize.symm.trans hused)
  have hlt := h.used_lt
  have hrear := h.front_add_used
  have hk' : k < b.used := by exact_mod_cast hk
  have hfront : b.mFront.toNat < BUFFER_SIZE := by
    have := h.front_lt
    omega
  rcases Nat.lt_or_ge (b.mFront.toNat + b.used) BUFFER_SIZE with hflat | hwrap
  · rw [Nat.mod_eq_of_lt hflat] at hrear
    rw [Nat.mod_eq_of_lt (by omega)]
    omega
  · rw [mod_of_wrapped hwrap (by omega)] at hrear
    rcases Nat.lt_or_ge (b.mFront.toNat + k) BUFFER_SIZE with hflat' | hwrap'
    · rw [Nat.mod_eq_of_lt hflat']
      omega
    · rw [mod_of_wrapped hwrap' (by omega)]
      omega

/-- Both copies are inside if the first one ends before the array does. -/
lemma copies_inside {offset size directSize : ℤ} (hoffset : 0 ≤ offset) (hsize : 0 ≤ size)
    (hdirect : 0 ≤ directSize) (hend : offset + min size directSize ≤ BUFFER_SIZE)
    (hrest : size - directSize ≤ BUFFER_SIZE) : ∀ range ∈ copies offset size directSize,
      Inside range := by
  unfold copies
  split
  · rintro range hrange
    obtain rfl := List.mem_singleton.1 hrange
    exact ⟨hsize, hoffset, by dsimp only; omega⟩
  · rintro range hrange
    rcases List.mem_cons.1 hrange with rfl | hrange
    · exact ⟨hdirect, hoffset, by dsimp only; omega⟩
    · obtain rfl := List.mem_singleton.1 hrange
      exact ⟨by dsimp only; omega, le_rfl, by dsimp only; omega⟩

/-- `Peek` copies from inside `mBuffer`. -/
lemma Valid.reads_inside (h : b.Valid) (size : ℕ) :
    ∀ range ∈ copies b.mFront (if (b.used : ℤ) ≤ size then (b.used : ℤ) else size) b.directRead,
      Inside range := by
  have hlt := h.used_lt
  have hfront : b.mFront + b.directRead ≤ BUFFER_SIZE := by
    obtain ⟨h₁, h₂, h₃, h₄⟩ := h
    unfold directRead
    split <;> omega
  refine copies_inside h.front_nonneg ?_ (Int.natCast_nonneg _) ?_ ?_ <;> split <;> omega

section Writes

variable {input : List α}

/-- `Write` copies to inside `mBuffer`. -/
lemma Valid.writes_inside (h : b.Valid) (hroom : b.used + input.length < BUFFER_SIZE) :
    ∀ range ∈ copies b.mRear input.length b.directWrite, Inside range := by
  have hrear := h.rear_nonneg
  have hrear' := h.rear_lt
  have hfront' := h.front_lt
  refine copies_inside hrear (Int.natCast_nonneg _) (Int.natCast_nonneg _) ?_ ?_
  · rcases h.directWrite_eq with ⟨-, hdw, -⟩ | ⟨-, hdw, -⟩ <;> omega
  · omega

/-- `Write` copies to cells that hold no unread byte. -/
lemma Valid.writes_free (h : b.Valid) (hroom : b.used + input.length < BUFFER_SIZE) :
    ∀ range ∈ copies b.mRear input.length b.directWrite, ∀ i, InRange range i → ¬ b.Unread i := by
  intro range hrange i hi hunread
  have hrear := h.rear_nonneg
  have hcases := h.unread_cases hunread
  obtain ⟨hlo, hhi⟩ := hi
  unfold copies at hrange
  split at hrange
  · obtain rfl := List.mem_singleton.1 hrange
    dsimp only at hlo hhi
    rcases h.directWrite_eq with ⟨hwrap, hdw, -⟩ | ⟨hflat, hdw, -⟩ <;> omega
  · rcases List.mem_cons.1 hrange with rfl | hrange
    · dsimp only at hlo hhi
      rcases h.directWrite_eq with ⟨hwrap, hdw, -⟩ | ⟨hflat, hdw, -⟩ <;> omega
    · -- the second copy ends before the front offset
      obtain rfl := List.mem_singleton.1 hrange
      dsimp only at hlo hhi
      rcases h.directWrite_eq with ⟨hwrap, hdw, hfull⟩ | ⟨hflat, hdw, hused⟩ <;> omega

/-- `Write` leaves the other cells as they are. -/
lemma Valid.writes_frame (h : b.Valid) {i : ℕ}
    (hi : ∀ range ∈ copies b.mRear input.length b.directWrite, ¬ InRange range i) :
    (b.store input).mBuffer i = b.mBuffer i := by
  have hrear := h.rear_nonneg
  change b.copyIn input i = b.mBuffer i
  unfold copies at hi
  unfold copyIn
  by_cases hle : input.length ≤ b.directWrite
  · have hout := hi _ (by rw [if_pos (by omega)]; exact List.mem_singleton_self _)
    rw [InRange] at hout
    dsimp only at hout
    rw [if_pos hle]
    rcases Nat.lt_or_ge i b.mRear.toNat with hlt | hge
    · exact blit_of_lt hlt
    · exact blit_of_ge (by omega)
  · rw [if_neg (by omega)] at hi
    have hfirst := hi _ List.mem_cons_self
    have hsecond := hi _ (List.mem_cons_of_mem _ (List.mem_singleton_self _))
    rw [InRange] at hfirst hsecond
    dsimp only at hfirst hsecond
    rw [if_neg hle, blit_of_ge (by simp; omega)]
    rcases Nat.lt_or_ge i b.mRear.toNat with hlt | hge
    · exact blit_of_lt hlt
    · exact blit_of_ge (by simp; omega)

end Writes

/-! ### One call -/

/-- A call that writes no cell of `mBuffer`. -/
lemma Valid.exact_of_no_write (h : b.Valid) {op : BufferOp α} (added : ℤ) {reads : List (ℤ × ℤ)}
    (hstep : b.step op = some b') (h' : b'.Valid) (hadded : b.added op = some added)
    (hused : (b'.used : ℤ) = b.used + added) (hreads : b.reads op = some reads)
    (hwrites : b.writes op = some []) (hinside : ∀ range ∈ reads, Inside range)
    (hbuffer : b'.mBuffer = b.mBuffer) : b.Exact op := by
  refine ⟨b', _, added, reads, [], hstep, h.getUsedSize, hadded, ?_, hreads, hwrites, ?_, nofun, ?_⟩
  · rw [h'.getUsedSize, hused]
  · rw [List.append_nil]
    exact hinside
  · exact fun i _ => congrFun hbuffer i

/-- A call that stores bytes for which there is room. -/
lemma Valid.exact_of_store (h : b.Valid) {op : BufferOp α} {input : List α}
    (hroom : b.used + input.length < BUFFER_SIZE) (hstep : b.step op = some (b.store input))
    (hadded : b.added op = some (input.length : ℤ)) (hreads : b.reads op = some [])
    (hwrites : b.writes op = some (copies b.mRear input.length b.directWrite)) : b.Exact op := by
  refine ⟨_, _, _, [], _, hstep, h.getUsedSize, hadded, ?_, hreads, hwrites, ?_, ?_, ?_⟩
  · rw [(h.store input).getUsedSize, h.used_store hroom]
    push_cast
    rfl
  · rw [List.nil_append]
    exact h.writes_inside hroom
  · exact h.writes_free hroom
  · exact fun i hi => h.writes_frame hi

/-- **One call that is permitted.** -/
theorem Valid.exact (h : b.Valid) {op : BufferOp α} (hop : b.Permitted op) : b.Exact op := by
  have hlt := h.used_lt
  cases op with
  | write input =>
    have hwrite := h.write input
    rcases Nat.lt_or_ge (b.used + input.length) BUFFER_SIZE with hroom | hroom
    · refine h.exact_of_store hroom (h.step_write_of_lt hroom) ?_ rfl ?_
      · rw [added, hwrite, if_pos hroom]
        rfl
      · rw [writes, h.getRemainSize, Option.bind_eq_bind, Option.bind_some, if_neg (by omega),
          h.getDirectWriteSize]
        rfl
    · refine h.exact_of_no_write 0 (h.step_write_of_ge hroom) h ?_ (by simp) rfl ?_ nofun rfl
      · rw [added, hwrite, if_neg (Nat.not_lt.2 hroom)]
        rfl
      · rw [writes, h.getRemainSize, Option.bind_eq_bind, Option.bind_some, if_pos (by omega)]
        rfl
  | peek size =>
    refine h.exact_of_no_write 0 (h.step_peek size) h rfl (by simp) ?_ rfl (h.reads_inside size) rfl
    rw [reads, h.getUsedSize, h.getDirectReadSize]
    rfl
  | read size =>
    refine h.exact_of_no_write (-(min b.used size : ℕ)) (h.step_read size) (h.advanceFront _) ?_ ?_
      ?_ rfl (h.reads_inside size) rfl
    · rw [added, h.read]
      rfl
    · rw [h.used_advanceFront (Nat.min_le_left _ _)]
      omega
    · rw [reads, h.getUsedSize, h.getDirectReadSize]
      rfl
  | moveRead moveSize =>
    have hle := h.permitted_moveRead.1 hop
    refine h.exact_of_no_write (-(moveSize : ℤ)) (h.step_moveRead hle) (h.advanceFront _) rfl ?_
      rfl rfl nofun rfl
    rw [h.used_advanceFront hle]
    omega
  | moveWrite filled =>
    have hle := h.permitted_moveWrite.1 hop
    have hfree := h.used_add_directWrite_lt
    refine h.exact_of_store (by omega) (h.step_moveWrite hle) rfl rfl ?_
    rw [writes, copies, if_pos (by omega)]
  | reset =>
    refine h.exact_of_no_write (-(b.used : ℤ)) rfl (valid_reset b) ?_ ?_ rfl rfl nofun rfl
    · rw [added, h.getUsedSize]
      rfl
    · rw [used_reset]
      omega

/-- **One step keeps the invariant.** -/
theorem Valid.step (h : b.Valid) {op : BufferOp α} (hop : b.Permitted op)
    (hstep : b.step op = some b') : b'.Valid := by
  have hdone : ∀ {b₁ : CircularBuffer α}, b.step op = some b₁ → b₁.Valid → b'.Valid :=
    fun h₁ hvalid => Option.some.inj (h₁.symm.trans hstep) ▸ hvalid
  cases op with
  | write input =>
    rcases Nat.lt_or_ge (b.used + input.length) BUFFER_SIZE with hroom | hroom
    · exact hdone (h.step_write_of_lt hroom) (h.store input)
    · exact hdone (h.step_write_of_ge hroom) h
  | peek size => exact hdone (h.step_peek size) h
  | read size => exact hdone (h.step_read size) (h.advanceFront _)
  | moveRead moveSize =>
    exact hdone (h.step_moveRead (h.permitted_moveRead.1 hop)) (h.advanceFront _)
  | moveWrite filled =>
    exact hdone (h.step_moveWrite (h.permitted_moveWrite.1 hop)) (h.store filled)
  | reset => exact hdone rfl (valid_reset b)

/-- Every run of permitted calls from a `Reset` on. -/
theorem accounted_of_permitted {memory : CircularBuffer α} {ops : List (BufferOp α)}
    (hops : (machine α).Along Permitted memory.reset ops) :
    (machine α).Always Accounted memory.reset ops ∧ (machine α).Along Exact memory.reset ops :=
  ⟨StepMachine.always_of_along (I := Valid) (fun _ _ _ h hop hstep => h.step hop hstep)
      (fun _ h => h.accounted) (valid_reset memory) hops,
    StepMachine.along_of_along (I := Valid) (fun _ _ _ h hop hstep => h.step hop hstep)
      (fun _ _ h hop => h.exact hop) (valid_reset memory) hops⟩

end CircularBuffer

/-- **The receive buffer stays in bounds and keeps count.**  In every run of calls of
`core::RecvBuffer`, and of `test::RingBuffer`, that starts with `Reset` and moves the offsets by no
more than the sizes allow, the offsets stay in range, the sizes are not negative and add up, and
each call has a defined result, changes the number of unread bytes by what it adds, and copies
inside `mBuffer` and to free cells only. -/
theorem recvBuffer_accounted {memory : RecvBuffer} {ops : List (BufferOp Byte)}
    (hops : (machine Byte).Along Permitted memory.reset ops)
    {ringMemory : Test.RingBuffer} {ringOps : List (BufferOp Int8)}
    (hringOps : (machine Int8).Along Permitted ringMemory.reset ringOps) :
    ((machine Byte).Always Accounted memory.reset ops ∧
        (machine Byte).Along Exact memory.reset ops) ∧
      (machine Int8).Always Accounted ringMemory.reset ringOps ∧
        (machine Int8).Along Exact ringMemory.reset ringOps :=
  ⟨accounted_of_permitted hops, accounted_of_permitted hringOps⟩

/-- A run with every call: two bytes are written, one is read, one is put at the rear offset, and
one is passed over. -/
def everyCall {α : Type} (x y z : α) : List (BufferOp α) :=
  [.write [x, y], .read 1, .moveWrite [z], .peek 2, .moveRead 1, .reset]

/-- The calls of `everyCall` are in bounds and counted, in both buffers. -/
theorem recvBuffer_accounted_everyCall :
    ((machine Byte).Always Accounted RecvBuffer.zeroMemory.reset (everyCall 1 2 3) ∧
        (machine Byte).Along Exact RecvBuffer.zeroMemory.reset (everyCall 1 2 3)) ∧
      (machine Int8).Always Accounted (reset ⟨0, 0, fun _ => 0⟩) (everyCall 1 2 3) ∧
        (machine Int8).Along Exact (reset ⟨0, 0, fun _ => 0⟩) (everyCall 1 2 3) :=
  recvBuffer_accounted (by decide +kernel) (by decide +kernel)

/-! ## Adding bytes without `Write` -/

namespace CircularBuffer

variable {α : Type} {b b' : CircularBuffer α}

/-- A caller can add `k` bytes by putting bytes at `GetRearBufferPtr()` and calling
`MoveWriteOffset`, any number of times. -/
def Fills (b : CircularBuffer α) (k : ℕ) : Prop :=
  ∃ rounds : List (List α), (machine α).Along Permitted b (rounds.map .moveWrite) ∧
    (∃ b', (machine α).exec b (rounds.map .moveWrite) = some b') ∧ rounds.flatten.length = k

/-- `Write` accepts `k` bytes. -/
def Accepts (b : CircularBuffer α) (k : ℕ) : Prop :=
  ∃ (input : List α) (b' : CircularBuffer α), input.length = k ∧ b.write input k = some (true, b')

/-- The direct size is zero only if the buffer is full, and the caller can add as many bytes by
itself as `Write` accepts. -/
def Fillable (b : CircularBuffer α) : Prop :=
  (b.getDirectWriteSize = some 0 → b.getRemainSize = some 0) ∧ ∀ k, b.Fills k ↔ b.Accepts k

/-- There is no cell in front of the front offset, or the content wraps. -/
def FreeInOneBlock (b : CircularBuffer α) : Prop := b.mFront = 0 ∨ b.mRear < b.mFront

/-- A round does not move the rear offset round the end of the array. -/
lemma Valid.mRear_store (h : b.Valid) {filled : List α} (hle : filled.length ≤ b.directWrite) :
    (b.store filled).mRear = b.mRear + filled.length := by
  have hrear := h.rear_nonneg
  have hfront := h.front_lt
  have hlt : b.mRear.toNat + filled.length < BUFFER_SIZE := by
    rcases h.directWrite_eq with ⟨-, hdw, -⟩ | ⟨-, hdw, -⟩ <;> omega
  change (((b.mRear.toNat + filled.length) % BUFFER_SIZE : ℕ) : ℤ) = _
  rw [Nat.mod_eq_of_lt hlt]
  omega

/-- A round takes its bytes from the direct size, and leaves the rest of it. -/
lemma Valid.directWrite_store (h : b.Valid) {filled : List α}
    (hle : filled.length ≤ b.directWrite) :
    (b.store filled).directWrite + filled.length = b.directWrite := by
  have hrear := h.mRear_store hle
  have hrear_nonneg := h.rear_nonneg
  have hdw' := (h.store filled).directWrite_eq
  have hfront : (b.store filled).mFront = b.mFront := rfl
  rw [hrear, hfront] at hdw'
  rcases h.directWrite_eq with ⟨hwrap, hdw, -⟩ | ⟨hflat, hdw, -⟩ <;> omega

/-- The caller can add what the direct size allows, and no more. -/
lemma Valid.fills_iff (h : b.Valid) {k : ℕ} : b.Fills k ↔ k ≤ b.directWrite := by
  constructor
  · rintro ⟨rounds, hpermitted, ⟨b', hexec⟩, rfl⟩
    induction rounds generalizing b with
    | nil => exact Nat.zero_le _
    | cons filled rounds ih =>
      have hle := h.permitted_moveWrite.1 hpermitted.1
      have hstep : (machine α).step b (.moveWrite filled) = some _ := h.step_moveWrite hle
      rw [List.map_cons, StepMachine.along_cons_of_step hstep] at hpermitted
      rw [List.map_cons, StepMachine.exec_cons_of_step hstep] at hexec
      have hrest := ih (h.store filled) hpermitted.2 hexec
      have hdw := h.directWrite_store hle
      rw [List.flatten_cons, List.length_append]
      omega
  · intro hle
    have hlen : (List.replicate k (b.mBuffer 0)).length = k := List.length_replicate
    refine ⟨[List.replicate k (b.mBuffer 0)], ?_, ?_, by simp⟩
    · exact ⟨h.permitted_moveWrite.2 (by rwa [hlen]), fun _ _ => trivial⟩
    · exact ⟨_, StepMachine.exec_cons_of_step (h.step_moveWrite (by rwa [hlen]))⟩

lemma Valid.accepts_iff (h : b.Valid) {k : ℕ} : b.Accepts k ↔ b.used + k < BUFFER_SIZE := by
  constructor
  · rintro ⟨input, b', rfl, hwrite⟩
    by_contra hroom
    rw [h.write, if_neg hroom] at hwrite
    cases hwrite
  · intro hroom
    have hlen : (List.replicate k (b.mBuffer 0)).length = k := List.length_replicate
    have hwrite := h.write (List.replicate k (b.mBuffer 0))
    rw [hlen, if_pos hroom] at hwrite
    exact ⟨_, _, hlen, hwrite⟩

/-- The direct size is the whole free space if the free cells are one block. -/
lemma Valid.freeInOneBlock_iff (h : b.Valid) :
    b.FreeInOneBlock ↔ b.used + b.directWrite + 1 = BUFFER_SIZE := by
  have hfront := h.front_nonneg
  have hrear := h.rear_nonneg
  unfold FreeInOneBlock
  rcases h.directWrite_eq with ⟨hwrap, hdw, hfull⟩ | ⟨hflat, hdw, hused⟩ <;> omega

theorem Valid.fillable_iff (h : b.Valid) : b.Fillable ↔ b.FreeInOneBlock := by
  have hlt := h.used_lt
  have hle := h.used_add_directWrite_lt
  rw [h.freeInOneBlock_iff]
  constructor
  · rintro ⟨-, hfills⟩
    have haccepts : b.Accepts (BUFFER_SIZE - 1 - b.used) := h.accepts_iff.2 (by omega)
    have hdw := h.fills_iff.1 ((hfills _).2 haccepts)
    omega
  · intro hfree
    refine ⟨fun hzero => ?_, fun k => ?_⟩
    · rw [h.getDirectWriteSize, Option.some.injEq] at hzero
      rw [h.getRemainSize, Option.some.injEq]
      omega
    · rw [h.fills_iff, h.accepts_iff]
      omega

/-- Every state that permitted calls reach from a `Reset`. -/
theorem fillable_iff_of_permitted {memory : CircularBuffer α} {ops : List (BufferOp α)}
    (hops : (machine α).Along Permitted memory.reset ops) :
    (machine α).Always (fun b => b.Fillable ↔ b.FreeInOneBlock) memory.reset ops :=
  StepMachine.always_of_along (I := Valid) (fun _ _ _ h hop hstep => h.step hop hstep)
    (fun _ h => h.fillable_iff) (valid_reset memory) hops

end CircularBuffer

/-- **When a caller can fill the buffer by itself.**  In every state that the calls of
`core::RecvBuffer`, or of `test::RingBuffer`, reach from a `Reset`, filling the cells at
`GetRearBufferPtr()` adds as many bytes as `Write` accepts, and there are none only if the buffer is
full, exactly if the front offset is zero or the content wraps. -/
theorem recvBuffer_fillable_iff {memory : RecvBuffer} {ops : List (BufferOp Byte)}
    (hops : (machine Byte).Along Permitted memory.reset ops)
    {ringMemory : Test.RingBuffer} {ringOps : List (BufferOp Int8)}
    (hringOps : (machine Int8).Along Permitted ringMemory.reset ringOps) :
    (machine Byte).Always (fun b => b.Fillable ↔ b.FreeInOneBlock) memory.reset ops ∧
      (machine Int8).Always (fun b => b.Fillable ↔ b.FreeInOneBlock) ringMemory.reset ringOps :=
  ⟨fillable_iff_of_permitted hops, fillable_iff_of_permitted hringOps⟩

/-- After every call of `everyCall` it is known whether the buffer can be filled. -/
theorem recvBuffer_fillable_iff_everyCall :
    (machine Byte).Always (fun b => b.Fillable ↔ b.FreeInOneBlock) RecvBuffer.zeroMemory.reset
        (everyCall 1 2 3) ∧
      (machine Int8).Always (fun b => b.Fillable ↔ b.FreeInOneBlock) (reset ⟨0, 0, fun _ => 0⟩)
        (everyCall 1 2 3) :=
  recvBuffer_fillable_iff (by decide +kernel) (by decide +kernel)

/-- The buffer is filled up to the last cell and drained: it is empty, and `GetDirectWriteSize()`
is zero. -/
theorem recvBuffer_empty_not_fillable :
    ¬ (machine Byte).Always Fillable RecvBuffer.zeroMemory.reset
      [.write (List.replicate (BUFFER_SIZE - 1) 0), .read (BUFFER_SIZE - 1)] := by
  have hN := BUFFER_SIZE_eq
  -- the run is not evaluated: the list of a million bytes gets a name
  obtain ⟨full, hfull⟩ : ∃ full : List Byte, full = List.replicate (BUFFER_SIZE - 1) 0 := ⟨_, rfl⟩
  have hlen : full.length = BUFFER_SIZE - 1 := by rw [hfull, List.length_replicate]
  rw [← hfull]
  have hv := valid_reset RecvBuffer.zeroMemory
  have hused := used_reset RecvBuffer.zeroMemory
  have hroom : RecvBuffer.zeroMemory.reset.used + full.length < BUFFER_SIZE := by omega
  obtain ⟨b₁, hb₁⟩ : ∃ b, b = RecvBuffer.zeroMemory.reset.store full := ⟨_, rfl⟩
  have hv₁ : b₁.Valid := hb₁ ▸ hv.store full
  have hused₁ : b₁.used = BUFFER_SIZE - 1 := by
    rw [hb₁, hv.used_store hroom, hused, hlen, zero_add]
  have hfront₁ : b₁.mFront = 0 := by rw [hb₁]; rfl
  have hstep₁ : (machine Byte).step RecvBuffer.zeroMemory.reset (.write full) = some b₁ :=
    hb₁ ▸ hv.step_write_of_lt hroom
  have hstep₂ : (machine Byte).step b₁ (.read (BUFFER_SIZE - 1)) =
      some (b₁.advanceFront (BUFFER_SIZE - 1)) := by
    have hread := hv₁.step_read (BUFFER_SIZE - 1)
    rwa [hused₁, Nat.min_self] at hread
  have hv₂ := hv₁.advanceFront (BUFFER_SIZE - 1)
  have hused₂ : (b₁.advanceFront (BUFFER_SIZE - 1)).used = 0 := by
    rw [hv₁.used_advanceFront hused₁.ge, hused₁, Nat.sub_self]
  have hfront₂ : (b₁.advanceFront (BUFFER_SIZE - 1)).mFront.toNat = BUFFER_SIZE - 1 := by
    simp only [advanceFront, hfront₁, Int.toNat_zero, zero_add, Int.toNat_natCast]
    exact Nat.mod_eq_of_lt (by omega)
  have hdw₂ : (b₁.advanceFront (BUFFER_SIZE - 1)).directWrite = 0 := by
    rcases hv₂.directWrite_eq with ⟨-, hdw, hfree⟩ | ⟨-, hdw, hrear⟩ <;> omega
  intro halways
  have hfillable := halways _ _ (List.prefix_refl _)
    ((StepMachine.exec_cons_of_step hstep₁).trans (StepMachine.exec_cons_of_step hstep₂))
  have hremain := hfillable.1 (by rw [hv₂.getDirectWriteSize, hdw₂]; rfl)
  rw [hv₂.getRemainSize, hused₂, Option.some.injEq] at hremain
  omega

end CoreServer
