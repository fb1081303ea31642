import CoreServer.Network.Session
import CoreServer.Lib.StepMachine

/-!
# The receive job of a session

`RecvJob::Execute` and `RecvJob::Complete` (`ServerJob.cpp`) as a machine: the program
counter stands between two actions that depend on something outside the job, and the label
of a step says what the outside has answered, so every interleaving with other threads is a
run.  The state carries the receive buffer and a record of what the socket has delivered
and what the application has consumed.
-/

namespace CoreServer

/-- An outcome of `recv`. -/
inductive RecvResult where
  | received (bytes : List Byte)
  | closed
  | failed (errno : Errno)
deriving DecidableEq, Repr

namespace RecvJob

/-- Where the code of a receive job stands. -/
inductive PC where
  /-- Not running: registered, fetched or queued. -/
  | idle
  /-- `Execute`, before `GetSocketFD() == sINVALID_SOCKET_FD`. -/
  | checkFD
  /-- `Execute`, before `recv`. -/
  | recv
  /-- `Complete`, before `OnRecv`. -/
  | deliver
  /-- `Complete`, before `epoll_ctl`. -/
  | rearm
  /-- `Complete`, after a failed `epoll_ctl`. -/
  | rearmFailed
  /-- Before `SetReceiveState(false)` and `Disconnect()`. -/
  | disconnect
  /-- Returned without being registered again. -/
  | finished
deriving DecidableEq, Repr

/-- What the outside answers: a worker takes the job, the descriptor of the session is
valid or not, `recv` has an outcome, `OnRecv` returns a count, `epoll_ctl` succeeds or not,
`Disconnect` returns. -/
inductive Input where
  | execute
  | socketFD (valid : Bool)
  | recv (result : RecvResult)
  | onRecv (readSize : ℤ)
  | noData
  | epollCtl (ok : Bool)
  | disconnected
deriving DecidableEq, Repr

end RecvJob

/-- A receive job, with the bytes that `recv` has returned so far, those that `OnRecv` has
consumed so far, and the number of bytes received at the last moment at which everything
received had been consumed. -/
structure RecvRun where
  pc : RecvJob.PC
  job : RecvJob
  received : List Byte
  consumed : List Byte
  drained : ℕ

namespace RecvRun

open CircularBuffer RecvJob

/-- `recv(fd, mRecvBuffer.GetRearBufferPtr(), mRecvBuffer.GetDirectWriteSize(), 0)`
returning `bytes`, followed by `MoveWriteOffset(result)`.  The kernel returns at least one
byte and at most as many as it was offered room for. -/
def receive (b : RecvBuffer) (bytes : List Byte) : Option RecvBuffer := do
  let size ← b.getDirectWriteSize
  if 1 ≤ bytes.length ∧ (bytes.length : ℤ) ≤ size then
    let mBuffer ← memcpyIn b.mBuffer b.mRear bytes bytes.length
    moveWriteOffset { b with mBuffer := mBuffer } bytes.length
  else none

/-- The block at `GetFrontBufferPtr()` of `GetDIrectReadSize()` bytes, which `OnRecv`
gets. -/
def inputBlock (b : RecvBuffer) : Option (List Byte) := do
  let inputSize ← b.getDirectReadSize
  memcpyOut b.mBuffer b.mFront inputSize

/-- What `Complete` does to the buffer when `OnRecv` has returned `readSize`. -/
def consume (b : RecvBuffer) (usedSize readSize : ℤ) : Option RecvBuffer :=
  if readSize > 0 then do
    let b ← b.moveReadOffset readSize
    if readSize = usedSize then return b.reset else return b
  else some b

/-- One step of `Execute` or `Complete`. -/
def step (r : RecvRun) : Input → Option RecvRun
  | .execute => if r.pc = .idle then some { r with pc := .checkFD } else none
  | .socketFD valid =>
    match r.pc with
    | .checkFD => some { r with pc := if valid then .recv else .disconnect }
    | .rearmFailed => some { r with pc := if valid then .finished else .disconnect }
    | _ => none
  | .recv result =>
    if r.pc = .recv then
      match result with
      | .received bytes => do
        let b ← receive r.job.mRecvBuffer bytes
        return { r with pc := .checkFD, job := ⟨b⟩, received := r.received ++ bytes }
      | .closed => some { r with pc := .disconnect }
      | .failed .EAGAIN => some { r with pc := .deliver }
      | .failed .EINTR => some { r with pc := .checkFD }
      | .failed .EPIPE => some { r with pc := .disconnect }
      | .failed .ECONNRESET => some { r with pc := .disconnect }
      -- an error that is only printed ends the loop, too
      | .failed (.other _) => some { r with pc := .deliver }
    else none
  | .onRecv readSize =>
    if r.pc = .deliver then do
      let usedSize ← r.job.mRecvBuffer.getUsedSize
      if usedSize > 0 then
        let block ← inputBlock r.job.mRecvBuffer
        let b ← consume r.job.mRecvBuffer usedSize readSize
        let consumed := r.consumed ++ block.take readSize.toNat
        return { r with
          pc := .rearm
          job := ⟨b⟩
          consumed := consumed
          drained := if consumed.length = r.received.length then consumed.length else r.drained }
      else none
    else none
  | .noData =>
    if r.pc = .deliver then do
      let usedSize ← r.job.mRecvBuffer.getUsedSize
      if usedSize > 0 then none else return { r with pc := .rearm }
    else none
  | .epollCtl ok =>
    if r.pc = .rearm then some { r with pc := if ok then .idle else .rearmFailed } else none
  | .disconnected => if r.pc = .disconnect then some { r with pc := .finished } else none

/-- The machine of one receive job. -/
def machine : StepMachine RecvRun Input := ⟨step⟩

/-- A registered receive job whose buffer is empty, with any bytes in its memory. -/
def start (mBuffer : ℕ → Byte) : RecvRun := ⟨.idle, ⟨⟨0, 0, mBuffer⟩⟩, [], [], 0⟩

/-- The application's side of `OnRecv`: the count it returns is between 0 and the
`inputSize` that it was given. -/
def OnRecvInRange (r : RecvRun) : Input → Prop
  | .onRecv readSize =>
    0 ≤ readSize ∧ ∀ inputSize ∈ r.job.mRecvBuffer.getDirectReadSize, readSize ≤ inputSize
  | _ => True

instance (r : RecvRun) (a : Input) : Decidable (r.OnRecvInRange a) :=
  match a with
  | .onRecv _ => inferInstanceAs (Decidable (_ ∧ _))
  | .execute | .socketFD _ | .recv _ | .noData | .epollCtl _ | .disconnected =>
    inferInstanceAs (Decidable True)

/-- A peer that neither closes nor resets the connection: `recv` returns 0 only where it is
offered no room, and there it does. -/
def LivePeer (r : RecvRun) : Input → Prop
  | .recv result =>
    (result = .closed ↔ r.job.mRecvBuffer.getDirectWriteSize = some 0) ∧
      result ≠ .failed .EPIPE ∧ result ≠ .failed .ECONNRESET
  | _ => True

instance (r : RecvRun) (a : Input) : Decidable (r.LivePeer a) :=
  match a with
  | .recv _ => inferInstanceAs (Decidable (_ ∧ _ ∧ _))
  | .onRecv _ | .execute | .socketFD _ | .noData | .epollCtl _ | .disconnected =>
    inferInstanceAs (Decidable True)

/-- `Execute` does not call `recv` with length 0 and does not take the branch for a result
of 0. -/
def NeverOffersZero (r : RecvRun) : Input → Prop
  | .recv result =>
    r.pc = .recv → r.job.mRecvBuffer.getDirectWriteSize ≠ some 0 ∧ result ≠ .closed
  | _ => True

/-- Before each `recv`, fewer than `BUFFER_SIZE - 1` bytes have been received since the last
moment at which everything received had been consumed. -/
def RoomLeft (r : RecvRun) : Input → Prop
  | .recv _ => r.pc = .recv → r.received.length < r.drained + (BUFFER_SIZE - 1)
  | _ => True

instance (r : RecvRun) (a : Input) : Decidable (r.RoomLeft a) :=
  match a with
  | .recv _ => inferInstanceAs (Decidable (_ → _))
  | .onRecv _ | .execute | .socketFD _ | .noData | .epollCtl _ | .disconnected =>
    inferInstanceAs (Decidable True)

/-- The stream as the application sees it: what it has consumed is a prefix of what has been
received, and the block that `OnRecv` would get now is all the rest.  `GetUsedSize` and
`GetDIrectReadSize` are both its size. -/
def StreamIntact (r : RecvRun) : Prop :=
  r.consumed <+: r.received ∧
    r.job.mRecvBuffer.mFront ≤ r.job.mRecvBuffer.mRear ∧
    inputBlock r.job.mRecvBuffer = some (r.received.drop r.consumed.length) ∧
    ∃ size, r.job.mRecvBuffer.getUsedSize = some size ∧
      r.job.mRecvBuffer.getDirectReadSize = some size

/-- What the next `recv` delivers into the room it is offered is put in the buffer, and
what the next `OnRecv` takes of its input is taken out, without leaving the buffer. -/
def Defined (r : RecvRun) : Prop :=
  (∃ size, r.job.mRecvBuffer.getDirectWriteSize = some size ∧
    ∀ bytes : List Byte, 1 ≤ bytes.length → (bytes.length : ℤ) ≤ size →
      ∃ b, receive r.job.mRecvBuffer bytes = some b) ∧
  ∃ usedSize, r.job.mRecvBuffer.getUsedSize = some usedSize ∧
    ∀ readSize, 0 < usedSize → r.OnRecvInRange (.onRecv readSize) →
      ∃ b, consume r.job.mRecvBuffer usedSize readSize = some b

/-! ## The steps that touch the buffer -/

variable {b : RecvBuffer}

/-- What `recv` puts in the buffer is stored as `Write` stores what fits in the direct
size. -/
lemma receive_eq (h : b.Valid) {bytes : List Byte} (hpos : 1 ≤ bytes.length)
    (hle : bytes.length ≤ b.directWrite) : receive b bytes = some (b.store bytes) := by
  have hdw := h.directWrite_eq
  have hcopy : b.writeCells bytes bytes.length b.directWrite = some (b.copyIn bytes) :=
    h.writeCells (by omega)
  rw [CircularBuffer.writeCells, if_pos (by omega)] at hcopy
  rw [receive, h.getDirectWriteSize]
  simp only [Option.bind_eq_bind, Option.bind_some]
  rw [if_pos ⟨hpos, by omega⟩, hcopy, Option.bind_some, (h.withBuffer _).moveWriteOffset (by omega)]
  rfl

lemma receive_eq_some (h : b.Valid) {bytes : List Byte} {b' : RecvBuffer}
    (hb' : receive b bytes = some b') :
    1 ≤ bytes.length ∧ bytes.length ≤ b.directWrite ∧ b' = b.store bytes := by
  have hlen : 1 ≤ bytes.length ∧ bytes.length ≤ b.directWrite := by
    by_contra hno
    rw [receive, h.getDirectWriteSize] at hb'
    simp only [Option.bind_eq_bind, Option.bind_some] at hb'
    rw [if_neg (by omega)] at hb'
    cases hb'
  exact ⟨hlen.1, hlen.2, Option.some.inj (hb'.symm.trans (receive_eq h hlen.1 hlen.2))⟩

/-- As long as the content does not wrap, the block that `OnRecv` gets is all of it. -/
lemma inputBlock_eq (h : b.Valid) (hle : b.mFront ≤ b.mRear) :
    inputBlock b = some b.content := by
  obtain ⟨h₁, h₂, h₃, h₄⟩ := h
  have hdr : b.directRead = b.used := by simp [directRead, used, hle]
  have hused : b.used = (b.mRear - b.mFront).toNat := by simp [used, hle]
  rw [inputBlock, Valid.getDirectReadSize ⟨h₁, h₂, h₃, h₄⟩, hdr, Option.bind_eq_bind,
    Option.bind_some, memcpyOut, if_pos (by omega), Int.toNat_natCast, content,
    Circular.ring_eq_slice (by omega)]

/-- `Complete` moves the front offset over what `OnRecv` took, and resets the offsets when
that was everything. -/
lemma consume_eq (h : b.Valid) (hpos : 0 < b.used) {n : ℕ} (hn : n ≤ b.used) :
    consume b b.used n =
      some (if n = b.used then (b.advanceFront n).reset else b.advanceFront n) := by
  rw [consume]
  rcases Nat.eq_zero_or_pos n with rfl | hn0
  · have hfront : b.advanceFront 0 = b := h.advanceFront_zero
    rw [if_neg (by omega), if_neg (by omega), hfront]
  · rw [if_pos (by omega), h.moveReadOffset hn]
    simp only [Option.bind_eq_bind, Option.bind_some, Nat.cast_inj]
    split <;> rfl

/-! ## Whole runs -/

/-- The offsets count the bytes received and consumed since the buffer was last drained,
and the buffer holds what has been received and not consumed. -/
structure Inv (r : RecvRun) : Prop where
  valid : r.job.mRecvBuffer.Valid
  front_eq : r.job.mRecvBuffer.mFront + r.drained = r.consumed.length
  rear_eq : r.job.mRecvBuffer.mRear + r.drained = r.received.length
  isPrefix : r.consumed <+: r.received
  content_eq : r.job.mRecvBuffer.content = r.received.drop r.consumed.length

/-- The content of the buffer does not wrap, and is what has been received and not
consumed. -/
structure Stream (r : RecvRun) : Prop where
  valid : r.job.mRecvBuffer.Valid
  front_le : r.job.mRecvBuffer.mFront ≤ r.job.mRecvBuffer.mRear
  isPrefix : r.consumed <+: r.received
  content_eq : r.job.mRecvBuffer.content = r.received.drop r.consumed.length

lemma Inv.front_le {r : RecvRun} (hr : r.Inv) :
    r.job.mRecvBuffer.mFront ≤ r.job.mRecvBuffer.mRear := by
  have hlen := hr.isPrefix.length_le
  have hf := hr.front_eq
  have hrear := hr.rear_eq
  omega

lemma Inv.stream {r : RecvRun} (hr : r.Inv) : r.Stream :=
  ⟨hr.valid, hr.front_le, hr.isPrefix, hr.content_eq⟩

lemma inv_start (mBuffer : ℕ → Byte) : (start mBuffer).Inv where
  valid := valid_reset ⟨0, 0, mBuffer⟩
  front_eq := rfl
  rear_eq := rfl
  isPrefix := List.prefix_refl _
  content_eq := content_reset ⟨0, 0, mBuffer⟩

variable {r r' : RecvRun}

namespace Stream

lemma used_eq (hr : r.Stream) :
    r.job.mRecvBuffer.used = r.received.length - r.consumed.length := by
  rw [← length_content, hr.content_eq, List.length_drop]

lemma directRead_eq (hr : r.Stream) :
    r.job.mRecvBuffer.directRead = r.job.mRecvBuffer.used := by
  simp [directRead, used, hr.front_le]

/-- `recv` is offered the room behind the rear offset. -/
lemma directWrite_eq (hr : r.Stream) :
    r.job.mRecvBuffer.mRear + r.job.mRecvBuffer.directWrite + 1 = BUFFER_SIZE ∧
      r.job.mRecvBuffer.used + r.job.mRecvBuffer.directWrite < BUFFER_SIZE := by
  have hle := hr.front_le
  obtain ⟨h₁, h₂, h₃, h₄⟩ := hr.valid
  rcases hr.valid.directWrite_eq with ⟨hlt, -, -⟩ | ⟨-, hdw, hused⟩ <;> omega

lemma mRear_eq (hr : r.Stream) :
    r.job.mRecvBuffer.mRear = r.job.mRecvBuffer.mFront + r.job.mRecvBuffer.used := by
  have hle := hr.front_le
  have hused : r.job.mRecvBuffer.used =
      (r.job.mRecvBuffer.mRear - r.job.mRecvBuffer.mFront).toNat := by simp [used, hle]
  omega

lemma mRear_store (hr : r.Stream) {bytes : List Byte}
    (hle : bytes.length ≤ r.job.mRecvBuffer.directWrite) :
    (r.job.mRecvBuffer.store bytes).mRear = r.job.mRecvBuffer.mRear + bytes.length := by
  have hdw := hr.directWrite_eq
  have hnonneg := hr.valid.rear_nonneg
  simp only [store, advanceRear]
  rw [Nat.mod_eq_of_lt (by omega)]
  omega

lemma mFront_advanceFront (hr : r.Stream) {n : ℕ} (hn : n ≤ r.job.mRecvBuffer.used) :
    (r.job.mRecvBuffer.advanceFront n).mFront = r.job.mRecvBuffer.mFront + n := by
  have hrear := hr.mRear_eq
  obtain ⟨h₁, h₂, h₃, h₄⟩ := hr.valid
  simp only [advanceFront]
  rw [Nat.mod_eq_of_lt (by omega)]
  omega

end Stream

lemma Inv.directWrite_eq (hr : r.Inv) :
    r.job.mRecvBuffer.directWrite + (r.received.length - r.drained) + 1 = BUFFER_SIZE := by
  have hdw := hr.stream.directWrite_eq
  have hrear := hr.rear_eq
  have hnonneg := hr.valid.rear_nonneg
  omega

lemma Inv.used_eq (hr : r.Inv) :
    r.job.mRecvBuffer.used = r.received.length - r.consumed.length := hr.stream.used_eq

lemma Inv.directRead_eq (hr : r.Inv) :
    r.job.mRecvBuffer.directRead = r.job.mRecvBuffer.used := hr.stream.directRead_eq

/-- Everything that a step can do to the buffer and to the record: nothing, append what
`recv` has returned, or take from the front what `OnRecv` has consumed. -/
lemma step_cases {a : Input} (h : r.step a = some r') :
    (r'.job = r.job ∧ r'.received = r.received ∧ r'.consumed = r.consumed ∧
        r'.drained = r.drained) ∨
      (∃ bytes b, a = .recv (.received bytes) ∧ receive r.job.mRecvBuffer bytes = some b ∧
        r' = { r with pc := .checkFD, job := ⟨b⟩, received := r.received ++ bytes }) ∨
      ∃ readSize usedSize block b, a = .onRecv readSize ∧
        r.job.mRecvBuffer.getUsedSize = some usedSize ∧ 0 < usedSize ∧
        inputBlock r.job.mRecvBuffer = some block ∧
        consume r.job.mRecvBuffer usedSize readSize = some b ∧
        r' = { r with
          pc := .rearm
          job := ⟨b⟩
          consumed := r.consumed ++ block.take readSize.toNat
          drained := if (r.consumed ++ block.take readSize.toNat).length = r.received.length
            then (r.consumed ++ block.take readSize.toNat).length else r.drained } := by
  cases a with
  | execute =>
    simp only [step, Option.ite_none_right_eq_some, Option.some.injEq] at h
    obtain ⟨-, rfl⟩ := h
    exact Or.inl ⟨rfl, rfl, rfl, rfl⟩
  | socketFD valid =>
    simp only [step] at h
    split at h
    · obtain rfl := Option.some.inj h
      exact Or.inl ⟨rfl, rfl, rfl, rfl⟩
    · obtain rfl := Option.some.inj h
      exact Or.inl ⟨rfl, rfl, rfl, rfl⟩
    · cases h
  | recv result =>
    simp only [step, Option.ite_none_right_eq_some] at h
    obtain ⟨-, h⟩ := h
    cases result with
    | received bytes =>
      simp only [Option.bind_eq_bind, Option.bind_eq_some_iff, Option.pure_def,
        Option.some.injEq] at h
      obtain ⟨b, hb, rfl⟩ := h
      exact Or.inr (Or.inl ⟨bytes, b, rfl, hb, rfl⟩)
    | closed =>
      obtain rfl := Option.some.inj h
      exact Or.inl ⟨rfl, rfl, rfl, rfl⟩
    | failed errno =>
      cases errno <;>
      · obtain rfl := Option.some.inj h
        exact Or.inl ⟨rfl, rfl, rfl, rfl⟩
  | onRecv readSize =>
    simp only [step, Option.ite_none_right_eq_some, Option.bind_eq_bind,
      Option.bind_eq_some_iff, Option.pure_def, Option.some.injEq] at h
    obtain ⟨-, usedSize, hused, hpos, block, hblock, b, hb, rfl⟩ := h
    exact Or.inr (Or.inr ⟨readSize, usedSize, block, b, rfl, hused, hpos, hblock, hb, rfl⟩)
  | noData =>
    simp only [step, Option.ite_none_right_eq_some, Option.bind_eq_bind,
      Option.bind_eq_some_iff, Option.ite_none_left_eq_some, Option.pure_def,
      Option.some.injEq] at h
    obtain ⟨-, usedSize, -, -, rfl⟩ := h
    exact Or.inl ⟨rfl, rfl, rfl, rfl⟩
  | epollCtl ok =>
    simp only [step, Option.ite_none_right_eq_some, Option.some.injEq] at h
    obtain ⟨-, rfl⟩ := h
    exact Or.inl ⟨rfl, rfl, rfl, rfl⟩
  | disconnected =>
    simp only [step, Option.ite_none_right_eq_some, Option.some.injEq] at h
    obtain ⟨-, rfl⟩ := h
    exact Or.inl ⟨rfl, rfl, rfl, rfl⟩

/-- What `recv` returns goes after what the buffer holds, without wrapping. -/
lemma Stream.receive (hr : r.Stream) {bytes : List Byte} {b' : RecvBuffer}
    (hb' : RecvRun.receive r.job.mRecvBuffer bytes = some b') :
    Stream { r with pc := .checkFD, job := ⟨b'⟩, received := r.received ++ bytes } := by
  obtain ⟨hpos, hle, rfl⟩ := receive_eq_some hr.valid hb'
  have hlen := hr.isPrefix.length_le
  have hfront := hr.front_le
  have hrear := hr.mRear_store hle
  have hdw := hr.directWrite_eq
  have hroom : r.job.mRecvBuffer.used + bytes.length < BUFFER_SIZE := by omega
  refine ⟨hr.valid.store bytes, ?_, hr.isPrefix.trans (List.prefix_append _ _), ?_⟩
  · simp only [hrear]
    exact hfront.trans (by omega)
  · simp only [hr.valid.content_store hroom, hr.valid.stored_of_le hle, hr.content_eq]
    exact (List.drop_append_of_le_length hlen).symm

/-- `OnRecv` takes the next bytes of the stream. -/
lemma Stream.consumed_prefix (hr : r.Stream) {n : ℕ} (hn : n ≤ r.job.mRecvBuffer.used) :
    (r.consumed ++ r.job.mRecvBuffer.content.take n).length = r.consumed.length + n ∧
      r.consumed ++ r.job.mRecvBuffer.content.take n <+: r.received := by
  have hlen : (r.consumed ++ r.job.mRecvBuffer.content.take n).length = r.consumed.length + n := by
    simp only [List.length_append, List.length_take, length_content]
    omega
  refine ⟨hlen, List.prefix_iff_eq_append.2 ?_⟩
  have hc := List.prefix_iff_eq_append.1 hr.isPrefix
  rw [hlen, ← List.drop_drop, List.append_assoc, hr.content_eq, List.take_append_drop, hc]

/-- What `OnRecv` takes leaves the buffer at the front. -/
lemma Stream.consume (hr : r.Stream) (hpos : 0 < r.job.mRecvBuffer.used) {n : ℕ}
    (hn : n ≤ r.job.mRecvBuffer.used) {b' : RecvBuffer}
    (hb' : RecvRun.consume r.job.mRecvBuffer r.job.mRecvBuffer.used n = some b') :
    let consumed := r.consumed ++ r.job.mRecvBuffer.content.take n
    Stream { r with
      pc := .rearm
      job := ⟨b'⟩
      consumed := consumed
      drained := if consumed.length = r.received.length then consumed.length else r.drained } := by
  intro consumed
  have hused := hr.used_eq
  have hfront := hr.mFront_advanceFront hn
  have hle := hr.front_le
  obtain ⟨hlen, hpre⟩ : consumed.length = r.consumed.length + n ∧ consumed <+: r.received :=
    hr.consumed_prefix hn
  rw [consume_eq hr.valid hpos hn, Option.some.injEq] at hb'
  subst hb'
  by_cases hall : n = r.job.mRecvBuffer.used
  · -- everything received has been consumed, and the offsets start again at zero
    simp only [if_pos hall]
    refine ⟨valid_reset _, le_rfl, hpre, ?_⟩
    simp only [content_reset]
    exact (List.drop_eq_nil_of_le (by omega)).symm
  · simp only [if_neg hall]
    refine ⟨hr.valid.advanceFront n, ?_, hpre, ?_⟩
    · simp only [hfront, mRear_advanceFront]
      have := hr.mRear_eq
      omega
    · simp only [hr.valid.content_advanceFront hn, hr.content_eq, List.drop_drop, hlen]

/-- `OnRecv` is given all that the buffer holds, and takes a part of it. -/
lemma Stream.onRecv_args (hr : r.Stream) {readSize usedSize : ℤ} {block : List Byte}
    (ha : r.OnRecvInRange (.onRecv readSize))
    (hused : r.job.mRecvBuffer.getUsedSize = some usedSize) (hpos : 0 < usedSize)
    (hblock : inputBlock r.job.mRecvBuffer = some block) :
    ∃ n : ℕ, readSize = n ∧ usedSize = r.job.mRecvBuffer.used ∧
      block = r.job.mRecvBuffer.content ∧ 0 < r.job.mRecvBuffer.used ∧
        n ≤ r.job.mRecvBuffer.used := by
  rw [hr.valid.getUsedSize, Option.some.injEq] at hused
  rw [inputBlock_eq hr.valid hr.front_le, Option.some.injEq] at hblock
  have hin := ha.2 _ hr.valid.getDirectReadSize
  rw [hr.directRead_eq] at hin
  lift readSize to ℕ using ha.1
  exact ⟨readSize, rfl, hused.symm, hblock.symm, by omega, by omega⟩

/-- **One step keeps the stream**, when `OnRecv` takes no more than it was given. -/
theorem Stream.step (hr : r.Stream) {a : Input} (ha : r.OnRecvInRange a)
    (h : r.step a = some r') : r'.Stream := by
  rcases step_cases h with ⟨hjob, hreceived, hconsumed, -⟩ | ⟨bytes, b, -, hb, rfl⟩ |
    ⟨readSize, usedSize, block, b, rfl, hused, hpos, hblock, hb, rfl⟩
  · obtain ⟨h₁, h₂, h₃, h₄⟩ := hr
    rw [← hjob] at h₁ h₂ h₄
    rw [← hreceived] at h₃ h₄
    rw [← hconsumed] at h₃ h₄
    exact ⟨h₁, h₂, h₃, h₄⟩
  · exact hr.receive hb
  · obtain ⟨n, rfl, rfl, rfl, hpos, hn⟩ := hr.onRecv_args ha hused hpos hblock
    exact hr.consume hpos hn hb

/-- What `recv` returns goes after what the buffer holds, without wrapping. -/
lemma Inv.receive (hr : r.Inv) {bytes : List Byte} {b' : RecvBuffer}
    (hb' : RecvRun.receive r.job.mRecvBuffer bytes = some b') :
    Inv { r with pc := .checkFD, job := ⟨b'⟩, received := r.received ++ bytes } := by
  have hstream := hr.stream.receive hb'
  obtain ⟨-, hle, rfl⟩ := receive_eq_some hr.valid hb'
  have hrear := hr.rear_eq
  refine ⟨hstream.valid, hr.front_eq, ?_, hstream.isPrefix, hstream.content_eq⟩
  simp only [hr.stream.mRear_store hle, List.length_append]
  omega

/-- What `OnRecv` takes are the next bytes of the stream. -/
lemma Inv.consume (hr : r.Inv) (hpos : 0 < r.job.mRecvBuffer.used) {n : ℕ}
    (hn : n ≤ r.job.mRecvBuffer.used) {b' : RecvBuffer}
    (hb' : RecvRun.consume r.job.mRecvBuffer r.job.mRecvBuffer.used n = some b') :
    let consumed := r.consumed ++ r.job.mRecvBuffer.content.take n
    Inv { r with
      pc := .rearm
      job := ⟨b'⟩
      consumed := consumed
      drained := if consumed.length = r.received.length then consumed.length else r.drained } := by
  intro consumed
  have hstream := hr.stream.consume hpos hn hb'
  have hused := hr.used_eq
  have hfront := hr.stream.mFront_advanceFront hn
  have hlen : consumed.length = r.consumed.length + n := (hr.stream.consumed_prefix hn).1
  rw [consume_eq hr.valid hpos hn, Option.some.injEq] at hb'
  have hf := hr.front_eq
  have hrear := hr.rear_eq
  refine ⟨hstream.valid, ?_, ?_, hstream.isPrefix, hstream.content_eq⟩
  all_goals
    subst hb'
    by_cases hall : n = r.job.mRecvBuffer.used
  · -- everything received has been consumed, and the offsets start again at zero
    have hdrained : consumed.length = r.received.length := by omega
    simp only [if_pos hall, if_pos hdrained]
    simp [reset]
  · have hleft : consumed.length ≠ r.received.length := by omega
    simp only [if_neg hall, if_neg hleft, hfront]
    omega
  · have hdrained : consumed.length = r.received.length := by omega
    simp only [if_pos hall, if_pos hdrained]
    simp [reset, hdrained]
  · have hleft : consumed.length ≠ r.received.length := by omega
    simp only [if_neg hall, if_neg hleft]
    exact hrear

/-- **One step keeps the invariant**, when `OnRecv` takes no more than it was given. -/
theorem Inv.step (hr : r.Inv) {a : Input} (ha : r.OnRecvInRange a) (h : r.step a = some r') :
    r'.Inv := by
  rcases step_cases h with ⟨hjob, hreceived, hconsumed, hdrained⟩ | ⟨bytes, b, -, hb, rfl⟩ |
    ⟨readSize, usedSize, block, b, rfl, hused, hpos, hblock, hb, rfl⟩
  · obtain ⟨h₁, h₂, h₃, h₄, h₅⟩ := hr
    rw [← hjob] at h₁ h₂ h₃ h₅
    rw [← hreceived] at h₃ h₄ h₅
    rw [← hconsumed] at h₂ h₄ h₅
    rw [← hdrained] at h₂ h₃
    exact ⟨h₁, h₂, h₃, h₄, h₅⟩
  · exact hr.receive hb
  · obtain ⟨n, rfl, rfl, rfl, hpos, hn⟩ := hr.stream.onRecv_args ha hused hpos hblock
    exact hr.consume hpos hn hb

lemma Inv.streamIntact (hr : r.Inv) : r.StreamIntact := by
  refine ⟨hr.isPrefix, hr.front_le, ?_, _, hr.valid.getUsedSize, ?_⟩
  · rw [inputBlock_eq hr.valid hr.front_le, hr.content_eq]
  · rw [hr.valid.getDirectReadSize, hr.directRead_eq]

lemma Inv.defined (hr : r.Inv) : r.Defined := by
  refine ⟨⟨_, hr.valid.getDirectWriteSize, fun bytes hpos hle => ?_⟩,
    _, hr.valid.getUsedSize, fun readSize hpos hin => ?_⟩
  · exact ⟨_, receive_eq hr.valid hpos (by omega)⟩
  · have hle := hin.2 _ hr.valid.getDirectReadSize
    rw [hr.directRead_eq] at hle
    lift readSize to ℕ using hin.1
    exact ⟨_, consume_eq hr.valid (by omega) (by omega)⟩

/-- The room that `recv` is offered is used up by what has been received since the buffer
was last drained. -/
lemma Inv.getDirectWriteSize_ne_zero_iff (hr : r.Inv) :
    r.job.mRecvBuffer.getDirectWriteSize ≠ some 0 ↔
      r.received.length < r.drained + (BUFFER_SIZE - 1) := by
  have hdw := hr.directWrite_eq
  have hrear := hr.rear_eq
  have hnonneg := hr.valid.rear_nonneg
  rw [hr.valid.getDirectWriteSize, ne_eq, Option.some.injEq]
  omega

lemma Inv.neverOffersZero_iff (hr : r.Inv) {a : Input} (ha : r.LivePeer a) :
    r.NeverOffersZero a ↔ r.RoomLeft a := by
  cases a with
  | recv result =>
    refine forall_congr' fun _ => ?_
    rw [← hr.getDirectWriteSize_ne_zero_iff, ne_eq result, ha.1, and_self]
  | execute => rfl
  | socketFD valid => rfl
  | onRecv readSize => rfl
  | noData => rfl
  | epollCtl ok => rfl
  | disconnected => rfl

end RecvRun

/-- **Receive stream integrity.**  However `recv` cuts the stream up and however `OnRecv`
takes it, what `OnRecv` gets is exactly what has been received and not yet consumed, in one
block, and nothing on the way leaves the buffer. -/
theorem recvJob_stream_intact (mBuffer : ℕ → Byte) {as : List RecvJob.Input} {r : RecvRun}
    (hrun : RecvRun.machine.exec (RecvRun.start mBuffer) as = some r)
    (hin : RecvRun.machine.Along RecvRun.OnRecvInRange (RecvRun.start mBuffer) as) :
    r.StreamIntact ∧ r.Defined := by
  have hr : r.Inv := StepMachine.exec_invariant_along (M := RecvRun.machine)
    (fun _ _ _ hs ha h => hs.step ha h) (RecvRun.inv_start mBuffer) hin hrun
  exact ⟨hr.streamIntact, hr.defined⟩

/-- Two rounds: the first receives three bytes, of which `OnRecv` takes two, and the second
receives two more and `OnRecv` takes them all. -/
theorem recvJob_stream_intact_two_rounds : ∃ r,
    RecvRun.machine.exec (RecvRun.start fun _ => 0)
      [.execute, .socketFD true, .recv (.received [1, 2, 3]), .socketFD true,
        .recv (.failed .EINTR), .socketFD true, .recv (.failed .EAGAIN), .onRecv 2,
        .epollCtl true, .execute, .socketFD true, .recv (.received [4, 5]), .socketFD true,
        .recv (.failed .EAGAIN), .onRecv 3, .epollCtl true] = some r ∧
      r.consumed = [1, 2, 3, 4, 5] ∧ r.StreamIntact ∧ r.Defined :=
  StepMachine.exists_exec_and (fun r => r.consumed = [1, 2, 3, 4, 5]) (by decide +kernel)
    fun _ hrun hr => ⟨hr, recvJob_stream_intact _ hrun (by decide +kernel)⟩

/-- **When a live peer is disconnected.**  As long as the peer neither closes nor resets the
connection, `recv` is never called with length 0 exactly when fewer than `BUFFER_SIZE - 1`
bytes arrive between two moments at which the application has consumed everything. -/
theorem recvJob_neverOffersZero_iff (mBuffer : ℕ → Byte) {as : List RecvJob.Input}
    (hin : RecvRun.machine.Along RecvRun.OnRecvInRange (RecvRun.start mBuffer) as)
    (hpeer : RecvRun.machine.Along RecvRun.LivePeer (RecvRun.start mBuffer) as) :
    RecvRun.machine.Along RecvRun.NeverOffersZero (RecvRun.start mBuffer) as ↔
      RecvRun.machine.Along RecvRun.RoomLeft (RecvRun.start mBuffer) as :=
  StepMachine.along_congr (G := fun r a => r.OnRecvInRange a ∧ r.LivePeer a)
    (fun _ _ _ hs ha h => hs.step ha.1 h) (fun _ _ hs ha => hs.neverOffersZero_iff ha.2)
    (RecvRun.inv_start mBuffer) (hin.and hpeer)

/-- The round in which a peer sends as much as the buffer holds before the application has
consumed any of it: the next `recv` is offered no room, returns 0 and ends in
`Disconnect`. -/
lemma RecvRun.disconnects_when_full (mBuffer : ℕ → Byte) {full : List Byte}
    (hlen : full.length = BUFFER_SIZE - 1) :
    let as : List RecvJob.Input := [.execute, .socketFD true, .recv (.received full),
      .socketFD true, .recv .closed]
    machine.Along OnRecvInRange (start mBuffer) as ∧ machine.Along LivePeer (start mBuffer) as ∧
      ¬ machine.Along NeverOffersZero (start mBuffer) as ∧
      ∃ r, machine.exec (start mBuffer) as = some r ∧ r.pc = .disconnect := by
  intro as
  have hN := BUFFER_SIZE_eq
  have hs := inv_start mBuffer
  have hroom : (start mBuffer).job.mRecvBuffer.directWrite = BUFFER_SIZE - 1 := by
    have hdw := hs.directWrite_eq
    simp only [start, List.length_nil, Nat.sub_self] at hdw ⊢
    omega
  obtain ⟨b, hb⟩ : ∃ b, receive (start mBuffer).job.mRecvBuffer full = some b :=
    ⟨_, receive_eq hs.valid (by omega) (by omega)⟩
  have hfull := hs.receive hb
  have hempty : (start mBuffer).job.mRecvBuffer.getDirectWriteSize ≠ some 0 := by
    rw [hs.valid.getDirectWriteSize, hroom, ne_eq, Option.some.injEq]
    omega
  have hzero : b.getDirectWriteSize = some 0 := by
    by_contra hne
    have hlt := hfull.getDirectWriteSize_ne_zero_iff.1 hne
    simp only [start, List.nil_append] at hlt
    omega
  have h₁ : machine.step (start mBuffer) .execute = some { start mBuffer with pc := .checkFD } :=
    rfl
  have h₂ : machine.step { start mBuffer with pc := .checkFD } (.socketFD true) =
      some { start mBuffer with pc := .recv } := rfl
  have h₃ : machine.step { start mBuffer with pc := .recv } (.recv (.received full)) =
      some ⟨.checkFD, ⟨b⟩, full, [], 0⟩ := by
    simp only [machine, RecvRun.step, hb]
    rfl
  have h₄ : machine.step ⟨.checkFD, ⟨b⟩, full, [], 0⟩ (.socketFD true) =
      some ⟨.recv, ⟨b⟩, full, [], 0⟩ := rfl
  have h₅ : machine.step ⟨.recv, ⟨b⟩, full, [], 0⟩ (.recv .closed) =
      some ⟨.disconnect, ⟨b⟩, full, [], 0⟩ := rfl
  simp only [as, StepMachine.along_cons_of_step h₁, StepMachine.along_cons_of_step h₂,
    StepMachine.along_cons_of_step h₃, StepMachine.along_cons_of_step h₄,
    StepMachine.along_cons_of_step h₅, StepMachine.exec_cons_of_step h₁,
    StepMachine.exec_cons_of_step h₂, StepMachine.exec_cons_of_step h₃,
    StepMachine.exec_cons_of_step h₄, StepMachine.exec_cons_of_step h₅]
  simp [OnRecvInRange, LivePeer, NeverOffersZero, hempty, hzero]

/-- A peer that sends `BUFFER_SIZE - 1` bytes before the application has consumed any is
disconnected, although it has not closed the connection. -/
theorem recvJob_disconnects_live_peer :
    let as : List RecvJob.Input := [.execute, .socketFD true,
      .recv (.received (List.replicate (BUFFER_SIZE - 1) 0)), .socketFD true, .recv .closed]
    RecvRun.machine.Along RecvRun.OnRecvInRange (RecvRun.start fun _ => 0) as ∧
      RecvRun.machine.Along RecvRun.LivePeer (RecvRun.start fun _ => 0) as ∧
      ¬ RecvRun.machine.Along RecvRun.NeverOffersZero (RecvRun.start fun _ => 0) as ∧
      ∃ r, RecvRun.machine.exec (RecvRun.start fun _ => 0) as = some r ∧ r.pc = .disconnect :=
  RecvRun.disconnects_when_full _ List.length_replicate

/-- A round that receives one byte and takes it. -/
theorem recvJob_neverOffersZero_one_round :
    RecvRun.machine.Along RecvRun.NeverOffersZero (RecvRun.start fun _ => 0)
      [.execute, .socketFD true, .recv (.received [1]), .socketFD true,
        .recv (.failed .EAGAIN), .onRecv 1, .epollCtl true] :=
  (recvJob_neverOffersZero_iff _ (by decide +kernel) (by decide +kernel)).2 (by decide +kernel)

end CoreServer
