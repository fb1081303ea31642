import CoreServer.Network.RecvBuffer

/-!
# Ways to read a receive buffer

The bytes of a `CircularBuffer` can be copied out by `Read`, whose one call splits the copy at the
end of the array, or taken from the cells at `GetFrontBufferPtr()`, `GetDIrectReadSize()` of them at
a time; then the caller splits the content over several rounds.  The file shows that `Read`, `Peek`,
several `Read`s and the rounds give the same bytes (`recvBuffer_reads_agree`).
-/

namespace CoreServer

open Circular

namespace CircularBuffer

variable {α : Type}

/-- `Read(first)` followed by `Read(second)`: the sum of the sizes, all the bytes, and the buffer
afterwards. -/
def readTwice (b : CircularBuffer α) (first second : ℤ) :
    Option (ℤ × List α × CircularBuffer α) := do
  let (readSize, bytes, b) ← b.read first
  let (readSize', bytes', b) ← b.read second
  return (readSize + readSize', bytes ++ bytes', b)

/-- While there are bytes in one block at `GetFrontBufferPtr()`, the caller takes them and calls
`MoveReadOffset`: the number of rounds, the bytes, and the buffer afterwards, if at most `fuel`
rounds are enough. -/
def drain : ℕ → CircularBuffer α → Option (ℕ × List α × CircularBuffer α)
  | 0, b => do
    let size ← b.getDirectReadSize
    if size = 0 then return (0, [], b) else none
  | fuel + 1, b => do
    let size ← b.getDirectReadSize
    if size = 0 then return (0, [], b)
    else
      let block ← memcpyOut b.mBuffer b.mFront size
      let b ← b.moveReadOffset size
      let (rounds, bytes, b) ← drain fuel b
      return (rounds + 1, block ++ bytes, b)

variable {b : CircularBuffer α}

/-! ## Reading twice -/

/-- A `Read` may stop anywhere, and another one goes on. -/
lemma Valid.readTwice (h : b.Valid) (first second : ℕ) :
    b.readTwice first second = b.read (first + second : ℕ) := by
  have hmin : min b.used first + min (b.used - min b.used first) second =
      min b.used (first + second) := by
    omega
  rw [CircularBuffer.readTwice, h.read, h.read]
  simp only [Option.bind_eq_bind, Option.bind_some, Option.pure_def]
  rw [(h.advanceFront _).read, h.content_read, h.used_advanceFront (Nat.min_le_left _ _)]
  simp only [Option.bind_some, advanceFront_advanceFront, hmin, ← List.take_add]
  congr 2
  exact_mod_cast hmin

/-! ## Rounds -/

/-- The block at the front offset has the first bytes of the content. -/
lemma Valid.block (h : b.Valid) {n : ℕ} (hn : n ≤ b.directRead) :
    memcpyOut b.mBuffer b.mFront n = some (b.content.take n) := by
  have hle := h.directRead_le
  have hend : b.mFront.toNat + b.directRead ≤ BUFFER_SIZE := by
    obtain ⟨h₁, h₂, h₃, h₄⟩ := h
    unfold directRead
    split <;> omega
  have hfront := h.front_nonneg
  rw [memcpyOut, if_pos (by omega), Int.toNat_natCast, content, take_ring,
    Nat.min_eq_left (by omega), ring_eq_slice (by omega)]

/-- There is a block as long as there are bytes. -/
lemma Valid.directRead_eq_zero_iff (h : b.Valid) : b.directRead = 0 ↔ b.used = 0 := by
  obtain ⟨h₁, h₂, h₃, h₄⟩ := h
  unfold directRead used
  split <;> omega

/-- After one round the rest of the content is one block. -/
lemma Valid.directRead_advanceFront (h : b.Valid) :
    (b.advanceFront b.directRead).directRead = b.used - b.directRead := by
  obtain ⟨h₁, h₂, h₃, h₄⟩ := h
  have hfront : (b.advanceFront b.directRead).mFront =
      ((b.mFront.toNat + b.directRead) % BUFFER_SIZE : ℕ) := rfl
  by_cases hle : b.mFront ≤ b.mRear
  · have hdr : b.directRead = (b.mRear - b.mFront).toNat := by rw [directRead, if_pos hle]
    have hused : b.used = (b.mRear - b.mFront).toNat := by rw [used, if_pos hle]
    rw [Nat.mod_eq_of_lt (by omega)] at hfront
    rw [directRead, mRear_advanceFront, if_pos (by omega)]
    omega
  · have hdr : b.directRead = (BUFFER_SIZE - b.mFront).toNat := by rw [directRead, if_neg hle]
    have hused : b.used = (BUFFER_SIZE - b.mFront + b.mRear).toNat := by rw [used, if_neg hle]
    rw [show b.mFront.toNat + b.directRead = BUFFER_SIZE by omega, Nat.mod_self] at hfront
    rw [directRead, mRear_advanceFront, if_pos (by omega)]
    omega

lemma Valid.drain_of_used_eq_zero (h : b.Valid) (hused : b.used = 0) (fuel : ℕ) :
    b.drain fuel = some (0, [], b) := by
  have hsize := h.getDirectReadSize
  rw [h.directRead_eq_zero_iff.2 hused] at hsize
  cases fuel with
  | zero => rw [drain, hsize]; rfl
  | succ fuel => rw [drain, hsize]; rfl

/-- A round takes the block at the front offset. -/
lemma Valid.drain_succ (h : b.Valid) (hused : b.used ≠ 0) (fuel : ℕ) :
    b.drain (fuel + 1) = ((b.advanceFront b.directRead).drain fuel).map fun p =>
      (p.1 + 1, b.content.take b.directRead ++ p.2.1, p.2.2) := by
  have hsize : (b.directRead : ℤ) ≠ 0 := by
    rw [Nat.cast_ne_zero, Ne, h.directRead_eq_zero_iff]
    exact hused
  simp only [drain, h.getDirectReadSize, Option.bind_eq_bind, Option.bind_some, if_neg hsize,
    h.block le_rfl, h.moveReadOffset h.directRead_le, Option.map_eq_bind]
  rfl

/-- If the content is one block, it takes at most one round. -/
lemma Valid.drain_of_directRead_eq (h : b.Valid) (hblock : b.directRead = b.used) (fuel : ℕ) :
    ∃ rounds ≤ 1, b.drain (fuel + 1) = some (rounds, b.content, b.advanceFront b.used) := by
  by_cases hused : b.used = 0
  · have hnil : b.content = [] := List.length_eq_zero_iff.1 (by rw [length_content, hused])
    refine ⟨0, by omega, ?_⟩
    rw [h.drain_of_used_eq_zero hused, hnil, hused, h.advanceFront_zero]
  · have hrest : (b.advanceFront b.used).used = 0 := by
      rw [h.used_advanceFront le_rfl, Nat.sub_self]
    refine ⟨1, le_rfl, ?_⟩
    rw [h.drain_succ hused, hblock, (h.advanceFront _).drain_of_used_eq_zero hrest,
      List.take_of_length_le (by rw [length_content])]
    simp

/-- **The whole content takes at most two rounds.** -/
theorem Valid.drain (h : b.Valid) (fuel : ℕ) :
    ∃ rounds ≤ 2, b.drain (fuel + 2) = some (rounds, b.content, b.advanceFront b.used) := by
  by_cases hused : b.used = 0
  · obtain ⟨rounds, hrounds, hdrain⟩ := h.drain_of_directRead_eq
      (by rw [hused, h.directRead_eq_zero_iff, hused]) (fuel + 1)
    exact ⟨rounds, by omega, hdrain⟩
  · have hle := h.directRead_le
    have hused' := h.used_advanceFront hle
    obtain ⟨rounds, hrounds, hdrain⟩ := (h.advanceFront b.directRead).drain_of_directRead_eq
      (by rw [h.directRead_advanceFront, hused']) fuel
    refine ⟨rounds + 1, by omega, ?_⟩
    rw [h.drain_succ hused, hdrain, h.content_advanceFront hle, hused', advanceFront_advanceFront,
      Option.map_some, List.take_append_drop, Nat.add_sub_cancel' hle]

end CircularBuffer

open CircularBuffer

/-- **All ways to read agree.**  In `core::RecvBuffer` and in `test::RingBuffer`, whenever both
offsets are in range, `Read` returns the first bytes of the content and leaves the others, `Peek`
returns the same bytes, two `Read`s are one, and taking the block at `GetFrontBufferPtr()` until
there is none ends after at most two rounds and gives what `Read(GetUsedSize())` does. -/
theorem recvBuffer_reads_agree {α : Type} {b : CircularBuffer α} (h : b.Valid) :
    (∀ size : ℕ, ∃ b', b.read size =
      some (((min size b.used : ℕ) : ℤ), b.content.take size, b') ∧
        b'.Valid ∧ b'.content = b.content.drop size) ∧
    (∀ size : ℕ, b.peek size = some (((min size b.used : ℕ) : ℤ), b.content.take size)) ∧
    (∀ first second : ℕ, b.readTwice first second = b.read (first + second : ℕ)) ∧
    ∃ usedSize bytes b', b.getUsedSize = some usedSize ∧
      b.read usedSize = some (usedSize, bytes, b') ∧
      ∀ fuel ≥ 2, ∃ rounds ≤ 2, b.drain fuel = some (rounds, bytes, b') := by
  refine ⟨fun size => ?_, fun size => ?_, h.readTwice, ?_⟩
  · refine ⟨_, ?_, h.advanceFront _, h.content_read size⟩
    rw [h.read, Nat.min_comm]
  · rw [h.peek, Nat.min_comm]
  · refine ⟨_, b.content, b.advanceFront b.used, h.getUsedSize, ?_, fun fuel hfuel => ?_⟩
    · rw [h.read, Nat.min_self, List.take_of_length_le (by rw [length_content])]
    · obtain ⟨fuel, rfl⟩ := Nat.exists_eq_add_of_le' hfuel
      exact h.drain fuel

/-- The content of a buffer may wrap: here its first byte is in the last cell. -/
theorem recvBuffer_reads_agree_wrapped :
    ∃ b : RecvBuffer, b.Valid ∧ b.content = [7, 0] ∧
      (∀ size : ℕ, ∃ b', b.read size =
        some (((min size b.used : ℕ) : ℤ), b.content.take size, b') ∧
          b'.Valid ∧ b'.content = b.content.drop size) ∧
      (∀ size : ℕ, b.peek size = some (((min size b.used : ℕ) : ℤ), b.content.take size)) ∧
      (∀ first second : ℕ, b.readTwice first second = b.read (first + second : ℕ)) ∧
      ∃ usedSize bytes b', b.getUsedSize = some usedSize ∧
        b.read usedSize = some (usedSize, bytes, b') ∧
        ∀ fuel ≥ 2, ∃ rounds ≤ 2, b.drain fuel = some (rounds, bytes, b') := by
  have hvalid : CircularBuffer.Valid (⟨1048575, 1, fun i => if i = 1048575 then 7 else 0⟩ :
      RecvBuffer) := ⟨by decide, by decide, by decide, by decide⟩
  exact ⟨_, hvalid, by decide +kernel, recvBuffer_reads_agree hvalid⟩

end CoreServer
