import CoreServer.Types
import CoreServer.Lib.Circular
import Mathlib.Data.Nat.ModEq
import Mathlib.Tactic.Common

/-!
# `RecvBuffer` and `test::RingBuffer`

`Network/RecvBuffer.hpp` of the core library and `RingBuffer.hpp` of the stress test hold
the same class: a byte array of `BUFFER_SIZE` cells with two offsets, `mFront` and `mRear`.
They differ in the cell type (`uint8_t` and `char`) and in the constructor, so the methods
are written once, for cells of any type, in `CircularBuffer`.

Every method is partial.  It is `none` where the source has no defined behaviour: an
`Int32` operation that overflows, or a `memcpy` that leaves `mBuffer` or the caller's bytes.
The second half of the file computes each method in a buffer whose offsets are in range
(`Valid`), where none of this happens.
-/

namespace CoreServer

open Circular

/-- `enum { BUFFER_SIZE = 1024 * 1024 }`. -/
def BUFFER_SIZE : ℕ := 1024 * 1024

lemma BUFFER_SIZE_eq : BUFFER_SIZE = 1048576 := rfl

/-- The members of `RecvBuffer` and of `RingBuffer`; `mBuffer i` is the cell `i`. -/
structure CircularBuffer (α : Type) where
  mFront : ℤ
  mRear : ℤ
  mBuffer : ℕ → α

namespace CircularBuffer

variable {α : Type}

/-- `memcpy(mBuffer + dst, src, len)`. -/
def memcpyIn (mBuffer : ℕ → α) (dst : ℤ) (src : List α) (len : ℤ) : Option (ℕ → α) :=
  if 0 ≤ len ∧ 0 ≤ dst ∧ dst + len ≤ BUFFER_SIZE ∧ len ≤ src.length then
    some (blit mBuffer dst.toNat (src.take len.toNat))
  else none

/-- The bytes that `memcpy(_, mBuffer + src, len)` copies. -/
def memcpyOut (mBuffer : ℕ → α) (src len : ℤ) : Option (List α) :=
  if 0 ≤ len ∧ 0 ≤ src ∧ src + len ≤ BUFFER_SIZE then some (slice mBuffer src.toNat len.toNat)
  else none

/-- `Reset`. -/
def reset (b : CircularBuffer α) : CircularBuffer α := { b with mFront := 0, mRear := 0 }

/-- `GetDirectWriteSize`. -/
def getDirectWriteSize (b : CircularBuffer α) : Option ℤ :=
  if b.mFront ≤ b.mRear then do
    let size ← sub32 BUFFER_SIZE b.mRear
    sub32 size 1
  else do
    let size ← sub32 b.mFront b.mRear
    sub32 size 1

/-- `GetDIrectReadSize`. -/
def getDirectReadSize (b : CircularBuffer α) : Option ℤ :=
  if b.mFront ≤ b.mRear then sub32 b.mRear b.mFront
  else sub32 BUFFER_SIZE b.mFront

/-- `GetUsedSize`. -/
def getUsedSize (b : CircularBuffer α) : Option ℤ :=
  if b.mFront ≤ b.mRear then sub32 b.mRear b.mFront
  else do
    let size ← sub32 BUFFER_SIZE b.mFront
    add32 size b.mRear

/-- `GetRemainSize`. -/
def getRemainSize (b : CircularBuffer α) : Option ℤ := do
  let usedSize ← b.getUsedSize
  sub32 (BUFFER_SIZE - 1) usedSize

/-- `MoveReadOffset`. -/
def moveReadOffset (b : CircularBuffer α) (moveSize : ℤ) : Option (CircularBuffer α) := do
  let mFront ← add32 b.mFront moveSize
  return { b with mFront := mFront.tmod BUFFER_SIZE }

/-- `MoveWriteOffset`. -/
def moveWriteOffset (b : CircularBuffer α) (moveSize : ℤ) : Option (CircularBuffer α) := do
  let mRear ← add32 b.mRear moveSize
  return { b with mRear := mRear.tmod BUFFER_SIZE }

/-- The copies that `Write` makes: one, or two split at `directWriteSize`. -/
def writeCells (b : CircularBuffer α) (inputBuffer : List α) (size directWriteSize : ℤ) :
    Option (ℕ → α) :=
  if size ≤ directWriteSize then memcpyIn b.mBuffer b.mRear inputBuffer size
  else do
    let mBuffer ← memcpyIn b.mBuffer b.mRear inputBuffer directWriteSize
    let rest ← sub32 size directWriteSize
    memcpyIn mBuffer 0 (inputBuffer.drop directWriteSize.toNat) rest

/-- `Write`: the returned flag and the buffer afterwards. -/
def write (b : CircularBuffer α) (inputBuffer : List α) (size : ℤ) :
    Option (Bool × CircularBuffer α) := do
  let remainSize ← b.getRemainSize
  if remainSize < size then
    return (false, b)
  let directWriteSize ← b.getDirectWriteSize
  let mBuffer ← b.writeCells inputBuffer size directWriteSize
  let b' ← moveWriteOffset { b with mBuffer := mBuffer } size
  return (true, b')

/-- `Peek`: the returned size and the bytes copied to `readBuffer`. -/
def peek (b : CircularBuffer α) (size : ℤ) : Option (ℤ × List α) := do
  let usedSize ← b.getUsedSize
  let peekSize := if usedSize ≤ size then usedSize else size
  let directReadSize ← b.getDirectReadSize
  if peekSize ≤ directReadSize then
    let bytes ← memcpyOut b.mBuffer b.mFront peekSize
    return (peekSize, bytes)
  else
    let bytes ← memcpyOut b.mBuffer b.mFront directReadSize
    let rest ← sub32 peekSize directReadSize
    let bytes' ← memcpyOut b.mBuffer 0 rest
    return (peekSize, bytes ++ bytes')

/-- `Read`: the returned size, the bytes copied to `readBuffer` and the buffer
afterwards. -/
def read (b : CircularBuffer α) (size : ℤ) : Option (ℤ × List α × CircularBuffer α) := do
  let (peekSize, bytes) ← b.peek size
  let b' ← b.moveReadOffset peekSize
  return (peekSize, bytes, b')

end CircularBuffer

/-- `core::RecvBuffer`. -/
abbrev RecvBuffer := CircularBuffer Byte

/-- `RecvBuffer::RecvBuffer`: no member is initialised, so the object is what its memory
holds. -/
def RecvBuffer.construct (memory : RecvBuffer) : RecvBuffer := memory

/-- The object whose memory is all zero. -/
def RecvBuffer.zeroMemory : RecvBuffer := ⟨0, 0, fun _ => 0⟩

namespace Test

/-- `test::RingBuffer`. -/
abbrev RingBuffer := CircularBuffer Int8

/-- `RingBuffer::RingBuffer` calls `Reset`. -/
def RingBuffer.construct (memory : RingBuffer) : RingBuffer := memory.reset

end Test

/-! ## The methods in a buffer whose offsets are in range -/

namespace CircularBuffer

variable {α : Type}

/-- Both offsets are offsets into `mBuffer`. -/
structure Valid (b : CircularBuffer α) : Prop where
  front_nonneg : 0 ≤ b.mFront
  front_lt : b.mFront < BUFFER_SIZE
  rear_nonneg : 0 ≤ b.mRear
  rear_lt : b.mRear < BUFFER_SIZE

/-- The number of unread bytes. -/
def used (b : CircularBuffer α) : ℕ :=
  if b.mFront ≤ b.mRear then (b.mRear - b.mFront).toNat
  else (BUFFER_SIZE - b.mFront + b.mRear).toNat

/-- The number of bytes that can be written at the rear offset without wrapping. -/
def directWrite (b : CircularBuffer α) : ℕ :=
  if b.mFront ≤ b.mRear then (BUFFER_SIZE - b.mRear - 1).toNat
  else (b.mFront - b.mRear - 1).toNat

/-- The number of unread bytes that lie in one block at the front offset. -/
def directRead (b : CircularBuffer α) : ℕ :=
  if b.mFront ≤ b.mRear then (b.mRear - b.mFront).toNat else (BUFFER_SIZE - b.mFront).toNat

/-- The unread bytes: the circular sequence from the front offset up to the rear offset. -/
def content (b : CircularBuffer α) : List α :=
  ring BUFFER_SIZE b.mBuffer b.mFront.toNat b.used

@[simp] lemma length_content (b : CircularBuffer α) : b.content.length = b.used := by
  simp [content]

lemma valid_reset (b : CircularBuffer α) : b.reset.Valid := by
  have := BUFFER_SIZE_eq
  constructor <;> simp [reset] <;> omega

@[simp] lemma used_reset (b : CircularBuffer α) : b.reset.used = 0 := by simp [used, reset]

@[simp] lemma content_reset (b : CircularBuffer α) : b.reset.content = [] := by simp [content]

lemma directWrite_reset (b : CircularBuffer α) : b.reset.directWrite = BUFFER_SIZE - 1 := by
  have := BUFFER_SIZE_eq
  simp only [directWrite, reset, le_refl, if_true]
  omega

variable {b : CircularBuffer α}

/-- One cell is always kept free. -/
lemma Valid.used_lt (h : b.Valid) : b.used < BUFFER_SIZE := by
  obtain ⟨h₁, h₂, h₃, h₄⟩ := h
  unfold used
  split <;> omega

/-- The rear offset is the front offset moved by the unread bytes. -/
lemma Valid.front_add_used (h : b.Valid) :
    (b.mFront.toNat + b.used) % BUFFER_SIZE = b.mRear.toNat := by
  obtain ⟨h₁, h₂, h₃, h₄⟩ := h
  unfold used
  split
  · rw [Nat.mod_eq_of_lt (by omega)]
    omega
  · rw [mod_of_wrapped (by omega) (by omega)]
    omega

/-- The number of unread bytes is the only way to get from the front offset to the rear
offset in less than one turn. -/
lemma Valid.used_unique (h : b.Valid) {k : ℕ} (hk : k < BUFFER_SIZE)
    (hmod : (b.mFront.toNat + k) % BUFFER_SIZE = b.mRear.toNat) : b.used = k := by
  have hcongr : b.mFront.toNat + b.used ≡ b.mFront.toNat + k [MOD BUFFER_SIZE] :=
    h.front_add_used.trans hmod.symm
  exact (Nat.ModEq.add_left_cancel' _ hcongr).eq_of_lt_of_lt h.used_lt hk

lemma Valid.getUsedSize (h : b.Valid) : b.getUsedSize = some (b.used : ℤ) := by
  have := BUFFER_SIZE_eq
  obtain ⟨h₁, h₂, h₃, h₄⟩ := h
  unfold CircularBuffer.getUsedSize used
  split
  · rw [sub32_self (by omega) (by omega)]
    congr 1
    omega
  · rw [sub32_self (by omega) (by omega), Option.bind_eq_bind, Option.bind_some,
      add32_self (by omega) (by omega)]
    congr 1
    omega

lemma Valid.getRemainSize (h : b.Valid) :
    b.getRemainSize = some ((BUFFER_SIZE : ℤ) - 1 - b.used) := by
  have := BUFFER_SIZE_eq
  have := h.used_lt
  rw [CircularBuffer.getRemainSize, h.getUsedSize, Option.bind_eq_bind, Option.bind_some,
    sub32_self (by omega) (by omega)]

lemma Valid.getDirectWriteSize (h : b.Valid) :
    b.getDirectWriteSize = some (b.directWrite : ℤ) := by
  have := BUFFER_SIZE_eq
  obtain ⟨h₁, h₂, h₃, h₄⟩ := h
  unfold CircularBuffer.getDirectWriteSize directWrite
  split
  · rw [sub32_self (by omega) (by omega), Option.bind_eq_bind, Option.bind_some,
      sub32_self (by omega) (by omega)]
    congr 1
    omega
  · rw [sub32_self (by omega) (by omega), Option.bind_eq_bind, Option.bind_some,
      sub32_self (by omega) (by omega)]
    congr 1
    omega

lemma Valid.getDirectReadSize (h : b.Valid) :
    b.getDirectReadSize = some (b.directRead : ℤ) := by
  have := BUFFER_SIZE_eq
  obtain ⟨h₁, h₂, h₃, h₄⟩ := h
  unfold CircularBuffer.getDirectReadSize directRead
  split
  · rw [sub32_self (by omega) (by omega)]
    congr 1
    omega
  · rw [sub32_self (by omega) (by omega)]
    congr 1
    omega

/-- The offset arithmetic of `MoveReadOffset` and `MoveWriteOffset`. -/
lemma tmod_add {x y : ℤ} (hx : 0 ≤ x) (hy : 0 ≤ y) :
    (x + y).tmod BUFFER_SIZE = ((x.toNat + y.toNat) % BUFFER_SIZE : ℕ) := by
  rw [Int.tmod_eq_emod_of_nonneg (by omega)]
  push_cast
  rw [Int.toNat_of_nonneg hx, Int.toNat_of_nonneg hy]

/-- The block at the front offset is part of the content. -/
lemma Valid.directRead_le (h : b.Valid) : b.directRead ≤ b.used := by
  obtain ⟨h₁, h₂, h₃, h₄⟩ := h
  unfold directRead used
  split <;> omega

/-! ### Moving the offsets -/

/-- The front offset moved over `n` cells. -/
def advanceFront (b : CircularBuffer α) (n : ℕ) : CircularBuffer α :=
  { b with mFront := ((b.mFront.toNat + n) % BUFFER_SIZE : ℕ) }

/-- The rear offset moved over `n` cells. -/
def advanceRear (b : CircularBuffer α) (n : ℕ) : CircularBuffer α :=
  { b with mRear := ((b.mRear.toNat + n) % BUFFER_SIZE : ℕ) }

@[simp] lemma mRear_advanceFront (n : ℕ) : (b.advanceFront n).mRear = b.mRear := rfl

@[simp] lemma mBuffer_advanceFront (n : ℕ) : (b.advanceFront n).mBuffer = b.mBuffer := rfl

@[simp] lemma mFront_advanceRear (n : ℕ) : (b.advanceRear n).mFront = b.mFront := rfl

@[simp] lemma mBuffer_advanceRear (n : ℕ) : (b.advanceRear n).mBuffer = b.mBuffer := rfl

lemma Valid.advanceFront (h : b.Valid) (n : ℕ) : (b.advanceFront n).Valid := by
  have := Nat.mod_lt (b.mFront.toNat + n) (show BUFFER_SIZE > 0 by simp [BUFFER_SIZE_eq])
  exact ⟨Int.natCast_nonneg _, Int.ofNat_lt.2 this, h.rear_nonneg, h.rear_lt⟩

lemma Valid.advanceRear (h : b.Valid) (n : ℕ) : (b.advanceRear n).Valid := by
  have := Nat.mod_lt (b.mRear.toNat + n) (show BUFFER_SIZE > 0 by simp [BUFFER_SIZE_eq])
  exact ⟨h.front_nonneg, h.front_lt, Int.natCast_nonneg _, Int.ofNat_lt.2 this⟩

lemma advanceFront_advanceFront (m n : ℕ) :
    (b.advanceFront m).advanceFront n = b.advanceFront (m + n) := by
  simp only [advanceFront, Int.toNat_natCast, Nat.mod_add_mod, Nat.add_assoc]

lemma Valid.advanceFront_zero (h : b.Valid) : b.advanceFront 0 = b := by
  obtain ⟨h₁, h₂, -, -⟩ := h
  rw [CircularBuffer.advanceFront, Nat.add_zero, Nat.mod_eq_of_lt (by omega),
    Int.toNat_of_nonneg h₁]

lemma Valid.used_advanceFront (h : b.Valid) {n : ℕ} (hn : n ≤ b.used) :
    (b.advanceFront n).used = b.used - n := by
  have hlt := h.used_lt
  refine (h.advanceFront n).used_unique (by omega) ?_
  have hf : (b.advanceFront n).mFront.toNat = (b.mFront.toNat + n) % BUFFER_SIZE := rfl
  rw [hf, Nat.mod_add_mod, Nat.add_assoc, Nat.add_sub_cancel' hn, h.front_add_used]
  rfl

lemma Valid.used_advanceRear (h : b.Valid) {n : ℕ} (hn : b.used + n < BUFFER_SIZE) :
    (b.advanceRear n).used = b.used + n := by
  refine (h.advanceRear n).used_unique hn ?_
  have hr : (b.advanceRear n).mRear.toNat = (b.mRear.toNat + n) % BUFFER_SIZE := rfl
  rw [hr, mFront_advanceRear, ← Nat.add_assoc, ← Nat.mod_add_mod, h.front_add_used]

lemma Valid.content_advanceFront (h : b.Valid) {n : ℕ} (hn : n ≤ b.used) :
    (b.advanceFront n).content = b.content.drop n := by
  rw [content, h.used_advanceFront hn, content, drop_ring _ _ _ hn]
  rfl

lemma Valid.moveReadOffset (h : b.Valid) {n : ℕ} (hn : n ≤ b.used) :
    b.moveReadOffset n = some (b.advanceFront n) := by
  have := BUFFER_SIZE_eq
  have := h.used_lt
  obtain ⟨h₁, h₂, h₃, h₄⟩ := h
  rw [CircularBuffer.moveReadOffset, add32_self (by omega) (by omega), Option.bind_eq_bind,
    Option.bind_some, tmod_add h₁ (by omega), Int.toNat_natCast]
  rfl

lemma Valid.moveWriteOffset (h : b.Valid) {n : ℕ} (hn : n < BUFFER_SIZE) :
    b.moveWriteOffset n = some (b.advanceRear n) := by
  have := BUFFER_SIZE_eq
  obtain ⟨h₁, h₂, h₃, h₄⟩ := h
  rw [CircularBuffer.moveWriteOffset, add32_self (by omega) (by omega), Option.bind_eq_bind,
    Option.bind_some, tmod_add h₃ (by omega), Int.toNat_natCast]
  rfl

/-! ### `Peek` and `Read` -/

/-- `Peek` copies the first bytes of the content, whether or not they wrap. -/
theorem Valid.peek (h : b.Valid) (size : ℕ) :
    b.peek size = some (((min b.used size : ℕ) : ℤ), b.content.take size) := by
  have hN := BUFFER_SIZE_eq
  have hlt := h.used_lt
  have hsize : (if (b.used : ℤ) ≤ size then (b.used : ℤ) else size) = (min b.used size : ℕ) := by
    split <;> omega
  rw [CircularBuffer.peek, h.getUsedSize, h.getDirectReadSize]
  simp only [Option.bind_eq_bind, Option.bind_some, hsize]
  have hbytes : b.content.take size = ring BUFFER_SIZE b.mBuffer b.mFront.toNat
      (min b.used size) := by
    rw [content, take_ring, Nat.min_comm]
  generalize hk : min b.used size = k at *
  have hdr := h.directRead_le
  have hfront : b.mFront.toNat + b.directRead ≤ BUFFER_SIZE := by
    obtain ⟨h₁, h₂, h₃, h₄⟩ := h
    unfold directRead
    split <;> omega
  obtain ⟨h₁, h₂, h₃, h₄⟩ := h
  split
  · -- one block
    rw [memcpyOut, if_pos (by omega), Int.toNat_natCast, hbytes, ring_eq_slice (by omega)]
    rfl
  · -- the content wraps, and the block at the front offset ends with the array
    have hwrap : b.mRear < b.mFront := by
      by_contra hle
      have : b.directRead = b.used := by simp [directRead, used, Int.not_lt.1 hle]
      omega
    have hdir : b.directRead = BUFFER_SIZE - b.mFront.toNat := by
      rw [directRead, if_neg (by omega)]
      omega
    have hrest : k - b.directRead < BUFFER_SIZE := by omega
    rw [memcpyOut, if_pos (by omega), sub32_self (by omega) (by omega)]
    simp only [Option.bind_some]
    rw [memcpyOut, if_pos (by omega), hbytes,
      ring_eq_slice_append_slice (by omega) (by omega) (by omega), hdir]
    simp only [Option.bind_some, Int.toNat_natCast, Int.toNat_zero]
    congr 4
    omega

/-- `Read` hands out the first bytes of the content and leaves the others. -/
theorem Valid.read (h : b.Valid) (size : ℕ) :
    b.read size =
      some (((min b.used size : ℕ) : ℤ), b.content.take size,
        b.advanceFront (min b.used size)) := by
  rw [CircularBuffer.read, h.peek]
  simp only [Option.bind_eq_bind, Option.bind_some]
  rw [h.moveReadOffset (Nat.min_le_left _ _)]
  rfl

lemma Valid.content_read (h : b.Valid) (size : ℕ) :
    (b.advanceFront (min b.used size)).content = b.content.drop size := by
  rw [h.content_advanceFront (Nat.min_le_left _ _)]
  rcases Nat.le_total b.used size with hle | hle
  · rw [Nat.min_eq_left hle, List.drop_eq_nil_of_le (by simp), List.drop_eq_nil_of_le (by simpa)]
  · rw [Nat.min_eq_right hle]

/-! ### `Write` -/

/-- The cells after `Write` has copied `input`: one block, or two when `input` is longer
than the direct size. -/
def copyIn (b : CircularBuffer α) (input : List α) : ℕ → α :=
  if input.length ≤ b.directWrite then blit b.mBuffer b.mRear.toNat input
  else blit (blit b.mBuffer b.mRear.toNat (input.take b.directWrite)) 0
    (input.drop b.directWrite)

/-- The buffer after an accepted `Write`. -/
def store (b : CircularBuffer α) (input : List α) : CircularBuffer α :=
  { b with mBuffer := b.copyIn input }.advanceRear input.length

/-- The bytes that an accepted `Write` adds to the content. -/
def stored (b : CircularBuffer α) (input : List α) : List α :=
  ring BUFFER_SIZE (b.copyIn input) b.mRear.toNat input.length

@[simp] lemma length_stored (input : List α) : (b.stored input).length = input.length := by
  simp [stored]

/-- The direct size is the whole free space unless the free space wraps. -/
lemma Valid.directWrite_eq (h : b.Valid) :
    (b.mRear.toNat < b.mFront.toNat ∧ b.directWrite + b.mRear.toNat + 1 = b.mFront.toNat ∧
        b.used + b.directWrite + 1 = BUFFER_SIZE) ∨
      (b.mFront.toNat ≤ b.mRear.toNat ∧ b.directWrite + b.mRear.toNat + 1 = BUFFER_SIZE ∧
        b.mRear.toNat = b.mFront.toNat + b.used) := by
  obtain ⟨h₁, h₂, h₃, h₄⟩ := h
  unfold directWrite used
  split_ifs <;> omega

/-- The room that `recv` is offered is free. -/
lemma Valid.used_add_directWrite_lt (h : b.Valid) : b.used + b.directWrite < BUFFER_SIZE := by
  have hused := h.used_lt
  rcases h.directWrite_eq with ⟨-, -, hfull⟩ | ⟨-, hdw, hrear⟩ <;> omega

lemma Valid.withBuffer (h : b.Valid) (mBuffer : ℕ → α) :
    ({ b with mBuffer := mBuffer } : CircularBuffer α).Valid :=
  ⟨h.front_nonneg, h.front_lt, h.rear_nonneg, h.rear_lt⟩

/-- The copies of `Write` stay inside `mBuffer` and inside the input. -/
lemma Valid.writeCells (h : b.Valid) {input : List α}
    (hroom : b.used + input.length < BUFFER_SIZE) :
    b.writeCells input input.length b.directWrite = some (b.copyIn input) := by
  have hN := BUFFER_SIZE_eq
  have hlt := h.used_lt
  have hdw := h.directWrite_eq
  have hf := h.front_lt
  have hr := h.rear_nonneg
  rw [CircularBuffer.writeCells, copyIn]
  by_cases hle : input.length ≤ b.directWrite
  · rw [if_pos (by omega), memcpyIn, if_pos (by omega), if_pos hle, Int.toNat_natCast,
      List.take_length]
  · have hrest : ((input.length : ℤ) - b.directWrite).toNat =
        (input.drop b.directWrite).length := by
      simp
    rw [if_neg (by omega), memcpyIn, if_pos (by omega), sub32_self (by omega) (by omega),
      if_neg hle]
    simp only [Option.bind_eq_bind, Option.bind_some, Int.toNat_natCast]
    rw [memcpyIn, if_pos (by simp; omega), hrest, List.take_length]
    rfl

/-- **`Write` is accepted exactly when there is room for all of it**, and a rejected
`Write` changes nothing. -/
theorem Valid.write (h : b.Valid) (input : List α) :
    b.write input input.length =
      if b.used + input.length < BUFFER_SIZE then some (true, b.store input)
      else some (false, b) := by
  rw [CircularBuffer.write, h.getRemainSize, h.getDirectWriteSize]
  simp only [Option.bind_eq_bind, Option.bind_some, Option.pure_def]
  by_cases hroom : b.used + input.length < BUFFER_SIZE
  · have hmove := (h.withBuffer (b.copyIn input)).moveWriteOffset (n := input.length) (by omega)
    rw [if_neg (by omega), if_pos hroom, h.writeCells hroom, Option.bind_some, hmove]
    rfl
  · rw [if_pos (by omega), if_neg hroom]

lemma Valid.store (h : b.Valid) (input : List α) : (b.store input).Valid :=
  (h.withBuffer (b.copyIn input)).advanceRear input.length

lemma Valid.used_store (h : b.Valid) {input : List α}
    (hroom : b.used + input.length < BUFFER_SIZE) :
    (b.store input).used = b.used + input.length := by
  exact (h.withBuffer (b.copyIn input)).used_advanceRear hroom

/-- `Write` copies to free cells only. -/
lemma Valid.copyIn_content (h : b.Valid) {input : List α}
    (hroom : b.used + input.length < BUFFER_SIZE) {i : ℕ} (hi : i < b.used) :
    b.copyIn input ((b.mFront.toNat + i) % BUFFER_SIZE) =
      b.mBuffer ((b.mFront.toNat + i) % BUFFER_SIZE) := by
  have hlt := h.used_lt
  have hf : b.mFront.toNat < BUFFER_SIZE := by
    have := h.front_lt
    have := h.front_nonneg
    omega
  have hused := h.front_add_used
  unfold copyIn
  rcases h.directWrite_eq with ⟨hwrap, hdw, hfull⟩ | ⟨hle, hdw, hrear⟩
  · -- the content wraps and the free cells are one block between rear and front
    rw [if_pos (by omega)]
    rcases Nat.lt_or_ge (b.mFront.toNat + i) BUFFER_SIZE with hlt' | hge'
    · rw [Nat.mod_eq_of_lt hlt', blit_of_ge (by omega)]
    · rw [mod_of_wrapped (by omega) (by omega)] at hused
      rw [mod_of_wrapped hge' (by omega), blit_of_lt (by omega)]
  · -- the content is one block, and the free cells lie on both sides of it
    rw [Nat.mod_eq_of_lt (by omega)]
    split
    · rw [blit_of_lt (by omega)]
    · rw [blit_of_ge (by simp; omega), blit_of_lt (by omega)]

theorem Valid.content_store (h : b.Valid) {input : List α}
    (hroom : b.used + input.length < BUFFER_SIZE) :
    (b.store input).content = b.content ++ b.stored input := by
  have hold : ring BUFFER_SIZE (b.copyIn input) b.mFront.toNat b.used = b.content :=
    ring_congr fun i hi => h.copyIn_content hroom hi
  rw [content, h.used_store hroom, stored, ← h.front_add_used, ← hold]
  exact ring_add _ _ _ _ _

/-- What fits in the direct size is stored as it is. -/
lemma Valid.stored_of_le (h : b.Valid) {input : List α} (hle : input.length ≤ b.directWrite) :
    b.stored input = input := by
  have hdw := h.directWrite_eq
  have hf := h.front_lt
  rw [stored, copyIn, if_pos hle, ring_eq_slice (by omega), slice_blit]

/-- What does not fit in the direct size is stored shifted: the first block stops one cell
short of the end of the array, so the last cell is read in the place of the first byte
after the split, and the last byte of the input is not read at all. -/
theorem Valid.stored_of_gt (h : b.Valid) {input : List α}
    (hroom : b.used + input.length < BUFFER_SIZE) (hgt : b.directWrite < input.length) :
    b.stored input = input.take b.directWrite ++
      b.mBuffer (BUFFER_SIZE - 1) :: (input.drop b.directWrite).dropLast := by
  rcases h.directWrite_eq with ⟨hwrap, hdw, hfull⟩ | ⟨hle, hdw, hrear⟩
  · omega
  have hlast : input.drop b.directWrite ≠ [] := by simp; omega
  have hlen : (input.drop b.directWrite).length = input.length - b.directWrite := by simp
  have htake : (input.take b.directWrite).length = b.directWrite := by simp; omega
  -- neither block reaches the last cell
  have hend : b.copyIn input (BUFFER_SIZE - 1) = b.mBuffer (BUFFER_SIZE - 1) := by
    rw [copyIn, if_neg (by omega), blit_of_ge (by omega), blit_of_ge (by omega)]
  have hfirst : slice (b.copyIn input) b.mRear.toNat (b.directWrite + 1) =
      input.take b.directWrite ++ [b.mBuffer (BUFFER_SIZE - 1)] := by
    rw [slice_add, ← hend]
    congr 1
    · have hcells : slice (b.copyIn input) b.mRear.toNat b.directWrite =
          slice (blit b.mBuffer b.mRear.toNat (input.take b.directWrite)) b.mRear.toNat
            (input.take b.directWrite).length := by
        rw [htake]
        refine slice_congr fun i hi => ?_
        rw [copyIn, if_neg (by omega), blit_of_ge (by omega)]
      rw [hcells, slice_blit]
    · simp [slice, show b.mRear.toNat + b.directWrite = BUFFER_SIZE - 1 by omega]
  -- the rest starts at cell zero, one byte early
  have hsecond : slice (b.copyIn input) 0 (input.length - b.directWrite - 1) =
      (input.drop b.directWrite).dropLast := by
    rw [copyIn, if_neg (by omega), List.dropLast_eq_take, hlen]
    conv_rhs => rw [← slice_blit (blit b.mBuffer b.mRear.toNat (input.take b.directWrite)) 0
      (input.drop b.directWrite)]
    rw [take_slice, hlen, Nat.min_eq_left (by omega)]
  rw [stored, ring_eq_slice_append_slice (by omega) (by omega) (by omega),
    show BUFFER_SIZE - b.mRear.toNat = b.directWrite + 1 by omega, hfirst,
    show input.length - (b.directWrite + 1) = input.length - b.directWrite - 1 by omega,
    hsecond]
  simp

/-- The `Write`s that store their input: those that fit in the direct size, and those whose
bytes after the split all equal the one in the last cell. -/
def WriteHarmless (b : CircularBuffer α) (input : List α) : Prop :=
  input.length ≤ b.directWrite ∨
    ∀ x ∈ input.drop b.directWrite, x = b.mBuffer (BUFFER_SIZE - 1)

instance [DecidableEq α] (b : CircularBuffer α) (input : List α) :
    Decidable (b.WriteHarmless input) := inferInstanceAs (Decidable (_ ∨ _))

/-- **An accepted `Write` stores its input exactly when it is harmless.** -/
theorem Valid.stored_eq_iff (h : b.Valid) {input : List α}
    (hroom : b.used + input.length < BUFFER_SIZE) :
    b.stored input = input ↔ b.WriteHarmless input := by
  rcases Nat.lt_or_ge b.directWrite input.length with hgt | hle
  · rw [h.stored_of_gt hroom hgt, WriteHarmless, or_iff_right (Nat.not_le.2 hgt)]
    conv_lhs => rhs; rw [← List.take_append_drop b.directWrite input]
    rw [List.append_cancel_left_eq, cons_dropLast_eq_iff (by simp; omega)]
  · simp [h.stored_of_le hle, WriteHarmless, hle]

end CircularBuffer

end CoreServer
