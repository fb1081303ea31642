import Mathlib.Data.List.Basic
import Mathlib.Tactic.Ring

/-!
# Slices of linear and circular memory

Memory is a function from cell numbers to values; a block copy is `blit`, and `slice` reads
a block back.  `ring n` reads a sequence that starts in some cell of an array of `n` cells
and goes round its end.  The main results are

* `Circular.ring_eq_slice` and `Circular.ring_eq_slice_append_slice`: a circular sequence
  is one block, or two blocks split at the end of the array;
* `Circular.ring_add`: a circular sequence splits anywhere;
* `Circular.ring_congr`: a circular sequence is determined by its cells.
-/

namespace Circular

variable {α : Type*}

/-- The values of the `len` cells from `start` on. -/
def slice (cells : ℕ → α) (start len : ℕ) : List α :=
  (List.range len).map fun i => cells (start + i)

/-- The memory after the values `src` have been copied to the cells from `dst` on. -/
def blit (cells : ℕ → α) (dst : ℕ) (src : List α) : ℕ → α :=
  fun i => if dst ≤ i then (src[i - dst]?).getD (cells i) else cells i

/-- The values of `len` consecutive cells of a circular array of `n` cells, from cell
`start` on. -/
def ring (n : ℕ) (cells : ℕ → α) (start len : ℕ) : List α :=
  (List.range len).map fun i => cells ((start + i) % n)

variable {n : ℕ} {cells cells' : ℕ → α} {start len : ℕ}

@[simp] lemma length_slice : (slice cells start len).length = len := by simp [slice]

@[simp] lemma length_ring : (ring n cells start len).length = len := by simp [ring]

@[simp] lemma slice_zero : slice cells start 0 = [] := rfl

@[simp] lemma ring_zero : ring n cells start 0 = [] := rfl

/-! ## Blocks -/

lemma blit_of_lt {dst i : ℕ} {src : List α} (h : i < dst) : blit cells dst src i = cells i := by
  rw [blit, if_neg (by omega)]

lemma blit_of_ge {dst i : ℕ} {src : List α} (h : dst + src.length ≤ i) :
    blit cells dst src i = cells i := by
  rw [blit, if_pos (by omega), List.getElem?_eq_none (by omega), Option.getD_none]

lemma blit_add {dst i : ℕ} {src : List α} (h : i < src.length) :
    blit cells dst src (dst + i) = src[i] := by
  rw [blit, if_pos (by omega), Nat.add_sub_cancel_left, List.getElem?_eq_getElem h,
    Option.getD_some]

/-- Reading a block just written gives what was written. -/
@[simp] lemma slice_blit (cells : ℕ → α) (dst : ℕ) (src : List α) :
    slice (blit cells dst src) dst src.length = src := by
  apply List.ext_getElem
  · simp
  · intro i hi _
    have hi' : i < src.length := by simpa using hi
    simp [slice, blit_add hi']

lemma slice_congr (h : ∀ i < len, cells (start + i) = cells' (start + i)) :
    slice cells start len = slice cells' start len := by
  apply List.map_congr_left
  intro i hi
  exact h i (List.mem_range.1 hi)

/-- A block is determined by its cells, and determines them. -/
lemma slice_eq_iff :
    slice cells start len = slice cells' start len ↔
      ∀ i < len, cells (start + i) = cells' (start + i) := by
  simp only [slice, List.map_inj_left, List.mem_range]

lemma slice_add (cells : ℕ → α) (start a b : ℕ) :
    slice cells start (a + b) = slice cells start a ++ slice cells (start + a) b := by
  simp only [slice, List.range_add, List.map_append, List.map_map]
  congr 1
  apply List.map_congr_left
  intro i _
  simp [Nat.add_assoc]

lemma take_slice (cells : ℕ → α) (start len k : ℕ) :
    (slice cells start len).take k = slice cells start (min k len) := by
  simp [slice, ← List.map_take, List.take_range]

/-! ## Circular sequences -/

/-- A circular sequence that stays below the end of the array is one block. -/
lemma ring_eq_slice (h : start + len ≤ n) : ring n cells start len = slice cells start len := by
  apply List.map_congr_left
  intro i hi
  have hi' := List.mem_range.1 hi
  rw [Nat.mod_eq_of_lt (by omega)]

/-- A circular sequence splits anywhere. -/
lemma ring_add (n : ℕ) (cells : ℕ → α) (start a b : ℕ) :
    ring n cells start (a + b) = ring n cells start a ++ ring n cells ((start + a) % n) b := by
  simp only [ring, List.range_add, List.map_append, List.map_map]
  congr 1
  apply List.map_congr_left
  intro i _
  simp [Nat.add_assoc]

/-- A circular sequence that goes past the end of the array is the block up to the end
followed by a block from the first cell on. -/
lemma ring_eq_slice_append_slice (hs : start < n) (h : n ≤ start + len) (hlen : len ≤ n) :
    ring n cells start len =
      slice cells start (n - start) ++ slice cells 0 (len - (n - start)) := by
  have hsplit : len = (n - start) + (len - (n - start)) := by omega
  conv_lhs => rw [hsplit]
  rw [ring_add, ring_eq_slice (by omega), show start + (n - start) = n by omega, Nat.mod_self,
    ring_eq_slice (by omega)]

lemma take_ring (n : ℕ) (cells : ℕ → α) (start len k : ℕ) :
    (ring n cells start len).take k = ring n cells start (min k len) := by
  simp [ring, ← List.map_take, List.take_range]

lemma drop_ring (n : ℕ) (cells : ℕ → α) (start : ℕ) {len k : ℕ} (h : k ≤ len) :
    (ring n cells start len).drop k = ring n cells ((start + k) % n) (len - k) := by
  obtain ⟨d, rfl⟩ := Nat.exists_eq_add_of_le h
  rw [ring_add, List.drop_left' (by simp), Nat.add_sub_cancel_left]

/-- A circular sequence is determined by its cells. -/
lemma ring_congr (h : ∀ i < len, cells ((start + i) % n) = cells' ((start + i) % n)) :
    ring n cells start len = ring n cells' start len := by
  apply List.map_congr_left
  intro i hi
  exact h i (List.mem_range.1 hi)

/-- Putting a value in front of a list and dropping its last one changes nothing exactly
when the list repeats that value. -/
lemma cons_dropLast_eq_iff {l : List α} (hl : l ≠ []) (z : α) :
    z :: l.dropLast = l ↔ ∀ x ∈ l, x = z := by
  induction l generalizing z with
  | nil => exact absurd rfl hl
  | cons a t ih =>
    cases t with
    | nil => simp [eq_comm]
    | cons b t =>
      rw [List.dropLast_cons_cons, List.cons.injEq, ih (by simp)]
      constructor
      · rintro ⟨rfl, h⟩ x hx
        rcases List.mem_cons.1 hx with rfl | hx
        · rfl
        · exact h x hx
      · intro h
        obtain rfl : a = z := h a (by simp)
        exact ⟨rfl, fun x hx => h x (List.mem_cons_of_mem _ hx)⟩

/-- Reducing an index that is less than one turn past the end. -/
lemma mod_of_wrapped {i : ℕ} (h : n ≤ i) (h' : i < 2 * n) : i % n = i - n := by
  rw [Nat.mod_eq_sub_mod h, Nat.mod_eq_of_lt (by omega)]

end Circular
