import CoreServer.Lib.Circular

/-!
# Memory of which only a part is written

A list of stores, each of them a cell number and the values that are copied to the cells from there
on, is applied to a memory.  What a covered cell holds then does not depend on what it has held; a
cell that no store covers keeps its value.  So two memories show the same block after the stores
exactly if they agree in those of its cells that no store covers (`Stores.slice_apply_eq_iff`).
-/

namespace Stores

open Circular

variable {α : Type*} {stores : List (ℕ × List α)} {i : ℕ}

/-- The memory after the stores, the first of which is made first. -/
def apply (stores : List (ℕ × List α)) (cells : ℕ → α) : ℕ → α :=
  stores.foldl (fun cells store => blit cells store.1 store.2) cells

/-- The cell `i` is written by one of the stores. -/
def Covers (stores : List (ℕ × List α)) (i : ℕ) : Prop :=
  ∃ store ∈ stores, store.1 ≤ i ∧ i < store.1 + store.2.length

lemma apply_cons (store : ℕ × List α) (stores : List (ℕ × List α)) (cells : ℕ → α) :
    apply (store :: stores) cells = apply stores (blit cells store.1 store.2) := rfl

@[simp] lemma not_covers_nil : ¬ Covers ([] : List (ℕ × List α)) i := by simp [Covers]

lemma covers_cons {store : ℕ × List α} :
    Covers (store :: stores) i ↔
      store.1 ≤ i ∧ i < store.1 + store.2.length ∨ Covers stores i := by
  simp [Covers]

lemma blit_of_not_covers (store : ℕ × List α) (cells : ℕ → α)
    (h : ¬ (store.1 ≤ i ∧ i < store.1 + store.2.length)) :
    blit cells store.1 store.2 i = cells i := by
  rcases Nat.lt_or_ge i store.1 with hlt | hge
  · exact blit_of_lt hlt
  · exact blit_of_ge (by omega)

lemma blit_of_covers (store : ℕ × List α) (cells cells' : ℕ → α)
    (h : store.1 ≤ i ∧ i < store.1 + store.2.length) :
    blit cells store.1 store.2 i = blit cells' store.1 store.2 i := by
  obtain ⟨j, rfl⟩ := Nat.exists_eq_add_of_le h.1
  have hj : j < store.2.length := by omega
  rw [blit_add hj, blit_add hj]

lemma apply_of_not_covers (cells : ℕ → α) (h : ¬ Covers stores i) :
    apply stores cells i = cells i := by
  induction stores generalizing cells with
  | nil => rfl
  | cons store stores ih =>
    rw [covers_cons, not_or] at h
    rw [apply_cons, ih _ h.2, blit_of_not_covers store cells h.1]

/-- Cell by cell: memories that agree in a cell agree there afterwards. -/
lemma apply_congr {cells cells' : ℕ → α} (h : cells i = cells' i) :
    apply stores cells i = apply stores cells' i := by
  induction stores generalizing cells cells' with
  | nil => exact h
  | cons store stores ih =>
    rw [apply_cons, apply_cons]
    apply ih
    by_cases hstore : store.1 ≤ i ∧ i < store.1 + store.2.length
    · exact blit_of_covers store cells cells' hstore
    · rw [blit_of_not_covers store cells hstore, blit_of_not_covers store cells' hstore, h]

lemma apply_of_covers (h : Covers stores i) (cells cells' : ℕ → α) :
    apply stores cells i = apply stores cells' i := by
  induction stores generalizing cells cells' with
  | nil => exact absurd h not_covers_nil
  | cons store stores ih =>
    rw [apply_cons, apply_cons]
    rcases covers_cons.1 h with hstore | hstores
    · exact apply_congr (blit_of_covers store cells cells' hstore)
    · exact ih hstores _ _

/-- Two memories agree in a cell after the stores exactly if a store covers it or they agreed. -/
lemma apply_eq_iff {cells cells' : ℕ → α} :
    apply stores cells i = apply stores cells' i ↔ (¬ Covers stores i → cells i = cells' i) := by
  constructor
  · intro h hnot
    rwa [apply_of_not_covers cells hnot, apply_of_not_covers cells' hnot] at h
  · intro h
    by_cases hcovers : Covers stores i
    · exact apply_of_covers hcovers cells cells'
    · exact apply_congr (h hcovers)

/-- **What is left of the old memory.**  Two memories show the same block after the stores exactly
if they agree in the cells of the block that no store covers. -/
theorem slice_apply_eq_iff {cells cells' : ℕ → α} {start len : ℕ} :
    slice (apply stores cells) start len = slice (apply stores cells') start len ↔
      ∀ i < len, ¬ Covers stores (start + i) → cells (start + i) = cells' (start + i) := by
  simp only [slice_eq_iff, apply_eq_iff]

end Stores
