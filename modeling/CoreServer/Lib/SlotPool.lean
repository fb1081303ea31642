import Mathlib.Data.List.Nodup
import Mathlib.Data.List.Perm.Lattice
import Mathlib.Logic.Function.Basic

/-!
# Pools of slots

A pool hands out slots from a stack of free ones and takes them back.  A slot that has been
handed out has at most one owner, and an owner may pass its slot on.  `SlotPool.WellFormed`
says that no slot is lost and that none has two owners; each operation keeps it.
-/

/-- A stack of free slots, the slots handed out, and the slot each owner has. -/
structure SlotPool (ι ο : Type*) where
  free : List ι
  held : List ι
  slot : ο → Option ι

namespace SlotPool

variable {ι ο : Type*} {all : List ι} {p : SlotPool ι ο}

/-- The free slots and the slots handed out are together all the slots, an owner's slot has
been handed out, and two owners have different slots. -/
structure WellFormed (all : List ι) (p : SlotPool ι ο) : Prop where
  partition : (p.free ++ p.held).Perm all
  mem_held : ∀ o i, p.slot o = some i → i ∈ p.held
  slot_inj : ∀ o o' i, p.slot o = some i → p.slot o' = some i → o = o'

/-- A pool of which nothing has been handed out. -/
def new (all : List ι) : SlotPool ι ο := ⟨all, [], fun _ => none⟩

lemma wellFormed_new (all : List ι) : (new all : SlotPool ι ο).WellFormed all where
  partition := by simp [new]
  mem_held := by simp [new]
  slot_inj := by simp [new]

lemma WellFormed.length_add (h : p.WellFormed all) :
    p.free.length + p.held.length = all.length := by
  rw [← List.length_append, h.partition.length_eq]

lemma WellFormed.nodup (h : p.WellFormed all) (hall : all.Nodup) : (p.free ++ p.held).Nodup :=
  h.partition.nodup_iff.2 hall

lemma WellFormed.mem_all (h : p.WellFormed all) {i : ι} (hi : i ∈ p.held) : i ∈ all :=
  h.partition.subset (List.mem_append_right _ hi)

lemma WellFormed.not_mem_free (h : p.WellFormed all) (hall : all.Nodup) {i : ι}
    (hi : i ∈ p.held) : i ∉ p.free :=
  fun hfree => (List.nodup_append.1 (h.nodup hall)).2.2 i hfree i hi rfl

/-- The order in which slots have been handed out does not matter. -/
lemma WellFormed.of_perm (h : p.WellFormed all) {held : List ι} (hperm : held.Perm p.held) :
    WellFormed all { p with held := held } where
  partition := (hperm.append_left p.free).trans h.partition
  mem_held o i ho := hperm.mem_iff.2 (h.mem_held o i ho)
  slot_inj := h.slot_inj

/-! ## The operations -/

section Operations

variable [DecidableEq ο]

/-- The owner `o` takes the slot `i` from the top of the stack. -/
def acquire (p : SlotPool ι ο) (o : ο) (i : ι) : SlotPool ι ο where
  free := p.free.tail
  held := i :: p.held
  slot := Function.update p.slot o (some i)

/-- The owner `o` passes its slot on to `o'`. -/
def transfer (p : SlotPool ι ο) (o o' : ο) : SlotPool ι ο where
  free := p.free
  held := p.held
  slot := Function.update (Function.update p.slot o none) o' (p.slot o)

/-- The owner `o` puts its slot `i` back on the stack. -/
def release [DecidableEq ι] (p : SlotPool ι ο) (o : ο) (i : ι) : SlotPool ι ο where
  free := i :: p.free
  held := p.held.erase i
  slot := Function.update p.slot o none

lemma slot_acquire_eq_some {o o' : ο} {i i' : ι} :
    (p.acquire o i).slot o' = some i' ↔ (o' = o ∧ i = i') ∨ (o' ≠ o ∧ p.slot o' = some i') := by
  simp only [acquire, Function.update_apply]
  split_ifs with h <;> simp [h]

lemma slot_transfer_eq_some {o o' o'' : ο} {i : ι} :
    (p.transfer o o').slot o'' = some i ↔
      (o'' = o' ∧ p.slot o = some i) ∨ (o'' ≠ o' ∧ o'' ≠ o ∧ p.slot o'' = some i) := by
  simp only [transfer, Function.update_apply]
  split_ifs with h h'
  · simp [h]
  · subst h'
    simp [h]
  · simp [h, h']

lemma slot_release_eq_some [DecidableEq ι] {o o' : ο} {i i' : ι} :
    (p.release o i).slot o' = some i' ↔ o' ≠ o ∧ p.slot o' = some i' := by
  simp only [release, Function.update_apply]
  split_ifs with h <;> simp [h]

/-- Taking the slot on the top of the stack. -/
theorem WellFormed.acquire (h : p.WellFormed all) (hall : all.Nodup) (o : ο) {i : ι}
    {rest : List ι} (hfree : p.free = i :: rest) : (p.acquire o i).WellFormed all where
  partition := by
    have htail : (p.acquire o i).free = rest := by rw [SlotPool.acquire, hfree, List.tail_cons]
    rw [htail]
    refine List.perm_middle.trans ?_
    rw [← List.cons_append, ← hfree]
    exact h.partition
  mem_held o' i' ho' := by
    rcases slot_acquire_eq_some.1 ho' with ⟨-, rfl⟩ | ⟨-, hold⟩
    · exact List.mem_cons_self
    · exact List.mem_cons_of_mem _ (h.mem_held o' i' hold)
  slot_inj o₁ o₂ i' h₁ h₂ := by
    -- the slot taken was free, so nobody else has it
    have hnew : ∀ o', p.slot o' ≠ some i := fun o' ho' =>
      h.not_mem_free hall (h.mem_held o' i ho') (by simp [hfree])
    rcases slot_acquire_eq_some.1 h₁ with ⟨rfl, rfl⟩ | ⟨-, hold₁⟩
    · rcases slot_acquire_eq_some.1 h₂ with ⟨rfl, -⟩ | ⟨-, hold₂⟩
      · rfl
      · exact absurd hold₂ (hnew o₂)
    · rcases slot_acquire_eq_some.1 h₂ with ⟨-, rfl⟩ | ⟨-, hold₂⟩
      · exact absurd hold₁ (hnew o₁)
      · exact h.slot_inj o₁ o₂ i' hold₁ hold₂

/-- Passing a slot on. -/
theorem WellFormed.transfer (h : p.WellFormed all) (o o' : ο) :
    (p.transfer o o').WellFormed all where
  partition := h.partition
  mem_held o'' i ho'' := by
    rcases slot_transfer_eq_some.1 ho'' with ⟨-, hold⟩ | ⟨-, -, hold⟩
    · exact h.mem_held o i hold
    · exact h.mem_held o'' i hold
  slot_inj o₁ o₂ i h₁ h₂ := by
    rcases slot_transfer_eq_some.1 h₁ with ⟨rfl, hold₁⟩ | ⟨-, hne₁, hold₁⟩
    · rcases slot_transfer_eq_some.1 h₂ with ⟨rfl, -⟩ | ⟨-, hne₂, hold₂⟩
      · rfl
      · exact absurd (h.slot_inj o₂ o i hold₂ hold₁) hne₂
    · rcases slot_transfer_eq_some.1 h₂ with ⟨-, hold₂⟩ | ⟨-, hne₂, hold₂⟩
      · exact absurd (h.slot_inj o₁ o i hold₁ hold₂) hne₁
      · exact h.slot_inj o₁ o₂ i hold₁ hold₂

/-- Putting a slot back. -/
theorem WellFormed.release [DecidableEq ι] (h : p.WellFormed all) {o : ο} {i : ι}
    (ho : p.slot o = some i) : (p.release o i).WellFormed all where
  partition := by
    have hback : (i :: p.free ++ p.held.erase i).Perm (p.free ++ p.held) :=
      List.perm_middle.symm.trans
        ((List.perm_cons_erase (h.mem_held o i ho)).symm.append_left p.free)
    exact hback.trans h.partition
  mem_held o' i' ho' := by
    obtain ⟨hne, hold⟩ := slot_release_eq_some.1 ho'
    -- the slot of another owner is another slot
    have hi : i' ≠ i := by
      rintro rfl
      exact hne (h.slot_inj o' o i' hold ho)
    exact (List.mem_erase_of_ne hi).2 (h.mem_held o' i' hold)
  slot_inj o₁ o₂ i' h₁ h₂ :=
    h.slot_inj o₁ o₂ i' (slot_release_eq_some.1 h₁).2 (slot_release_eq_some.1 h₂).2

end Operations

end SlotPool
