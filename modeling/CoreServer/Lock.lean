import CoreServer.Lib.StepMachine
import Mathlib.Logic.Function.Basic

/-!
# `Mutex` and `LockGuard`

`core::Mutex` (`Lock.hpp`) over the threads `τ`.  The `pthread_mutex_t` is normal: it does not
know which thread asks, so a thread that asks for a lock it holds waits for itself.  A
`LockGuard` takes the lock where it is declared and gives it back at the end of its block,
whichever way the block is left; in a machine these are two steps of the thread, and what the
block does to the data under the lock are the steps between them.
-/

namespace CoreServer

/-- `Mutex`: the thread that holds `mMutex`, if there is one. -/
structure Mutex (τ : Type) where
  mMutex : Option τ
deriving DecidableEq, Repr

namespace Mutex

variable {τ : Type} {m m' : Mutex τ} {t : τ}

/-- `Mutex()`. -/
def construct : Mutex τ := ⟨none⟩

/-- `Lock`, which does not return while the lock is held. -/
def lock (m : Mutex τ) (t : τ) : Option (Mutex τ) :=
  match m.mMutex with
  | none => some ⟨some t⟩
  | some _ => none

/-- `Unlock`. -/
def unlock (_ : Mutex τ) : Mutex τ := ⟨none⟩

lemma lock_eq_some : m.lock t = some m' ↔ m.mMutex = none ∧ m' = ⟨some t⟩ := by
  unfold lock
  cases m.mMutex with
  | none => simp [eq_comm]
  | some t' => simp

/-- The thread that holds the lock is the one for which `inside` holds. -/
def Guards (m : Mutex τ) (inside : τ → Bool) : Prop := ∀ t, inside t = true ↔ m.mMutex = some t

namespace Guards

variable {inside inside' : τ → Bool}

/-- **Mutual exclusion.** -/
lemma unique (h : m.Guards inside) {u : τ} (ht : inside t = true) (hu : inside u = true) : t = u :=
  Option.some.inj (((h t).1 ht).symm.trans ((h u).1 hu))

lemma congr (h : m.Guards inside) (hinside : ∀ t, inside' t = inside t) : m.Guards inside' :=
  fun t => (hinside t).symm ▸ h t

lemma eq_false_of_free (h : m.Guards inside) (hfree : m.mMutex = none) : inside t = false := by
  rw [Bool.eq_false_iff]
  intro hin
  have hheld := (h t).1 hin
  rw [hfree] at hheld
  cases hheld

/-- A thread that takes the free lock is the one inside. -/
lemma lock (h : m.Guards inside) (hlock : m.lock t = some m') (hin : inside' t = true)
    (hother : ∀ t', t' ≠ t → inside' t' = inside t') : m'.Guards inside' := by
  obtain ⟨hfree, rfl⟩ := lock_eq_some.1 hlock
  intro t'
  rcases eq_or_ne t' t with rfl | hne
  · exact iff_of_true hin rfl
  · rw [hother t' hne, h.eq_false_of_free hfree]
    simp [hne.symm]

/-- When the thread inside gives the lock back, no thread is inside. -/
lemma unlock (h : m.Guards inside) (ht : inside t = true) (hout : inside' t = false)
    (hother : ∀ t', t' ≠ t → inside' t' = inside t') : m.unlock.Guards inside' := by
  intro t'
  have hfalse : inside' t' = false := by
    rcases eq_or_ne t' t with rfl | hne
    · exact hout
    · rw [hother t' hne, Bool.eq_false_iff]
      exact fun ht' => hne (h.unique ht' ht)
  rw [hfalse]
  simp [Mutex.unlock]

end Guards

/-- What a step of the thread `t` may do with a mutex and with the data under it: neither
changes; the thread takes the mutex; it accesses the data while it holds the mutex; or it gives
the mutex back. -/
inductive Uses {δ : Type} (m m' : Mutex τ) (data data' : δ) (inside inside' : τ → Bool) (t : τ) :
    Prop where
  | nothing (mutex : m' = m) (same : data' = data) (stays : inside' t = inside t)
  | lock (takes : m.lock t = some m') (same : data' = data) (enters : inside' t = true)
  | access (mutex : m' = m) (holds : inside t = true) (stays : inside' t = true)
  | unlock (gives : m' = m.unlock) (same : data' = data) (holds : inside t = true)
    (leaves : inside' t = false)

section Uses

variable {δ : Type} {data data' : δ} {inside inside' : τ → Bool}

/-- Such a step keeps the mutex a lock. -/
theorem Guards.uses (h : m.Guards inside) (hu : Uses m m' data data' inside inside' t)
    (hother : ∀ t', t' ≠ t → inside' t' = inside t') : m'.Guards inside' := by
  have hsame : inside' t = inside t → m.Guards inside' := fun ht => h.congr fun t' => by
    rcases eq_or_ne t' t with rfl | hne
    · exact ht
    · exact hother t' hne
  cases hu with
  | nothing mutex same stays => exact mutex ▸ hsame stays
  | lock takes same enters => exact h.lock takes enters hother
  | access mutex holds stays => exact mutex ▸ hsame (stays.trans holds.symm)
  | unlock gives same holds leaves => exact gives ▸ h.unlock holds leaves hother

/-- **The frame of a lock.**  While a thread is inside, no step of another thread changes the
data. -/
theorem Uses.data_eq (huses : Uses m m' data data' inside inside' t) (h : m.Guards inside)
    {u : τ} (hin : inside u = true) (hne : u ≠ t) : data' = data := by
  cases huses with
  | nothing mutex same stays => exact same
  | lock takes same enters => exact same
  | access mutex holds stays => exact absurd (h.unique hin holds) hne
  | unlock gives same holds leaves => exact same

end Uses

end Mutex

end CoreServer
