import Mathlib.Data.List.Basic
import Mathlib.Tactic.Common

/-!
# A bounded first-in first-out queue

What a byte queue of fixed capacity is for, with no storage behind it: a list of at most
`cap` items, to which whole blocks are added at the end, or not at all, and from which
blocks are taken at the front.  A `Log` records what has gone in and what has come out
since the queue was last emptied, and `BoundedQueue.conserved_apply` is the law that makes it a
queue.
-/

/-- The operations of a block queue. -/
inductive QueueOp (α : Type*) where
  | write (input : List α)
  | peek (size : ℕ)
  | read (size : ℕ)
  | reset

/-- What has happened to a queue since its last reset: the inputs of the accepted writes
and the outputs of the reads, each as one sequence. -/
structure QueueLog (α : Type*) where
  accepted : List α
  handedOut : List α

/-- A queue of at most `cap` items. -/
structure BoundedQueue (α : Type*) (cap : ℕ) where
  items : List α
  bounded : items.length ≤ cap

namespace BoundedQueue

variable {α : Type*} {cap : ℕ}

/-- The queue without items. -/
def empty : BoundedQueue α cap := ⟨[], by simp⟩

/-- Add a block if there is room for the whole of it. -/
def write (q : BoundedQueue α cap) (input : List α) : Bool × BoundedQueue α cap :=
  if h : q.items.length + input.length ≤ cap then (true, ⟨q.items ++ input, by simpa using h⟩)
  else (false, q)

/-- Take a block of at most `size` items. -/
def read (q : BoundedQueue α cap) (size : ℕ) : List α × BoundedQueue α cap :=
  (q.items.take size, ⟨q.items.drop size, by
    have := q.bounded
    simp only [List.length_drop]
    omega⟩)

@[ext] lemma ext {q q' : BoundedQueue α cap} (h : q.items = q'.items) : q = q' := by
  cases q
  cases q'
  simpa using h

/-- A queue together with its log performs an operation. -/
def apply : QueueOp α → BoundedQueue α cap × QueueLog α → BoundedQueue α cap × QueueLog α
  | .write input, (q, log) =>
    ((q.write input).2,
      if (q.write input).1 then { log with accepted := log.accepted ++ input } else log)
  | .peek _, s => s
  | .read size, (q, log) =>
    ((q.read size).2, { log with handedOut := log.handedOut ++ (q.read size).1 })
  | .reset, _ => (empty, ⟨[], []⟩)

lemma write_of_le {q : BoundedQueue α cap} {input : List α}
    (h : q.items.length + input.length ≤ cap) :
    (q.write input).1 = true ∧ (q.write input).2.items = q.items ++ input := by
  simp [write, h]

lemma write_of_lt {q : BoundedQueue α cap} {input : List α}
    (h : cap < q.items.length + input.length) : q.write input = (false, q) := by
  simp [write, Nat.not_le.2 h]

/-- What has come out, followed by what is inside, is what has gone in. -/
def Conserved (s : BoundedQueue α cap × QueueLog α) : Prop :=
  s.2.handedOut ++ s.1.items = s.2.accepted

lemma conserved_empty : Conserved ((empty : BoundedQueue α cap), ⟨[], []⟩) := rfl

/-- Every operation conserves the items of the queue. -/
theorem conserved_apply {s : BoundedQueue α cap × QueueLog α} (h : Conserved s)
    (op : QueueOp α) : Conserved (apply op s) := by
  obtain ⟨q, log⟩ := s
  have h' : log.handedOut ++ q.items = log.accepted := h
  cases op with
  | write input =>
    rcases Nat.lt_or_ge cap (q.items.length + input.length) with hlt | hle
    · simpa [apply, write_of_lt hlt] using h
    · simp [apply, Conserved, write_of_le hle, ← h']
  | peek size => exact h
  | read size => simpa [apply, Conserved, read] using h'
  | reset => exact conserved_empty

end BoundedQueue
