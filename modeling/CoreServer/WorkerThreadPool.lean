import CoreServer.Types
import CoreServer.Lib.StepMachine
import Mathlib.Data.List.Count
import Mathlib.Data.Fintype.Sum

/-!
# `WorkerThreadPool`

`WorkerThreadPool.cpp` as a machine of `n` worker threads and any other threads that call
`AddJob`, one of which may call `Stop`.  A step is one access of shared memory: a locked
section, the unlocked test of `mIdleThreads`, a read or a write of an eventfd, or the test of
`mIsRunning`.  What a job does while it runs is not fixed: it may call `AddJob` any number of
times before it returns.

The threads and their eventfds have been created.  A `write` of 1 to an eventfd succeeds, since the
counter stays far below its maximum; a `read` may fail, as when a signal interrupts it.

A worker's `ThreadContext` is the index of the worker, and the top of the stack
`mIdleThreads` comes first.
-/

namespace CoreServer

namespace WorkerThreadPool

/-- Where a worker stands in `PollEvents`. -/
inductive WorkerPC (J : Type) where
  /-- Before `while (mIsRunning)`. -/
  | loop
  /-- Before `PopJob`. -/
  | pop
  /-- In `Execute` of a job. -/
  | execute (job : J)
  /-- In `Complete` of a job. -/
  | complete (job : J)
  /-- In `Idle`, before `mIdleThreads.push`. -/
  | idlePush
  /-- In `Idle`, before `read`. -/
  | idleRead
  /-- Out of the loop. -/
  | exited
deriving DecidableEq, Repr

/-- Where a thread stands in `AddJob`. -/
inductive AddPC (n : ℕ) (J : Type) where
  /-- Before `mJobQueue.push`. -/
  | push (job : J)
  /-- In `WakeOneThread`, before `mIdleThreads.empty()`. -/
  | test
  /-- In `WakeOneThread`, before `mIdleThreads.top()` and `pop()`. -/
  | pop
  /-- In `WakeOneThread`, before `write`. -/
  | write (context : Fin n)
deriving DecidableEq, Repr

/-- Where the thread that calls `Stop` stands. -/
inductive StopPC where
  | notCalled
  /-- Before `write` to the eventfd of a worker. -/
  | write (worker : ℕ)
  /-- In `pthread_join` of a worker. -/
  | join (worker : ℕ)
  | returned
deriving DecidableEq, Repr

/-- A thread that may call `AddJob`: a worker, or one of the others. -/
abbrev Thread (n : ℕ) (κ : Type) := Fin n ⊕ κ

/-- A step.  The label names the thread that moves; `callAddJob` says which job is added,
`executeReturns` what `Execute` returns, and `idleReadFails` that `read` returns -1. -/
inductive Step (n : ℕ) (κ J : Type) where
  | loop (worker : Fin n)
  | pop (worker : Fin n)
  | idlePush (worker : Fin n)
  | idleRead (worker : Fin n)
  | idleReadFails (worker : Fin n)
  | executeReturns (worker : Fin n) (result : Bool)
  | completeReturns (worker : Fin n)
  | callAddJob (thread : Thread n κ) (job : J)
  | addPush (thread : Thread n κ)
  | addTest (thread : Thread n κ)
  | addPop (thread : Thread n κ)
  | addWrite (thread : Thread n κ)
  | stop
  | stopWrite
  | stopJoin
deriving DecidableEq, Repr

end WorkerThreadPool

open WorkerThreadPool in
/-- The members of `WorkerThreadPool`, the eventfd counters, and where the threads stand. -/
structure WorkerThreadPool (n : ℕ) (κ J : Type) where
  mIsRunning : Bool
  mIdleThreads : List (Fin n)
  mJobQueue : List J
  eventFD : Fin n → ℕ
  worker : Fin n → WorkerPC J
  adding : Thread n κ → Option (AddPC n J)
  stopping : StopPC

namespace WorkerThreadPool

variable {n : ℕ} {κ J : Type}

/-- A pool whose workers have been started. -/
def start (n : ℕ) (κ J : Type) : WorkerThreadPool n κ J where
  mIsRunning := true
  mIdleThreads := []
  mJobQueue := []
  eventFD _ := 0
  worker _ := .loop
  adding _ := none
  stopping := .notCalled

/-- A worker may call `AddJob` while it runs a job, any other thread at any time. -/
def mayAdd (s : WorkerThreadPool n κ J) : Thread n κ → Bool
  | .inl w =>
    match s.worker w with
    | .execute _ | .complete _ => true
    | _ => false
  | .inr _ => true

/-- The worker `w` goes on at `pc`. -/
def goto (s : WorkerThreadPool n κ J) (w : Fin n) (pc : WorkerPC J) : WorkerThreadPool n κ J :=
  { s with worker := Function.update s.worker w pc }

/-- `write(fd, 1)` to the eventfd of a worker. -/
def signal (s : WorkerThreadPool n κ J) (w : Fin n) : WorkerThreadPool n κ J :=
  { s with eventFD := Function.update s.eventFD w (s.eventFD w + 1) }

section Machine

variable [DecidableEq κ]

/-- The thread `t` goes on at `pc` in `AddJob`, or returns from it. -/
def gotoAdd (s : WorkerThreadPool n κ J) (t : Thread n κ) (pc : Option (AddPC n J)) :
    WorkerThreadPool n κ J :=
  { s with adding := Function.update s.adding t pc }

/-- One step. -/
def step (s : WorkerThreadPool n κ J) : Step n κ J → Option (WorkerThreadPool n κ J)
  | .loop w =>
    match s.worker w with
    | .loop => some (s.goto w (if s.mIsRunning then .pop else .exited))
    | _ => none
  | .pop w =>
    match s.worker w, s.mJobQueue with
    | .pop, [] => some (s.goto w .idlePush)
    | .pop, job :: jobs => some ({ s with mJobQueue := jobs }.goto w (.execute job))
    | _, _ => none
  | .idlePush w =>
    match s.worker w with
    | .idlePush => some ({ s with mIdleThreads := w :: s.mIdleThreads }.goto w .idleRead)
    | _ => none
  -- `read` blocks while the counter is zero, and takes all that is in it
  | .idleRead w =>
    match s.worker w with
    | .idleRead =>
      if s.eventFD w = 0 then none
      else some ({ s with eventFD := Function.update s.eventFD w 0 }.goto w .loop)
    | _ => none
  -- `Idle` returns false, at which `PollEvents` does not look
  | .idleReadFails w =>
    match s.worker w with
    | .idleRead => some (s.goto w .loop)
    | _ => none
  -- a worker that is in `AddJob` has not come to the end of its job
  | .executeReturns w result =>
    match s.worker w, s.adding (.inl w) with
    | .execute job, none => some (s.goto w (if result then .complete job else .loop))
    | _, _ => none
  | .completeReturns w =>
    match s.worker w, s.adding (.inl w) with
    | .complete _, none => some (s.goto w .loop)
    | _, _ => none
  | .callAddJob t job =>
    match s.mayAdd t, s.adding t with
    | true, none => some (s.gotoAdd t (some (.push job)))
    | _, _ => none
  | .addPush t =>
    match s.adding t with
    | some (.push job) =>
      some ({ s with mJobQueue := s.mJobQueue ++ [job] }.gotoAdd t (some .test))
    | _ => none
  -- `mIdleThreads.empty()`, before the lock is taken
  | .addTest t =>
    match s.adding t with
    | some .test => some (s.gotoAdd t (if s.mIdleThreads = [] then none else some .pop))
    | _ => none
  -- `top` and `pop` of an empty stack have no defined behaviour
  | .addPop t =>
    match s.adding t, s.mIdleThreads with
    | some .pop, context :: idle =>
      some ({ s with mIdleThreads := idle }.gotoAdd t (some (.write context)))
    | _, _ => none
  | .addWrite t =>
    match s.adding t with
    | some (.write context) => some ((s.signal context).gotoAdd t none)
    | _ => none
  | .stop =>
    match s.stopping with
    | .notCalled => some { s with mIsRunning := false, stopping := .write 0 }
    | _ => none
  | .stopWrite =>
    match s.stopping with
    | .write i =>
      if h : i < n then some { s.signal ⟨i, h⟩ with stopping := .join i }
      else some { s with stopping := .returned }
    | _ => none
  -- `pthread_join` returns when the worker has left its loop
  | .stopJoin =>
    match s.stopping with
    | .join i =>
      if h : i < n then
        match s.worker ⟨i, h⟩ with
        | .exited => some { s with stopping := .write (i + 1) }
        | _ => none
      else none
    | _ => none

/-- The machine of one pool. -/
def machine (n : ℕ) (κ J : Type) [DecidableEq κ] :
    StepMachine (WorkerThreadPool n κ J) (Step n κ J) := ⟨step⟩

end Machine

/-- A lost wake-up: a job waits in the queue, no `AddJob` is in progress, and every worker
is in `Idle` with an eventfd that nobody has written to. -/
def Lost (s : WorkerThreadPool n κ J) : Prop :=
  s.mIsRunning = true ∧ s.mJobQueue ≠ [] ∧ (∀ t, s.adding t = none) ∧
    ∀ w, (s.worker w = .idlePush ∨ s.worker w = .idleRead) ∧ s.eventFD w = 0

instance [Fintype κ] [DecidableEq J] (s : WorkerThreadPool n κ J) : Decidable s.Lost :=
  inferInstanceAs (Decidable (_ ∧ _ ∧ (∀ _, _) ∧ ∀ _, _))

/-- The thread `t` tests `mIdleThreads.empty()` too early: a job waits in the queue, every
worker has found the queue empty and not yet pushed itself on the stack, with nothing to read
in its eventfd, and no other thread is in `AddJob`. -/
def TestsTooEarly (s : WorkerThreadPool n κ J) (t : Thread n κ) : Prop :=
  s.mIsRunning = true ∧ s.adding t = some .test ∧ s.mIdleThreads = [] ∧ s.mJobQueue ≠ [] ∧
    (∀ w, s.worker w = .idlePush ∧ s.eventFD w = 0) ∧ ∀ t', t' ≠ t → s.adding t' = none

/-- No thread tests `mIdleThreads.empty()` too early. -/
def TestsInTime (s : WorkerThreadPool n κ J) : Step n κ J → Prop
  | .addTest t => ¬ s.TestsTooEarly t
  | _ => True

/-! ## The steps -/

section Moves

variable [DecidableEq κ]

/-- Everything that a step can do. -/
inductive Moves (s : WorkerThreadPool n κ J) : Step n κ J → WorkerThreadPool n κ J → Prop where
  | loop {w : Fin n} (hpc : s.worker w = .loop) :
    Moves s (.loop w) (s.goto w (if s.mIsRunning then .pop else .exited))
  | popNone {w : Fin n} (hpc : s.worker w = .pop) (hqueue : s.mJobQueue = []) :
    Moves s (.pop w) (s.goto w .idlePush)
  | popJob {w : Fin n} {job : J} {jobs : List J} (hpc : s.worker w = .pop)
    (hqueue : s.mJobQueue = job :: jobs) :
    Moves s (.pop w) ({ s with mJobQueue := jobs }.goto w (.execute job))
  | idlePush {w : Fin n} (hpc : s.worker w = .idlePush) :
    Moves s (.idlePush w) ({ s with mIdleThreads := w :: s.mIdleThreads }.goto w .idleRead)
  | idleRead {w : Fin n} (hpc : s.worker w = .idleRead) (hevent : s.eventFD w ≠ 0) :
    Moves s (.idleRead w) ({ s with eventFD := Function.update s.eventFD w 0 }.goto w .loop)
  | idleReadFails {w : Fin n} (hpc : s.worker w = .idleRead) :
    Moves s (.idleReadFails w) (s.goto w .loop)
  | executeReturns {w : Fin n} {job : J} {result : Bool} (hpc : s.worker w = .execute job)
    (hadd : s.adding (.inl w) = none) :
    Moves s (.executeReturns w result) (s.goto w (if result then .complete job else .loop))
  | completeReturns {w : Fin n} {job : J} (hpc : s.worker w = .complete job)
    (hadd : s.adding (.inl w) = none) : Moves s (.completeReturns w) (s.goto w .loop)
  | callAddJob {t : Thread n κ} {job : J} (hmay : s.mayAdd t = true) (hadd : s.adding t = none) :
    Moves s (.callAddJob t job) (s.gotoAdd t (some (.push job)))
  | addPush {t : Thread n κ} {job : J} (hadd : s.adding t = some (.push job)) :
    Moves s (.addPush t) ({ s with mJobQueue := s.mJobQueue ++ [job] }.gotoAdd t (some .test))
  | addTest {t : Thread n κ} (hadd : s.adding t = some .test) :
    Moves s (.addTest t) (s.gotoAdd t (if s.mIdleThreads = [] then none else some .pop))
  | addPop {t : Thread n κ} {context : Fin n} {idle : List (Fin n)}
    (hadd : s.adding t = some .pop) (hidle : s.mIdleThreads = context :: idle) :
    Moves s (.addPop t) ({ s with mIdleThreads := idle }.gotoAdd t (some (.write context)))
  | addWrite {t : Thread n κ} {context : Fin n} (hadd : s.adding t = some (.write context)) :
    Moves s (.addWrite t) ((s.signal context).gotoAdd t none)
  | stop (hstop : s.stopping = .notCalled) :
    Moves s .stop { s with mIsRunning := false, stopping := .write 0 }
  | stopWrite {i : ℕ} (hstop : s.stopping = .write i) (hi : i < n) :
    Moves s .stopWrite { s.signal ⟨i, hi⟩ with stopping := .join i }
  | stopReturn {i : ℕ} (hstop : s.stopping = .write i) (hi : ¬ i < n) :
    Moves s .stopWrite { s with stopping := .returned }
  | stopJoin {i : ℕ} (hstop : s.stopping = .join i) (hi : i < n)
    (hexit : s.worker ⟨i, hi⟩ = .exited) :
    Moves s .stopJoin { s with stopping := .write (i + 1) }

theorem moves_of_step {s s' : WorkerThreadPool n κ J} {a : Step n κ J} (h : s.step a = some s') :
    s.Moves a s' := by
  cases a with
  | loop w =>
    simp only [step] at h
    split at h
    · exact Option.some.inj h ▸ .loop ‹_›
    · cases h
  | pop w =>
    simp only [step] at h
    split at h
    · exact Option.some.inj h ▸ .popNone ‹_› ‹_›
    · exact Option.some.inj h ▸ .popJob ‹_› ‹_›
    · cases h
  | idlePush w =>
    simp only [step] at h
    split at h
    · exact Option.some.inj h ▸ .idlePush ‹_›
    · cases h
  | idleRead w =>
    simp only [step] at h
    split at h
    · split at h
      · cases h
      · exact Option.some.inj h ▸ .idleRead ‹_› ‹_›
    · cases h
  | idleReadFails w =>
    simp only [step] at h
    split at h
    · exact Option.some.inj h ▸ .idleReadFails ‹_›
    · cases h
  | executeReturns w result =>
    simp only [step] at h
    split at h
    · exact Option.some.inj h ▸ .executeReturns ‹_› ‹_›
    · cases h
  | completeReturns w =>
    simp only [step] at h
    split at h
    · exact Option.some.inj h ▸ .completeReturns ‹_› ‹_›
    · cases h
  | callAddJob t job =>
    simp only [step] at h
    split at h
    · exact Option.some.inj h ▸ .callAddJob ‹_› ‹_›
    · cases h
  | addPush t =>
    simp only [step] at h
    split at h
    · exact Option.some.inj h ▸ .addPush ‹_›
    · cases h
  | addTest t =>
    simp only [step] at h
    split at h
    · exact Option.some.inj h ▸ .addTest ‹_›
    · cases h
  | addPop t =>
    simp only [step] at h
    split at h
    · exact Option.some.inj h ▸ .addPop ‹_› ‹_›
    · cases h
  | addWrite t =>
    simp only [step] at h
    split at h
    · exact Option.some.inj h ▸ .addWrite ‹_›
    · cases h
  | stop =>
    simp only [step] at h
    split at h
    · exact Option.some.inj h ▸ .stop ‹_›
    · cases h
  | stopWrite =>
    simp only [step] at h
    split at h
    · split at h
      · exact Option.some.inj h ▸ .stopWrite ‹_› ‹_›
      · exact Option.some.inj h ▸ .stopReturn ‹_› ‹_›
    · cases h
  | stopJoin =>
    simp only [step] at h
    split at h
    · split at h
      · split at h
        · exact Option.some.inj h ▸ .stopJoin ‹_› ‹_› ‹_›
        · cases h
      · cases h
    · cases h

end Moves

/-! ## Who wakes a worker -/

/-- Somebody wakes the worker, or has done so: it is on the stack, or a thread that has taken it
from there is about to write to its eventfd, or something is in its eventfd. -/
def Wakeable (s : WorkerThreadPool n κ J) (w : Fin n) : Prop :=
  w ∈ s.mIdleThreads ∨ (∃ t, s.adding t = some (.write w)) ∨ s.eventFD w ≠ 0

/-- Before `Stop` every worker that waits to read can be woken. -/
def Inv (s : WorkerThreadPool n κ J) : Prop :=
  s.mIsRunning = true → s.stopping = .notCalled ∧ ∀ w, s.worker w = .idleRead → s.Wakeable w

lemma inv_start : (start n κ J).Inv := fun _ => ⟨rfl, fun _ h => by cases h⟩

variable {s s' : WorkerThreadPool n κ J} {w w' : Fin n} {t : Thread n κ}

lemma goto_worker {pc : WorkerPC J} :
    (s.goto w pc).worker w' = if w' = w then pc else s.worker w' :=
  Function.update_apply ..

@[simp] lemma goto_worker_self {pc : WorkerPC J} : (s.goto w pc).worker w = pc :=
  Function.update_self ..

lemma signal_eventFD :
    (s.signal w).eventFD w' = if w' = w then s.eventFD w + 1 else s.eventFD w' :=
  Function.update_apply ..

/-- A worker moves, and does not wait to read afterwards. -/
lemma Inv.goto (hs : s.Inv) {pc : WorkerPC J} (hpc : pc ≠ .idleRead) : (s.goto w pc).Inv := by
  intro hrun
  refine ⟨(hs hrun).1, fun w' hw' => ?_⟩
  rw [goto_worker] at hw'
  split at hw'
  · exact absurd hw' hpc
  · exact (hs hrun).2 w' hw'

/-- A worker parks itself. -/
lemma Inv.idlePush (hs : s.Inv) :
    ({ s with mIdleThreads := w :: s.mIdleThreads }.goto w .idleRead).Inv := by
  intro hrun
  refine ⟨(hs hrun).1, fun w' hw' => ?_⟩
  rw [goto_worker] at hw'
  split at hw'
  · rename_i heq
    exact Or.inl (heq ▸ List.mem_cons_self)
  · exact ((hs hrun).2 w' hw').imp_left (List.mem_cons_of_mem _)

/-- A worker reads what is in its eventfd. -/
lemma Inv.idleRead (hs : s.Inv) :
    ({ s with eventFD := Function.update s.eventFD w 0 }.goto w .loop).Inv := by
  intro hrun
  refine ⟨(hs hrun).1, fun w' hw' => ?_⟩
  rw [goto_worker] at hw'
  split at hw'
  · cases hw'
  · rename_i hne
    refine ((hs hrun).2 w' hw').imp_right (Or.imp_right fun hevent => ?_)
    exact (Function.update_of_ne hne ..).trans_ne hevent

variable [DecidableEq κ]

lemma gotoAdd_adding {t' : Thread n κ} {pc : Option (AddPC n J)} :
    (s.gotoAdd t pc).adding t' = if t' = t then pc else s.adding t' :=
  Function.update_apply ..

@[simp] lemma gotoAdd_adding_self {pc : Option (AddPC n J)} : (s.gotoAdd t pc).adding t = pc :=
  Function.update_self ..

/-- A claim of another thread stays while `t` moves. -/
lemma claimed_gotoAdd {pc : Option (AddPC n J)} (hold : s.adding t ≠ some (.write w))
    (h : ∃ t', s.adding t' = some (.write w)) :
    ∃ t', (s.gotoAdd t pc).adding t' = some (.write w) := by
  obtain ⟨t', ht'⟩ := h
  refine ⟨t', ?_⟩
  rw [gotoAdd_adding, if_neg]
  · exact ht'
  · rintro rfl
    exact hold ht'

/-- A thread that was not about to write moves in `AddJob`. -/
lemma Inv.gotoAdd (hs : s.Inv) {pc : Option (AddPC n J)}
    (hold : ∀ w, s.adding t ≠ some (.write w)) : (s.gotoAdd t pc).Inv := fun hrun =>
  ⟨(hs hrun).1, fun w' hw' =>
    ((hs hrun).2 w' hw').imp_right (Or.imp_left (claimed_gotoAdd (hold w')))⟩

/-- A thread takes a worker from the stack. -/
lemma Inv.addPop (hs : s.Inv) (hpc : s.adding t = some .pop) {idle : List (Fin n)}
    (hidle : s.mIdleThreads = w :: idle) :
    ({ s with mIdleThreads := idle }.gotoAdd t (some (.write w))).Inv := by
  intro hrun
  refine ⟨(hs hrun).1, fun w' hw' => ?_⟩
  rcases eq_or_ne w' w with rfl | hne
  · exact Or.inr (Or.inl ⟨t, gotoAdd_adding_self⟩)
  · refine ((hs hrun).2 w' hw').imp (fun hmem => ?_) (Or.imp_left fun hclaim => ?_)
    · rw [hidle] at hmem
      exact (List.mem_cons.1 hmem).resolve_left hne
    · exact claimed_gotoAdd (by rw [hpc]; simp) hclaim

/-- A thread writes to the eventfd of the worker that it has taken from the stack. -/
lemma Inv.addWrite (hs : s.Inv) (hpc : s.adding t = some (.write w)) :
    ((s.signal w).gotoAdd t none).Inv := by
  intro hrun
  refine ⟨(hs hrun).1, fun w' hw' => ?_⟩
  rcases eq_or_ne w' w with rfl | hne
  · refine Or.inr (Or.inr ?_)
    change (s.signal w').eventFD w' ≠ 0
    rw [signal_eventFD, if_pos rfl]
    exact Nat.succ_ne_zero _
  · refine ((hs hrun).2 w' hw').imp_right (Or.imp (fun hclaim => ?_) fun hevent => ?_)
    · refine claimed_gotoAdd (s := s.signal w) ?_ hclaim
      intro hclaim'
      exact hne (AddPC.write.inj (Option.some.inj (hclaim'.symm.trans hpc)))
    · change (s.signal w).eventFD w' ≠ 0
      rwa [signal_eventFD, if_neg hne]

/-- **Every step keeps the workers wakeable, up to `Stop`.** -/
theorem Inv.step (hs : s.Inv) {a : Step n κ J} (h : s.step a = some s') : s'.Inv := by
  cases moves_of_step h with
  | @loop w hpc =>
    refine hs.goto ?_
    split <;> simp
  | popNone hpc hqueue => exact hs.goto (by simp)
  | @popJob w job jobs hpc hqueue =>
    have hqueued : ({ s with mJobQueue := jobs } : WorkerThreadPool n κ J).Inv := hs
    exact hqueued.goto (by simp)
  | idlePush hpc => exact hs.idlePush
  | idleRead hpc hevent => exact hs.idleRead
  | idleReadFails hpc => exact hs.goto (by simp)
  | @executeReturns w job result hpc hadd =>
    refine hs.goto ?_
    split <;> simp
  | completeReturns hpc hadd => exact hs.goto (by simp)
  | callAddJob hmay hadd => exact hs.gotoAdd (by simp [hadd])
  | @addPush t job hadd =>
    have hqueued : ({ s with mJobQueue := s.mJobQueue ++ [job] } : WorkerThreadPool n κ J).Inv := hs
    exact hqueued.gotoAdd (by simp [hadd])
  | addTest hadd => exact hs.gotoAdd (by simp [hadd])
  | addPop hadd hidle => exact hs.addPop hadd hidle
  | addWrite hadd => exact hs.addWrite hadd
  | stop hstop => exact fun hrun => absurd hrun (by simp)
  | stopWrite hstop hi => exact fun hrun => absurd (hstop.symm.trans (hs hrun).1) (by simp)
  | stopReturn hstop hi => exact fun hrun => absurd (hstop.symm.trans (hs hrun).1) (by simp)
  | stopJoin hstop hi hexit => exact fun hrun => absurd (hstop.symm.trans (hs hrun).1) (by simp)

/-! ## When a wake-up is lost -/

/-- The only step into a lost wake-up is a test of the stack that comes too early. -/
lemma testsTooEarly_of_lost (hs : s.Inv) {a : Step n κ J} (h : s.step a = some s')
    (hbefore : ¬ s.Lost) (hlost : s'.Lost) : ∃ t, a = .addTest t ∧ s.TestsTooEarly t := by
  obtain ⟨hrun, hqueue, hadding, hidle⟩ := hlost
  cases moves_of_step h with
  | @loop w hpc =>
    have hw := (hidle w).1
    rw [goto_worker_self] at hw
    split at hw <;> simp at hw
  | popNone hpc hempty => exact absurd hempty hqueue
  | @popJob w job jobs hpc hjobs => simpa using (hidle w).1
  | @idlePush w hpc =>
    -- the worker was about to push itself, so the wake-up was lost already
    refine absurd ⟨hrun, hqueue, hadding, fun w' => ⟨?_, (hidle w').2⟩⟩ hbefore
    have hw' := (hidle w').1
    rw [goto_worker] at hw'
    split at hw'
    · rename_i heq
      exact Or.inl (heq ▸ hpc)
    · exact hw'
  | @idleRead w hpc hevent => simpa using (hidle w).1
  | @idleReadFails w hpc => simpa using (hidle w).1
  | @executeReturns w job result hpc hadd =>
    have hw := (hidle w).1
    rw [goto_worker_self] at hw
    split at hw <;> simp at hw
  | @completeReturns w job hpc hadd => simpa using (hidle w).1
  | @callAddJob t job hmay hadd => simpa using hadding t
  | @addPush t job hadd => simpa using hadding t
  | @addTest t hadd =>
    have hempty : s.mIdleThreads = [] := by
      by_contra hne
      have ht := hadding t
      rw [gotoAdd_adding_self, if_neg hne] at ht
      cases ht
    have hothers : ∀ t', t' ≠ t → s.adding t' = none := by
      intro t' hne
      have ht' := hadding t'
      rwa [gotoAdd_adding, if_neg hne] at ht'
    refine ⟨t, rfl, hrun, hadd, hempty, hqueue, fun w => ⟨?_, (hidle w).2⟩, hothers⟩
    rcases (hidle w).1 with hpush | hread
    · exact hpush
    · -- a worker that waits to read is on the stack, or about to be written to, or written to
      rcases (hs hrun).2 w hread with hmem | ⟨t', ht'⟩ | hevent
      · simp [hempty] at hmem
      · rcases eq_or_ne t' t with rfl | hne
        · rw [hadd] at ht'
          cases ht'
        · rw [hothers t' hne] at ht'
          cases ht'
      · exact absurd (hidle w).2 hevent
  | @addPop t context idle hadd hstack => simpa using hadding t
  | @addWrite t context hadd =>
    have hevent : (s.signal context).eventFD context = 0 := (hidle context).2
    rw [signal_eventFD, if_pos rfl] at hevent
    omega
  | stop hstop => exact absurd hrun (by simp)
  | stopWrite hstop hi => exact absurd (hstop.symm.trans (hs hrun).1) (by simp)
  | stopReturn hstop hi => exact absurd (hstop.symm.trans (hs hrun).1) (by simp)
  | stopJoin hstop hi hexit => exact absurd (hstop.symm.trans (hs hrun).1) (by simp)

/-- A test of the stack that comes too early loses the wake-up. -/
lemma lost_of_testsTooEarly (ht : s.TestsTooEarly t)
    (h : s.step (.addTest t) = some s') : s'.Lost := by
  obtain ⟨hrun, hadd, hidle, hqueue, hworkers, hothers⟩ := ht
  cases moves_of_step h
  refine ⟨hrun, hqueue, fun t' => ?_, fun w => ⟨Or.inl (hworkers w).1, (hworkers w).2⟩⟩
  rw [gotoAdd_adding, if_pos hidle]
  split
  · rfl
  · rename_i hne
    exact hothers t' hne

end WorkerThreadPool

open WorkerThreadPool

/-- **When no wake-up is lost.**  For any number of workers and of other threads, no state of
a run has lost a wake-up exactly when in no step of the run the stack is tested too early. -/
theorem workerThreadPool_neverLost_iff (n : ℕ) (κ J : Type) [DecidableEq κ]
    (as : List (Step n κ J)) :
    (machine n κ J).Always (fun s => ¬ s.Lost) (start n κ J) as ↔
      (machine n κ J).Along TestsInTime (start n κ J) as := by
  have hstart : ¬ (start n κ J).Lost := fun hlost => hlost.2.1 rfl
  constructor
  · -- a test that comes too early loses the wake-up at once
    intro h
    refine StepMachine.along_of_always (I := fun _ => True) (fun _ _ _ _ _ => trivial) ?_ ?_
      trivial h
    · intro s a s' _ hstep hkept
      cases a <;> try trivial
      exact fun hearly => hkept (lost_of_testsTooEarly hearly hstep)
    · intro s a hstuck
      cases a <;> try trivial
      intro hearly
      simp [machine, WorkerThreadPool.step, hearly.2.1] at hstuck
  · refine StepMachine.always_of_along (I := fun s : WorkerThreadPool n κ J => s.Inv ∧ ¬ s.Lost)
      ?_ (fun _ hs => hs.2) ⟨inv_start, hstart⟩
    intro s a s' ⟨hs, hbefore⟩ hintime hstep
    refine ⟨hs.step hstep, fun hlost => ?_⟩
    obtain ⟨t, rfl, hearly⟩ := testsTooEarly_of_lost hs hstep hbefore hlost
    exact hintime hearly

/-- One worker and one other thread: the worker finds the queue empty, the other thread adds
a job and finds the stack empty, and the worker goes to sleep. -/
theorem workerThreadPool_loses_wakeup : ∃ s,
    (machine 1 Unit ℕ).exec (start 1 Unit ℕ)
      [.loop 0, .pop 0, .callAddJob (.inr ()) 7, .addPush (.inr ()), .addTest (.inr ()),
        .idlePush 0] = some s ∧ s.Lost :=
  StepMachine.exists_exec_and Lost (by decide +kernel) fun _ _ hlost => hlost

end CoreServer
