import CoreServer.Lib.Simulation
import CoreServer.Lock
import CoreServer.WorkerThreadPool

/-!
# `WorkerThreadPool` with its two mutexes

`WorkerThreadPool` takes each locked section of the pool as one step.  Here a section is what
the code has: the guard takes the mutex, the container is accessed one call at a time, and the
guard gives the mutex back, with any steps of the other threads in between.  `PopJob` calls
`empty`, then `front`, then `pop`; `WakeOneThread` calls `top`, then `pop`, after a call of
`empty` that no lock protects.

The machine of this file refines the one of `WorkerThreadPool`: a section counts as done at the
call that changes the container, and up to there the container is as the earlier calls of the
section have seen it.
-/

namespace CoreServer

namespace LockedPool

/-- Where a worker stands in `PollEvents`. -/
inductive WorkerPC (J : Type) where
  | loop
  /-- In `PopJob`, before the guard takes `mQueueMutex`. -/
  | popLock
  /-- Before `mJobQueue.empty()`. -/
  | popEmpty
  /-- Before `mJobQueue.front()`. -/
  | popFront
  /-- Before `mJobQueue.pop()`. -/
  | popPop (retJob : J)
  /-- Before the guard gives `mQueueMutex` back and `PopJob` returns `result`. -/
  | popUnlock (result : Option J)
  | execute (job : J)
  | complete (job : J)
  /-- In `Idle`, before the guard takes `mStackMutex`. -/
  | idleLock
  /-- Before `mIdleThreads.push`. -/
  | idlePush
  /-- Before the guard gives `mStackMutex` back. -/
  | idleUnlock
  /-- Before `read`. -/
  | idleRead
  | exited
deriving DecidableEq, Repr

/-- Where a thread stands in `AddJob`. -/
inductive AddPC (n : ℕ) (J : Type) where
  /-- Before the guard takes `mQueueMutex`. -/
  | pushLock (job : J)
  /-- Before `mJobQueue.push`. -/
  | push (job : J)
  /-- Before the guard gives `mQueueMutex` back. -/
  | pushUnlock
  /-- In `WakeOneThread`, before `mIdleThreads.empty()`. -/
  | test
  /-- Before the guard takes `mStackMutex`. -/
  | wakeLock
  /-- Before `mIdleThreads.top()`. -/
  | wakeTop
  /-- Before `mIdleThreads.pop()`. -/
  | wakePop (context : Fin n)
  /-- Before the guard gives `mStackMutex` back. -/
  | wakeUnlock (context : Fin n)
  /-- Before `write`. -/
  | write (context : Fin n)
deriving DecidableEq, Repr

/-- A step.  A worker in `PollEvents` and a thread in `AddJob` go on where they stand, or `read`
fails in `Idle`; the other labels say what the job and the application decide. -/
inductive Step (n : ℕ) (κ J : Type) where
  | worker (w : Fin n)
  | idleReadFails (w : Fin n)
  | executeReturns (w : Fin n) (result : Bool)
  | completeReturns (w : Fin n)
  | callAddJob (thread : WorkerThreadPool.Thread n κ) (job : J)
  | addJob (thread : WorkerThreadPool.Thread n κ)
  | stop
  | stopWrite
  | stopJoin
deriving DecidableEq, Repr

end LockedPool

open LockedPool WorkerThreadPool in
/-- The members of `WorkerThreadPool`, the eventfd counters, and where the threads stand. -/
structure LockedPool (n : ℕ) (κ J : Type) where
  mIsRunning : Bool
  mStackMutex : Mutex (Thread n κ)
  mIdleThreads : List (Fin n)
  mQueueMutex : Mutex (Thread n κ)
  mJobQueue : List J
  eventFD : Fin n → ℕ
  worker : Fin n → LockedPool.WorkerPC J
  adding : Thread n κ → Option (LockedPool.AddPC n J)
  stopping : StopPC

namespace LockedPool

open WorkerThreadPool (Thread StopPC)

variable {n : ℕ} {κ J : Type}

/-- A pool whose workers have been started. -/
def start (n : ℕ) (κ J : Type) : LockedPool n κ J where
  mIsRunning := true
  mStackMutex := Mutex.construct
  mIdleThreads := []
  mQueueMutex := Mutex.construct
  mJobQueue := []
  eventFD _ := 0
  worker _ := .loop
  adding _ := none
  stopping := .notCalled

/-- A worker may call `AddJob` while it runs a job, any other thread at any time. -/
def mayAdd (s : LockedPool n κ J) : Thread n κ → Bool
  | .inl w =>
    match s.worker w with
    | .execute _ | .complete _ => true
    | _ => false
  | .inr _ => true

/-- The worker `w` goes on at `pc`. -/
def goto (s : LockedPool n κ J) (w : Fin n) (pc : WorkerPC J) : LockedPool n κ J :=
  { s with worker := Function.update s.worker w pc }

/-- `write(fd, 1)` to the eventfd of a worker. -/
def signal (s : LockedPool n κ J) (w : Fin n) : LockedPool n κ J :=
  { s with eventFD := Function.update s.eventFD w (s.eventFD w + 1) }

/-- A worker goes on in `PollEvents`, `PopJob` or `Idle`. -/
def stepWorker (s : LockedPool n κ J) (w : Fin n) : Option (LockedPool n κ J) :=
  match s.worker w with
  | .loop => some (s.goto w (if s.mIsRunning then .popLock else .exited))
  | .popLock => do
    let m ← s.mQueueMutex.lock (.inl w)
    return { s with mQueueMutex := m }.goto w .popEmpty
  | .popEmpty => some (s.goto w (if s.mJobQueue.isEmpty then .popUnlock none else .popFront))
  -- `front` and `pop` of an empty queue have no defined behaviour
  | .popFront =>
    match s.mJobQueue with
    | [] => none
    | job :: _ => some (s.goto w (.popPop job))
  | .popPop retJob =>
    match s.mJobQueue with
    | [] => none
    | _ :: jobs => some ({ s with mJobQueue := jobs }.goto w (.popUnlock (some retJob)))
  | .popUnlock none => some ({ s with mQueueMutex := s.mQueueMutex.unlock }.goto w .idleLock)
  | .popUnlock (some job) =>
    some ({ s with mQueueMutex := s.mQueueMutex.unlock }.goto w (.execute job))
  | .idleLock => do
    let m ← s.mStackMutex.lock (.inl w)
    return { s with mStackMutex := m }.goto w .idlePush
  | .idlePush => some ({ s with mIdleThreads := w :: s.mIdleThreads }.goto w .idleUnlock)
  | .idleUnlock => some ({ s with mStackMutex := s.mStackMutex.unlock }.goto w .idleRead)
  -- `read` blocks while the counter is zero, and takes all that is in it
  | .idleRead =>
    if s.eventFD w = 0 then none
    else some ({ s with eventFD := Function.update s.eventFD w 0 }.goto w .loop)
  | .execute _ | .complete _ | .exited => none

section Machine

variable [DecidableEq κ]

/-- The thread `t` goes on at `pc` in `AddJob`, or returns from it. -/
def gotoAdd (s : LockedPool n κ J) (t : Thread n κ) (pc : Option (AddPC n J)) :
    LockedPool n κ J :=
  { s with adding := Function.update s.adding t pc }

/-- A thread goes on in `AddJob` or `WakeOneThread`. -/
def stepAdd (s : LockedPool n κ J) (t : Thread n κ) : Option (LockedPool n κ J) :=
  match s.adding t with
  | none => none
  | some (.pushLock job) => do
    let m ← s.mQueueMutex.lock t
    return { s with mQueueMutex := m }.gotoAdd t (some (.push job))
  | some (.push job) =>
    some ({ s with mJobQueue := s.mJobQueue ++ [job] }.gotoAdd t (some .pushUnlock))
  | some .pushUnlock =>
    some ({ s with mQueueMutex := s.mQueueMutex.unlock }.gotoAdd t (some .test))
  -- no lock is held here
  | some .test => some (s.gotoAdd t (if s.mIdleThreads.isEmpty then none else some .wakeLock))
  | some .wakeLock => do
    let m ← s.mStackMutex.lock t
    return { s with mStackMutex := m }.gotoAdd t (some .wakeTop)
  -- `top` and `pop` of an empty stack have no defined behaviour
  | some .wakeTop =>
    match s.mIdleThreads with
    | [] => none
    | context :: _ => some (s.gotoAdd t (some (.wakePop context)))
  | some (.wakePop context) =>
    match s.mIdleThreads with
    | [] => none
    | _ :: idle => some ({ s with mIdleThreads := idle }.gotoAdd t (some (.wakeUnlock context)))
  | some (.wakeUnlock context) =>
    some ({ s with mStackMutex := s.mStackMutex.unlock }.gotoAdd t (some (.write context)))
  | some (.write context) => some ((s.signal context).gotoAdd t none)

/-- One step. -/
def step (s : LockedPool n κ J) : Step n κ J → Option (LockedPool n κ J)
  | .worker w => s.stepWorker w
  -- `Idle` returns false, at which `PollEvents` does not look
  | .idleReadFails w =>
    match s.worker w with
    | .idleRead => some (s.goto w .loop)
    | _ => none
  | .executeReturns w result =>
    match s.worker w, s.adding (.inl w) with
    | .execute job, none => some (s.goto w (if result then .complete job else .loop))
    | _, _ => none
  | .completeReturns w =>
    match s.worker w, s.adding (.inl w) with
    | .complete _, none => some (s.goto w .loop)
    | _, _ => none
  | .callAddJob t job =>
    match s.mayAdd t, s.adding t with
    | true, none => some (s.gotoAdd t (some (.pushLock job)))
    | _, _ => none
  | .addJob t => s.stepAdd t
  | .stop =>
    match s.stopping with
    | .notCalled => some { s with mIsRunning := false, stopping := .write 0 }
    | _ => none
  | .stopWrite =>
    match s.stopping with
    | .write i =>
      if h : i < n then some { s.signal ⟨i, h⟩ with stopping := .join i }
      else some { s with stopping := .returned }
    | _ => none
  | .stopJoin =>
    match s.stopping with
    | .join i =>
      if h : i < n then
        match s.worker ⟨i, h⟩ with
        | .exited => some { s with stopping := .write (i + 1) }
        | _ => none
      else none
    | _ => none

/-- The machine of one pool. -/
def machine (n : ℕ) (κ J : Type) [DecidableEq κ] :
    StepMachine (LockedPool n κ J) (Step n κ J) := ⟨step⟩

end Machine

/-! ## What a state stands for -/

/-- A section is done from the call on that changes the container. -/
def WorkerPC.atomic : WorkerPC J → WorkerThreadPool.WorkerPC J
  | .loop => .loop
  | .popLock | .popEmpty | .popFront | .popPop _ => .pop
  | .popUnlock (some job) => .execute job
  | .popUnlock none => .idlePush
  | .execute job => .execute job
  | .complete job => .complete job
  | .idleLock | .idlePush => .idlePush
  | .idleUnlock | .idleRead => .idleRead
  | .exited => .exited

/-- The same for the sections of `AddJob` and `WakeOneThread`. -/
def AddPC.atomic : AddPC n J → WorkerThreadPool.AddPC n J
  | .pushLock job | .push job => .push job
  | .pushUnlock | .test => .test
  | .wakeLock | .wakeTop | .wakePop _ => .pop
  | .wakeUnlock context | .write context => .write context

/-- The pool whose locked sections are one step each. -/
def atomic (s : LockedPool n κ J) : WorkerThreadPool n κ J where
  mIsRunning := s.mIsRunning
  mIdleThreads := s.mIdleThreads
  mJobQueue := s.mJobQueue
  eventFD := s.eventFD
  worker w := (s.worker w).atomic
  adding t := (s.adding t).map AddPC.atomic
  stopping := s.stopping

/-- The step of the pool with one-step sections that a worker's step is seen as. -/
def seeWorker (s : LockedPool n κ J) (w : Fin n) : List (WorkerThreadPool.Step n κ J) :=
  match s.worker w with
  | .loop => [.loop w]
  | .popEmpty => if s.mJobQueue.isEmpty then [.pop w] else []
  | .popPop _ => [.pop w]
  | .idlePush => [.idlePush w]
  | .idleRead => [.idleRead w]
  | _ => []

/-- The same for a thread in `AddJob`. -/
def seeAdd (s : LockedPool n κ J) (t : Thread n κ) : List (WorkerThreadPool.Step n κ J) :=
  match s.adding t with
  | some (.push _) => [.addPush t]
  | some .test => [.addTest t]
  | some (.wakePop _) => [.addPop t]
  | some (.write _) => [.addWrite t]
  | _ => []

/-- The steps of the pool with one-step sections that a step is seen as. -/
def see (s : LockedPool n κ J) : Step n κ J → List (WorkerThreadPool.Step n κ J)
  | .worker w => s.seeWorker w
  | .idleReadFails w => [.idleReadFails w]
  | .executeReturns w result => [.executeReturns w result]
  | .completeReturns w => [.completeReturns w]
  | .callAddJob t job => [.callAddJob t job]
  | .addJob t => s.seeAdd t
  | .stop => [.stop]
  | .stopWrite => [.stopWrite]
  | .stopJoin => [.stopJoin]

/-! ## Who is inside a section -/

/-- The worker is in the section of `PopJob`. -/
def WorkerPC.inQueue : WorkerPC J → Bool
  | .popEmpty | .popFront | .popPop _ | .popUnlock _ => true
  | _ => false

/-- The worker is in the section of `Idle`. -/
def WorkerPC.inStack : WorkerPC J → Bool
  | .idlePush | .idleUnlock => true
  | _ => false

/-- The thread is in the section of `AddJob`. -/
def AddPC.inQueue : AddPC n J → Bool
  | .push _ | .pushUnlock => true
  | _ => false

/-- The thread is in the section of `WakeOneThread`. -/
def AddPC.inStack : AddPC n J → Bool
  | .wakeTop | .wakePop _ | .wakeUnlock _ => true
  | _ => false

/-- The thread `t` stands between a `Lock` and the `Unlock` of `mQueueMutex`. -/
def inQueue (s : LockedPool n κ J) (t : Thread n κ) : Bool :=
  (match t with
    | .inl w => (s.worker w).inQueue
    | .inr _ => false) || (s.adding t).any AddPC.inQueue

/-- The thread `t` stands between a `Lock` and the `Unlock` of `mStackMutex`. -/
def inStack (s : LockedPool n κ J) (t : Thread n κ) : Bool :=
  (match t with
    | .inl w => (s.worker w).inStack
    | .inr _ => false) || (s.adding t).any AddPC.inStack

/-- The worker is in a job. -/
def WorkerPC.running : WorkerPC J → Bool
  | .execute _ | .complete _ => true
  | _ => false

/-- What a worker in `PopJob` has seen of the queue is so. -/
def WorkerPC.Sees (queue : List J) : WorkerPC J → Prop
  | .popFront => queue ≠ []
  | .popPop retJob => queue.head? = some retJob
  | _ => True

/-- What a thread in `WakeOneThread` has seen of the stack is so. -/
def AddPC.Sees (idle : List (Fin n)) : AddPC n J → Prop
  | .wakePop context => idle.head? = some context
  | _ => True

lemma WorkerPC.Sees.of_not_inQueue {pc : WorkerPC J} (h : pc.inQueue = false) (queue : List J) :
    pc.Sees queue := by
  cases pc with
  | popFront => simp [inQueue] at h
  | popPop retJob => simp [inQueue] at h
  | _ => trivial

lemma AddPC.Sees.of_not_inStack {pc : AddPC n J} (h : pc.inStack = false)
    (idle : List (Fin n)) : pc.Sees idle := by
  cases pc with
  | wakePop context => simp [inStack] at h
  | _ => trivial

/-- Each mutex is held by the thread inside its sections, which has seen the container as it
is; and a worker is in `AddJob` only while it is in a job. -/
structure Inv (s : LockedPool n κ J) : Prop where
  queue : s.mQueueMutex.Guards s.inQueue
  stack : s.mStackMutex.Guards s.inStack
  seesQueue : ∀ w, (s.worker w).Sees s.mJobQueue
  seesStack : ∀ t, ∀ pc ∈ s.adding t, pc.Sees s.mIdleThreads
  adding : ∀ w, (s.worker w).running = false → s.adding (.inl w) = none

lemma inv_start : (start n κ J).Inv where
  queue t := by cases t <;> simp [inQueue, start, WorkerPC.inQueue, Mutex.construct]
  stack t := by cases t <;> simp [inStack, start, WorkerPC.inStack, Mutex.construct]
  seesQueue _ := trivial
  seesStack _ _ h := by simp [start] at h
  adding _ _ := rfl

variable {s s' : LockedPool n κ J} {w : Fin n} {t : Thread n κ}

@[simp] lemma goto_worker_self {pc : WorkerPC J} : (s.goto w pc).worker w = pc :=
  Function.update_self ..

lemma inQueue_worker (h : s.adding (.inl w) = none) :
    s.inQueue (.inl w) = (s.worker w).inQueue := by
  simp [inQueue, h]

lemma inStack_worker (h : s.adding (.inl w) = none) :
    s.inStack (.inl w) = (s.worker w).inStack := by
  simp [inStack, h]

/-- A worker that is not in a job goes on. -/
lemma Inv.moveWorker (hs : s.Inv) {pc : WorkerPC J} (hadd : s.adding (.inl w) = none)
    (hworker : s'.worker = Function.update s.worker w pc) (hadding : s'.adding = s.adding)
    (hqueue : Mutex.Uses s.mQueueMutex s'.mQueueMutex s.mJobQueue s'.mJobQueue s.inQueue
      s'.inQueue (.inl w))
    (hstack : Mutex.Uses s.mStackMutex s'.mStackMutex s.mIdleThreads s'.mIdleThreads s.inStack
      s'.inStack (.inl w))
    (hsees : pc.Sees s'.mJobQueue) : s'.Inv := by
  have hother : ∀ w', w' ≠ w → s'.worker w' = s.worker w' := fun w' hne => by
    rw [hworker, Function.update_of_ne hne]
  refine ⟨hs.queue.uses hqueue ?_, hs.stack.uses hstack ?_, ?_, ?_, ?_⟩
  · rintro (w' | k) hne
    · simp only [inQueue, hadding, hother w' (fun h => hne (h ▸ rfl))]
    · simp only [inQueue, hadding]
  · rintro (w' | k) hne
    · simp only [inStack, hadding, hother w' (fun h => hne (h ▸ rfl))]
    · simp only [inStack, hadding]
  · intro w'
    rcases eq_or_ne w' w with rfl | hne
    · rw [hworker, Function.update_self]
      exact hsees
    · rw [hother w' hne]
      by_cases hin : (s.worker w').inQueue = true
      · rw [hqueue.data_eq hs.queue (u := .inl w') (by simp [inQueue, hin]) (by simpa using hne)]
        exact hs.seesQueue w'
      · exact .of_not_inQueue (Bool.eq_false_iff.2 hin) _
  · intro t' pc' hpc'
    rw [hadding] at hpc'
    by_cases hin : pc'.inStack = true
    · have hne : t' ≠ .inl w := by
        rintro rfl
        rw [hadd] at hpc'
        cases hpc'
      rw [hstack.data_eq hs.stack (u := t') (by simp [inStack, Option.mem_def.1 hpc', hin]) hne]
      exact hs.seesStack t' pc' hpc'
    · exact .of_not_inStack (Bool.eq_false_iff.2 hin) _
  · intro w' hrun
    rw [hadding]
    rcases eq_or_ne w' w with rfl | hne
    · exact hadd
    · rw [hother w' hne] at hrun
      exact hs.adding w' hrun

/-- The pool members that no mutex protects do not matter. -/
lemma Inv.congr (hs : s.Inv) (hqueue : s'.mQueueMutex = s.mQueueMutex)
    (hjobs : s'.mJobQueue = s.mJobQueue) (hstack : s'.mStackMutex = s.mStackMutex)
    (hidle : s'.mIdleThreads = s.mIdleThreads) (hworker : s'.worker = s.worker)
    (hadding : s'.adding = s.adding) : s'.Inv := by
  obtain ⟨h₁, h₂, h₃, h₄, h₅⟩ := hs
  refine ⟨?_, ?_, ?_, ?_, ?_⟩
  · rw [hqueue]
    exact h₁.congr fun t => by simp only [inQueue, hworker, hadding]
  · rw [hstack]
    exact h₂.congr fun t => by simp only [inStack, hworker, hadding]
  · rwa [hworker, hjobs]
  · rwa [hadding, hidle]
  · rwa [hworker, hadding]

/-- A worker that is in `AddJob` is in a job. -/
lemma Inv.running (hs : s.Inv) {pc : AddPC n J} (h : s.adding t = some pc) :
    ∀ w, t = .inl w → (s.worker w).running = true := by
  rintro w rfl
  by_contra hrun
  rw [hs.adding w (Bool.eq_false_iff.2 hrun)] at h
  cases h

lemma inQueue_add (hrun : ∀ w, t = .inl w → (s.worker w).running = true) :
    s.inQueue t = (s.adding t).any AddPC.inQueue := by
  cases t with
  | inl w =>
    have hw := hrun w rfl
    cases hpc : s.worker w <;> simp_all [WorkerPC.running, inQueue, WorkerPC.inQueue]
  | inr k => simp [inQueue]

lemma inStack_add (hrun : ∀ w, t = .inl w → (s.worker w).running = true) :
    s.inStack t = (s.adding t).any AddPC.inStack := by
  cases t with
  | inl w =>
    have hw := hrun w rfl
    cases hpc : s.worker w <;> simp_all [WorkerPC.running, inStack, WorkerPC.inStack]
  | inr k => simp [inStack]

variable [DecidableEq κ]

/-- A thread goes on in `AddJob`, calls it, or returns from it. -/
lemma Inv.moveAdd (hs : s.Inv) {pc : Option (AddPC n J)}
    (hrun : ∀ w, t = .inl w → (s.worker w).running = true)
    (hadding : s'.adding = Function.update s.adding t pc) (hworker : s'.worker = s.worker)
    (hqueue : Mutex.Uses s.mQueueMutex s'.mQueueMutex s.mJobQueue s'.mJobQueue s.inQueue
      s'.inQueue t)
    (hstack : Mutex.Uses s.mStackMutex s'.mStackMutex s.mIdleThreads s'.mIdleThreads s.inStack
      s'.inStack t)
    (hsees : ∀ pc' ∈ pc, pc'.Sees s'.mIdleThreads) : s'.Inv := by
  have hother : ∀ t', t' ≠ t → s'.adding t' = s.adding t' := fun t' hne => by
    rw [hadding, Function.update_of_ne hne]
  refine ⟨hs.queue.uses hqueue ?_, hs.stack.uses hstack ?_, ?_, ?_, ?_⟩
  · intro t' hne
    simp only [inQueue, hother t' hne, hworker]
  · intro t' hne
    simp only [inStack, hother t' hne, hworker]
  · intro w
    rw [hworker]
    by_cases hin : (s.worker w).inQueue = true
    · have hne : (.inl w : Thread n κ) ≠ t := by
        intro heq
        have hw := hrun w heq.symm
        cases hpc : s.worker w <;> simp_all [WorkerPC.running, WorkerPC.inQueue]
      rw [hqueue.data_eq hs.queue (u := .inl w) (by simp [inQueue, hin]) hne]
      exact hs.seesQueue w
    · exact .of_not_inQueue (Bool.eq_false_iff.2 hin) _
  · intro t' pc' hpc'
    rcases eq_or_ne t' t with rfl | hne
    · rw [hadding, Function.update_self] at hpc'
      exact hsees pc' hpc'
    · rw [hother t' hne] at hpc'
      by_cases hin : pc'.inStack = true
      · rw [hstack.data_eq hs.stack (u := t') (by simp [inStack, Option.mem_def.1 hpc', hin]) hne]
        exact hs.seesStack t' pc' hpc'
      · exact .of_not_inStack (Bool.eq_false_iff.2 hin) _
  · intro w hw
    rw [hworker] at hw
    have hne : (.inl w : Thread n κ) ≠ t := by
      intro heq
      rw [hrun w heq.symm] at hw
      cases hw
    rw [hother _ hne]
    exact hs.adding w hw

/-! ## One step -/

omit [DecidableEq κ] in
@[simp] lemma atomic_goto {pc : WorkerPC J} :
    (s.goto w pc).atomic = s.atomic.goto w pc.atomic := by
  simp only [atomic, goto, WorkerThreadPool.goto, WorkerThreadPool.mk.injEq, true_and, and_true]
  funext w'
  rw [Function.apply_update (fun _ => WorkerPC.atomic)]

@[simp] lemma atomic_gotoAdd {pc : Option (AddPC n J)} :
    (s.gotoAdd t pc).atomic = s.atomic.gotoAdd t (pc.map AddPC.atomic) := by
  simp only [atomic, gotoAdd, WorkerThreadPool.gotoAdd, WorkerThreadPool.mk.injEq, true_and,
    and_true]
  funext t'
  rw [Function.apply_update (fun _ => Option.map AddPC.atomic)]

@[simp] lemma gotoAdd_adding_self {pc : Option (AddPC n J)} : (s.gotoAdd t pc).adding t = pc :=
  Function.update_self ..

/-- The step from `s` to `s'` keeps the invariant, and is seen as `steps`. -/
def SeenAs (s s' : LockedPool n κ J) (steps : List (WorkerThreadPool.Step n κ J)) : Prop :=
  StepMachine.SeenAs (WorkerThreadPool.machine n κ J) Inv atomic s s' steps

omit [DecidableEq κ] in
lemma atomic_worker {pc : WorkerPC J} (h : s.worker w = pc) : s.atomic.worker w = pc.atomic :=
  congrArg WorkerPC.atomic h

omit [DecidableEq κ] in
lemma atomic_adding {pc : Option (AddPC n J)} (h : s.adding t = pc) :
    s.atomic.adding t = pc.map AddPC.atomic :=
  congrArg (Option.map AddPC.atomic) h

/-- A worker that stays where it stood, for the pool with one-step sections. -/
lemma Inv.unseenWorker (hs' : s'.Inv) {pc pc' : WorkerPC J} (hpc : s.worker w = pc)
    (hsame : s'.atomic = s.atomic.goto w pc'.atomic) (hatomic : pc'.atomic = pc.atomic) :
    s.SeenAs s' [] := by
  refine .nothing hs' ?_
  rw [hsame, hatomic, ← atomic_worker hpc]
  simp only [WorkerThreadPool.goto, Function.update_eq_self]

lemma Inv.unseenAdd (hs' : s'.Inv) {pc pc' : AddPC n J} (hpc : s.adding t = some pc)
    (hsame : s'.atomic = s.atomic.gotoAdd t (some pc'.atomic)) (hatomic : pc'.atomic = pc.atomic) :
    s.SeenAs s' [] := by
  refine .nothing hs' ?_
  have hold : s.atomic.adding t = some pc.atomic := atomic_adding hpc
  rw [hsame, hatomic, ← hold]
  simp only [WorkerThreadPool.gotoAdd, Function.update_eq_self]

lemma poolStep {u : WorkerThreadPool n κ J} {a : WorkerThreadPool.Step n κ J} :
    (WorkerThreadPool.machine n κ J).step u a = u.step a := rfl

section Steps

attribute [local simp] WorkerPC.inQueue WorkerPC.inStack AddPC.inQueue AddPC.inStack
  WorkerPC.atomic AddPC.atomic WorkerPC.Sees AddPC.Sees inQueue inStack goto gotoAdd

/-! ### `PollEvents`, `PopJob` and `Idle` -/

lemma Inv.loop (hs : s.Inv) (hpc : s.worker w = .loop) :
    s.SeenAs (s.goto w (if s.mIsRunning then .popLock else .exited)) [.loop w] := by
  have hadd := hs.adding w (by rw [hpc]; rfl)
  have hw := atomic_worker hpc
  have hr : s.atomic.mIsRunning = s.mIsRunning := rfl
  refine .one (hs.moveWorker hadd rfl rfl (.nothing rfl rfl ?_) (.nothing rfl rfl ?_) ?_) ?_
  · cases hrun : s.mIsRunning <;> simp [hadd, hpc]
  · cases hrun : s.mIsRunning <;> simp [hadd, hpc]
  · cases hrun : s.mIsRunning <;> trivial
  · rw [atomic_goto]
    cases hrun : s.mIsRunning <;> simp [poolStep, WorkerThreadPool.step, hw, hr, hrun]

lemma Inv.popLock (hs : s.Inv) (hpc : s.worker w = .popLock) {m : Mutex (Thread n κ)}
    (hlock : s.mQueueMutex.lock (.inl w) = some m) :
    s.SeenAs ({ s with mQueueMutex := m }.goto w .popEmpty) [] := by
  have hadd := hs.adding w (by rw [hpc]; rfl)
  refine Inv.unseenWorker (hs.moveWorker hadd rfl rfl (.lock hlock rfl ?_)
    (.nothing rfl rfl ?_) trivial) hpc atomic_goto rfl
  · simp
  · simp [hadd, hpc]

lemma Inv.popEmpty_nil (hs : s.Inv) (hpc : s.worker w = .popEmpty) (hq : s.mJobQueue = []) :
    s.SeenAs (s.goto w (.popUnlock none)) [.pop w] := by
  have hadd := hs.adding w (by rw [hpc]; rfl)
  have hw := atomic_worker hpc
  have hjobs : s.atomic.mJobQueue = [] := hq
  refine .one (hs.moveWorker hadd rfl rfl (.nothing rfl rfl ?_) (.nothing rfl rfl ?_) trivial) ?_
  · simp [hadd, hpc]
  · simp [hadd, hpc]
  · rw [atomic_goto]
    simp [poolStep, WorkerThreadPool.step, hw, hjobs]

lemma Inv.popEmpty_cons (hs : s.Inv) (hpc : s.worker w = .popEmpty) (hq : s.mJobQueue ≠ []) :
    s.SeenAs (s.goto w .popFront) [] := by
  have hadd := hs.adding w (by rw [hpc]; rfl)
  refine Inv.unseenWorker (hs.moveWorker hadd rfl rfl (.nothing rfl rfl ?_)
    (.nothing rfl rfl ?_) ?_) hpc atomic_goto rfl
  · simp [hadd, hpc]
  · simp [hadd, hpc]
  · exact hq

lemma Inv.popFront (hs : s.Inv) (hpc : s.worker w = .popFront) {job : J} {jobs : List J}
    (hq : s.mJobQueue = job :: jobs) : s.SeenAs (s.goto w (.popPop job)) [] := by
  have hadd := hs.adding w (by rw [hpc]; rfl)
  refine Inv.unseenWorker (hs.moveWorker hadd rfl rfl (.nothing rfl rfl ?_)
    (.nothing rfl rfl ?_) ?_) hpc atomic_goto rfl
  · simp [hadd, hpc]
  · simp [hadd, hpc]
  · simp [hq]

lemma Inv.popPop (hs : s.Inv) {retJob job : J} {jobs : List J}
    (hpc : s.worker w = .popPop retJob) (hq : s.mJobQueue = job :: jobs) :
    s.SeenAs ({ s with mJobQueue := jobs }.goto w (.popUnlock (some retJob))) [.pop w] := by
  have hadd := hs.adding w (by rw [hpc]; rfl)
  have hw := atomic_worker hpc
  -- the job at the front is still the one that `front` has returned
  have hsees := hs.seesQueue w
  rw [hpc] at hsees
  obtain rfl : job = retJob := by simpa [hq] using hsees
  have hjobs : s.atomic.mJobQueue = job :: jobs := hq
  refine .one (hs.moveWorker hadd rfl rfl (.access rfl ?_ ?_) (.nothing rfl rfl ?_) trivial) ?_
  · simp [hpc]
  · simp
  · simp [hadd, hpc]
  · rw [atomic_goto]
    simp only [poolStep, WorkerThreadPool.step, hw, hjobs]
    rfl

lemma Inv.popUnlock (hs : s.Inv) {result : Option J} (hpc : s.worker w = .popUnlock result)
    {pc : WorkerPC J} (hatomic : pc.atomic = (WorkerPC.popUnlock result).atomic)
    (hqueue : pc.inQueue = false) (hstack : pc.inStack = false) :
    s.SeenAs ({ s with mQueueMutex := s.mQueueMutex.unlock }.goto w pc) [] := by
  have hadd := hs.adding w (by rw [hpc]; rfl)
  refine Inv.unseenWorker (hs.moveWorker hadd rfl rfl (.unlock rfl rfl ?_ ?_)
    (.nothing rfl rfl ?_) (.of_not_inQueue hqueue _)) hpc atomic_goto hatomic
  · simp [hpc]
  · rw [inQueue_worker, goto_worker_self, hqueue]
    exact hadd
  · have hold : s.inStack (.inl w) = false := by simp [hadd, hpc]
    rw [hold, inStack_worker, goto_worker_self, hstack]
    exact hadd

lemma Inv.idleLock (hs : s.Inv) (hpc : s.worker w = .idleLock) {m : Mutex (Thread n κ)}
    (hlock : s.mStackMutex.lock (.inl w) = some m) :
    s.SeenAs ({ s with mStackMutex := m }.goto w .idlePush) [] := by
  have hadd := hs.adding w (by rw [hpc]; rfl)
  refine Inv.unseenWorker (hs.moveWorker hadd rfl rfl (.nothing rfl rfl ?_)
    (.lock hlock rfl ?_) trivial) hpc atomic_goto rfl
  · simp [hadd, hpc]
  · simp

lemma Inv.idlePush (hs : s.Inv) (hpc : s.worker w = .idlePush) :
    s.SeenAs ({ s with mIdleThreads := w :: s.mIdleThreads }.goto w .idleUnlock)
      [.idlePush w] := by
  have hadd := hs.adding w (by rw [hpc]; rfl)
  have hw := atomic_worker hpc
  refine .one (hs.moveWorker hadd rfl rfl (.nothing rfl rfl ?_) (.access rfl ?_ ?_) trivial) ?_
  · simp [hadd, hpc]
  · simp [hpc]
  · simp
  · rw [atomic_goto]
    simp only [poolStep, WorkerThreadPool.step, hw]
    rfl

lemma Inv.idleUnlock (hs : s.Inv) (hpc : s.worker w = .idleUnlock) :
    s.SeenAs ({ s with mStackMutex := s.mStackMutex.unlock }.goto w .idleRead) [] := by
  have hadd := hs.adding w (by rw [hpc]; rfl)
  refine Inv.unseenWorker (hs.moveWorker hadd rfl rfl (.nothing rfl rfl ?_)
    (.unlock rfl rfl ?_ ?_) trivial) hpc atomic_goto rfl
  · simp [hadd, hpc]
  · simp [hpc]
  · simp [hadd]

lemma Inv.idleRead (hs : s.Inv) (hpc : s.worker w = .idleRead) (hevent : s.eventFD w ≠ 0) :
    s.SeenAs ({ s with eventFD := Function.update s.eventFD w 0 }.goto w .loop)
      [.idleRead w] := by
  have hadd := hs.adding w (by rw [hpc]; rfl)
  have hw := atomic_worker hpc
  have hfd : s.atomic.eventFD = s.eventFD := rfl
  refine .one (hs.moveWorker hadd rfl rfl (.nothing rfl rfl ?_) (.nothing rfl rfl ?_) trivial) ?_
  · simp [hadd, hpc]
  · simp [hadd, hpc]
  · rw [atomic_goto]
    simp only [poolStep, WorkerThreadPool.step, hw, hfd, if_neg hevent, WorkerPC.atomic]
    rfl

lemma Inv.idleReadFails (hs : s.Inv) (hpc : s.worker w = .idleRead) :
    s.SeenAs (s.goto w .loop) [.idleReadFails w] := by
  have hadd := hs.adding w (by rw [hpc]; rfl)
  have hw := atomic_worker hpc
  refine .one (hs.moveWorker hadd rfl rfl (.nothing rfl rfl ?_) (.nothing rfl rfl ?_) trivial) ?_
  · simp [hadd, hpc]
  · simp [hadd, hpc]
  · rw [atomic_goto]
    simp only [poolStep, WorkerThreadPool.step, hw, WorkerPC.atomic]

/-- **A step of a worker in `PollEvents`.** -/
lemma Inv.stepWorker (hs : s.Inv) (h : s.stepWorker w = some s') :
    s.SeenAs s' (s.seeWorker w) := by
  simp only [LockedPool.stepWorker] at h
  simp only [seeWorker]
  split at h <;> rename_i hpc <;> simp only [hpc]
  · exact Option.some.inj h ▸ hs.loop hpc
  · obtain ⟨m, hlock, h⟩ := Option.bind_eq_some_iff.1 h
    exact Option.some.inj h ▸ hs.popLock hpc hlock
  · cases hq : s.mJobQueue with
    | nil => exact Option.some.inj h ▸ by simpa [hq] using hs.popEmpty_nil hpc hq
    | cons job jobs =>
      exact Option.some.inj h ▸ by simpa [hq] using hs.popEmpty_cons hpc (by simp [hq])
  · split at h
    · cases h
    · rename_i hq
      exact Option.some.inj h ▸ hs.popFront hpc hq
  · split at h
    · cases h
    · rename_i hq
      exact Option.some.inj h ▸ hs.popPop hpc hq
  · exact Option.some.inj h ▸ hs.popUnlock hpc rfl rfl rfl
  · exact Option.some.inj h ▸ hs.popUnlock hpc rfl rfl rfl
  · obtain ⟨m, hlock, h⟩ := Option.bind_eq_some_iff.1 h
    exact Option.some.inj h ▸ hs.idleLock hpc hlock
  · exact Option.some.inj h ▸ hs.idlePush hpc
  · exact Option.some.inj h ▸ hs.idleUnlock hpc
  · obtain ⟨hevent, h⟩ := Option.ite_none_left_eq_some.1 h
    exact Option.some.inj h ▸ hs.idleRead hpc hevent
  all_goals cases h

/-! ### `AddJob` and `WakeOneThread` -/

lemma Inv.pushLock (hs : s.Inv) {job : J} (hpc : s.adding t = some (.pushLock job))
    {m : Mutex (Thread n κ)} (hlock : s.mQueueMutex.lock t = some m) :
    s.SeenAs ({ s with mQueueMutex := m }.gotoAdd t (some (.push job))) [] := by
  have hrun := hs.running hpc
  refine Inv.unseenAdd (hs.moveAdd hrun rfl rfl (.lock hlock rfl ?_) (.nothing rfl rfl ?_)
    (by simp)) hpc atomic_gotoAdd rfl
  · simp
  · simp [hpc]

lemma Inv.push (hs : s.Inv) {job : J} (hpc : s.adding t = some (.push job)) :
    s.SeenAs ({ s with mJobQueue := s.mJobQueue ++ [job] }.gotoAdd t (some .pushUnlock))
      [.addPush t] := by
  have hrun := hs.running hpc
  have hadd := atomic_adding hpc
  refine .one (hs.moveAdd hrun rfl rfl (.access rfl ?_ ?_) (.nothing rfl rfl ?_) (by simp)) ?_
  · simp [hpc]
  · simp
  · simp [hpc]
  · rw [atomic_gotoAdd]
    simp only [poolStep, WorkerThreadPool.step, hadd]
    rfl

lemma Inv.pushUnlock (hs : s.Inv) (hpc : s.adding t = some .pushUnlock) :
    s.SeenAs ({ s with mQueueMutex := s.mQueueMutex.unlock }.gotoAdd t (some .test)) [] := by
  have hrun := hs.running hpc
  refine Inv.unseenAdd (hs.moveAdd hrun rfl rfl (.unlock rfl rfl ?_ ?_) (.nothing rfl rfl ?_)
    (by simp)) hpc atomic_gotoAdd rfl
  · simp [hpc]
  · rw [inQueue_add, gotoAdd_adding_self]
    · rfl
    · exact hrun
  · simp [hpc]

lemma Inv.test (hs : s.Inv) (hpc : s.adding t = some .test) :
    s.SeenAs (s.gotoAdd t (if s.mIdleThreads.isEmpty then none else some .wakeLock))
      [.addTest t] := by
  have hrun := hs.running hpc
  have hadd := atomic_adding hpc
  refine .one (hs.moveAdd hrun rfl rfl (.nothing rfl rfl ?_) (.nothing rfl rfl ?_) ?_) ?_
  · cases hidle : s.mIdleThreads <;> simp [hpc]
  · cases hidle : s.mIdleThreads <;> simp [hpc]
  · cases hidle : s.mIdleThreads <;> simp
  · have hstack : s.atomic.mIdleThreads = s.mIdleThreads := rfl
    rw [atomic_gotoAdd]
    cases hidle : s.mIdleThreads <;> simp [poolStep, WorkerThreadPool.step, hadd, hstack, hidle]

lemma Inv.wakeLock (hs : s.Inv) (hpc : s.adding t = some .wakeLock) {m : Mutex (Thread n κ)}
    (hlock : s.mStackMutex.lock t = some m) :
    s.SeenAs ({ s with mStackMutex := m }.gotoAdd t (some .wakeTop)) [] := by
  have hrun := hs.running hpc
  refine Inv.unseenAdd (hs.moveAdd hrun rfl rfl (.nothing rfl rfl ?_) (.lock hlock rfl ?_)
    (by simp)) hpc atomic_gotoAdd rfl
  · simp [hpc]
  · simp

lemma Inv.wakeTop (hs : s.Inv) (hpc : s.adding t = some .wakeTop) {context : Fin n}
    {idle : List (Fin n)} (hidle : s.mIdleThreads = context :: idle) :
    s.SeenAs (s.gotoAdd t (some (.wakePop context))) [] := by
  have hrun := hs.running hpc
  refine Inv.unseenAdd (hs.moveAdd hrun rfl rfl (.nothing rfl rfl ?_) (.nothing rfl rfl ?_) ?_)
    hpc atomic_gotoAdd rfl
  · simp [hpc]
  · simp [hpc]
  · simp [hidle]

lemma Inv.wakePop (hs : s.Inv) {context context' : Fin n}
    (hpc : s.adding t = some (.wakePop context)) {idle : List (Fin n)}
    (hidle : s.mIdleThreads = context' :: idle) :
    s.SeenAs ({ s with mIdleThreads := idle }.gotoAdd t (some (.wakeUnlock context)))
      [.addPop t] := by
  have hrun := hs.running hpc
  have hadd := atomic_adding hpc
  -- the context on top is still the one that `top` has returned
  have hsees := hs.seesStack t _ hpc
  obtain rfl : context' = context := by simpa [hidle] using hsees
  have hstack : s.atomic.mIdleThreads = context' :: idle := hidle
  refine .one (hs.moveAdd hrun rfl rfl (.nothing rfl rfl ?_) (.access rfl ?_ ?_) (by simp)) ?_
  · simp [hpc]
  · simp [hpc]
  · simp
  · rw [atomic_gotoAdd]
    simp only [poolStep, WorkerThreadPool.step, hadd, Option.map_some, hstack, AddPC.atomic]
    rfl

lemma Inv.wakeUnlock (hs : s.Inv) {context : Fin n}
    (hpc : s.adding t = some (.wakeUnlock context)) :
    s.SeenAs ({ s with mStackMutex := s.mStackMutex.unlock }.gotoAdd t (some (.write context)))
      [] := by
  have hrun := hs.running hpc
  refine Inv.unseenAdd (hs.moveAdd hrun rfl rfl (.nothing rfl rfl ?_) (.unlock rfl rfl ?_ ?_)
    (by simp)) hpc atomic_gotoAdd rfl
  · simp [hpc]
  · simp [hpc]
  · rw [inStack_add, gotoAdd_adding_self]
    · rfl
    · exact hrun

lemma Inv.write (hs : s.Inv) {context : Fin n} (hpc : s.adding t = some (.write context)) :
    s.SeenAs ((s.signal context).gotoAdd t none) [.addWrite t] := by
  have hrun := hs.running hpc
  have hadd := atomic_adding hpc
  refine .one (hs.moveAdd hrun rfl rfl (.nothing rfl rfl ?_) (.nothing rfl rfl ?_) (by simp)) ?_
  · simp [hpc, signal]
  · simp [hpc, signal]
  · rw [atomic_gotoAdd]
    simp only [poolStep, WorkerThreadPool.step, hadd]
    rfl

/-- **A step of a thread in `AddJob`.** -/
lemma Inv.stepAdd (hs : s.Inv) (h : s.stepAdd t = some s') : s.SeenAs s' (s.seeAdd t) := by
  simp only [LockedPool.stepAdd] at h
  simp only [seeAdd]
  split at h <;> rename_i hpc <;> simp only [hpc]
  · cases h
  · obtain ⟨m, hlock, h⟩ := Option.bind_eq_some_iff.1 h
    exact Option.some.inj h ▸ hs.pushLock hpc hlock
  · exact Option.some.inj h ▸ hs.push hpc
  · exact Option.some.inj h ▸ hs.pushUnlock hpc
  · exact Option.some.inj h ▸ hs.test hpc
  · obtain ⟨m, hlock, h⟩ := Option.bind_eq_some_iff.1 h
    exact Option.some.inj h ▸ hs.wakeLock hpc hlock
  · split at h
    · cases h
    · rename_i hidle
      exact Option.some.inj h ▸ hs.wakeTop hpc hidle
  · split at h
    · cases h
    · rename_i hidle
      exact Option.some.inj h ▸ hs.wakePop hpc hidle
  · exact Option.some.inj h ▸ hs.wakeUnlock hpc
  · exact Option.some.inj h ▸ hs.write hpc

/-! ### Jobs, and `Stop` -/

lemma Inv.executeReturns (hs : s.Inv) {job : J} {result : Bool} (hpc : s.worker w = .execute job)
    (hadd : s.adding (.inl w) = none) :
    s.SeenAs (s.goto w (if result then .complete job else .loop)) [.executeReturns w result] := by
  have hw := atomic_worker hpc
  have hadd' := atomic_adding hadd
  refine .one (hs.moveWorker hadd rfl rfl (.nothing rfl rfl ?_) (.nothing rfl rfl ?_) ?_) ?_
  · cases result <;> simp [hadd, hpc]
  · cases result <;> simp [hadd, hpc]
  · cases result <;> trivial
  · rw [atomic_goto]
    cases result <;> simp [poolStep, WorkerThreadPool.step, hw, hadd']

lemma Inv.completeReturns (hs : s.Inv) {job : J} (hpc : s.worker w = .complete job)
    (hadd : s.adding (.inl w) = none) : s.SeenAs (s.goto w .loop) [.completeReturns w] := by
  have hw := atomic_worker hpc
  have hadd' := atomic_adding hadd
  refine .one (hs.moveWorker hadd rfl rfl (.nothing rfl rfl ?_) (.nothing rfl rfl ?_) trivial) ?_
  · simp [hadd, hpc]
  · simp [hadd, hpc]
  · rw [atomic_goto]
    simp [poolStep, WorkerThreadPool.step, hw, hadd']

lemma Inv.callAddJob (hs : s.Inv) {job : J} (hmay : s.mayAdd t = true)
    (hadd : s.adding t = none) :
    s.SeenAs (s.gotoAdd t (some (.pushLock job))) [.callAddJob t job] := by
  have hrun : ∀ w, t = .inl w → (s.worker w).running = true := by
    rintro w rfl
    cases hpc : s.worker w <;> simp_all [mayAdd, WorkerPC.running]
  have hadd' := atomic_adding hadd
  have hmay' : s.atomic.mayAdd t = true := by
    cases t with
    | inl w =>
      have hw := hrun w rfl
      cases hpc : s.worker w <;> simp_all [WorkerPC.running, WorkerThreadPool.mayAdd, atomic]
    | inr k => rfl
  refine .one (hs.moveAdd hrun rfl rfl (.nothing rfl rfl ?_) (.nothing rfl rfl ?_) (by simp)) ?_
  · rw [inQueue_add hrun, inQueue_add, gotoAdd_adding_self, hadd]
    · rfl
    · exact hrun
  · rw [inStack_add hrun, inStack_add, gotoAdd_adding_self, hadd]
    · rfl
    · exact hrun
  · rw [atomic_gotoAdd]
    simp [poolStep, WorkerThreadPool.step, hmay', hadd']

/-- A step of the thread that calls `Stop`. -/
lemma Inv.stopStep (hs : s.Inv) {a : Step n κ J} (ha : a = .stop ∨ a = .stopWrite ∨ a = .stopJoin)
    (h : s.step a = some s') : s.SeenAs s' (s.see a) := by
  have hstop : s.atomic.stopping = s.stopping := rfl
  rcases ha with rfl | rfl | rfl
  · simp only [step] at h
    split at h
    · rename_i hpc
      obtain rfl := Option.some.inj h
      refine .one (hs.congr rfl rfl rfl rfl rfl rfl) ?_
      simp only [poolStep, WorkerThreadPool.step, hstop, hpc]
      rfl
    · cases h
  · simp only [step] at h
    split at h
    · rename_i i hpc
      split at h <;> rename_i hi <;> obtain rfl := Option.some.inj h <;>
        refine .one (hs.congr rfl rfl rfl rfl rfl rfl) ?_ <;>
        simp only [poolStep, WorkerThreadPool.step, hstop, hpc, hi, dite_true, dite_false] <;> rfl
    · cases h
  · simp only [step] at h
    split at h
    · rename_i i hpc
      split at h
      · rename_i hi
        split at h
        · rename_i hexit
          obtain rfl := Option.some.inj h
          refine .one (hs.congr rfl rfl rfl rfl rfl rfl) ?_
          simp only [poolStep, WorkerThreadPool.step, hstop, hpc, hi, dite_true,
            atomic_worker hexit]
          rfl
        · cases h
      · cases h
    · cases h

/-- **One step** keeps the invariant, and is seen as the steps that `see` says. -/
theorem Inv.step (hs : s.Inv) {a : Step n κ J} (h : s.step a = some s') :
    s.SeenAs s' (s.see a) := by
  cases a with
  | worker w => exact hs.stepWorker h
  | addJob t => exact hs.stepAdd h
  | idleReadFails w =>
    simp only [LockedPool.step] at h
    split at h
    · exact Option.some.inj h ▸ hs.idleReadFails ‹_›
    · cases h
  | executeReturns w result =>
    simp only [LockedPool.step] at h
    split at h
    · exact Option.some.inj h ▸ hs.executeReturns ‹_› ‹_›
    · cases h
  | completeReturns w =>
    simp only [LockedPool.step] at h
    split at h
    · exact Option.some.inj h ▸ hs.completeReturns ‹_› ‹_›
    · cases h
  | callAddJob t job =>
    simp only [LockedPool.step] at h
    split at h
    · exact Option.some.inj h ▸ hs.callAddJob ‹_› ‹_›
    · cases h
  | stop => exact hs.stopStep (.inl rfl) h
  | stopWrite => exact hs.stopStep (.inr (.inl rfl)) h
  | stopJoin => exact hs.stopStep (.inr (.inr rfl)) h

end Steps

/-- The pool with its mutexes refines the pool with one-step sections. -/
lemma refines : (machine n κ J).Refines (WorkerThreadPool.machine n κ J) Inv atomic see where
  keeps hs h := (hs.step h).1
  simulates hs h := (hs.step h).2

/-! ## Leaving a section -/

/-- After `k` steps labelled `a` the lock `m` is free. -/
def Frees (m : LockedPool n κ J → Mutex (Thread n κ)) (a : Step n κ J) (s : LockedPool n κ J)
    (k : ℕ) : Prop :=
  ∃ s', (machine n κ J).exec s (List.replicate k a) = some s' ∧ (m s').mMutex = none

variable {m : LockedPool n κ J → Mutex (Thread n κ)} {a : Step n κ J} {k : ℕ}

lemma Frees.cons (h : s.step a = some s') (hk : s'.Frees m a k) : s.Frees m a (k + 1) := by
  obtain ⟨t, hexec, hfree⟩ := hk
  exact ⟨t, (StepMachine.exec_cons_of_step h).trans hexec, hfree⟩

lemma Frees.last (h : s.step a = some s') (hfree : (m s').mMutex = none) : s.Frees m a 1 :=
  .cons h ⟨s', rfl, hfree⟩

lemma frees_popUnlock {result : Option J} (hpc : s.worker w = .popUnlock result) :
    s.Frees mQueueMutex (.worker w) 1 := by
  cases result with
  | none =>
    have h : s.step (.worker w) =
        some ({ s with mQueueMutex := s.mQueueMutex.unlock }.goto w .idleLock) := by
      simp only [step, stepWorker, hpc]
    exact .last h rfl
  | some job =>
    have h : s.step (.worker w) =
        some ({ s with mQueueMutex := s.mQueueMutex.unlock }.goto w (.execute job)) := by
      simp only [step, stepWorker, hpc]
    exact .last h rfl

lemma frees_popPop {retJob : J} (hpc : s.worker w = .popPop retJob) (hq : s.mJobQueue ≠ []) :
    s.Frees mQueueMutex (.worker w) 2 := by
  obtain ⟨job, jobs, hq⟩ := List.exists_cons_of_ne_nil hq
  have h : s.step (.worker w) =
      some ({ s with mJobQueue := jobs }.goto w (.popUnlock (some retJob))) := by
    simp only [step, stepWorker, hpc, hq]
  exact .cons h (frees_popUnlock goto_worker_self)

lemma frees_popFront (hpc : s.worker w = .popFront) (hq : s.mJobQueue ≠ []) :
    s.Frees mQueueMutex (.worker w) 3 := by
  obtain ⟨job, jobs, hq'⟩ := List.exists_cons_of_ne_nil hq
  have h : s.step (.worker w) = some (s.goto w (.popPop job)) := by
    simp only [step, stepWorker, hpc, hq']
  exact .cons h (frees_popPop goto_worker_self hq)

/-- A worker inside the section of `PopJob` leaves it in at most four steps. -/
lemma Inv.frees_popJob (hs : s.Inv) (hin : (s.worker w).inQueue = true) :
    ∃ k ≤ 4, s.Frees mQueueMutex (.worker w) k := by
  have hsees := hs.seesQueue w
  cases hpc : s.worker w with
  | popEmpty =>
    by_cases hq : s.mJobQueue = []
    · have h : s.step (.worker w) = some (s.goto w (.popUnlock none)) := by
        simp [LockedPool.step, LockedPool.stepWorker, hpc, hq]
      exact ⟨2, by omega, .cons h (frees_popUnlock goto_worker_self)⟩
    · have h : s.step (.worker w) = some (s.goto w .popFront) := by
        simp [LockedPool.step, LockedPool.stepWorker, hpc, hq]
      exact ⟨4, le_rfl, .cons h (frees_popFront goto_worker_self hq)⟩
  | popFront =>
    rw [hpc] at hsees
    exact ⟨3, by omega, frees_popFront hpc hsees⟩
  | popPop retJob =>
    rw [hpc] at hsees
    refine ⟨2, by omega, frees_popPop hpc fun hq => ?_⟩
    simp [WorkerPC.Sees, hq] at hsees
  | popUnlock result => exact ⟨1, by omega, frees_popUnlock hpc⟩
  | _ => simp [hpc, WorkerPC.inQueue] at hin

lemma frees_pushUnlock (hpc : s.adding t = some .pushUnlock) :
    s.Frees mQueueMutex (.addJob t) 1 := by
  have h : s.step (.addJob t) =
      some ({ s with mQueueMutex := s.mQueueMutex.unlock }.gotoAdd t (some .test)) := by
    simp only [step, stepAdd, hpc]
  exact .last h rfl

/-- A thread inside the section of `AddJob` leaves it in at most two steps. -/
lemma frees_addJob {pc : AddPC n J} (hpc : s.adding t = some pc) (hin : pc.inQueue = true) :
    ∃ k ≤ 4, s.Frees mQueueMutex (.addJob t) k := by
  cases pc with
  | push job =>
    have h : s.step (.addJob t) =
        some ({ s with mJobQueue := s.mJobQueue ++ [job] }.gotoAdd t (some .pushUnlock)) := by
      simp only [step, stepAdd, hpc]
    exact ⟨2, by omega, .cons h (frees_pushUnlock gotoAdd_adding_self)⟩
  | pushUnlock => exact ⟨1, by omega, frees_pushUnlock hpc⟩
  | _ => simp [AddPC.inQueue] at hin

lemma frees_idleUnlock (hpc : s.worker w = .idleUnlock) :
    s.Frees mStackMutex (.worker w) 1 := by
  have h : s.step (.worker w) =
      some ({ s with mStackMutex := s.mStackMutex.unlock }.goto w .idleRead) := by
    simp only [step, stepWorker, hpc]
  exact .last h rfl

/-- A worker inside the section of `Idle` leaves it in at most two steps. -/
lemma frees_idle (hin : (s.worker w).inStack = true) :
    ∃ k ≤ 4, s.Frees mStackMutex (.worker w) k := by
  cases hpc : s.worker w with
  | idlePush =>
    have h : s.step (.worker w) =
        some ({ s with mIdleThreads := w :: s.mIdleThreads }.goto w .idleUnlock) := by
      simp only [step, stepWorker, hpc]
    exact ⟨2, by omega, .cons h (frees_idleUnlock goto_worker_self)⟩
  | idleUnlock => exact ⟨1, by omega, frees_idleUnlock hpc⟩
  | _ => simp [hpc, WorkerPC.inStack] at hin

lemma frees_wakeUnlock {context : Fin n} (hpc : s.adding t = some (.wakeUnlock context)) :
    s.Frees mStackMutex (.addJob t) 1 := by
  have h : s.step (.addJob t) = some
      ({ s with mStackMutex := s.mStackMutex.unlock }.gotoAdd t (some (.write context))) := by
    simp only [step, stepAdd, hpc]
  exact .last h rfl

lemma frees_wakePop {context : Fin n} (hpc : s.adding t = some (.wakePop context))
    (hidle : s.mIdleThreads ≠ []) : s.Frees mStackMutex (.addJob t) 2 := by
  obtain ⟨context', idle, hidle⟩ := List.exists_cons_of_ne_nil hidle
  have h : s.step (.addJob t) =
      some ({ s with mIdleThreads := idle }.gotoAdd t (some (.wakeUnlock context))) := by
    simp only [step, stepAdd, hpc, hidle]
  exact .cons h (frees_wakeUnlock gotoAdd_adding_self)

/-- A thread inside the section of `WakeOneThread` leaves it in at most three steps, unless it
is about to ask an empty stack for its top. -/
lemma Inv.frees_wakeOneThread (hs : s.Inv) {pc : AddPC n J} (hpc : s.adding t = some pc)
    (hin : pc.inStack = true) :
    (pc = .wakeTop ∧ s.mIdleThreads = []) ∨ ∃ k ≤ 4, s.Frees mStackMutex (.addJob t) k := by
  have hsees := hs.seesStack t pc hpc
  cases pc with
  | wakeTop =>
    by_cases hidle : s.mIdleThreads = []
    · exact .inl ⟨rfl, hidle⟩
    · obtain ⟨context, idle, hidle'⟩ := List.exists_cons_of_ne_nil hidle
      have h : s.step (.addJob t) = some (s.gotoAdd t (some (.wakePop context))) := by
        simp only [LockedPool.step, LockedPool.stepAdd, hpc, hidle']
      exact .inr ⟨3, by omega, .cons h (frees_wakePop gotoAdd_adding_self hidle)⟩
  | wakePop context =>
    refine .inr ⟨2, by omega, frees_wakePop hpc fun hidle => ?_⟩
    simp [AddPC.Sees, hidle] at hsees
  | wakeUnlock context => exact .inr ⟨1, by omega, frees_wakeUnlock hpc⟩
  | _ => simp [AddPC.inStack] at hin

/-- The label under which the thread `t` goes on: in `PollEvents`, or in `AddJob`. -/
def Step.Of (a : Step n κ J) (t : Thread n κ) : Prop :=
  a = .addJob t ∨ ∃ w, t = .inl w ∧ a = .worker w

lemma Inv.frees_queue (hs : s.Inv) (hheld : s.mQueueMutex.mMutex = some t) :
    ∃ a k, a.Of t ∧ k ≤ 4 ∧ s.Frees mQueueMutex a k := by
  have hin := (hs.queue t).2 hheld
  simp only [inQueue, Bool.or_eq_true, Option.any_eq_true] at hin
  rcases hin with hin | ⟨pc, hpc, hin⟩
  · cases t with
    | inl w =>
      obtain ⟨k, hk, hfrees⟩ := hs.frees_popJob hin
      exact ⟨.worker w, k, .inr ⟨w, rfl, rfl⟩, hk, hfrees⟩
    | inr k => cases hin
  · obtain ⟨k, hk, hfrees⟩ := frees_addJob hpc hin
    exact ⟨.addJob t, k, .inl rfl, hk, hfrees⟩

lemma Inv.frees_stack (hs : s.Inv) (hheld : s.mStackMutex.mMutex = some t) :
    (s.adding t = some .wakeTop ∧ s.mIdleThreads = []) ∨
      ∃ a k, a.Of t ∧ k ≤ 4 ∧ s.Frees mStackMutex a k := by
  have hin := (hs.stack t).2 hheld
  simp only [inStack, Bool.or_eq_true, Option.any_eq_true] at hin
  rcases hin with hin | ⟨pc, hpc, hin⟩
  · cases t with
    | inl w =>
      obtain ⟨k, hk, hfrees⟩ := frees_idle hin
      exact .inr ⟨.worker w, k, .inr ⟨w, rfl, rfl⟩, hk, hfrees⟩
    | inr k => cases hin
  · rcases hs.frees_wakeOneThread hpc hin with ⟨rfl, hidle⟩ | ⟨k, hk, hfrees⟩
    · exact .inl ⟨hpc, hidle⟩
    · exact .inr ⟨.addJob t, k, .inl rfl, hk, hfrees⟩

end LockedPool

open LockedPool

/-- **The locked sections are atomic.**  However the steps of the workers and of the callers of
`AddJob` are interleaved, at most one thread is inside a section of each mutex, and a run is
seen as a run of the pool in which every section is one step. -/
theorem workerThreadPool_sections_atomic {n : ℕ} {κ J : Type} [DecidableEq κ]
    {as : List (LockedPool.Step n κ J)} {s : LockedPool n κ J}
    (hrun : (LockedPool.machine n κ J).exec (LockedPool.start n κ J) as = some s) :
    (WorkerThreadPool.machine n κ J).exec (WorkerThreadPool.start n κ J)
        ((LockedPool.machine n κ J).seen see (LockedPool.start n κ J) as) = some s.atomic ∧
      (∀ t t', s.inQueue t = true → s.inQueue t' = true → t = t') ∧
      ∀ t t', s.inStack t = true → s.inStack t' = true → t = t' := by
  have hs : s.Inv := LockedPool.refines.invariant LockedPool.inv_start hrun
  exact ⟨LockedPool.refines.exec LockedPool.inv_start hrun, fun _ _ => hs.queue.unique,
    fun _ _ => hs.stack.unique⟩

/-- Two workers and one job: `AddJob` is called again while the first worker is inside `PopJob`,
and gets the mutex when the worker has left. -/
def popWhileAdding : List (LockedPool.Step 2 Unit ℕ) :=
  [.callAddJob (.inr ()) 7, .addJob (.inr ()), .addJob (.inr ()), .addJob (.inr ()),
    .addJob (.inr ()), .worker 0, .worker 1, .worker 0, .worker 0, .worker 0,
    .callAddJob (.inr ()) 8, .worker 0, .worker 0, .addJob (.inr ())]

theorem workerThreadPool_sections_atomic_popWhileAdding :
    ∃ s, (LockedPool.machine 2 Unit ℕ).exec (LockedPool.start 2 Unit ℕ) popWhileAdding = some s ∧
      (WorkerThreadPool.machine 2 Unit ℕ).exec (WorkerThreadPool.start 2 Unit ℕ)
        ((LockedPool.machine 2 Unit ℕ).seen see (LockedPool.start 2 Unit ℕ) popWhileAdding) =
          some s.atomic :=
  StepMachine.exists_exec_and (fun _ => True) (by decide +kernel)
    fun _ hrun _ => (workerThreadPool_sections_atomic hrun).1

/-- **A mutex of the pool is never held for good.**  In every state that a run can reach, the
thread that holds a mutex can give it back within four steps of its own, whatever the other
threads do not do; the one exception is a thread that asks the empty idle stack for its top. -/
theorem workerThreadPool_mutexes_freed {n : ℕ} {κ J : Type} [DecidableEq κ]
    {as : List (LockedPool.Step n κ J)} {s : LockedPool n κ J}
    (hrun : (LockedPool.machine n κ J).exec (LockedPool.start n κ J) as = some s)
    (t : WorkerThreadPool.Thread n κ) :
    (s.mQueueMutex.mMutex = some t →
      ∃ a k, a.Of t ∧ k ≤ 4 ∧ s.Frees LockedPool.mQueueMutex a k) ∧
    (s.mStackMutex.mMutex = some t →
      (s.adding t = some .wakeTop ∧ s.mIdleThreads = []) ∨
        ∃ a k, a.Of t ∧ k ≤ 4 ∧ s.Frees LockedPool.mStackMutex a k) :=
  have hs : s.Inv := LockedPool.refines.invariant LockedPool.inv_start hrun
  ⟨hs.frees_queue, hs.frees_stack⟩

/-- The first worker holds the mutex of the queue between `front` and `pop`. -/
theorem workerThreadPool_mutexes_freed_popWhileAdding : ∃ s,
    (LockedPool.machine 2 Unit ℕ).exec (LockedPool.start 2 Unit ℕ) (popWhileAdding.take 10) =
        some s ∧
      ∃ a k, a.Of (.inl 0) ∧ k ≤ 4 ∧ s.Frees LockedPool.mQueueMutex a k :=
  StepMachine.exists_exec_and (fun s => s.mQueueMutex.mMutex = some (.inl 0)) (by decide +kernel)
    fun _ hrun hheld => (workerThreadPool_mutexes_freed hrun (.inl 0)).1 hheld

end CoreServer
