import CoreServer.WorkerThreadPool

/-!
# Which worker runs which job

A record of the run is kept beside the pool: the jobs in the order in which they are pushed, and
what each worker has popped, what its calls of `Execute` have returned and which calls of
`Complete` have returned.  The same job may be pushed, and run, any number of times.
-/

namespace CoreServer

namespace WorkerThreadPool

variable {n : ℕ} {κ J : Type}

/-- What has happened to the jobs so far. -/
structure DispatchLog (n : ℕ) (J : Type) where
  /-- The jobs in the order of `mJobQueue.push`. -/
  pushed : List J
  /-- The jobs in the order of `mJobQueue.pop`, with the worker that popped them. -/
  popped : List (Fin n × J)
  /-- The calls of `Execute` that have returned, with the result. -/
  executed : List (Fin n × J × Bool)
  /-- The calls of `Complete` that have returned. -/
  completed : List (Fin n × J)

namespace DispatchLog

/-- The record before the first step. -/
def start (n : ℕ) (J : Type) : DispatchLog n J := ⟨[], [], [], []⟩

/-- A step is recorded. -/
def record (s : WorkerThreadPool n κ J) : Step n κ J → DispatchLog n J → DispatchLog n J
  | .addPush t, h =>
    match s.adding t with
    | some (.push job) => { h with pushed := h.pushed ++ [job] }
    | _ => h
  | .pop w, h =>
    match s.mJobQueue with
    | job :: _ => { h with popped := h.popped ++ [(w, job)] }
    | [] => h
  | .executeReturns w result, h =>
    match s.worker w with
    | .execute job => { h with executed := h.executed ++ [(w, job, result)] }
    | _ => h
  | .completeReturns w, h =>
    match s.worker w with
    | .complete job => { h with completed := h.completed ++ [(w, job)] }
    | _ => h
  | _, h => h

/-- The entries of one worker. -/
def entriesOf {β : Type} (w : Fin n) (entries : List (Fin n × β)) : List β :=
  entries.filterMap fun p => if p.1 = w then some p.2 else none

lemma entriesOf_append {β : Type} (w w' : Fin n) (entries : List (Fin n × β)) (x : β) :
    entriesOf w (entries ++ [(w', x)]) = entriesOf w entries ++ if w' = w then [x] else [] := by
  rw [entriesOf, List.filterMap_append, entriesOf]
  congr 1
  split <;> simp [*]

end DispatchLog

open DispatchLog

/-- The job that is executed at `pc`. -/
def WorkerPC.executing : WorkerPC J → List J
  | .execute job => [job]
  | _ => []

/-- The job that is completed at `pc`. -/
def WorkerPC.completing : WorkerPC J → List J
  | .complete job => [job]
  | _ => []

/-- Every job that has been pushed is dispatched once. -/
structure Dispatched (s : WorkerThreadPool n κ J) (h : DispatchLog n J) : Prop where
  /-- The jobs popped so far and those in the queue are the jobs pushed so far. -/
  queue : h.popped.map Prod.snd ++ s.mJobQueue = h.pushed
  /-- A worker has executed, or is executing, the jobs that it has popped. -/
  executed : ∀ w,
    entriesOf w h.popped = (entriesOf w h.executed).map Prod.fst ++ (s.worker w).executing
  /-- A worker has completed, or is completing, the jobs whose `Execute` it has seen return
  true. -/
  completed : ∀ w, ((entriesOf w h.executed).filter Prod.snd).map Prod.fst =
    entriesOf w h.completed ++ (s.worker w).completing

lemma dispatched_start : (start n κ J).Dispatched (DispatchLog.start n J) where
  queue := rfl
  executed _ := rfl
  completed _ := rfl

variable {s s' : WorkerThreadPool n κ J} {w w' : Fin n} {h : DispatchLog n J}

/-- A step between the jobs. -/
lemma Dispatched.congr (hs : s.Dispatched h) (hqueue : s'.mJobQueue = s.mJobQueue)
    (hworker : s'.worker = s.worker) : s'.Dispatched h where
  queue := hqueue ▸ hs.queue
  executed w := hworker ▸ hs.executed w
  completed w := hworker ▸ hs.completed w

lemma executing_goto {pc : WorkerPC J} : ((s.goto w pc).worker w').executing =
    if w' = w then pc.executing else (s.worker w').executing := by
  rw [goto_worker, apply_ite WorkerPC.executing]

lemma completing_goto {pc : WorkerPC J} : ((s.goto w pc).worker w').completing =
    if w' = w then pc.completing else (s.worker w').completing := by
  rw [goto_worker, apply_ite WorkerPC.completing]

/-- A worker that goes on, and neither was in a job nor is in one now. -/
lemma Dispatched.goto (hs : s.Dispatched h) {pc : WorkerPC J}
    (hexecuting : pc.executing = (s.worker w).executing)
    (hcompleting : pc.completing = (s.worker w).completing) : (s.goto w pc).Dispatched h where
  queue := hs.queue
  executed w' := by
    rw [hs.executed w', executing_goto]
    split
    · rename_i heq
      rw [heq, hexecuting]
    · rfl
  completed w' := by
    rw [hs.completed w', completing_goto]
    split
    · rename_i heq
      rw [heq, hcompleting]
    · rfl

/-- A worker pops a job and starts to execute it. -/
lemma Dispatched.popJob (hs : s.Dispatched h) {job : J} {jobs : List J} (hpc : s.worker w = .pop)
    (hqueue : s.mJobQueue = job :: jobs) :
    ({ s with mJobQueue := jobs }.goto w (.execute job)).Dispatched
      { h with popped := h.popped ++ [(w, job)] } where
  queue := by
    have hold := hs.queue
    rw [hqueue] at hold
    rw [← hold, List.map_append, List.append_assoc]
    rfl
  executed w' := by
    rw [entriesOf_append, hs.executed w', executing_goto]
    by_cases heq : w' = w
    · subst heq
      have hexecuting : (s.worker w').executing = [] := by rw [hpc]; rfl
      rw [if_pos rfl, if_pos rfl, hexecuting, List.append_nil]
      rfl
    · rw [if_neg (Ne.symm heq), if_neg heq, List.append_nil]
  completed w' := by
    rw [hs.completed w', completing_goto]
    by_cases heq : w' = w
    · have hcompleting : (s.worker w).completing = [] := by rw [hpc]; rfl
      rw [if_pos heq, heq, hcompleting]
      rfl
    · rw [if_neg heq]

/-- `Execute` returns, and the worker goes on with `Complete` if the result is true. -/
lemma Dispatched.executeReturns (hs : s.Dispatched h) {job : J} {result : Bool}
    (hpc : s.worker w = .execute job) :
    (s.goto w (if result then .complete job else .loop)).Dispatched
      { h with executed := h.executed ++ [(w, job, result)] } where
  queue := hs.queue
  executed w' := by
    rw [hs.executed w', entriesOf_append, List.map_append, List.append_assoc, executing_goto]
    by_cases heq : w' = w
    · subst heq
      have hexecuting : (s.worker w').executing = [job] := by rw [hpc]; rfl
      rw [if_pos rfl, if_pos rfl, hexecuting]
      cases result <;> rfl
    · rw [if_neg (Ne.symm heq), if_neg heq]
      rfl
  completed w' := by
    rw [entriesOf_append, List.filter_append, List.map_append, hs.completed w', completing_goto]
    by_cases heq : w' = w
    · subst heq
      have hcompleting : (s.worker w').completing = [] := by rw [hpc]; rfl
      rw [if_pos rfl, if_pos rfl, hcompleting, List.append_nil]
      cases result <;> rfl
    · rw [if_neg (Ne.symm heq), if_neg heq]
      exact List.append_nil _

/-- `Complete` returns. -/
lemma Dispatched.completeReturns (hs : s.Dispatched h) {job : J}
    (hpc : s.worker w = .complete job) :
    (s.goto w .loop).Dispatched { h with completed := h.completed ++ [(w, job)] } where
  queue := hs.queue
  executed w' := by
    rw [hs.executed w', executing_goto]
    by_cases heq : w' = w
    · have hexecuting : (s.worker w).executing = [] := by rw [hpc]; rfl
      rw [if_pos heq, heq, hexecuting]
      rfl
    · rw [if_neg heq]
  completed w' := by
    rw [entriesOf_append, hs.completed w', completing_goto]
    by_cases heq : w' = w
    · subst heq
      have hcompleting : (s.worker w').completing = [job] := by rw [hpc]; rfl
      rw [if_pos rfl, if_pos rfl, hcompleting]
      exact (List.append_nil _).symm
    · rw [if_neg (Ne.symm heq), if_neg heq, List.append_nil]

variable [DecidableEq κ]

/-- A thread pushes a job. -/
lemma Dispatched.addPush (hs : s.Dispatched h) {t : Thread n κ} {job : J}
    {pc : Option (AddPC n J)} :
    ({ s with mJobQueue := s.mJobQueue ++ [job] }.gotoAdd t pc).Dispatched
      { h with pushed := h.pushed ++ [job] } where
  queue := by
    rw [← hs.queue, List.append_assoc]
    rfl
  executed := hs.executed
  completed := hs.completed

/-- **One step.**  Every step dispatches what it records. -/
theorem Dispatched.step (hs : s.Dispatched h) {a : Step n κ J} (hstep : s.step a = some s') :
    s'.Dispatched (record s a h) := by
  cases moves_of_step hstep with
  | popJob hpc hqueue =>
    simp only [record, hqueue]
    exact hs.popJob hpc hqueue
  | executeReturns hpc hadd =>
    simp only [record, hpc]
    exact hs.executeReturns hpc
  | completeReturns hpc hadd =>
    simp only [record, hpc]
    exact hs.completeReturns hpc
  | addPush hadd =>
    simp only [record, hadd]
    exact hs.addPush
  | popNone hpc hqueue =>
    simp only [record, hqueue]
    exact hs.goto (by rw [hpc]; rfl) (by rw [hpc]; rfl)
  | idleReadFails hpc => exact hs.goto (by rw [hpc]; rfl) (by rw [hpc]; rfl)
  | loop hpc =>
    refine hs.goto ?_ ?_
    · rw [hpc]
      split <;> rfl
    · rw [hpc]
      split <;> rfl
  | @idlePush w hpc =>
    have hmoved : (s.goto w .idleRead).Dispatched h :=
      hs.goto (by rw [hpc]; rfl) (by rw [hpc]; rfl)
    exact hmoved.congr rfl rfl
  | @idleRead w hpc hevent =>
    have hmoved : (s.goto w .loop).Dispatched h := hs.goto (by rw [hpc]; rfl) (by rw [hpc]; rfl)
    exact hmoved.congr rfl rfl
  | callAddJob hmay hadd | addTest hadd | addPop hadd hidle | addWrite hadd =>
    exact hs.congr rfl rfl
  | stop hstop | stopWrite hstop hi | stopReturn hstop hi | stopJoin hstop hi hexit =>
    exact hs.congr rfl rfl

end WorkerThreadPool

open WorkerThreadPool

/-- **Every job is dispatched once.**  In every state of every run of a pool, the jobs popped so
far and those in the queue are the jobs pushed so far, in this order; each worker has executed or
is executing the jobs that it has popped, and has completed or is completing those of them for
which `Execute` has returned true. -/
theorem workerThreadPool_dispatched (n : ℕ) (κ J : Type) [DecidableEq κ]
    (as : List (Step n κ J)) :
    ((machine n κ J).withHistory DispatchLog.record).Always (fun s => s.1.Dispatched s.2)
      (start n κ J, DispatchLog.start n J) as := by
  refine StepMachine.always_of_invariant
    (I := fun s : WorkerThreadPool n κ J × DispatchLog n J => s.1.Dispatched s.2)
    (fun s a s' hs h => ?_) (fun _ hs => hs) dispatched_start as
  obtain ⟨hstep, hrecord⟩ := StepMachine.withHistory_step_eq_some.1 h
  exact hrecord ▸ hs.step hstep

end CoreServer
