import CoreServer.WorkerThreadPool

/-!
# `Stop` of the pool

`Stop` clears `mIsRunning` before it writes to the first eventfd.  A worker that has been written
to has therefore something to read, or has read it and comes to the test of the loop next, which
it leaves.
-/

namespace CoreServer

namespace WorkerThreadPool

variable {n : ℕ} {κ J : Type} {s s' : WorkerThreadPool n κ J} {w w' : Fin n}

/-- The number of workers to which `Stop` has written. -/
def written (s : WorkerThreadPool n κ J) : ℕ :=
  match s.stopping with
  | .notCalled => 0
  | .write i => i
  | .join i => i + 1
  | .returned => n

/-- The thread that takes a step, if it is not the one in `Stop`. -/
def Step.thread : Step n κ J → Option (Thread n κ)
  | loop w | pop w | idlePush w | idleRead w | idleReadFails w | executeReturns w _
  | completeReturns w => some (.inl w)
  | callAddJob t _ | addPush t | addTest t | addPop t | addWrite t => some t
  | stop | stopWrite | stopJoin => none

/-- The invariant. -/
structure Signalled (s : WorkerThreadPool n κ J) : Prop where
  stopped : s.stopping ≠ .notCalled → s.mIsRunning = false
  /-- A worker has what `Stop` has written, or is on its way out. -/
  reached : ∀ w : Fin n, (w : ℕ) < s.written →
    s.worker w = .loop ∨ s.worker w = .exited ∨ s.eventFD w ≠ 0
  /-- A worker calls `AddJob` in a job. -/
  inJob : ∀ w, s.adding (.inl w) ≠ none → s.mayAdd (.inl w) = true

lemma signalled_start : (start n κ J).Signalled where
  stopped h := absurd rfl h
  reached _ h := absurd h (Nat.not_lt_zero _)
  inJob _ h := absurd rfl h

/-- A worker that is not in a job is not in `AddJob`. -/
lemma Signalled.adding_eq_none (hs : s.Signalled) (h : s.mayAdd (.inl w) = false) :
    s.adding (.inl w) = none := by
  by_contra hadd
  exact Bool.false_ne_true (h.symm.trans (hs.inJob w hadd))

/-- A worker that moves on its way out, or still has something to read. -/
lemma Signalled.goto (hs : s.Signalled) {pc : WorkerPC J}
    (hpc : (w : ℕ) < s.written → pc = .loop ∨ pc = .exited ∨ s.eventFD w ≠ 0)
    (hadd : s.adding (.inl w) = none) : (s.goto w pc).Signalled where
  stopped := hs.stopped
  reached w' hw' := by
    rw [goto_worker]
    split
    · rename_i heq
      subst heq
      exact hpc hw'
    · exact hs.reached w' hw'
  inJob w' hadd' := by
    have hne : w' ≠ w := by
      rintro rfl
      exact hadd' hadd
    have hold := hs.inJob w' hadd'
    simp only [mayAdd] at hold ⊢
    rwa [goto_worker, if_neg hne]

/-- A worker that is neither at the test of its loop nor behind it has something to read. -/
lemma Signalled.eventFD_ne_zero (hs : s.Signalled) (hw : (w : ℕ) < s.written)
    (hloop : s.worker w ≠ .loop) (hexited : s.worker w ≠ .exited) : s.eventFD w ≠ 0 :=
  ((hs.reached w hw).resolve_left hloop).resolve_left hexited

/-- Something is written to an eventfd. -/
lemma Signalled.signal (hs : s.Signalled) : (s.signal w).Signalled where
  stopped := hs.stopped
  reached w' hw' := by
    refine (hs.reached w' hw').imp_right (Or.imp_right fun hne => ?_)
    rw [signal_eventFD]
    split
    · omega
    · exact hne
  inJob := hs.inJob

variable [DecidableEq κ]

/-- A thread that moves in `AddJob`. -/
lemma Signalled.gotoAdd (hs : s.Signalled) {t : Thread n κ} {pc : Option (AddPC n J)}
    (hmay : s.mayAdd t = true) : (s.gotoAdd t pc).Signalled where
  stopped := hs.stopped
  reached := hs.reached
  inJob w' hadd' := by
    by_cases heq : .inl w' = t
    · exact heq ▸ hmay
    · rw [gotoAdd_adding, if_neg heq] at hadd'
      exact hs.inJob w' hadd'

omit [DecidableEq κ] in
/-- A thread that is in `AddJob` may be there. -/
lemma Signalled.mayAdd_of_adding (hs : s.Signalled) {t : Thread n κ} {pc : AddPC n J}
    (hadd : s.adding t = some pc) : s.mayAdd t = true := by
  cases t with
  | inl w => exact hs.inJob w (by rw [hadd]; exact Option.some_ne_none _)
  | inr k => rfl

/-- **Every step keeps the invariant.** -/
theorem Signalled.step (hs : s.Signalled) {a : Step n κ J} (h : s.step a = some s') :
    s'.Signalled := by
  -- a worker that is on its way through the loop goes on
  have hgoto : ∀ {w pc}, s.worker w ≠ .loop → s.worker w ≠ .exited →
      s.adding (.inl w) = none → (s.goto w pc).Signalled := fun hloop hexited hadd =>
    hs.goto (fun hw => Or.inr (Or.inr (hs.eventFD_ne_zero hw hloop hexited))) hadd
  cases moves_of_step h with
  | @loop w hpc =>
    refine hs.goto (fun hw => ?_) (hs.adding_eq_none (by simp [mayAdd, hpc]))
    have hstopped : s.mIsRunning = false := hs.stopped fun hstop => by
      rw [written, hstop] at hw
      exact Nat.not_lt_zero _ hw
    rw [hstopped]
    exact Or.inr (Or.inl rfl)
  | popNone hpc hqueue =>
    exact hgoto (by simp [hpc]) (by simp [hpc]) (hs.adding_eq_none (by simp [mayAdd, hpc]))
  | @popJob w job jobs hpc hqueue =>
    have hmoved : (s.goto w (.execute job)).Signalled :=
      hgoto (by simp [hpc]) (by simp [hpc]) (hs.adding_eq_none (by simp [mayAdd, hpc]))
    exact ⟨hmoved.stopped, hmoved.reached, hmoved.inJob⟩
  | @idlePush w hpc =>
    have hmoved : (s.goto w .idleRead).Signalled :=
      hgoto (by simp [hpc]) (by simp [hpc]) (hs.adding_eq_none (by simp [mayAdd, hpc]))
    exact ⟨hmoved.stopped, hmoved.reached, hmoved.inJob⟩
  | @idleRead w hpc hevent =>
    have hmoved : (s.goto w .loop).Signalled :=
      hs.goto (fun _ => Or.inl rfl) (hs.adding_eq_none (by simp [mayAdd, hpc]))
    refine ⟨hmoved.stopped, fun w' hw' => ?_, hmoved.inJob⟩
    rcases eq_or_ne w' w with rfl | hne
    · exact Or.inl (goto_worker_self ..)
    · refine (hmoved.reached w' hw').imp_right (Or.imp_right fun hread => ?_)
      exact (Function.update_of_ne hne ..).trans_ne hread
  | idleReadFails hpc =>
    exact hs.goto (fun _ => Or.inl rfl) (hs.adding_eq_none (by simp [mayAdd, hpc]))
  | executeReturns hpc hadd => exact hgoto (by simp [hpc]) (by simp [hpc]) hadd
  | completeReturns hpc hadd => exact hgoto (by simp [hpc]) (by simp [hpc]) hadd
  | callAddJob hmay hadd => exact hs.gotoAdd hmay
  | @addPush t job hadd =>
    have hmoved : (s.gotoAdd t (some .test)).Signalled := hs.gotoAdd (hs.mayAdd_of_adding hadd)
    exact ⟨hmoved.stopped, hmoved.reached, hmoved.inJob⟩
  | addTest hadd => exact hs.gotoAdd (hs.mayAdd_of_adding hadd)
  | @addPop t context idle hadd hidle =>
    have hmoved : (s.gotoAdd t (some (.write context))).Signalled :=
      hs.gotoAdd (hs.mayAdd_of_adding hadd)
    exact ⟨hmoved.stopped, hmoved.reached, hmoved.inJob⟩
  | addWrite hadd => exact hs.signal.gotoAdd (hs.mayAdd_of_adding hadd)
  | stop hstop => exact ⟨fun _ => rfl, fun _ hw => absurd hw (Nat.not_lt_zero _), hs.inJob⟩
  | @stopWrite i hstop hi =>
    have hsignal := hs.signal (w := ⟨i, hi⟩)
    refine ⟨fun _ => hs.stopped (by rw [hstop]; simp), fun w' hw' => ?_, hs.inJob⟩
    rcases eq_or_ne w' ⟨i, hi⟩ with rfl | hne
    · refine Or.inr (Or.inr ?_)
      change (s.signal ⟨i, hi⟩).eventFD ⟨i, hi⟩ ≠ 0
      rw [signal_eventFD, if_pos rfl]
      exact Nat.succ_ne_zero _
    · refine hsignal.reached w' ?_
      have hlt : (w' : ℕ) < i + 1 := hw'
      have hval : (w' : ℕ) ≠ i := fun heq => hne (Fin.ext heq)
      have hwritten : s.written = i := by rw [written, hstop]
      change (w' : ℕ) < s.written
      omega
  | @stopReturn i hstop hi =>
    refine ⟨fun _ => hs.stopped (by rw [hstop]; simp), fun w' hw' => hs.reached w' ?_, hs.inJob⟩
    have hwritten : s.written = i := by rw [written, hstop]
    exact hwritten ▸ w'.isLt.trans_le (not_lt.1 hi)
  | @stopJoin i hstop hi hexit =>
    refine ⟨fun _ => hs.stopped (by rw [hstop]; simp), fun w' hw' => hs.reached w' ?_, hs.inJob⟩
    rw [written, hstop]
    exact hw'

/-! ## The way out of the loop -/

/-- How far a worker is from the end of its loop, if it takes no further job. -/
def WorkerPC.distance : WorkerPC J → ℕ
  | .exited => 0
  | .loop => 1
  | .idleRead | .execute _ | .complete _ => 2
  | .idlePush => 3
  | .pop => 4

/-- How far a thread is from the end of `AddJob`. -/
def AddPC.distance : AddPC n J → ℕ
  | .write _ => 1
  | .pop => 2
  | .test => 3
  | .push _ => 4

/-- How far a worker is from its end. -/
def distance (s : WorkerThreadPool n κ J) (w : Fin n) : ℕ :=
  (s.worker w).distance + ((s.adding (.inl w)).map AddPC.distance).getD 0

/-- If the worker is about to pop the stack, the stack is not empty. -/
def PopsOwn (s : WorkerThreadPool n κ J) (w : Fin n) : Prop :=
  s.adding (.inl w) = some .pop → s.mIdleThreads ≠ []

/-- A worker in `AddJob` comes nearer to its end. -/
lemma progress_adding {pc : AddPC n J} (hadd : s.adding (.inl w) = some pc)
    (hpops : s.PopsOwn w) :
    ∃ a s', a.thread = some (.inl w) ∧ s.step a = some s' ∧ s'.written = s.written ∧
      s'.PopsOwn w ∧ s'.distance w < s.distance w := by
  have hdistance : ∀ (r : WorkerThreadPool n κ J) (pc' : Option (AddPC n J)),
      r.worker = s.worker → (pc'.map AddPC.distance).getD 0 < pc.distance →
      (r.gotoAdd (.inl w) pc').distance w < s.distance w := by
    intro r pc' hworker hlt
    have hsame : (r.gotoAdd (.inl w) pc').worker w = s.worker w := congrFun hworker w
    rw [distance, distance, hsame, gotoAdd_adding_self, hadd]
    exact Nat.add_lt_add_left hlt _
  cases pc with
  | push job =>
    have hstep : s.step (.addPush (.inl w)) =
        some ({ s with mJobQueue := s.mJobQueue ++ [job] }.gotoAdd (.inl w) (some .test)) := by
      simp only [WorkerThreadPool.step, hadd]
    refine ⟨_, _, rfl, hstep, rfl, fun ht => ?_, hdistance _ _ rfl (Nat.lt_succ_self 3)⟩
    rw [gotoAdd_adding_self] at ht
    cases ht
  | test =>
    have hstep : s.step (.addTest (.inl w)) =
        some (s.gotoAdd (.inl w) (if s.mIdleThreads = [] then none else some .pop)) := by
      simp only [WorkerThreadPool.step, hadd]
    refine ⟨_, _, rfl, hstep, rfl, fun ht => ?_, hdistance s _ rfl ?_⟩
    · rw [gotoAdd_adding_self] at ht
      split at ht
      · cases ht
      · rename_i hne
        exact hne
    · split
      · exact Nat.zero_lt_succ 2
      · exact Nat.lt_succ_self 2
  | pop =>
    -- the one step of the worker that may have no defined result
    obtain ⟨context, idle, hidle⟩ := List.exists_cons_of_ne_nil (hpops hadd)
    have hstep : s.step (.addPop (.inl w)) =
        some ({ s with mIdleThreads := idle }.gotoAdd (.inl w) (some (.write context))) := by
      simp only [WorkerThreadPool.step, hadd, hidle]
    refine ⟨_, _, rfl, hstep, rfl, fun ht => ?_, hdistance _ _ rfl (Nat.lt_succ_self 1)⟩
    rw [gotoAdd_adding_self] at ht
    cases ht
  | write context =>
    have hstep : s.step (.addWrite (.inl w)) =
        some ((s.signal context).gotoAdd (.inl w) none) := by
      simp only [WorkerThreadPool.step, hadd]
    refine ⟨_, _, rfl, hstep, rfl, fun ht => ?_, hdistance _ _ rfl (Nat.lt_succ_self 0)⟩
    rw [gotoAdd_adding_self] at ht
    cases ht

/-- **Progress.**  A worker that `Stop` has written to comes nearer to its end by a step of its
own. -/
theorem Signalled.progress (hs : s.Signalled) (hw : (w : ℕ) < s.written)
    (hexited : s.worker w ≠ .exited) (hpops : s.PopsOwn w) :
    ∃ a s', a.thread = some (.inl w) ∧ s.step a = some s' ∧ s'.written = s.written ∧
      s'.PopsOwn w ∧ s'.distance w < s.distance w := by
  cases hadd : s.adding (.inl w) with
  | some pc => exact progress_adding hadd hpops
  | none =>
    have hpops' : ∀ r : WorkerThreadPool n κ J, r.adding = s.adding → r.PopsOwn w := by
      intro r hadding ht
      rw [hadding, hadd] at ht
      cases ht
    have hdistance : ∀ (r : WorkerThreadPool n κ J) (pc : WorkerPC J), r.adding = s.adding →
        pc.distance < (s.worker w).distance → (r.goto w pc).distance w < s.distance w := by
      intro r pc hadding hlt
      have hsame : (r.goto w pc).adding (.inl w) = s.adding (.inl w) := congrFun hadding _
      rw [distance, distance, hsame, goto_worker_self]
      exact Nat.add_lt_add_right hlt _
    cases hpc : s.worker w with
    | exited => exact absurd hpc hexited
    | loop =>
      -- the flag has been cleared before the eventfd was written
      have hstopped : s.mIsRunning = false := hs.stopped fun hstop => by
        rw [written, hstop] at hw
        exact Nat.not_lt_zero _ hw
      have hstep : s.step (.loop w) = some (s.goto w .exited) := by
        simp only [WorkerThreadPool.step, hpc, hstopped]
        rfl
      exact ⟨_, _, rfl, hstep, rfl, hpops' _ rfl, hdistance s _ rfl (hpc ▸ Nat.lt_succ_self 0)⟩
    | pop =>
      cases hqueue : s.mJobQueue with
      | nil =>
        have hstep : s.step (.pop w) = some (s.goto w .idlePush) := by
          simp only [WorkerThreadPool.step, hpc, hqueue]
        exact ⟨_, _, rfl, hstep, rfl, hpops' _ rfl, hdistance s _ rfl (hpc ▸ Nat.lt_succ_self 3)⟩
      | cons job jobs =>
        have hstep : s.step (.pop w) =
            some ({ s with mJobQueue := jobs }.goto w (.execute job)) := by
          simp only [WorkerThreadPool.step, hpc, hqueue]
        exact ⟨_, _, rfl, hstep, rfl, hpops' _ rfl,
          hdistance _ _ rfl (hpc ▸ Nat.lt_succ_of_lt (Nat.lt_succ_self 2))⟩
    | idlePush =>
      have hstep : s.step (.idlePush w) =
          some ({ s with mIdleThreads := w :: s.mIdleThreads }.goto w .idleRead) := by
        simp only [WorkerThreadPool.step, hpc]
      exact ⟨_, _, rfl, hstep, rfl, hpops' _ rfl, hdistance _ _ rfl (hpc ▸ Nat.lt_succ_self 2)⟩
    | idleRead =>
      -- what `Stop` has written is still there to be read
      have hevent := hs.eventFD_ne_zero hw (by simp [hpc]) hexited
      have hstep : s.step (.idleRead w) =
          some ({ s with eventFD := Function.update s.eventFD w 0 }.goto w .loop) := by
        simp only [WorkerThreadPool.step, hpc, if_neg hevent]
      exact ⟨_, _, rfl, hstep, rfl, hpops' _ rfl, hdistance _ _ rfl (hpc ▸ Nat.lt_succ_self 1)⟩
    | execute job =>
      -- the job returns; without a call of `Complete` the worker is nearer to its end
      have hstep : s.step (.executeReturns w false) = some (s.goto w .loop) := by
        simp only [WorkerThreadPool.step, hpc, hadd]
        rfl
      exact ⟨_, _, rfl, hstep, rfl, hpops' _ rfl, hdistance s _ rfl (hpc ▸ Nat.lt_succ_self 1)⟩
    | complete job =>
      have hstep : s.step (.completeReturns w) = some (s.goto w .loop) := by
        simp only [WorkerThreadPool.step, hpc, hadd]
      exact ⟨_, _, rfl, hstep, rfl, hpops' _ rfl, hdistance s _ rfl (hpc ▸ Nat.lt_succ_self 1)⟩

/-- A worker can come to its end by steps of its own. -/
def CanExit (s : WorkerThreadPool n κ J) (w : Fin n) : Prop :=
  ∃ as s', (∀ a ∈ as, a.thread = some (.inl w)) ∧ (machine n κ J).exec s as = some s' ∧
    s'.worker w = .exited

lemma Signalled.canExit (hs : s.Signalled) (hw : (w : ℕ) < s.written) (hpops : s.PopsOwn w) :
    s.CanExit w := by
  induction hd : s.distance w using Nat.strong_induction_on generalizing s with
  | _ d ih =>
    by_cases hexited : s.worker w = .exited
    · exact ⟨[], s, fun a ha => absurd ha List.not_mem_nil, rfl, hexited⟩
    · obtain ⟨a, s₁, hthread, hstep, hwritten, hpops₁, hlt⟩ := hs.progress hw hexited hpops
      obtain ⟨as, s', hthreads, hrun, hexit⟩ :=
        ih _ (hd ▸ hlt) (hs.step hstep) (hwritten ▸ hw) hpops₁ rfl
      refine ⟨a :: as, s', fun b hb => ?_, StepMachine.exec_cons_eq_some.2 ⟨s₁, hstep, hrun⟩,
        hexit⟩
      rcases List.mem_cons.1 hb with rfl | hb
      · exact hthread
      · exact hthreads b hb

end WorkerThreadPool

open WorkerThreadPool

/-- **`Stop` reaches every worker.**  In every run of a pool, a worker to which `Stop` has written
and which has not left its loop is not blocked in `Idle`, and can come to its end by steps of its
own, unless it pops an empty stack in a job. -/
theorem workerThreadPool_stopReaches (n : ℕ) (κ J : Type) [DecidableEq κ]
    (as : List (Step n κ J)) :
    (machine n κ J).Always (fun s => ∀ w : Fin n, (w : ℕ) < s.written →
      (s.worker w ≠ .exited → ¬ (s.worker w = .idleRead ∧ s.eventFD w = 0)) ∧
        (s.PopsOwn w → s.CanExit w)) (start n κ J) as := by
  refine StepMachine.always_of_invariant (I := Signalled) (fun _ _ _ hs h => hs.step h)
    (fun s hs w hw => ⟨fun hexited hblocked => ?_, hs.canExit hw⟩) signalled_start as
  exact hs.eventFD_ne_zero hw (by simp [hblocked.1]) hexited hblocked.2

end CoreServer
