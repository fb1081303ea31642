import CoreServer.WorkerThreadPool

/-!
# The stack of idle workers

Up to `Stop`, the permission to wake a worker is in one place: on the stack `mIdleThreads`, with
the one thread that has taken the worker from the stack, or in the counter of its eventfd.  A
`read` that fails breaks this, as the worker goes on and leaves the permission where it is.  What
is not safe either is the way to the stack: `WakeOneThread` tests it without the lock, and other
threads may empty it before it pops.
-/

namespace CoreServer

namespace WorkerThreadPool

variable {n : ℕ} {κ J : Type} {s s' : WorkerThreadPool n κ J} {w w' : Fin n} {t : Thread n κ}

section Situations

/-- Before `Stop` a worker is in one of four situations: not parked; on the stack; taken from
the stack by a thread that is about to write to its eventfd; or written to. -/
inductive Situation (s : WorkerThreadPool n κ J) (w : Fin n) : Prop where
  | awake (notReading : s.worker w ≠ .idleRead) (notIdle : s.mIdleThreads.count w = 0)
    (unclaimed : ∀ t, s.adding t ≠ some (.write w)) (counter : s.eventFD w = 0)
  | parked (reading : s.worker w = .idleRead) (idle : s.mIdleThreads.count w = 1)
    (unclaimed : ∀ t, s.adding t ≠ some (.write w)) (counter : s.eventFD w = 0)
  | claimed (t : Thread n κ) (reading : s.worker w = .idleRead)
    (notIdle : s.mIdleThreads.count w = 0) (claim : ∀ t', s.adding t' = some (.write w) ↔ t' = t)
    (counter : s.eventFD w = 0)
  | woken (reading : s.worker w = .idleRead) (notIdle : s.mIdleThreads.count w = 0)
    (unclaimed : ∀ t, s.adding t ≠ some (.write w)) (counter : s.eventFD w = 1)

/-- Before `Stop` every worker is in one of the four situations. -/
def Placed (s : WorkerThreadPool n κ J) : Prop :=
  s.mIsRunning = true → s.stopping = .notCalled ∧ ∀ w, s.Situation w

lemma placed_start : (start n κ J).Placed := fun _ =>
  ⟨rfl, fun _ => .awake (by simp [start]) (by simp [start]) (by simp [start]) rfl⟩

/-- Up to `Stop` no `read` of `Idle` fails. -/
def ReadsSucceed (s : WorkerThreadPool n κ J) : Step n κ J → Prop
  | .idleReadFails w => s.worker w = .idleRead → s.mIsRunning = false
  | _ => True

/-- A worker that a step does not concern stays in its situation. -/
lemma Situation.congr (h : s.Situation w)
    (hworker : s'.worker w = .idleRead ↔ s.worker w = .idleRead)
    (hidle : s'.mIdleThreads.count w = s.mIdleThreads.count w)
    (hadding : ∀ t, s'.adding t = some (.write w) ↔ s.adding t = some (.write w))
    (hevent : s'.eventFD w = s.eventFD w) : s'.Situation w := by
  cases h with
  | awake notReading notIdle unclaimed counter =>
    exact .awake (mt hworker.1 notReading) (hidle.trans notIdle)
      (fun t => mt (hadding t).1 (unclaimed t)) (hevent.trans counter)
  | parked reading idle unclaimed counter =>
    exact .parked (hworker.2 reading) (hidle.trans idle)
      (fun t => mt (hadding t).1 (unclaimed t)) (hevent.trans counter)
  | claimed t reading notIdle claim counter =>
    exact .claimed t (hworker.2 reading) (hidle.trans notIdle)
      (fun t' => (hadding t').trans (claim t')) (hevent.trans counter)
  | woken reading notIdle unclaimed counter =>
    exact .woken (hworker.2 reading) (hidle.trans notIdle)
      (fun t => mt (hadding t).1 (unclaimed t)) (hevent.trans counter)

lemma Situation.withQueue (h : s.Situation w) (jobs : List J) :
    ({ s with mJobQueue := jobs } : WorkerThreadPool n κ J).Situation w :=
  h.congr Iff.rfl rfl (fun _ => Iff.rfl) rfl

/-- A worker that moves without parking or waking up keeps every worker's situation. -/
lemma Situation.goto (h : s.Situation w') {pc : WorkerPC J} (hold : s.worker w ≠ .idleRead)
    (hnew : pc ≠ .idleRead) : (s.goto w pc).Situation w' := by
  refine h.congr ?_ rfl (fun _ => Iff.rfl) rfl
  rw [goto_worker]
  split
  · rename_i heq
    rw [heq]
    exact iff_of_false hnew hold
  · rfl

variable [DecidableEq κ]

/-- A thread that moves in `AddJob` without claiming a worker or writing to one keeps every
worker's situation. -/
lemma Situation.gotoAdd (h : s.Situation w') {pc : Option (AddPC n J)}
    (hold : ∀ w, s.adding t ≠ some (.write w)) (hnew : ∀ w, pc ≠ some (.write w)) :
    (s.gotoAdd t pc).Situation w' := by
  refine h.congr Iff.rfl rfl (fun t' => ?_) rfl
  rw [gotoAdd_adding]
  split
  · rename_i heq
    rw [heq]
    exact iff_of_false (hnew w') (hold w')
  · rfl

omit [DecidableEq κ] in
/-- A worker parks itself. -/
lemma Situation.idlePush (h : ∀ w, s.Situation w) (hpc : s.worker w = .idlePush) (w' : Fin n) :
    ({ s with mIdleThreads := w :: s.mIdleThreads }.goto w .idleRead).Situation w' := by
  rcases eq_or_ne w' w with rfl | hne
  · cases h w' with
    | awake notReading notIdle unclaimed counter =>
      refine .parked (by rw [goto_worker, if_pos rfl]) ?_ unclaimed counter
      change (w' :: s.mIdleThreads).count w' = 1
      rw [List.count_cons_self, notIdle]
    | parked reading => exact absurd (hpc.symm.trans reading) (by simp)
    | claimed _ reading => exact absurd (hpc.symm.trans reading) (by simp)
    | woken reading => exact absurd (hpc.symm.trans reading) (by simp)
  · exact (h w').congr (by rw [goto_worker, if_neg hne]) (List.count_cons_of_ne hne.symm)
      (fun _ => Iff.rfl) rfl

omit [DecidableEq κ] in
/-- A worker reads what has been written to its eventfd. -/
lemma Situation.idleRead (h : ∀ w, s.Situation w) (hpc : s.worker w = .idleRead)
    (hevent : s.eventFD w ≠ 0) (w' : Fin n) :
    ({ s with eventFD := Function.update s.eventFD w 0 }.goto w .loop).Situation w' := by
  rcases eq_or_ne w' w with rfl | hne
  · cases h w' with
    | awake notReading => exact absurd hpc notReading
    | parked _ _ _ counter => exact absurd counter hevent
    | claimed _ _ _ _ counter => exact absurd counter hevent
    | woken reading notIdle unclaimed counter =>
      exact .awake (by simp) notIdle unclaimed (Function.update_self ..)
  · exact (h w').congr (by rw [goto_worker, if_neg hne]) rfl (fun _ => Iff.rfl)
      (Function.update_of_ne hne ..)

/-- A thread takes a worker from the stack. -/
lemma Situation.addPop (h : ∀ w, s.Situation w) (hpc : s.adding t = some .pop)
    {idle : List (Fin n)} (hidle : s.mIdleThreads = w :: idle) (w' : Fin n) :
    ({ s with mIdleThreads := idle }.gotoAdd t (some (.write w))).Situation w' := by
  rcases eq_or_ne w' w with rfl | hne
  · have hcount : s.mIdleThreads.count w' = idle.count w' + 1 := by
      rw [hidle, List.count_cons_self]
    cases h w' with
    | awake _ notIdle => omega
    | parked reading idle unclaimed counter =>
      -- nobody had claimed the worker, so `t` is the only one that does now
      refine .claimed t reading (Nat.succ.inj (hcount.symm.trans idle)) (fun t' => ?_) counter
      rw [gotoAdd_adding]
      split
      · rename_i heq
        simp [heq]
      · rename_i hother
        exact iff_of_false (unclaimed t') hother
    | claimed _ _ notIdle => omega
    | woken _ notIdle => omega
  · refine (h w').congr Iff.rfl ?_ (fun t' => ?_) rfl
    · rw [hidle, List.count_cons_of_ne hne.symm]
      rfl
    · rw [gotoAdd_adding]
      split
      · rename_i heq
        rw [heq, hpc]
        simp [Ne.symm hne]
      · rfl

/-- A thread writes to the eventfd of the worker that it has taken from the stack. -/
lemma Situation.addWrite (h : ∀ w, s.Situation w) (hpc : s.adding t = some (.write w))
    (w' : Fin n) : ((s.signal w).gotoAdd t none).Situation w' := by
  rcases eq_or_ne w' w with rfl | hne
  · cases h w' with
    | awake _ _ unclaimed => exact absurd hpc (unclaimed t)
    | parked _ _ unclaimed => exact absurd hpc (unclaimed t)
    | claimed t' reading notIdle claim counter =>
      refine .woken reading notIdle (fun t'' => ?_) ?_
      · rw [gotoAdd_adding]
        split
        · simp
        · rename_i hother
          exact fun hclaim => hother (((claim t'').1 hclaim).trans ((claim t).1 hpc).symm)
      · change (s.signal w').eventFD w' = 1
        rw [signal_eventFD, if_pos rfl, counter]
    | woken _ _ unclaimed => exact absurd hpc (unclaimed t)
  · refine (h w').congr Iff.rfl rfl (fun t' => ?_) (by
      change (s.signal w).eventFD w' = s.eventFD w'
      rw [signal_eventFD, if_neg hne])
    rw [gotoAdd_adding]
    split
    · rename_i heq
      rw [heq, hpc]
      simp [Ne.symm hne]
    · rfl

/-- **Every step but a failing `read` keeps every worker in one of the four situations, up to
`Stop`.** -/
theorem Placed.step (hs : s.Placed) {a : Step n κ J} (ha : s.ReadsSucceed a)
    (h : s.step a = some s') : s'.Placed := by
  intro hrun
  cases moves_of_step h with
  | loop hpc =>
    refine ⟨(hs hrun).1, fun w' => ((hs hrun).2 w').goto (by simp [hpc]) ?_⟩
    split <;> simp
  | popNone hpc hqueue =>
    exact ⟨(hs hrun).1, fun w' => ((hs hrun).2 w').goto (by simp [hpc]) (by simp)⟩
  | popJob hpc hqueue =>
    exact ⟨(hs hrun).1, fun w' => (((hs hrun).2 w').withQueue _).goto (by simp [hpc]) (by simp)⟩
  | idlePush hpc => exact ⟨(hs hrun).1, Situation.idlePush (hs hrun).2 hpc⟩
  | idleRead hpc hevent => exact ⟨(hs hrun).1, Situation.idleRead (hs hrun).2 hpc hevent⟩
  | idleReadFails hpc => exact absurd ((ha hpc).symm.trans hrun) Bool.false_ne_true
  | executeReturns hpc hadd =>
    refine ⟨(hs hrun).1, fun w' => ((hs hrun).2 w').goto (by simp [hpc]) ?_⟩
    split <;> simp
  | completeReturns hpc hadd =>
    exact ⟨(hs hrun).1, fun w' => ((hs hrun).2 w').goto (by simp [hpc]) (by simp)⟩
  | callAddJob hmay hadd =>
    exact ⟨(hs hrun).1, fun w' => ((hs hrun).2 w').gotoAdd (by simp [hadd]) (by simp)⟩
  | addPush hadd =>
    exact ⟨(hs hrun).1, fun w' => (((hs hrun).2 w').withQueue _).gotoAdd (by simp [hadd]) (by simp)⟩
  | addTest hadd =>
    refine ⟨(hs hrun).1, fun w' => ((hs hrun).2 w').gotoAdd (by simp [hadd]) fun w => ?_⟩
    split <;> simp
  | addPop hadd hidle => exact ⟨(hs hrun).1, Situation.addPop (hs hrun).2 hadd hidle⟩
  | addWrite hadd => exact ⟨(hs hrun).1, Situation.addWrite (hs hrun).2 hadd⟩
  | stop hstop => exact absurd hrun (by simp)
  | stopWrite hstop hi => exact absurd (hstop.symm.trans (hs hrun).1) (by simp)
  | stopReturn hstop hi => exact absurd (hstop.symm.trans (hs hrun).1) (by simp)
  | stopJoin hstop hi hexit => exact absurd (hstop.symm.trans (hs hrun).1) (by simp)

end Situations

/-! ## Where the permission to wake a worker is -/

/-- Where the permission to wake a worker is. -/
inductive WakePlace where
  /-- There is none: the worker is not parked. -/
  | awake
  /-- On the stack. -/
  | stack
  /-- With a thread that has taken the worker from the stack. -/
  | waker
  /-- In the counter of the eventfd. -/
  | counter
deriving DecidableEq, Repr

/-- The permission to wake the worker `w` is in the given place, and in no other. -/
def WakeAt (s : WorkerThreadPool n κ J) (w : Fin n) : WakePlace → Prop
  | .awake => s.worker w ≠ .idleRead ∧ s.mIdleThreads.count w = 0 ∧
      (∀ t, s.adding t ≠ some (.write w)) ∧ s.eventFD w = 0
  | .stack => s.worker w = .idleRead ∧ s.mIdleThreads.count w = 1 ∧
      (∀ t, s.adding t ≠ some (.write w)) ∧ s.eventFD w = 0
  | .waker => s.worker w = .idleRead ∧ s.mIdleThreads.count w = 0 ∧
      (∃! t, s.adding t = some (.write w)) ∧ s.eventFD w = 0
  | .counter => s.worker w = .idleRead ∧ s.mIdleThreads.count w = 0 ∧
      (∀ t, s.adding t ≠ some (.write w)) ∧ s.eventFD w = 1

/-- The four places exclude each other. -/
lemma wakeAt_unique {p p' : WakePlace} (h : s.WakeAt w p) (h' : s.WakeAt w p') : p = p' := by
  cases p <;> cases p' <;> first | rfl | (simp only [WakeAt] at h h'; grind)

lemma Situation.wakeAt (h : s.Situation w) : ∃! p, s.WakeAt w p := by
  have hplace : ∃ p, s.WakeAt w p := by
    cases h with
    | awake notReading notIdle unclaimed counter =>
      exact ⟨.awake, notReading, notIdle, unclaimed, counter⟩
    | parked reading idle unclaimed counter => exact ⟨.stack, reading, idle, unclaimed, counter⟩
    | claimed t reading notIdle claim counter =>
      exact ⟨.waker, reading, notIdle, ⟨t, (claim t).2 rfl, fun t' => (claim t').1⟩, counter⟩
    | woken reading notIdle unclaimed counter =>
      exact ⟨.counter, reading, notIdle, unclaimed, counter⟩
  obtain ⟨p, hp⟩ := hplace
  exact ⟨p, hp, fun p' hp' => wakeAt_unique hp' hp⟩

/-- A worker that a step does not concern. -/
lemma wakeAt_congr (hworker : s'.worker w = s.worker w)
    (hidle : s'.mIdleThreads.count w = s.mIdleThreads.count w)
    (hadding : ∀ t, s'.adding t = some (.write w) ↔ s.adding t = some (.write w))
    (hevent : s'.eventFD w = s.eventFD w) (p : WakePlace) : s'.WakeAt w p ↔ s.WakeAt w p := by
  cases p <;> simp only [WakeAt, hworker, hidle, hevent, hadding, ne_eq]

variable [DecidableEq κ]

/-- A write of `WakeOneThread` moves the permission to wake one parked worker from the thread to
the counter of the worker, and no other one. -/
def ReleasesOne (s : WorkerThreadPool n κ J) : Step n κ J → Prop
  | .addWrite t => ∀ s', s.step (.addWrite t) = some s' → s.mIsRunning = true →
      ∃ w, s.WakeAt w .waker ∧ s'.WakeAt w .counter ∧
        ∀ w' ≠ w, ∀ p, s'.WakeAt w' p ↔ s.WakeAt w' p
  | _ => True

lemma Placed.releasesOne (hs : s.Placed) (a : Step n κ J) : s.ReleasesOne a := by
  cases a <;> try trivial
  rename_i t
  intro s' h hrun
  cases moves_of_step h with
  | @addWrite _ w hadd =>
    obtain ⟨reading, notIdle, ⟨t', ht', hunique⟩, counter⟩ : s.WakeAt w .waker := by
      obtain ⟨p, hp, -⟩ := ((hs hrun).2 w).wakeAt
      cases p with
      | waker => exact hp
      | awake | stack | counter => exact absurd hadd (hp.2.2.1 t)
    have hothers : ∀ w' t', ((s.signal w).gotoAdd t none).adding t' = some (.write w') ↔
        s.adding t' = some (.write w') ∧ t' ≠ t := by
      intro w' t'
      rw [gotoAdd_adding]
      by_cases heq : t' = t <;> simp [heq, WorkerThreadPool.signal]
    refine ⟨w, ⟨reading, notIdle, ⟨t', ht', hunique⟩, counter⟩, ?_, fun w' hne p => ?_⟩
    · refine ⟨reading, notIdle, fun t'' hclaim => ?_, ?_⟩
      · obtain ⟨hold, hne⟩ := (hothers w t'').1 hclaim
        exact hne ((hunique t'' hold).trans (hunique t hadd).symm)
      · change (s.signal w).eventFD w = 1
        rw [signal_eventFD, if_pos rfl, counter]
    · apply wakeAt_congr
      · rfl
      · rfl
      · intro t'
        rw [hothers]
        refine and_iff_left_of_imp ?_
        rintro hold rfl
        exact hne (AddPC.write.inj (Option.some.inj (hadd.symm.trans hold))).symm
      · change (s.signal w).eventFD w' = s.eventFD w'
        rw [signal_eventFD, if_neg hne]

/-- A worker whose `read` fails leaves the permission to wake it behind. -/
lemma Inv.readsSucceed (hs : s.Inv) {a : Step n κ J} (h : s.step a = some s')
    (hs' : s'.mIsRunning = true → ∀ w, ∃! p, s'.WakeAt w p) : s.ReadsSucceed a := by
  cases a <;> try trivial
  rename_i w
  intro hpc
  by_contra hrun
  rw [Bool.not_eq_false] at hrun
  cases moves_of_step h
  obtain ⟨p, hp, -⟩ := hs' hrun w
  cases p with
  | awake =>
    obtain ⟨-, hidle, hunclaimed, hcounter⟩ := hp
    rcases (hs hrun).2 w hpc with hmem | ⟨t, hclaim⟩ | hevent
    · exact List.count_eq_zero.1 hidle hmem
    · exact hunclaimed t hclaim
    · exact hevent hcounter
  | stack | waker | counter =>
    have hread := hp.1
    rw [goto_worker_self] at hread
    cases hread

/-! ## The test without the lock -/

omit [DecidableEq κ] in
/-- A thread that is about to execute `mIdleThreads.top()` and `pop()` finds the stack
non-empty. -/
def PopsNonEmpty (s : WorkerThreadPool n κ J) : Prop :=
  ∀ t, s.adding t = some .pop → s.mIdleThreads ≠ []

omit [DecidableEq κ] in
/-- A thread does not take the last worker from the stack while another one is between its test
of the stack and its `pop()`. -/
def LeavesLast (s : WorkerThreadPool n κ J) : Step n κ J → Prop
  | .addPop t => s.adding t = some .pop → s.mIdleThreads.length = 1 →
      ∀ t', s.adding t' = some .pop → t' = t
  | _ => True

/-- Only such a step leaves the stack to the other threads. -/
lemma leavesLast_of_step {a : Step n κ J} (h : s.step a = some s') (hs' : s'.PopsNonEmpty) :
    s.LeavesLast a := by
  cases a <;> try trivial
  intro _ hlen t' ht'
  cases moves_of_step h with
  | @addPop t context idle hadd hidle =>
    by_contra hne
    have hempty : idle = [] := by
      rw [hidle, List.length_cons] at hlen
      exact List.eq_nil_of_length_eq_zero (by omega)
    refine hs' t' ?_ hempty
    rw [gotoAdd_adding, if_neg hne]
    exact ht'

/-- **One step.**  Only a thread that takes the last worker can make the stack empty for the
others. -/
theorem PopsNonEmpty.step {a : Step n κ J} (hs : s.PopsNonEmpty) (ha : s.LeavesLast a)
    (h : s.step a = some s') : s'.PopsNonEmpty := by
  cases moves_of_step h with
  | @addPop t context idle hadd hidle =>
    intro t' ht' hempty
    have hlen : s.mIdleThreads.length = 1 := by
      rw [hidle, show idle = [] from hempty, List.length_singleton]
    rw [gotoAdd_adding] at ht'
    split at ht'
    · cases ht'
    · rename_i hne
      exact hne (ha hadd hlen t' ht')
  | @addTest t hadd =>
    intro t' ht'
    rw [gotoAdd_adding] at ht'
    split at ht'
    · split at ht'
      · cases ht'
      · rename_i hne
        exact hne
    · exact hs t' ht'
  | idlePush hpc => exact fun _ _ => List.cons_ne_nil _ _
  | callAddJob hmay hadd | addPush hadd | addWrite hadd =>
    intro t' ht'
    rw [gotoAdd_adding] at ht'
    split at ht'
    · cases ht'
    · exact hs t' ht'
  | loop hpc | popNone hpc hqueue | popJob hpc hqueue => exact hs
  | idleRead hpc hevent | idleReadFails hpc => exact hs
  | executeReturns hpc hadd | completeReturns hpc hadd => exact hs
  | stop hstop | stopWrite hstop hi | stopReturn hstop hi | stopJoin hstop hi hexit => exact hs

end WorkerThreadPool

open WorkerThreadPool

/-- **When the permission to wake a worker is in one place.**  In every run of a pool, the
permission to wake each worker is in exactly one of four places up to `Stop`, and every write of
`WakeOneThread` takes the permission to wake one parked worker to its counter, exactly if up to
`Stop` no `read` of `Idle` fails. -/
theorem workerThreadPool_wakesOnce_iff (n : ℕ) (κ J : Type) [DecidableEq κ]
    (as : List (Step n κ J)) :
    ((machine n κ J).Always (fun s => s.mIsRunning = true → ∀ w, ∃! p, s.WakeAt w p)
        (start n κ J) as ∧
      (machine n κ J).Along ReleasesOne (start n κ J) as) ↔
      (machine n κ J).Along ReadsSucceed (start n κ J) as := by
  constructor
  · rintro ⟨h, -⟩
    refine StepMachine.along_of_always (I := Inv) (fun _ _ _ hs h => hs.step h)
      (fun s a s' hs hstep hs' => hs.readsSucceed hstep hs') (fun s a hstuck => ?_) inv_start h
    cases a <;> try trivial
    intro hpc
    simp [machine, WorkerThreadPool.step, hpc] at hstuck
  · intro h
    constructor
    · exact StepMachine.always_of_along (I := Placed) (fun _ _ _ hs ha h => hs.step ha h)
        (fun s hs hrunning w => ((hs hrunning).2 w).wakeAt) placed_start h
    · exact StepMachine.along_of_along (I := Placed) (fun _ _ _ hs ha h => hs.step ha h)
        (fun _ a hs _ => hs.releasesOne a) placed_start h

/-- The `read` of a parked worker is interrupted: the worker finds the queue empty and parks itself
once more, and the two wake-ups that follow accumulate in its eventfd. -/
theorem workerThreadPool_wakes_twice_after_failing_read :
    ¬ (machine 1 Unit ℕ).Always (fun s => s.mIsRunning = true → ∀ w, ∃! p, s.WakeAt w p)
      (start 1 Unit ℕ)
      [.loop 0, .pop 0, .idlePush 0, .idleReadFails 0, .loop 0, .pop 0, .idlePush 0,
        .callAddJob (.inr ()) 7, .addPush (.inr ()), .addTest (.inr ()), .addPop (.inr ()),
        .addWrite (.inr ()), .callAddJob (.inr ()) 8, .addPush (.inr ()), .addTest (.inr ()),
        .addPop (.inr ()), .addWrite (.inr ())] := by
  obtain ⟨s, hexec, hrun, hevent⟩ : ∃ s ∈ (machine 1 Unit ℕ).exec (start 1 Unit ℕ)
      [.loop 0, .pop 0, .idlePush 0, .idleReadFails 0, .loop 0, .pop 0, .idlePush 0,
        .callAddJob (.inr ()) 7, .addPush (.inr ()), .addTest (.inr ()), .addPop (.inr ()),
        .addWrite (.inr ()), .callAddJob (.inr ()) 8, .addPush (.inr ()), .addTest (.inr ()),
        .addPop (.inr ()), .addWrite (.inr ())],
      s.mIsRunning = true ∧ s.eventFD 0 = 2 := by
    decide +kernel
  intro halways
  obtain ⟨p, hp, -⟩ := halways _ s (List.prefix_refl _) hexec hrun 0
  cases p <;> exact absurd (hp.2.2.2.symm.trans hevent) (by decide)

/-- **When the stack is never popped empty.**  In every run of a pool, a thread that is about to
pop the stack finds it non-empty exactly if no thread takes the last worker while another one is
between its test of the stack and its `pop()`. -/
theorem workerThreadPool_popsNonEmpty_iff (n : ℕ) (κ J : Type) [DecidableEq κ]
    (as : List (Step n κ J)) :
    (machine n κ J).Always PopsNonEmpty (start n κ J) as ↔
      (machine n κ J).Along LeavesLast (start n κ J) as := by
  have hstart : (start n κ J).PopsNonEmpty := fun t ht => by cases ht
  constructor
  · refine StepMachine.along_of_always (I := fun _ => True) (fun _ _ _ _ _ => trivial)
      (fun s a s' _ h hs' => leavesLast_of_step h hs') (fun s a hstuck => ?_) trivial
    cases a <;> try trivial
    rename_i t
    intro hadd hlen
    -- a thread that finds the stack non-empty can take the worker on its top
    obtain ⟨context, hidle⟩ := List.length_eq_one_iff.1 hlen
    simp [machine, WorkerThreadPool.step, hadd, hidle] at hstuck
  · exact StepMachine.always_of_along (I := PopsNonEmpty) (fun _ _ _ hs ha h => hs.step ha h)
      (fun _ hs => hs) hstart

/-- Two threads add a job while one worker is idle: both find the stack non-empty, and the second
one pops it when the first one has emptied it. -/
theorem workerThreadPool_pops_empty_stack :
    ¬ (machine 1 Bool ℕ).Always PopsNonEmpty (start 1 Bool ℕ)
      [.loop 0, .pop 0, .idlePush 0, .callAddJob (.inr false) 7, .addPush (.inr false),
        .callAddJob (.inr true) 8, .addPush (.inr true), .addTest (.inr false),
        .addTest (.inr true), .addPop (.inr false)] := by
  obtain ⟨s, hrun, hadd, hidle⟩ : ∃ s ∈ (machine 1 Bool ℕ).exec (start 1 Bool ℕ)
      [.loop 0, .pop 0, .idlePush 0, .callAddJob (.inr false) 7, .addPush (.inr false),
        .callAddJob (.inr true) 8, .addPush (.inr true), .addTest (.inr false),
        .addTest (.inr true), .addPop (.inr false)],
      s.adding (.inr true) = some .pop ∧ s.mIdleThreads = [] := by
    decide +kernel
  intro halways
  exact halways _ s (List.prefix_refl _) hrun _ hadd hidle

end CoreServer
