import CoreServer.JobBound
import Mathlib.Algebra.BigOperators.Group.Finset.Basic
import Mathlib.Algebra.Order.BigOperators.Group.Finset
import Mathlib.Data.Fintype.BigOperators

/-!
# Exclusive execution of the jobs

`Server.places` counts in how many places a job object is: armed in the epoll set, in the
queue of the pool, or in the hands of a thread.  No step makes a second token of a job object,
but for the step that registers the receive job of a new session, and the slot of that
session has never been used (`Server.Inv.new_fresh`).
-/

namespace CoreServer

open WorkerThreadPool

/-- Sums that differ in one term. -/
lemma sum_add_eq_sum_add {ι : Type*} [Fintype ι] [DecidableEq ι] {f g : ι → ℕ} (t : ι)
    (h : ∀ t', t' ≠ t → f t' = g t') : ∑ t', f t' + g t = ∑ t', g t' + f t := by
  have hrest : ∑ t' ∈ Finset.univ.erase t, f t' = ∑ t' ∈ Finset.univ.erase t, g t' :=
    Finset.sum_congr rfl fun t' ht' => h t' (Finset.ne_of_mem_erase ht')
  have hf := Finset.add_sum_erase Finset.univ f (Finset.mem_univ t)
  have hg := Finset.add_sum_erase Finset.univ g (Finset.mem_univ t)
  omega

namespace Server

variable {n : ℕ} {κ : Type}

/-- The job objects that a thread of the pool has in its hands. -/
def inHands (s : Server n κ) : Thread n Unit → List ServerJob
  | .inl w => pushing (s.pool.adding (.inl w)) ++ (s.job w).hand
  | .inr u => pushing (s.pool.adding (.inr u)) ++ s.starting.hand

/-- In how many places outside the epoll set a job object is. -/
def held (s : Server n κ) (j : ServerJob) : ℕ :=
  s.pool.mJobQueue.count j + ∑ t, (s.inHands t).count j

/-- In how many places a job object is. -/
def places (s : Server n κ) (j : ServerJob) : ℕ := s.memory.epoll.armed j + s.held j

/-- The invariant. -/
structure Inv (s : Server n κ) : Prop where
  places_le : ∀ j, s.places j ≤ 1
  poll_unarmed : s.memory.epoll.armed .poll = 0
  poll_held : 1 ≤ s.held .poll
  /-- A worker that runs no job is in no job. -/
  running : ∀ w, (s.pool.worker w).inJob = false → s.job w = .none
  pool_nodup : s.memory.group.mSessionIndexPool.Nodup
  /-- The receive job of a free slot has never been registered. -/
  fresh : ∀ i ∈ s.memory.group.mSessionIndexPool, s.places (.recv i) = 0
  /-- Nor has the one of a session that is being added. -/
  new_fresh : ∀ w i, (s.job w).newSlot = some i →
    s.places (.recv i) = 0 ∧ i ∉ s.memory.group.mSessionIndexPool
  id_ok : ∀ w, (s.job w).IDOk
  max_lt : s.memory.group.mMaxSession < 65536

/-- What of the invariant does not depend on what becomes of the sessions. -/
structure Steady (s : Server n κ) : Prop where
  running : ∀ w, (s.pool.worker w).inJob = false → s.job w = .none
  id_ok : ∀ w, (s.job w).IDOk
  max_lt : s.memory.group.mMaxSession < 65536

variable {s s' : Server n κ}

lemma Inv.steady (hs : s.Inv) : s.Steady := ⟨hs.running, hs.id_ok, hs.max_lt⟩

/-- A step at which the queue and the hands of one thread change. -/
lemma held_add (t : Thread n Unit) (hothers : ∀ t', t' ≠ t → s'.inHands t' = s.inHands t')
    (j : ServerJob) :
    s'.held j + (s.pool.mJobQueue.count j + (s.inHands t).count j) =
      s.held j + (s'.pool.mJobQueue.count j + (s'.inHands t).count j) := by
  have hsum := sum_add_eq_sum_add (f := fun t' => (s'.inHands t').count j)
    (g := fun t' => (s.inHands t').count j) t fun t' ht' => by rw [hothers t' ht']
  simp only [held]
  omega

/-- Two threads do not have one job object in their hands. -/
lemma Inv.thread_unique (hs : s.Inv) {j : ServerJob} {t t' : Thread n Unit}
    (ht : j ∈ s.inHands t) (ht' : j ∈ s.inHands t') : t = t' := by
  by_contra hne
  have hle := hs.places_le j
  have hpos := List.count_pos_iff.2 ht
  have hpos' := List.count_pos_iff.2 ht'
  have hpair : (s.inHands t).count j + (s.inHands t').count j ≤ ∑ t, (s.inHands t).count j := by
    rw [← Finset.sum_pair (f := fun t => (s.inHands t).count j) hne]
    exact Finset.sum_le_sum_of_subset (Finset.subset_univ _)
  simp only [places, held] at hle
  omega

/-- Two workers do not run one job object before they have given it back. -/
lemma Inv.worker_unique (hs : s.Inv) {j : ServerJob} {w w' : Fin n} (hw : j ∈ (s.job w).hand)
    (hw' : j ∈ (s.job w').hand) : w = w' :=
  Sum.inl_injective (hs.thread_unique (List.mem_append_right _ hw) (List.mem_append_right _ hw'))

/-- A job object in somebody's hands is somewhere. -/
lemma places_pos {j : ServerJob} {w : Fin n} (hw : j ∈ (s.job w).hand) : 0 < s.places j := by
  have hmem : j ∈ s.inHands (.inl w) := List.mem_append_right _ hw
  have hle : (s.inHands (.inl w)).count j ≤ ∑ t, (s.inHands t).count j :=
    Finset.single_le_sum (f := fun t => (s.inHands t).count j) (fun _ _ => Nat.zero_le _)
      (Finset.mem_univ _)
  have hpos := List.count_pos_iff.2 hmem
  simp only [places, held]
  omega

/-! ## The steps of the pool -/

lemma inHands_congr {t : Thread n Unit} (hadding : s'.pool.adding t = s.pool.adding t)
    (hjob : ∀ w, t = .inl w → s'.job w = s.job w) (hstarting : s'.starting = s.starting) :
    s'.inHands t = s.inHands t := by
  cases t with
  | inl w => rw [inHands, inHands, hadding, hjob w rfl]
  | inr u => rw [inHands, inHands, hadding, hstarting]

/-- A step of a worker leaves the hands of every other thread alone. -/
lemma inHands_of_ne {w : Fin n} {pc : JobPC} {t : Thread n Unit} (ht : t ≠ .inl w)
    (hadding : s'.pool.adding t = s.pool.adding t) (hjob : s'.job = Function.update s.job w pc)
    (hstarting : s'.starting = s.starting) : s'.inHands t = s.inHands t := by
  refine inHands_congr hadding (fun w' hw' => ?_) hstarting
  rw [hjob, Function.update_of_ne fun heq => ht (by rw [hw', heq])]

/-- A step at which no job object gets a new place and no session is added. -/
lemma Inv.of_places_le (hs : s.Inv) (hplaces : ∀ j, s'.places j ≤ s.places j)
    (harmed : s'.memory.epoll.armed .poll ≤ s.memory.epoll.armed .poll)
    (hheld : s.held .poll ≤ s'.held .poll)
    (hrunning : ∀ w, (s'.pool.worker w).inJob = false → s'.job w = .none)
    (hpool : s'.memory.group.mSessionIndexPool = s.memory.group.mSessionIndexPool)
    (hmax : s'.memory.group.mMaxSession = s.memory.group.mMaxSession)
    (hjob : ∀ w, s'.job w = s.job w ∨ ((s'.job w).newSlot = none ∧ (s'.job w).IDOk)) :
    s'.Inv where
  places_le j := (hplaces j).trans (hs.places_le j)
  poll_unarmed := Nat.le_zero.1 (harmed.trans hs.poll_unarmed.le)
  poll_held := hs.poll_held.trans hheld
  running := hrunning
  pool_nodup := hpool ▸ hs.pool_nodup
  fresh i hi := Nat.le_zero.1 ((hplaces _).trans (hs.fresh i (hpool ▸ hi)).le)
  new_fresh w i hi := by
    rcases hjob w with heq | ⟨hnone, -⟩
    · obtain ⟨hzero, hmem⟩ := hs.new_fresh w i (heq ▸ hi)
      exact ⟨Nat.le_zero.1 ((hplaces _).trans hzero.le), hpool ▸ hmem⟩
    · simp [hnone] at hi
  id_ok w := by
    rcases hjob w with heq | ⟨-, hid⟩
    · exact heq ▸ hs.id_ok w
    · exact hid
  max_lt := hmax ▸ hs.max_lt

/-- What the steps change that the pool takes by itself: the place of a job object, and the
worker that begins to execute one. -/
structure PoolMoves (s s' : Server n κ) : Prop where
  memory_eq : s'.memory = s.memory
  held_eq : ∀ j, s'.held j = s.held j
  job_eq : ∀ w, s'.job w = s.job w ∨
    ∃ j ∈ s.pool.mJobQueue, s.job w = .none ∧ s'.job w = j.execute
  running : ∀ w, (s'.pool.worker w).inJob = false → s'.job w = .none

lemma PoolMoves.inv (h : s.PoolMoves s') (hs : s.Inv) : s'.Inv := by
  refine hs.of_places_le (fun j => ?_) (by rw [h.memory_eq]) (h.held_eq _).ge h.running
    (by rw [h.memory_eq]) (by rw [h.memory_eq]) fun w => ?_
  · rw [places, places, h.held_eq, h.memory_eq]
  · refine (h.job_eq w).imp_right ?_
    rintro ⟨j, -, -, hj⟩
    rw [hj]
    cases j <;> exact ⟨rfl, trivial⟩

lemma PoolMoves.steady (h : s.PoolMoves s') (hs : s.Steady) : s'.Steady where
  running := h.running
  id_ok w := by
    rcases h.job_eq w with heq | ⟨j, -, -, hj⟩
    · exact heq ▸ hs.id_ok w
    · rw [hj]
      cases j <;> exact trivial
  max_lt := by
    rw [h.memory_eq]
    exact hs.max_lt

/-- A step of the pool that moves no job object. -/
lemma Steady.of_pool (hs : s.Steady) {pool : WorkerThreadPool n Unit ServerJob}
    (hqueue : pool.mJobQueue = s.pool.mJobQueue)
    (hpushing : ∀ t, pushing (pool.adding t) = pushing (s.pool.adding t))
    (hworker : ∀ w, (pool.worker w).inJob = (s.pool.worker w).inJob) :
    s.PoolMoves { s with pool := pool } where
  memory_eq := rfl
  held_eq j := by
    have hhands : ∀ t, ({ s with pool := pool } : Server n κ).inHands t = s.inHands t := by
      rintro (w | u)
      · simp only [inHands, hpushing]
      · simp only [inHands, hpushing]
    simp only [held, hhands, hqueue]
  job_eq _ := Or.inl rfl
  running w hw := hs.running w ((hworker w).symm.trans hw)

/-- A worker that is not in a job and does not begin one. -/
lemma inJob_goto {pool : WorkerThreadPool n Unit ServerJob} {w : Fin n} {pc : WorkerPC ServerJob}
    (hold : (pool.worker w).inJob = false) (hnew : pc.inJob = false) (w' : Fin n) :
    ((pool.goto w pc).worker w').inJob = (pool.worker w').inJob := by
  rw [goto_worker]
  split
  · rename_i heq
    rw [heq, hold, hnew]
  · rfl

/-- A thread that goes on in `AddJob` after its job object has been pushed. -/
lemma pushing_gotoAdd {pool : WorkerThreadPool n Unit ServerJob} {t : Thread n Unit}
    {pc : Option (AddPC n ServerJob)} (hold : pushing (pool.adding t) = [])
    (hnew : pushing pc = []) (t' : Thread n Unit) :
    pushing ((pool.gotoAdd t pc).adding t') = pushing (pool.adding t') := by
  rw [gotoAdd_adding]
  split
  · rename_i heq
    rw [heq, hold, hnew]
  · rfl

/-- A worker takes a job object from the queue. -/
lemma Steady.popJob (hs : s.Steady) {w : Fin n} {j : ServerJob} {jobs : List ServerJob}
    (hpc : s.pool.worker w = .pop) (hqueue : s.pool.mJobQueue = j :: jobs) :
    s.PoolMoves { s with
      pool := { s.pool with mJobQueue := jobs }.goto w (.execute j)
      job := Function.update s.job w j.execute } := by
  generalize hs' : ({ s with
    pool := { s.pool with mJobQueue := jobs }.goto w (.execute j)
    job := Function.update s.job w j.execute } : Server n κ) = s'
  have hnone : s.job w = .none := hs.running w (by rw [hpc]; rfl)
  have hupdate : s'.job = Function.update s.job w j.execute := by rw [← hs']
  have hexecute : s'.job w = j.execute := by rw [hupdate, Function.update_self]
  have hjob : ∀ w', w' ≠ w → s'.job w' = s.job w' := fun w' hne => by
    rw [hupdate, Function.update_of_ne hne]
  have hadding : s'.pool.adding = s.pool.adding := by rw [← hs']; rfl
  have hjobs : s'.pool.mJobQueue = jobs := by rw [← hs']; rfl
  -- what leaves the queue is what comes into the hands of the worker
  have hheld : ∀ j', s'.held j' = s.held j' := by
    intro j'
    have hmove := held_add (.inl w) (fun t ht => inHands_of_ne ht (congrFun hadding t) hupdate
      (by rw [← hs'])) j'
    simp only [inHands, hadding, hexecute, ServerJob.hand_execute, hnone, JobPC.hand_none, hjobs,
      hqueue, List.count_append, List.count_cons, List.count_nil] at hmove
    omega
  refine ⟨by rw [← hs'], hheld, fun w' => ?_, fun w' hw' => ?_⟩
  · rcases eq_or_ne w' w with rfl | hne
    · exact Or.inr ⟨j, hqueue ▸ List.mem_cons_self, hnone, hexecute⟩
    · exact Or.inl (hjob w' hne)
  · rcases eq_or_ne w' w with rfl | hne
    · simp [← hs', WorkerPC.inJob] at hw'
    · rw [hjob w' hne]
      refine hs.running w' (Eq.trans ?_ hw')
      rw [← hs', goto_worker, if_neg hne]

/-- A thread pushes a job object on the queue. -/
lemma Steady.addPush (hs : s.Steady) {t : Thread n Unit} {j : ServerJob}
    (hadd : s.pool.adding t = some (.push j)) :
    s.PoolMoves { s with
      pool := { s.pool with mJobQueue := s.pool.mJobQueue ++ [j] }.gotoAdd t (some .test) } := by
  generalize hs' : ({ s with
    pool := { s.pool with mJobQueue := s.pool.mJobQueue ++ [j] }.gotoAdd t (some .test) } :
      Server n κ) = s'
  have hjob : s'.job = s.job := by rw [← hs']
  have hstarting : s'.starting = s.starting := by rw [← hs']
  have htest : s'.pool.adding t = some .test := by rw [← hs', gotoAdd_adding_self]
  have hjobs : s'.pool.mJobQueue = s.pool.mJobQueue ++ [j] := by rw [← hs']; rfl
  have hheld : ∀ j', s'.held j' = s.held j' := by
    -- what the queue gets, the thread has had in its hands
    intro j'
    have hmove := held_add t (fun t' ht' => inHands_congr
      (by rw [← hs', gotoAdd_adding, if_neg ht']) (fun w _ => congrFun hjob w) hstarting) j'
    have hhands : (s.inHands t).count j' = [j].count j' + (s'.inHands t).count j' := by
      rw [← List.count_append]
      cases t <;> simp only [inHands, hadd, htest, hjob, hstarting, pushing] <;> rfl
    rw [hjobs, List.count_append] at hmove
    omega
  refine ⟨by rw [← hs'], hheld, fun w => Or.inl (congrFun hjob w), fun w hw => ?_⟩
  rw [hjob]
  refine hs.running w (Eq.trans ?_ hw)
  rw [← hs']
  rfl

/-- The steps that the pool takes by itself lose no job object. -/
lemma Steady.poolStep [DecidableEq κ] (hs : s.Steady) {a : WorkerThreadPool.Step n Unit ServerJob}
    (h : s.step (.pool a) = some s') : s.PoolMoves s' := by
  obtain ⟨hinternal, h⟩ := Option.ite_none_right_eq_some.1 h
  obtain ⟨pool, hstep, h⟩ := Option.bind_eq_some_iff.1 h
  obtain rfl := Option.some.inj h
  cases moves_of_step hstep with
  | loop hpc =>
    refine hs.of_pool rfl (fun _ => rfl) (inJob_goto (by rw [hpc]; rfl) ?_)
    split <;> rfl
  | @popNone w hpc hqueue =>
    -- a worker that finds the queue empty begins no job
    have hbegin : begin s.job w ((s.pool.goto w .idlePush).worker w) = s.job := by
      rw [goto_worker_self]
      rfl
    simp only [hbegin]
    exact hs.of_pool rfl (fun _ => rfl) (inJob_goto (by rw [hpc]; rfl) rfl)
  | @popJob w job jobs hpc hqueue =>
    simp only [goto_worker_self, begin]
    exact hs.popJob hpc hqueue
  | idlePush hpc => exact hs.of_pool rfl (fun _ => rfl) (inJob_goto (by rw [hpc]; rfl) rfl)
  | idleRead hpc hevent => exact hs.of_pool rfl (fun _ => rfl) (inJob_goto (by rw [hpc]; rfl) rfl)
  | idleReadFails hpc => exact hs.of_pool rfl (fun _ => rfl) (inJob_goto (by rw [hpc]; rfl) rfl)
  | addPush hadd => exact hs.addPush hadd
  | addTest hadd =>
    refine hs.of_pool rfl (pushing_gotoAdd (by rw [hadd]; rfl) ?_) fun _ => rfl
    split <;> rfl
  | addPop hadd hidle => exact hs.of_pool rfl (pushing_gotoAdd (by rw [hadd]; rfl) rfl) fun _ => rfl
  | addWrite hadd =>
    exact hs.of_pool rfl (pushing_gotoAdd (by rw [signal, hadd]; rfl) rfl) fun _ => rfl
  -- the other steps are taken with a job, with `Start` or with `Stop`
  | executeReturns hpc hadd | completeReturns hpc hadd => cases hinternal
  | callAddJob hmay hadd => cases hinternal
  | stop hstop => cases hinternal
  | stopWrite hstop hi | stopReturn hstop hi => cases hinternal
  | stopJoin hstop hi hexit => cases hinternal

/-! ## The steps of a job -/

/-- What the step of the pool that goes with the step of a job changes. -/
structure Follows (s : Server n κ) (w : Fin n) (memory : ServerMemory) (next : Next)
    (s' : Server n κ) : Prop where
  memory_eq : s'.memory = memory
  queue_eq : s'.pool.mJobQueue = s.pool.mJobQueue
  job_eq : s'.job = Function.update s.job w next.pc
  hand_eq : s'.inHands (.inl w) = next.hand
  others : ∀ t, t ≠ .inl w → s'.inHands t = s.inHands t
  workers : ∀ w', (s'.pool.worker w').inJob = false →
    (s.pool.worker w').inJob = false ∨ (w' = w ∧ next.pc = .none)

lemma follows_of_next {w : Fin n} {memory : ServerMemory} {next : Next}
    (hadd : s.pool.adding (.inl w) = none)
    (h : ({ s with memory := memory } : Server n κ).next w next = some s') :
    s.Follows w memory next s' := by
  cases next with
  | goto pc =>
    obtain rfl := Option.some.inj h
    refine ⟨rfl, rfl, rfl, ?_, fun t ht => inHands_of_ne ht rfl rfl rfl, fun w' hw' => Or.inl hw'⟩
    simp only [inHands, hadd, Function.update_self]
    rfl
  | addJob job pc =>
    obtain ⟨pool, hstep, h⟩ := Option.bind_eq_some_iff.1 h
    obtain rfl := Option.some.inj h
    cases moves_of_step hstep with
    | callAddJob hmay hadd' =>
      refine ⟨rfl, rfl, rfl, ?_, fun t ht => inHands_of_ne ht ?_ rfl rfl,
        fun w' hw' => Or.inl hw'⟩
      · simp only [inHands, gotoAdd_adding_self, Function.update_self]
        rfl
      · rw [gotoAdd_adding, if_neg ht]
  | executeReturns result pc =>
    obtain ⟨pool, hstep, h⟩ := Option.bind_eq_some_iff.1 h
    obtain rfl := Option.some.inj h
    cases moves_of_step hstep with
    | @executeReturns _ job _ hpc hadd' =>
      refine ⟨rfl, rfl, rfl, ?_, fun t ht => inHands_of_ne ht rfl rfl rfl, fun w' hw' => ?_⟩
      · simp only [inHands, goto, hadd, Function.update_self]
        rfl
      · -- `Complete` follows only if `Execute` has returned true
        rw [goto_worker] at hw'
        split at hw'
        · rename_i heq
          cases result with
          | true => cases hw'
          | false => exact Or.inr ⟨heq, rfl⟩
        · exact Or.inl hw'
  | completeReturns =>
    obtain ⟨pool, hstep, h⟩ := Option.bind_eq_some_iff.1 h
    obtain rfl := Option.some.inj h
    cases moves_of_step hstep with
    | completeReturns hpc hadd' =>
      refine ⟨rfl, rfl, rfl, ?_, fun t ht => inHands_of_ne ht rfl rfl rfl, fun w' hw' => ?_⟩
      · simp only [inHands, goto, hadd, Function.update_self]
        rfl
      · rw [goto_worker] at hw'
        split at hw'
        · rename_i heq
          exact Or.inr ⟨heq, rfl⟩
        · exact Or.inl hw'

/-- A step of a job is a step of its program, and the step of the pool that goes with it. -/
lemma jobStep_of_step [DecidableEq κ] {w : Fin n} {input : JobInput}
    (h : s.step (.job w input) = some s') :
    s.pool.adding (.inl w) = none ∧ ∃ next,
      s.memory.jobStep (s.job w) input = some (s'.memory, next) ∧
        s.Follows w s'.memory next s' := by
  obtain ⟨hadd, h⟩ := Option.ite_none_right_eq_some.1 h
  obtain ⟨⟨memory, next⟩, hstep, h⟩ := Option.bind_eq_some_iff.1 h
  have hfollows := follows_of_next hadd h
  obtain rfl := hfollows.memory_eq
  exact ⟨hadd, next, hstep, hfollows⟩

/-- The step that registers a job is a step of `AcceptJob`. -/
lemma registers_eq_some {pc : JobPC} {j : ServerJob} (h : pc.registers = some j) :
    ∃ i, j = .recv i ∧ pc.newSlot = some i := by
  unfold JobPC.registers at h
  split at h
  · rename_i clientFD clientSession session
    exact ⟨session, (Option.some.inj h).symm, rfl⟩
  · cases h

/-- Only `AcceptJob` adds a session. -/
lemma accept_mem_hand {pc : JobPC} {i : ℤ} (h : pc.newSlot = some i) : .accept ∈ pc.hand := by
  cases pc with
  | accept pc => exact List.mem_singleton_self _
  | none => cases h
  | poll pc => cases h
  | recv slot pc => cases h
  | complete => cases h

/-- The poll job is not registered. -/
lemma count_registers_poll (pc : JobPC) : pc.registers.toList.count .poll = 0 := by
  rw [List.count_eq_zero, Option.mem_toList]
  intro hreg
  obtain ⟨i, heq, -⟩ := registers_eq_some hreg
  cases heq

/-- The job object that a step registers belongs to a slot that is not free. -/
lemma Inv.registers_ne (hs : s.Inv) {i : ℤ} (hi : i ∈ s.memory.group.mSessionIndexPool)
    (w : Fin n) : (s.job w).registers ≠ some (.recv i) := by
  intro hreg
  obtain ⟨i', heq, hnew⟩ := registers_eq_some hreg
  exact (hs.new_fresh w i' hnew).2 (ServerJob.recv.inj heq ▸ hi)

/-- The job object that a step registers is nowhere before. -/
lemma Inv.places_add_registers_le (hs : s.Inv) (w : Fin n) (j : ServerJob) :
    s.places j + (s.job w).registers.toList.count j ≤ 1 := by
  have hold := hs.places_le j
  cases hreg : (s.job w).registers with
  | none => exact hold
  | some j' =>
    obtain ⟨i, rfl, hnew⟩ := registers_eq_some hreg
    rw [Option.toList_some, List.count_singleton]
    split
    · rename_i heq
      have hfresh := (hs.new_fresh w i hnew).1
      rw [beq_iff_eq.1 heq] at hfresh
      omega
    · exact hold

section Follows

variable {w : Fin n} {memory : ServerMemory} {next : Next}

lemma Follows.held (h : s.Follows w memory next s') (hadd : s.pool.adding (.inl w) = none)
    (j : ServerJob) :
    s'.held j + (s.job w).hand.count j = s.held j + next.hand.count j := by
  have hmove := held_add (.inl w) h.others j
  have hold : s.inHands (.inl w) = (s.job w).hand := by
    rw [inHands, hadd]
    rfl
  rw [h.queue_eq, h.hand_eq, hold] at hmove
  omega

lemma Follows.places_le (h : s.Follows w memory next s') (hadd : s.pool.adding (.inl w) = none)
    (hbound : s.memory.StepBound memory (s.job w) next) (j : ServerJob) :
    s'.places j ≤ s.places j + (s.job w).registers.toList.count j := by
  have hcount := hbound.count j
  have hheld := h.held hadd j
  rw [places, places, h.memory_eq]
  omega

/-- The job object of a slot that is nowhere, and that the step does not register, stays
nowhere. -/
lemma Follows.places_eq_zero (h : s.Follows w memory next s')
    (hadd : s.pool.adding (.inl w) = none) (hbound : s.memory.StepBound memory (s.job w) next)
    {i : ℤ} (hi : s.places (.recv i) = 0) (hne : (s.job w).registers ≠ some (.recv i)) :
    s'.places (.recv i) = 0 := by
  have hle := h.places_le hadd hbound (.recv i)
  rw [List.count_eq_zero.2 (by simpa using hne), hi] at hle
  exact Nat.le_zero.1 hle

/-- The slot of a session that is being added stays new after a step of any worker. -/
lemma Inv.new_fresh_jobStep (hs : s.Inv) (h : s.Follows w memory next s')
    (hadd : s.pool.adding (.inl w) = none) (hbound : s.memory.StepBound memory (s.job w) next)
    {w' : Fin n} {i : ℤ} (hi : (s'.job w').newSlot = some i) :
    s'.places (.recv i) = 0 ∧ i ∉ s'.memory.group.mSessionIndexPool := by
  have hindices : i ∈ s'.memory.group.mSessionIndexPool →
      i ∈ s.memory.group.mSessionIndexPool := by
    rw [h.memory_eq]
    exact fun hi' => hbound.indices.subset hi'
  rw [h.job_eq] at hi
  rcases eq_or_ne w' w with rfl | hne
  · rw [Function.update_self] at hi
    rcases hbound.newSlot i hi with ⟨hold, hreg⟩ | hpool
    · obtain ⟨hfresh, hmem⟩ := hs.new_fresh w' i hold
      exact ⟨h.places_eq_zero hadd hbound hfresh (by simp [hreg]), fun hi' => hmem (hindices hi')⟩
    · -- the slot has just been taken from the free indices
      have hmem : i ∈ s.memory.group.mSessionIndexPool := hpool ▸ List.mem_cons_self
      refine ⟨h.places_eq_zero hadd hbound (hs.fresh i hmem) (hs.registers_ne hmem w'), ?_⟩
      have hnodup := hs.pool_nodup
      rw [hpool, List.nodup_cons] at hnodup
      rw [h.memory_eq]
      exact hnodup.1
  · rw [Function.update_of_ne hne] at hi
    obtain ⟨hfresh, hmem⟩ := hs.new_fresh w' i hi
    refine ⟨h.places_eq_zero hadd hbound hfresh fun hreg => ?_, fun hi' => hmem (hindices hi')⟩
    -- two workers that add sessions would both have the one `AcceptJob` in their hands
    obtain ⟨i', -, hnew⟩ := registers_eq_some hreg
    exact hne (hs.worker_unique (accept_mem_hand hi) (accept_mem_hand hnew))

lemma Steady.jobStep (hs : s.Steady) (h : s.Follows w memory next s') (hjob : s.job w ≠ .none)
    (hbound : s.memory.StepBound memory (s.job w) next) : s'.Steady where
  running w' hw' := by
    rw [h.job_eq]
    rcases h.workers w' hw' with hold | ⟨rfl, hnone⟩
    · have hnojob := hs.running w' hold
      have hne : w' ≠ w := fun heq => hjob (heq ▸ hnojob)
      rw [Function.update_of_ne hne, hnojob]
    · rw [Function.update_self, hnone]
  id_ok w' := by
    rw [h.job_eq]
    rcases eq_or_ne w' w with rfl | hne
    · rw [Function.update_self]
      exact hbound.id_ok
    · rw [Function.update_of_ne hne]
      exact hs.id_ok w'
  max_lt := by
    rw [h.memory_eq, hbound.max_eq]
    exact hs.max_lt

/-- **A step of a job keeps the invariant.** -/
lemma Inv.jobStep (hs : s.Inv) (h : s.Follows w memory next s')
    (hadd : s.pool.adding (.inl w) = none) (hjob : s.job w ≠ .none)
    (hbound : s.memory.StepBound memory (s.job w) next) : s'.Inv where
  places_le j := (h.places_le hadd hbound j).trans (hs.places_add_registers_le w j)
  poll_unarmed := by
    have hcount := hbound.count .poll
    have hpoll := hbound.poll
    have hold := hs.poll_unarmed
    rw [count_registers_poll] at hcount
    rw [h.memory_eq]
    omega
  poll_held := by
    have hpoll := hbound.poll
    have hheld := h.held hadd .poll
    have hold := hs.poll_held
    omega
  running := (hs.steady.jobStep h hjob hbound).running
  pool_nodup := by
    rw [h.memory_eq]
    exact hbound.indices.nodup hs.pool_nodup
  fresh i hi := by
    rw [h.memory_eq] at hi
    have hmem := hbound.indices.subset hi
    exact h.places_eq_zero hadd hbound (hs.fresh i hmem) (hs.registers_ne hmem w)
  new_fresh w' i hi := hs.new_fresh_jobStep h hadd hbound hi
  id_ok := (hs.steady.jobStep h hjob hbound).id_ok
  max_lt := (hs.steady.jobStep h hjob hbound).max_lt

end Follows

/-! ## The other steps -/

/-- A step of a thread that is not a worker, in `Disconnect` or in `SetSendState`. -/
lemma Inv.of_memory (hs : s.Inv) {memory : ServerMemory} (sender : κ → Option (ℤ × DisconnectPC))
    (harmed : ∀ j, memory.epoll.armed j ≤ s.memory.epoll.armed j)
    (hpool : memory.group.mSessionIndexPool = s.memory.group.mSessionIndexPool)
    (hmax : memory.group.mMaxSession = s.memory.group.mMaxSession) :
    ({ s with memory := memory, sender := sender } : Server n κ).Inv := by
  have hheld : ∀ j, ({ s with memory := memory, sender := sender } : Server n κ).held j =
      s.held j := by
    intro j
    have hhands : ∀ t, ({ s with memory := memory, sender := sender } : Server n κ).inHands t =
        s.inHands t := fun t => inHands_congr rfl (fun _ _ => rfl) rfl
    simp only [held, hhands]
  refine hs.of_places_le (fun j => ?_) (harmed _) (hheld _).ge hs.running hpool hmax
    fun w => Or.inl rfl
  rw [places, places, hheld]
  exact Nat.add_le_add_right (harmed j) _

/-- A step of `Start` moves job objects between the main thread, the queue and the epoll
set. -/
lemma held_add_start (hjob : s'.job = s.job)
    (hadding : ∀ w, s'.pool.adding (.inl w) = s.pool.adding (.inl w))
    (hqueue : s'.pool.mJobQueue = s.pool.mJobQueue) (j : ServerJob) :
    s'.held j + (s.inHands (.inr ())).count j = s.held j + (s'.inHands (.inr ())).count j := by
  have hothers : ∀ t, t ≠ .inr () → s'.inHands t = s.inHands t := by
    rintro (w | u) ht
    · rw [inHands, inHands, hjob, hadding]
    · exact absurd rfl ht
  have hmove := held_add (.inr ()) hothers j
  rw [hqueue] at hmove
  omega

/-- What a step of `Start` changes: it hands `PollJob` to the queue, or `AcceptJob` to the
epoll set. -/
structure StartMoves (s s' : Server n κ) (ok : Bool) : Prop where
  job_eq : s'.job = s.job
  worker_eq : s'.pool.worker = s.pool.worker
  memory_held : (s'.memory = s.memory ∧ ∀ j, s'.held j = s.held j) ∨
    (s.memory.epollAdd s.memory.mListenFD .accept ok = some s'.memory ∧
      ∀ j, s'.held j + [ServerJob.accept].count j = s.held j)

lemma startMoves_of_step [DecidableEq κ] {ok : Bool} (h : s.step (.start ok) = some s') :
    s.StartMoves s' ok := by
  simp only [step] at h
  split at h
  · -- `AddJob(pollJob)`
    rename_i hstarting
    obtain ⟨pool, hstep, h⟩ := Option.bind_eq_some_iff.1 h
    have hs' := Option.some.inj h
    cases moves_of_step hstep with
    | callAddJob hmay hadd =>
      have hjob : s'.job = s.job := by rw [← hs']
      have hadding : ∀ w, s'.pool.adding (.inl w) = s.pool.adding (.inl w) := fun w => by
        rw [← hs', gotoAdd_adding, if_neg (by simp)]
      have hqueue : s'.pool.mJobQueue = s.pool.mJobQueue := by rw [← hs']; rfl
      refine ⟨hjob, by rw [← hs']; rfl, Or.inl ⟨by rw [← hs'], fun j => ?_⟩⟩
      have hmove := held_add_start hjob hadding hqueue j
      have hhands : s'.inHands (.inr ()) = s.inHands (.inr ()) := by
        rw [← hs', inHands, inHands, gotoAdd_adding_self, hadd, hstarting]
        rfl
      rw [hhands] at hmove
      exact Nat.add_right_cancel hmove
  · -- `epoll_ctl(EPOLL_CTL_ADD)` of the listening socket
    rename_i hstarting
    obtain ⟨hadd, h⟩ := Option.ite_none_right_eq_some.1 h
    obtain ⟨memory, hmemory, h⟩ := Option.bind_eq_some_iff.1 h
    have hs' := Option.some.inj h
    have hjob : s'.job = s.job := by rw [← hs']
    have hpool : s'.pool = s.pool := by rw [← hs']
    refine ⟨hjob, by rw [hpool], Or.inr ⟨by rw [hmemory, ← hs'], fun j => ?_⟩⟩
    have hmove := held_add_start hjob (fun w => by rw [hpool]) (by rw [hpool]) j
    have hold : s.inHands (.inr ()) = [.accept] := by
      rw [inHands, hadd, hstarting]
      rfl
    have hnew : s'.inHands (.inr ()) = [] := by
      rw [← hs', inHands, hadd]
      rfl
    rw [hold, hnew] at hmove
    exact hmove
  · cases h

lemma StartMoves.steady {ok : Bool} (h : s.StartMoves s' ok) (hs : s.Steady) : s'.Steady where
  running w hw := by
    rw [h.worker_eq] at hw
    rw [h.job_eq]
    exact hs.running w hw
  id_ok w := by
    rw [h.job_eq]
    exact hs.id_ok w
  max_lt := by
    rcases h.memory_held with ⟨hmemory, -⟩ | ⟨hmemory, -⟩
    · rw [hmemory]
      exact hs.max_lt
    · rw [(ServerMemory.epollAdd_eq_some hmemory).2]
      exact hs.max_lt

/-- `Start` hands the two job objects over. -/
lemma StartMoves.inv {ok : Bool} (h : s.StartMoves s' ok) (hs : s.Inv) : s'.Inv := by
  have hrunning := (h.steady hs.steady).running
  rcases h.memory_held with ⟨hmemory, hheld⟩ | ⟨hmemory, hheld⟩
  · refine hs.of_places_le (fun j => ?_) (by rw [hmemory]) (hheld _).ge hrunning
      (by rw [hmemory]) (by rw [hmemory]) fun w => Or.inl (congrFun h.job_eq w)
    rw [places, places, hheld, hmemory]
  · obtain ⟨harmed, hgroup⟩ := ServerMemory.epollAdd_eq_some hmemory
    refine hs.of_places_le (fun j => ?_) (harmed .poll) (hheld .poll).ge hrunning
      (by rw [hgroup]) (by rw [hgroup]) fun w => Or.inl (congrFun h.job_eq w)
    have hle := harmed j
    have hj := hheld j
    rw [places, places]
    omega

/-- **No step of the server makes a second token of a job object.** -/
theorem Inv.step [DecidableEq κ] (hs : s.Inv) {a : ServerStep n κ} (h : s.step a = some s') :
    s'.Inv := by
  cases a with
  | pool a => exact (hs.steady.poolStep h).inv hs
  | job w input =>
    obtain ⟨hadd, next, hstep, hfollows⟩ := jobStep_of_step h
    have hjob : s.job w ≠ .none := by
      intro heq
      rw [heq] at hstep
      cases hstep
    exact hs.jobStep hfollows hadd hjob
      ((ServerMemory.jobMoves_of_step hstep).bound (hs.id_ok w) hs.max_lt)
  | start ok => exact (startMoves_of_step h).inv hs
  | callDisconnect k slot =>
    simp only [Server.step] at h
    split at h
    · exact Option.some.inj h ▸ hs.of_memory _ (fun _ => le_rfl) rfl rfl
    · cases h
  | disconnect k =>
    simp only [Server.step] at h
    split at h
    · cases h
    · obtain ⟨⟨memory, pc⟩, hstep, h⟩ := Option.bind_eq_some_iff.1 h
      have hshrinks := (ServerMemory.disconnectMoves_of_step hstep).shrinks
      exact Option.some.inj h ▸
        hs.of_memory _ hshrinks.armed_le hshrinks.pool_eq hshrinks.max_eq
  | setSendState slot state =>
    obtain ⟨-, h⟩ := ServerMemory.modifySession_bind_eq_some.1 h
    exact Option.some.inj h ▸ hs.of_memory _ (fun _ => le_rfl) rfl rfl

lemma held_start {memory : ℕ → Session} {maxSessions : ℕ} {uniqueNumber : BitVec 64}
    {listenFD : SocketFD} (j : ServerJob) :
    (start n κ memory maxSessions uniqueNumber listenFD).held j =
      [ServerJob.poll, .accept].count j := by
  simp [held, inHands, start, WorkerThreadPool.start, pushing, StartPC.hand,
    Fintype.sum_sum_type]

lemma inv_start {memory : ℕ → Session} {maxSessions : ℕ} (hmax : maxSessions < 65536)
    {uniqueNumber : BitVec 64} {listenFD : SocketFD} :
    (start n κ memory maxSessions uniqueNumber listenFD).Inv where
  places_le j := by
    rw [places, held_start]
    exact (Nat.zero_add _).le.trans (List.nodup_iff_count_le_one.1 (by decide) j)
  poll_unarmed := rfl
  poll_held := by
    rw [held_start]
    decide
  running _ _ := rfl
  pool_nodup := by
    rw [start, SessionGroup.mSessionIndexPool_construct]
    exact SessionGroup.nodup_indices _
  fresh i _ := by
    rw [places, held_start]
    simp [start]
  new_fresh w i hi := by cases hi
  id_ok w := trivial
  max_lt := hmax

/-! ## No lock is needed -/

/-- A worker that may use a receive buffer runs the `RecvJob` of the slot, or adds its
session. -/
lemma buffer_eq_some {pc : JobPC} {i : ℤ} (h : pc.buffer = some i) :
    .recv i ∈ pc.hand ∨ pc.newSlot = some i := by
  cases pc with
  | recv slot pc =>
    obtain ⟨hbefore, heq⟩ := Option.ite_none_right_eq_some.1 h
    rw [JobPC.hand, if_pos hbefore, Option.some.inj heq]
    exact Or.inl (List.mem_singleton_self _)
  | accept pc => exact Or.inr h
  | none => cases h
  | poll pc => cases h
  | complete => cases h

/-- Two workers never use one receive buffer. -/
lemma Inv.buffer_unique (hs : s.Inv) {w w' : Fin n} {i : ℤ} (hw : (s.job w).buffer = some i)
    (hw' : (s.job w').buffer = some i) : w = w' := by
  rcases buffer_eq_some hw with hrecv | hnew
  · rcases buffer_eq_some hw' with hrecv' | hnew'
    · exact hs.worker_unique hrecv hrecv'
    · exact absurd (hs.new_fresh w' i hnew').1 (places_pos hrecv).ne'
  · rcases buffer_eq_some hw' with hrecv' | hnew'
    · exact absurd (hs.new_fresh w i hnew).1 (places_pos hrecv').ne'
    · exact hs.worker_unique (accept_mem_hand hnew) (accept_mem_hand hnew')

/-- Only a worker that may use a receive buffer writes to it. -/
lemma Inv.recvBuffer_step [DecidableEq κ] (hs : s.Inv) {a : ServerStep n κ}
    (h : s.step a = some s') {i : ℤ} (hi : 0 ≤ i)
    (ha : ∀ w input, a = .job w input → (s.job w).buffer ≠ some i) :
    s'.memory.recvBuffer i = s.memory.recvBuffer i := by
  cases a with
  | pool a =>
    obtain ⟨hinternal, h⟩ := Option.ite_none_right_eq_some.1 h
    obtain ⟨pool, hstep, h⟩ := Option.bind_eq_some_iff.1 h
    obtain rfl := Option.some.inj h
    rfl
  | job w input =>
    obtain ⟨-, next, hstep, -⟩ := jobStep_of_step h
    have hbound := (ServerMemory.jobMoves_of_step hstep).bound (hs.id_ok w) hs.max_lt
    exact hbound.buffers i hi (ha w input rfl)
  | start ok =>
    simp only [Server.step] at h
    split at h
    · obtain ⟨pool, hstep, h⟩ := Option.bind_eq_some_iff.1 h
      obtain rfl := Option.some.inj h
      rfl
    · obtain ⟨hadd, h⟩ := Option.ite_none_right_eq_some.1 h
      obtain ⟨memory, hmemory, h⟩ := Option.bind_eq_some_iff.1 h
      obtain rfl := Option.some.inj h
      rw [ServerMemory.recvBuffer, (ServerMemory.epollAdd_eq_some hmemory).2,
        ServerMemory.recvBuffer]
    · cases h
  | callDisconnect k slot =>
    simp only [Server.step] at h
    split at h
    · obtain rfl := Option.some.inj h
      rfl
    · cases h
  | disconnect k =>
    simp only [Server.step] at h
    split at h
    · cases h
    · obtain ⟨⟨memory, pc⟩, hstep, h⟩ := Option.bind_eq_some_iff.1 h
      obtain rfl := Option.some.inj h
      exact (ServerMemory.disconnectMoves_of_step hstep).recvBuffer hi
  | setSendState slot state =>
    obtain ⟨hin, h⟩ := ServerMemory.modifySession_bind_eq_some.1 h
    obtain rfl := Option.some.inj h
    exact ServerMemory.recvBuffer_updateSession hin.1 hi (Or.inr fun _ => rfl)

/-- Every job object is in at most one place, so that the receive path needs no lock. -/
structure Exclusive [DecidableEq κ] (s : Server n κ) : Prop where
  /-- `PollJob` is never in the epoll set, and is in the queue or in the hands of one thread
  that has not come to the end of its `AddJob`. -/
  poll : s.memory.epoll.armed .poll = 0 ∧ s.held .poll = 1
  /-- `AcceptJob` and every `RecvJob` is armed, queued, or in the hands of one thread. -/
  atMostOnce : ∀ j, s.places j ≤ 1
  /-- No two workers use one receive buffer, or are in `OnRecv` for one session. -/
  buffers : ∀ w w' i, (s.job w).buffer = some i → (s.job w').buffer = some i → w = w'
  /-- Nobody else writes to a receive buffer. -/
  writers : ∀ a s' i, s.step a = some s' → 0 ≤ i →
    s'.memory.recvBuffer i ≠ s.memory.recvBuffer i →
      ∃ w input, a = .job w input ∧ (s.job w).buffer = some i

lemma Inv.exclusive [DecidableEq κ] (hs : s.Inv) : s.Exclusive where
  poll := by
    have hle := hs.places_le .poll
    have hheld := hs.poll_held
    have hunarmed := hs.poll_unarmed
    rw [places] at hle
    omega
  atMostOnce := hs.places_le
  buffers _ _ _ := hs.buffer_unique
  writers a s' i h hi := by
    contrapose!
    exact fun ha => hs.recvBuffer_step h hi ha

end Server

/-- **Exclusive execution.**  However the threads of a started server interleave, whatever
the kernel answers, and whenever the senders disconnect, every job object is in at most one
place, and no receive buffer is used by two workers. -/
theorem server_exclusiveJobs {n : ℕ} {κ : Type} [DecidableEq κ] (memory : ℕ → Session)
    {maxSessions : ℕ} (hmax : maxSessions < 65535) (uniqueNumber : BitVec 64)
    (listenFD : SocketFD) {as : List (ServerStep n κ)} {s : Server n κ}
    (hrun : (Server.machine n κ).exec
      (Server.start n κ memory maxSessions uniqueNumber listenFD) as = some s) :
    s.Exclusive := by
  have hs : s.Inv := StepMachine.exec_invariant (M := Server.machine n κ)
    (fun _ _ _ hs h => hs.step h) (Server.inv_start (by omega)) hrun
  exact hs.exclusive

/-- A client is accepted by one worker while the other polls, and the application is called
with its first byte while another thread disconnects it. -/
theorem server_exclusiveJobs_two_workers : ∃ s,
    (Server.machine 2 Unit).exec (Server.start 2 Unit (fun _ => Session.zeroMemory) 2 0 3)
      [.start true, .pool (.addPush (.inr ())), .pool (.addTest (.inr ())), .start true,
        .pool (.loop 0), .pool (.pop 0), .job 0 (.epollWait (.events [3])), .job 0 .run,
        .pool (.addPush (.inl 0)), .pool (.addTest (.inl 0)), .job 0 .run, .job 0 .run,
        .pool (.addPush (.inl 0)), .pool (.addTest (.inl 0)), .job 0 .run, .job 0 .run,
        .pool (.loop 1), .pool (.pop 1), .job 1 (.accept (.accepted 7)),
        .job 1 (.onAccepeted true), .job 1 .run, .job 1 .run, .job 1 .run, .job 1 .run,
        .job 1 (.epollCtl true), .job 1 .run, .job 1 (.accept (.failed .EAGAIN)),
        .job 1 (.epollCtl true), .pool (.loop 0), .pool (.pop 0),
        .job 0 (.epollWait (.events [7])), .job 0 .run, .pool (.addPush (.inl 0)),
        .pool (.addTest (.inl 0)), .pool (.loop 1), .pool (.pop 1), .job 1 .run, .job 1 .run,
        .job 1 (.recv (.received [65])), .job 1 .run, .job 1 .run,
        .job 1 (.recv (.failed .EAGAIN)), .job 1 .run, .callDisconnect () 0,
        .disconnect ()] = some s ∧
      s.job 1 = .recv 0 (.onRecv 1) ∧ s.places (.recv 0) = 1 ∧ s.Exclusive :=
  StepMachine.exists_exec_and (fun s => s.job 1 = .recv 0 (.onRecv 1) ∧ s.places (.recv 0) = 1)
    (by decide +kernel) fun _ hrun ⟨hjob, hplaces⟩ =>
      ⟨hjob, hplaces, server_exclusiveJobs _ (by decide) 0 3 hrun⟩

end CoreServer
