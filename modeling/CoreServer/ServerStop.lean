import CoreServer.PoolStop
import CoreServer.ServerRun

/-!
# `Server::Stop`

A started server on which one thread calls `Stop` (`Server.cpp`).  A worker in `epoll_wait` is
asleep until the kernel has an event of a registered descriptor for it or a signal arrives; that
the epoll descriptor is closed does not wake it, but it lets no other call of `epoll_wait` sleep,
and every `epoll_ctl` fails from then on.

`Stop` writes to the eventfd of a worker and waits for the worker to exit.  A worker that reads
its eventfd, or will do so, is reached by this; one in `epoll_wait` is not.
-/

namespace CoreServer

/-- Where the thread that calls `Server::Stop` stands. -/
inductive ServerStopPC where
  | notCalled
  /-- In `CloseListenSocket`, before `close(mListenFD)`. -/
  | closeListenFD
  /-- In `CloseListenSocket`, before `mListenFD = sINVALID_SOCKET_FD`. -/
  | clearListenFD
  /-- Before `close(mEpollFD)`; the send epoll that is closed next is polled by no job. -/
  | closeEpollFD
  /-- Before `threadPool->Stop()`. -/
  | callPool
  /-- In `threadPool->Stop()`, or returned from it. -/
  | inPool
deriving DecidableEq, Repr

/-- The server with the thread in `Stop`, and what the kernel has for the workers in
`epoll_wait`. -/
structure StopRun (n : ℕ) (κ : Type) where
  run : ServerRun n κ
  stopper : ServerStopPC
  /-- `mEpollFD` is open. -/
  epollOpen : Bool
  /-- A worker sleeps in `epoll_wait`. -/
  asleep : Fin n → Bool
  /-- A signal has arrived for a worker in `epoll_wait`. -/
  interrupted : Fin n → Bool
  /-- A descriptor has an event. -/
  ready : SocketFD → Bool

/-- A step: of the server, of a worker that falls asleep in `epoll_wait`, of the thread in
`Stop`, or of what is outside of the server. -/
inductive StopStep (n : ℕ) (κ : Type) where
  | run (a : RunStep n κ)
  | sleep (worker : Fin n)
  | stop
  | signal (worker : Fin n)
  | ready (fd : SocketFD) (state : Bool)
deriving DecidableEq, Repr

namespace StopRun

variable {n : ℕ} {κ : Type}

/-- The pool of the server. -/
abbrev pool (s : StopRun n κ) : WorkerThreadPool n Unit ServerJob := s.run.server.pool

/-- `epoll_wait` can return with the given outcome to the worker `w`: if the worker sleeps,
because of an event or of a signal; if not, because the descriptor has been closed. -/
def CanReturn (s : StopRun n κ) (w : Fin n) : EpollResult → Prop
  | .events fds => s.asleep w = true ∧ fds ≠ [] ∧ ∀ fd ∈ fds, s.ready fd = true
  | .failed errno =>
    if s.asleep w then errno = .EINTR ∧ s.interrupted w = true else s.epollOpen = false

instance (s : StopRun n κ) (w : Fin n) : ∀ r, Decidable (s.CanReturn w r)
  | .events _ => inferInstanceAs (Decidable (_ ∧ _ ∧ _))
  | .failed errno =>
    decidable_of_iff ((s.asleep w = true ∧ errno = .EINTR ∧ s.interrupted w = true) ∨
        (s.asleep w = false ∧ s.epollOpen = false))
      (by cases h : s.asleep w <;> simp [CanReturn, h])

/-- What the kernel lets happen: no `accept` on a closed socket, and no `epoll_ctl` and no sleep
on a closed epoll descriptor. -/
def Allows (s : StopRun n κ) : RunStep n κ → Prop
  | .job w (.epollWait result) => s.CanReturn w result
  | .job _ (.epollCtl ok) | .start ok => ok = true → s.epollOpen = true
  | .job _ (.accept (.accepted _)) => s.stopper = .notCalled ∨ s.stopper = .closeListenFD
  | _ => True

instance (s : StopRun n κ) : ∀ a, Decidable (s.Allows a)
  | .job w (.epollWait result) => inferInstanceAs (Decidable (s.CanReturn w result))
  | .job _ (.epollCtl ok) | .start ok => inferInstanceAs (Decidable (ok = true → _))
  | .job _ (.accept (.accepted _)) => inferInstanceAs (Decidable (_ ∨ _))
  | .job _ (.accept (.failed _)) | .job _ .run | .job _ (.onAccepeted _) => isTrue trivial
  | .job _ (.recv _) | .job _ (.onRecv _) | .pool _ => isTrue trivial
  | .send _ _ _ | .disconnect _ _ | .sender _ _ => isTrue trivial

/-- A worker whose `epoll_wait` returns is awake. -/
def wake (f : Fin n → Bool) : RunStep n κ → Fin n → Bool
  | .job w (.epollWait _) => Function.update f w false
  | _ => f

/-- The pool takes a step. -/
def withPool (s : StopRun n κ) (pool : WorkerThreadPool n Unit ServerJob) : StopRun n κ :=
  { s with run := { s.run with server := { s.run.server with pool := pool } } }

/-- The memory of the server is changed. -/
def withMemory (s : StopRun n κ) (memory : ServerMemory) : StopRun n κ :=
  { s with run := { s.run with server := { s.run.server with memory := memory } } }

/-- The step of the thread in `threadPool->Stop()`, after its first statement. -/
def poolStop (pool : WorkerThreadPool n Unit ServerJob) :
    Option (WorkerThreadPool n Unit ServerJob) :=
  match pool.stopping with
  | .write _ => pool.step .stopWrite
  | .join _ => pool.step .stopJoin
  | .notCalled | .returned => none

/-- One step of the thread in `Server::Stop`. -/
def stopStep (s : StopRun n κ) : Option (StopRun n κ) :=
  match s.stopper with
  | .notCalled =>
    if s.run.server.starting = .returned then some { s with stopper := .closeListenFD } else none
  | .closeListenFD =>
    some { s.withMemory (s.run.memory.close s.run.memory.mListenFD) with stopper := .clearListenFD }
  | .clearListenFD =>
    some { s.withMemory { s.run.memory with mListenFD := sINVALID_SOCKET_FD } with
      stopper := .closeEpollFD }
  | .closeEpollFD => some { s with epollOpen := false, stopper := .callPool }
  | .callPool => do
    let pool ← s.pool.step .stop
    return { s.withPool pool with stopper := .inPool }
  | .inPool => do
    let pool ← poolStop s.pool
    return s.withPool pool

variable [DecidableEq κ]

/-- One step. -/
def step (s : StopRun n κ) : StopStep n κ → Option (StopRun n κ)
  | .run a =>
    if s.Allows a then do
      let run ← s.run.step a
      return { s with run := run, asleep := wake s.asleep a, interrupted := wake s.interrupted a }
    else none
  | .sleep w =>
    if s.run.job w = .poll .epollWait ∧ s.pool.adding (.inl w) = none ∧ s.epollOpen = true then
      some { s with asleep := Function.update s.asleep w true }
    else none
  | .stop => s.stopStep
  | .signal w => some { s with interrupted := Function.update s.interrupted w (s.asleep w) }
  | .ready fd state => some { s with ready := Function.update s.ready fd state }

/-- The machine of a server that may be stopped. -/
def machine (n : ℕ) (κ : Type) [DecidableEq κ] : StepMachine (StopRun n κ) (StopStep n κ) :=
  ⟨step⟩

omit [DecidableEq κ] in
/-- The server in `Start`, before `Stop` is called. -/
def start (n : ℕ) (κ : Type) (memory : ℕ → Session) (maxSessions : ℕ) (uniqueNumber : BitVec 64)
    (listenFD : SocketFD) : StopRun n κ where
  run := ServerRun.start n κ memory maxSessions uniqueNumber listenFD
  stopper := .notCalled
  epollOpen := true
  asleep _ := false
  interrupted _ := false
  ready _ := false

/-! ## Deadlock -/

omit [DecidableEq κ] in
/-- A worker waits for something that does not happen by itself: a write to its eventfd, an event
or a signal.  No other call of a worker blocks, as the sockets do not. -/
def Blocked (s : StopRun n κ) (w : Fin n) : Prop :=
  (s.pool.worker w = .idleRead ∧ s.pool.eventFD w = 0) ∨
    (s.asleep w = true ∧ s.interrupted w = false ∧
      ∀ r ∈ s.run.memory.epoll.registrations, r.armed = true → s.ready r.fd = false)

omit [DecidableEq κ] in
/-- `Stop` waits in `pthread_join` for a worker that has not exited, and every worker has exited
or is blocked. -/
def Deadlocked (s : StopRun n κ) : Prop :=
  ∃ i : Fin n, s.pool.stopping = .join i ∧ s.pool.worker i ≠ .exited ∧
    ∀ w, s.pool.worker w = .exited ∨ s.Blocked w

omit [DecidableEq κ] in
/-- `Stop` does not write to the eventfd of a worker that sleeps in `epoll_wait`. -/
def FindsAwake (s : StopRun n κ) : StopStep n κ → Prop
  | .stop => ∀ i : Fin n, s.pool.stopping = .write i → s.asleep i = false
  | _ => True

instance (s : StopRun n κ) : ∀ a, Decidable (s.FindsAwake a)
  | .stop => inferInstanceAs (Decidable (∀ _ : Fin n, _ → _))
  | .run _ | .sleep _ | .signal _ | .ready _ _ => isTrue trivial

end StopRun

/-! ## The pool under the server -/

/-- Only the thread in `Stop` moves it. -/
lemma WorkerThreadPool.stopping_of_step {n : ℕ} {κ J : Type} [DecidableEq κ]
    {p p' : WorkerThreadPool n κ J} {a : WorkerThreadPool.Step n κ J} (h : p.step a = some p')
    (ha : a.thread ≠ none) : p'.stopping = p.stopping := by
  cases WorkerThreadPool.moves_of_step h <;> first | rfl | exact absurd rfl ha

/-- A step of the server takes at most one step of the pool, and none of `Stop`. -/
lemma ServerRun.pool_of_step {n : ℕ} {κ : Type} [DecidableEq κ] {s s' : ServerRun n κ}
    {a : RunStep n κ} (h : s.step a = some s') :
    s'.server.pool = s.server.pool ∨
      ∃ b, b.thread ≠ none ∧ s.server.pool.step b = some s'.server.pool := by
  cases a with
  | pool a =>
    obtain ⟨server, hstep, h⟩ := Option.bind_eq_some_iff.1 h
    obtain rfl := Option.some.inj h
    obtain ⟨hinternal, hstep⟩ := Option.ite_none_right_eq_some.1 hstep
    obtain ⟨pool, hpool, hstep⟩ := Option.bind_eq_some_iff.1 hstep
    obtain rfl := Option.some.inj hstep
    refine Or.inr ⟨a, ?_, hpool⟩
    cases a <;> simp [WorkerThreadPool.Step.internal, WorkerThreadPool.Step.thread] at hinternal ⊢
  | job w input =>
    obtain ⟨server, hstep, h⟩ := Option.bind_eq_some_iff.1 h
    obtain rfl := Option.some.inj h
    obtain ⟨-, hstep⟩ := Option.ite_none_right_eq_some.1 hstep
    obtain ⟨⟨memory, next⟩, -, hnext⟩ := Option.bind_eq_some_iff.1 hstep
    cases next with
    | goto pc =>
      obtain rfl := Option.some.inj hnext
      exact Or.inl rfl
    | addJob job pc | executeReturns result pc | completeReturns =>
      obtain ⟨pool, hpool, hnext⟩ := Option.bind_eq_some_iff.1 hnext
      obtain rfl := Option.some.inj hnext
      exact Or.inr ⟨_, by simp [WorkerThreadPool.Step.thread], hpool⟩
  | start ok =>
    obtain ⟨server, hstep, h⟩ := Option.bind_eq_some_iff.1 h
    obtain rfl := Option.some.inj h
    simp only [Server.step] at hstep
    split at hstep
    · obtain ⟨pool, hpool, hstep⟩ := Option.bind_eq_some_iff.1 hstep
      obtain rfl := Option.some.inj hstep
      exact Or.inr ⟨_, by simp [WorkerThreadPool.Step.thread], hpool⟩
    · obtain ⟨-, hstep⟩ := Option.ite_none_right_eq_some.1 hstep
      obtain ⟨memory, -, hstep⟩ := Option.bind_eq_some_iff.1 hstep
      obtain rfl := Option.some.inj hstep
      exact Or.inl rfl
    · cases hstep
  | send k sessionID packet | disconnect k slot =>
    obtain ⟨-, h⟩ := Option.ite_none_right_eq_some.1 h
    obtain rfl := Option.some.inj h
    exact Or.inl rfl
  | sender k input =>
    obtain ⟨⟨memory, pc⟩, -, h⟩ := Option.bind_eq_some_iff.1 h
    obtain rfl := Option.some.inj h
    exact Or.inl rfl

namespace StopRun

variable {n : ℕ} {κ : Type} {s s' : StopRun n κ} {w : Fin n}

/-- The invariant. -/
structure Stopping (s : StopRun n κ) : Prop where
  signalled : s.pool.Signalled
  /-- The pool is stopped after the epoll descriptor has been closed. -/
  called : s.pool.stopping ≠ .notCalled → s.stopper = .inPool
  closed : s.stopper = .callPool ∨ s.stopper = .inPool → s.epollOpen = false
  /-- A worker that sleeps is in `epoll_wait`. -/
  sleeping : ∀ w, s.asleep w = true → s.run.job w = .poll .epollWait
  steady : s.run.server.Steady

/-- No worker to which `Stop` has written sleeps. -/
def Awake (s : StopRun n κ) : Prop := ∀ w : Fin n, (w : ℕ) < s.pool.written → s.asleep w = false

lemma stopping_start {memory : ℕ → Session} {maxSessions : ℕ} {uniqueNumber : BitVec 64}
    {listenFD : SocketFD} (hmax : maxSessions < 65536) :
    (start n κ memory maxSessions uniqueNumber listenFD).Stopping where
  signalled := WorkerThreadPool.signalled_start
  called h := absurd rfl h
  closed h := by rcases h with h | h <;> cases h
  sleeping _ h := by cases h
  steady := ⟨fun _ _ => rfl, fun _ => trivial, hmax⟩

/-- A worker that sleeps has not exited. -/
lemma Stopping.not_exited (hs : s.Stopping) (hw : s.asleep w = true) :
    s.pool.worker w ≠ .exited := by
  intro hexited
  have hjob := hs.steady.running w (by rw [hexited]; rfl)
  cases (hs.sleeping w hw).symm.trans hjob

/-- The thread in `Stop` is where it was. -/
lemma Stopping.of_eq (hs : s.Stopping) (hpool : s'.pool = s.pool)
    (hstopper : s'.stopper = s.stopper) (hopen : s'.epollOpen = s.epollOpen)
    (hsleeping : ∀ w, s'.asleep w = true → s'.run.job w = .poll .epollWait)
    (hsteady : s'.run.server.Steady) : s'.Stopping where
  signalled := hpool ▸ hs.signalled
  called h := hstopper.trans (hs.called (hpool ▸ h))
  closed h := hopen.trans (hs.closed (hstopper ▸ h))
  sleeping := hsleeping
  steady := hsteady

/-- Everything that a step of the thread in `Stop` can do. -/
inductive StopMoves (s : StopRun n κ) : StopRun n κ → Prop
  | called (hstopper : s.stopper = .notCalled) : StopMoves s { s with stopper := .closeListenFD }
  | closeListenFD (hstopper : s.stopper = .closeListenFD) :
    StopMoves s { s.withMemory (s.run.memory.close s.run.memory.mListenFD) with
      stopper := .clearListenFD }
  | clearListenFD (hstopper : s.stopper = .clearListenFD) :
    StopMoves s { s.withMemory { s.run.memory with mListenFD := sINVALID_SOCKET_FD } with
      stopper := .closeEpollFD }
  | closeEpollFD (hstopper : s.stopper = .closeEpollFD) :
    StopMoves s { s with epollOpen := false, stopper := .callPool }
  | callPool {pool : WorkerThreadPool n Unit ServerJob} (hstopper : s.stopper = .callPool)
      (hpool : s.pool.step .stop = some pool) :
    StopMoves s { s.withPool pool with stopper := .inPool }
  | write {pool : WorkerThreadPool n Unit ServerJob} (hstopper : s.stopper = .inPool)
      (hpool : s.pool.step .stopWrite = some pool) : StopMoves s (s.withPool pool)
  | join {pool : WorkerThreadPool n Unit ServerJob} (hstopper : s.stopper = .inPool)
      (hpool : s.pool.step .stopJoin = some pool) : StopMoves s (s.withPool pool)

theorem stopMoves_of_step (h : s.stopStep = some s') : s.StopMoves s' := by
  unfold stopStep at h
  split at h
  · obtain ⟨-, h⟩ := Option.ite_none_right_eq_some.1 h
    exact Option.some.inj h ▸ .called ‹_›
  · exact Option.some.inj h ▸ .closeListenFD ‹_›
  · exact Option.some.inj h ▸ .clearListenFD ‹_›
  · exact Option.some.inj h ▸ .closeEpollFD ‹_›
  · obtain ⟨pool, hpool, h⟩ := Option.bind_eq_some_iff.1 h
    exact Option.some.inj h ▸ .callPool ‹_› hpool
  · obtain ⟨pool, hpool, h⟩ := Option.bind_eq_some_iff.1 h
    obtain rfl := Option.some.inj h
    unfold poolStop at hpool
    split at hpool
    · exact .write ‹_› hpool
    · exact .join ‹_› hpool
    · cases hpool
    · cases hpool

/-- The thread in `Stop` takes a step. -/
lemma Stopping.stopMoves (hs : s.Stopping) (h : s.StopMoves s') : s'.Stopping := by
  have hsteady : ∀ pool : WorkerThreadPool n Unit ServerJob, pool.worker = s.pool.worker →
      (s.withPool pool).run.server.Steady := fun pool hworker =>
    ⟨fun w hw => hs.steady.running w (hworker ▸ hw), hs.steady.id_ok, hs.steady.max_lt⟩
  have hnotCalled : s.stopper ≠ .inPool → s.pool.stopping = .notCalled := fun hstopper =>
    not_not.1 fun hcalled => hstopper (hs.called hcalled)
  cases h with
  | called hstopper =>
    exact ⟨hs.signalled, fun hcalled => absurd (hnotCalled (by simp [hstopper])) hcalled,
      by simp, hs.sleeping, hs.steady⟩
  | closeListenFD hstopper | clearListenFD hstopper =>
    exact ⟨hs.signalled, fun hcalled => absurd (hnotCalled (by simp [hstopper])) hcalled,
      by simp, hs.sleeping, hs.steady.running, hs.steady.id_ok, hs.steady.max_lt⟩
  | closeEpollFD hstopper =>
    exact ⟨hs.signalled, fun hcalled => absurd (hnotCalled (by simp [hstopper])) hcalled,
      fun _ => rfl, hs.sleeping, hs.steady⟩
  | callPool hstopper hpool =>
    refine ⟨hs.signalled.step hpool, fun _ => rfl, fun _ => hs.closed (Or.inl hstopper),
      hs.sleeping, hsteady _ ?_⟩
    cases WorkerThreadPool.moves_of_step hpool
    rfl
  | write hstopper hpool | join hstopper hpool =>
    -- `Stop` of the pool moves no worker
    refine ⟨hs.signalled.step hpool, fun _ => hstopper, fun _ => hs.closed (Or.inr hstopper),
      hs.sleeping, hsteady _ ?_⟩
    cases WorkerThreadPool.moves_of_step hpool <;> rfl

variable [DecidableEq κ]

/-- A worker in `epoll_wait` goes on there only when it returns. -/
lemma Stopping.sleeping_of_run (hs : s.Stopping) {a : RunStep n κ} {run : ServerRun n κ}
    (h : s.run.step a = some run) (hw : wake s.asleep a w = true) :
    run.job w = .poll .epollWait := by
  have hasleep : s.asleep w = true := by
    unfold wake at hw
    split at hw
    · rw [Function.update_apply] at hw
      split at hw
      · cases hw
      · exact hw
    · exact hw
  have hold := hs.sleeping w hasleep
  cases ServerRun.runMoves_of_step hs.steady h with
  | quietPool hquiet | quietStart hquiet =>
    exact (hquiet.job_of_ne_none (by simp [hold])).trans hold
  | @job w' input next hmove =>
    by_cases heq : w' = w
    · -- the worker takes a step in `epoll_wait`, so the call returns, and the worker is awake
      subst heq
      obtain ⟨next', hjob⟩ := ServerRun.jobStep_of_step h
      rw [hold] at hjob
      cases input <;> try cases hjob
      simp [wake] at hw
    · rw [hmove.job_of_ne (Ne.symm heq)]
      exact hold
  | send hadded hmove | disconnect hadded hmove =>
    rw [ServerRun.job, hmove.server_eq]
    exact hold
  | sender hmove hwritev =>
    rw [hmove.job_eq]
    exact hold

/-- A step of the running server, which wakes the workers whose `epoll_wait` returns. -/
lemma run_of_step {a : RunStep n κ} (h : s.step (.run a) = some s') :
    ∃ run, s.run.step a = some run ∧ s' = { s with
      run := run, asleep := wake s.asleep a, interrupted := wake s.interrupted a } := by
  obtain ⟨-, h⟩ := Option.ite_none_right_eq_some.1 h
  obtain ⟨run, hrun, h⟩ := Option.bind_eq_some_iff.1 h
  exact ⟨run, hrun, (Option.some.inj h).symm⟩

/-- **Every step keeps the invariant.** -/
theorem Stopping.step (hs : s.Stopping) {a : StopStep n κ} (h : s.step a = some s') :
    s'.Stopping := by
  cases a with
  | run a =>
    obtain ⟨run, hrun, rfl⟩ := run_of_step h
    have hsleeping : ∀ w, wake s.asleep a w = true → run.job w = .poll .epollWait :=
      fun w hw => hs.sleeping_of_run hrun hw
    have hsteady := ServerRun.steady_step hs.steady hrun
    rcases ServerRun.pool_of_step hrun with hpool | ⟨b, hb, hpool⟩
    · exact hs.of_eq hpool rfl rfl hsleeping hsteady
    · refine ⟨hs.signalled.step hpool, fun hcalled => hs.called ?_, hs.closed, hsleeping, hsteady⟩
      rwa [← WorkerThreadPool.stopping_of_step hpool hb]
  | sleep w =>
    obtain ⟨⟨hjob, -, -⟩, h⟩ := Option.ite_none_right_eq_some.1 h
    obtain rfl := Option.some.inj h
    refine hs.of_eq rfl rfl rfl (fun w' hw' => ?_) hs.steady
    change Function.update s.asleep w true w' = true at hw'
    rw [Function.update_apply] at hw'
    split at hw'
    · rename_i heq
      rw [heq]
      exact hjob
    · exact hs.sleeping w' hw'
  | stop => exact hs.stopMoves (stopMoves_of_step h)
  | signal w =>
    obtain rfl := Option.some.inj h
    exact hs.of_eq rfl rfl rfl hs.sleeping hs.steady
  | ready fd state =>
    obtain rfl := Option.some.inj h
    exact hs.of_eq rfl rfl rfl hs.sleeping hs.steady

/-! ## When `Stop` finds the workers awake -/

omit [DecidableEq κ] in
lemma wake_eq_false {f : Fin n → Bool} (h : f w = false) (a : RunStep n κ) :
    wake f a w = false := by
  unfold wake
  split
  · rw [Function.update_apply]
    split
    · rfl
    · exact h
  · exact h

omit [DecidableEq κ] in
lemma wake_of_ne {f : Fin n → Bool} {a : RunStep n κ} (ha : ∀ r, a ≠ .job w (.epollWait r)) :
    wake f a w = f w := by
  unfold wake
  split
  · refine Function.update_of_ne ?_ ..
    rintro rfl
    exact ha _ rfl
  · rfl

omit [DecidableEq κ] in
lemma written_congr {p p' : WorkerThreadPool n Unit ServerJob} (h : p'.stopping = p.stopping) :
    p'.written = p.written := by
  rw [WorkerThreadPool.written, WorkerThreadPool.written, h]

omit [DecidableEq κ] in
/-- The thread in `Stop` writes to a worker that is awake. -/
lemma Awake.stopMoves (hawake : s.Awake) (ha : s.FindsAwake .stop) (h : s.StopMoves s') :
    s'.Awake := by
  intro w hw
  cases h with
  | called | closeListenFD | clearListenFD | closeEpollFD => exact hawake w hw
  | callPool hstopper hpool =>
    cases WorkerThreadPool.moves_of_step hpool with
    | stop hstop => exact absurd hw (Nat.not_lt_zero _)
  | write hstopper hpool =>
    cases WorkerThreadPool.moves_of_step hpool with
    | @stopWrite i hstop hi =>
      rcases Nat.lt_succ_iff_lt_or_eq.1 hw with hlt | heq
      · refine hawake w ?_
        rw [WorkerThreadPool.written, hstop]
        exact hlt
      · exact ha w (heq ▸ hstop)
    | @stopReturn i hstop hi =>
      refine hawake w ?_
      rw [WorkerThreadPool.written, hstop]
      show (w : ℕ) < i
      omega
  | join hstopper hpool =>
    cases WorkerThreadPool.moves_of_step hpool with
    | @stopJoin i hstop hi hexit =>
      refine hawake w ?_
      rw [WorkerThreadPool.written, hstop]
      exact hw

/-- **One step.**  No worker falls asleep behind `Stop`, as the epoll descriptor is closed. -/
theorem Awake.step (hs : s.Stopping) (hawake : s.Awake) {a : StopStep n κ} (ha : s.FindsAwake a)
    (h : s.step a = some s') : s'.Awake := by
  cases a with
  | run a =>
    obtain ⟨run, hrun, rfl⟩ := run_of_step h
    have hwritten : run.server.pool.written = s.pool.written := by
      rcases ServerRun.pool_of_step hrun with hpool | ⟨b, hb, hpool⟩
      · rw [hpool]
      · exact written_congr (WorkerThreadPool.stopping_of_step hpool hb)
    intro w hw
    exact wake_eq_false (hawake w (hwritten ▸ hw)) a
  | sleep w =>
    obtain ⟨⟨-, -, hopen⟩, h⟩ := Option.ite_none_right_eq_some.1 h
    obtain rfl := Option.some.inj h
    have hnotCalled : s.pool.stopping = .notCalled := by
      by_contra hcalled
      rw [hs.closed (Or.inr (hs.called hcalled))] at hopen
      cases hopen
    intro w' hw'
    have hzero : s.pool.written = 0 := by rw [WorkerThreadPool.written, hnotCalled]
    exact absurd (hzero ▸ hw') (Nat.not_lt_zero _)
  | stop => exact hawake.stopMoves ha (stopMoves_of_step h)
  | signal w | ready fd state =>
    obtain rfl := Option.some.inj h
    exact hawake

omit [DecidableEq κ] in
/-- `Stop` does not deadlock on a worker that it has found awake. -/
lemma Stopping.not_deadlocked (hs : s.Stopping) (hawake : s.Awake) : ¬ s.Deadlocked := by
  rintro ⟨i, hjoin, hexited, hblocked⟩
  have hwritten : (i : ℕ) < s.pool.written := by
    rw [WorkerThreadPool.written, hjoin]
    exact Nat.lt_succ_self _
  rcases (hblocked i).resolve_left hexited with ⟨hread, hevent⟩ | ⟨hasleep, -, -⟩
  · exact hs.signalled.eventFD_ne_zero hwritten (by simp [hread]) hexited hevent
  · rw [hawake i hwritten] at hasleep
    cases hasleep

/-! ## When it finds one asleep -/

omit [DecidableEq κ] in
/-- `Stop` waits for a worker that sleeps in `epoll_wait`. -/
def WaitsForSleeper (s : StopRun n κ) (i : Fin n) : Prop :=
  s.pool.stopping = .join i ∧ s.asleep i = true

/-- Only the kernel wakes the worker. -/
lemma WaitsForSleeper.step (hs : s.Stopping) {i : Fin n} (hi : s.WaitsForSleeper i)
    {a : StopStep n κ} (ha : ∀ r, a ≠ .run (.job i (.epollWait r))) (h : s.step a = some s') :
    s'.WaitsForSleeper i := by
  obtain ⟨hjoin, hasleep⟩ := hi
  cases a with
  | run a =>
    obtain ⟨run, hrun, rfl⟩ := run_of_step h
    constructor
    · rcases ServerRun.pool_of_step hrun with hpool | ⟨b, hb, hpool⟩
      · exact (congrArg _ hpool).trans hjoin
      · exact (WorkerThreadPool.stopping_of_step hpool hb).trans hjoin
    · exact (wake_of_ne fun r heq => ha r (congrArg _ heq)).trans hasleep
  | sleep w =>
    obtain ⟨-, h⟩ := Option.ite_none_right_eq_some.1 h
    obtain rfl := Option.some.inj h
    refine ⟨hjoin, ?_⟩
    change Function.update s.asleep w true i = true
    rw [Function.update_apply]
    split
    · rfl
    · exact hasleep
  | stop =>
    -- `pthread_join` does not return, as the worker has not exited
    have hinPool := hs.called (by simp [hjoin])
    cases stopMoves_of_step h with
    | called hstopper | closeListenFD hstopper | clearListenFD hstopper =>
      cases hinPool.symm.trans hstopper
    | closeEpollFD hstopper | callPool hstopper hpool => cases hinPool.symm.trans hstopper
    | write hstopper hpool =>
      cases WorkerThreadPool.moves_of_step hpool with
      | stopWrite hstop hj | stopReturn hstop hj => cases hjoin.symm.trans hstop
    | join hstopper hpool =>
      cases WorkerThreadPool.moves_of_step hpool with
      | @stopJoin j hstop hj hexit =>
        obtain rfl : (i : ℕ) = j := WorkerThreadPool.StopPC.join.inj (hjoin.symm.trans hstop)
        exact absurd hexit (hs.not_exited hasleep)
  | signal w | ready fd state =>
    obtain rfl := Option.some.inj h
    exact ⟨hjoin, hasleep⟩

/-- A step at which `Stop` finds the worker asleep. -/
lemma waitsForSleeper_of_stop {i : Fin n} (hs : s.Stopping) (hwrite : s.pool.stopping = .write i)
    (hasleep : s.asleep i = true) (h : s.step .stop = some s') : s'.WaitsForSleeper i := by
  have hinPool := hs.called (by simp [hwrite])
  cases stopMoves_of_step h with
  | called hstopper | closeListenFD hstopper | clearListenFD hstopper =>
    cases hinPool.symm.trans hstopper
  | closeEpollFD hstopper | callPool hstopper hpool => cases hinPool.symm.trans hstopper
  | join hstopper hpool =>
    cases WorkerThreadPool.moves_of_step hpool with
    | stopJoin hstop hj hexit => cases hwrite.symm.trans hstop
  | write hstopper hpool =>
    cases WorkerThreadPool.moves_of_step hpool with
    | @stopWrite j hstop hj =>
      obtain rfl : (i : ℕ) = j := WorkerThreadPool.StopPC.write.inj (hwrite.symm.trans hstop)
      exact ⟨rfl, hasleep⟩
    | @stopReturn j hstop hj =>
      obtain rfl : (i : ℕ) = j := WorkerThreadPool.StopPC.write.inj (hwrite.symm.trans hstop)
      exact absurd i.isLt hj

/-- `Stop` waits until `epoll_wait` returns. -/
lemma WaitsForSleeper.exec (hs : s.Stopping) {i : Fin n} (hi : s.WaitsForSleeper i)
    {as : List (StopStep n κ)} (has : ∀ r, .run (.job i (.epollWait r)) ∉ as)
    (h : (machine n κ).exec s as = some s') : s'.WaitsForSleeper i := by
  induction as generalizing s with
  | nil =>
    obtain rfl := Option.some.inj h
    exact hi
  | cons a as ih =>
    obtain ⟨s₁, hstep, hrest⟩ := StepMachine.exec_cons_eq_some.1 h
    refine ih (hs.step hstep) (hi.step hs (fun r heq => ?_) hstep) (fun r hr => ?_) hrest
    · exact has r (heq ▸ List.mem_cons_self)
    · exact has r (List.mem_cons_of_mem _ hr)

end StopRun

open StopRun

/-- **When `Stop` cannot deadlock.**  In every run of a server that is started and stopped, no
state is a deadlock if `Stop` never writes to the eventfd of a worker that sleeps in
`epoll_wait`.  If it does, it stays in `pthread_join` until the kernel lets this `epoll_wait`
return. -/
theorem server_stop_deadlockFree {n : ℕ} {κ : Type} [DecidableEq κ] (memory : ℕ → Session)
    {maxSessions : ℕ} (hmax : maxSessions < 65536) (uniqueNumber : BitVec 64)
    (listenFD : SocketFD) (as : List (StopStep n κ)) :
    ((machine n κ).Along FindsAwake (start n κ memory maxSessions uniqueNumber listenFD) as →
        (machine n κ).Always (fun s => ¬ s.Deadlocked)
          (start n κ memory maxSessions uniqueNumber listenFD) as) ∧
      ∀ s, (machine n κ).exec (start n κ memory maxSessions uniqueNumber listenFD) as = some s →
        ∀ i : Fin n, s.pool.stopping = .write i → s.asleep i = true →
          ∀ bs t, (∀ r, .run (.job i (.epollWait r)) ∉ bs) →
            (machine n κ).exec s (.stop :: bs) = some t → t.pool.stopping = .join i := by
  constructor
  · refine StepMachine.always_of_along (I := fun s : StopRun n κ => s.Stopping ∧ s.Awake)
      (fun s a s' hs ha h => ⟨hs.1.step h, hs.2.step hs.1 ha h⟩)
      (fun s hs => hs.1.not_deadlocked hs.2) ⟨stopping_start hmax, fun _ _ => rfl⟩
  · intro s hrun i hwrite hasleep bs t hbs ht
    have hs : s.Stopping := StepMachine.exec_invariant (M := machine n κ)
      (fun _ _ _ hs h => hs.step h) (stopping_start hmax) hrun
    obtain ⟨s₁, hstop, hrest⟩ := StepMachine.exec_cons_eq_some.1 ht
    exact ((waitsForSleeper_of_stop hs hwrite hasleep hstop).exec (hs.step (a := .stop) hstop)
      hbs hrest).1

/-- One worker, which comes back from `epoll_wait` for a client before `Stop` closes the epoll
descriptor. -/
theorem server_stop_deadlockFree_client :
    (machine 1 Empty).Always (fun s => ¬ s.Deadlocked)
      (start 1 Empty (fun _ => Session.zeroMemory) 2 0 3)
      [.run (.start true), .run (.pool (.addPush (.inr ()))), .run (.pool (.addTest (.inr ()))),
        .run (.start true), .run (.pool (.loop 0)), .run (.pool (.pop 0)), .sleep 0,
        .ready 3 true, .run (.job 0 (.epollWait (.events [3]))), .stop, .stop, .stop, .stop,
        .stop, .stop] :=
  (server_stop_deadlockFree _ (by decide) _ _ _).1 (by decide +kernel)

/-- One worker, which is in `epoll_wait` when `Stop` is called, and no client. -/
theorem server_stop_deadlocks :
    ¬ (machine 1 Empty).Always (fun s => ¬ s.Deadlocked)
      (start 1 Empty (fun _ => Session.zeroMemory) 2 0 3)
      [.run (.start true), .run (.pool (.addPush (.inr ()))), .run (.pool (.addTest (.inr ()))),
        .run (.start true), .run (.pool (.loop 0)), .run (.pool (.pop 0)), .sleep 0,
        .stop, .stop, .stop, .stop, .stop, .stop] := by
  obtain ⟨s, hrun, hjoin, hworker, hasleep, hnone, harmed⟩ : ∃ s ∈
      (machine 1 Empty).exec (start 1 Empty (fun _ => Session.zeroMemory) 2 0 3)
        [.run (.start true), .run (.pool (.addPush (.inr ()))), .run (.pool (.addTest (.inr ()))),
          .run (.start true), .run (.pool (.loop 0)), .run (.pool (.pop 0)), .sleep 0,
          .stop, .stop, .stop, .stop, .stop, .stop],
      s.pool.stopping = .join 0 ∧ s.pool.worker 0 ≠ .exited ∧ s.asleep 0 = true ∧
        s.interrupted 0 = false ∧ s.run.memory.epoll.registrations.length = 0 := by
    decide +kernel
  intro halways
  refine halways _ s (List.prefix_refl _) hrun ⟨0, hjoin, hworker, fun w => Or.inr (Or.inr ?_)⟩
  obtain rfl : w = 0 := Subsingleton.elim _ _
  refine ⟨hasleep, hnone, fun r hr => ?_⟩
  rw [List.eq_nil_of_length_eq_zero harmed] at hr
  cases hr

end CoreServer
