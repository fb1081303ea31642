import CoreServer.ExclusiveJobs
import CoreServer.SendThread

/-!
# The server with threads that send

A started server together with any number of threads that call `Server::Send`, or
`Disconnect` of a session.  The application learns the ID of a session from the server, so a
thread sends with the ID of a session that `AddSession` has constructed; a callback that
sends is one of these threads.

`ServerRun.RunMoves` is the inversion of a step.  Steps of the pool and of `Start` are
quiet: they leave the sessions alone and lose no receive job.
-/

namespace CoreServer

/-- The server, where the threads that send stand, and the IDs of the sessions that
`AddSession` has constructed. -/
structure ServerRun (n : ℕ) (κ : Type) where
  server : Server n Empty
  sender : κ → SendPC
  added : List SessionID

/-- A step: of the pool, of the job of a worker, of `Start`, a call of `Server::Send` or of
`Disconnect`, or a step of a thread in one of these calls. -/
inductive RunStep (n : ℕ) (κ : Type) where
  | pool (a : WorkerThreadPool.Step n Unit ServerJob)
  | job (worker : Fin n) (input : JobInput)
  | start (ok : Bool)
  | send (sender : κ) (sessionID : SessionID) (packet : IoVec)
  | disconnect (sender : κ) (slot : ℤ)
  | sender (sender : κ) (input : SendInput)
deriving DecidableEq, Repr

/-- The ID of the session that a step constructs. -/
def JobPC.adds : JobPC → List SessionID
  | accept (.construct _ _ sessionID) => [sessionID]
  | _ => []

namespace ServerRun

variable {n : ℕ} {κ : Type}

/-- The memory of the server. -/
abbrev memory (s : ServerRun n κ) : ServerMemory := s.server.memory

/-- Where the workers stand in their jobs. -/
abbrev job (s : ServerRun n κ) : Fin n → JobPC := s.server.job

/-- The session in a slot. -/
abbrev session (s : ServerRun n κ) (i : ℤ) : Session := s.memory.session i

/-- In how many places a job object is. -/
abbrev places (s : ServerRun n κ) (j : ServerJob) : ℕ := s.server.places j

/-- A session has been constructed in the slot `i`. -/
def Added (s : ServerRun n κ) (i : ℤ) : Prop := ∃ id ∈ s.added, getIndex id = i

instance (s : ServerRun n κ) (i : ℤ) : Decidable (s.Added i) :=
  decidable_of_iff (i ∈ s.added.map getIndex) List.mem_map

variable [DecidableEq κ]

/-- One step. -/
def step (s : ServerRun n κ) : RunStep n κ → Option (ServerRun n κ)
  | .pool a => do
    let server ← s.server.step (.pool a)
    return { s with server := server }
  | .job w input => do
    let server ← s.server.step (.job w input)
    return { s with server := server, added := s.added ++ (s.job w).adds }
  | .start ok => do
    let server ← s.server.step (.start ok)
    return { s with server := server }
  | .send k sessionID packet =>
    if s.sender k = .idle ∧ sessionID ∈ s.added then
      some { s with sender := Function.update s.sender k (.getSession sessionID packet) }
    else none
  | .disconnect k slot =>
    if s.sender k = .idle ∧ s.Added slot then
      some { s with sender := Function.update s.sender k (.disconnect slot .swap) }
    else none
  | .sender k input => do
    let (memory, pc) ← s.memory.sendStep (s.sender k) input
    return { s with
      server := { s.server with memory := memory }
      sender := Function.update s.sender k pc }

/-- The machine of a server with threads that send. -/
def machine (n : ℕ) (κ : Type) [DecidableEq κ] : StepMachine (ServerRun n κ) (RunStep n κ) :=
  ⟨step⟩

omit [DecidableEq κ] in
/-- The server in `Start`, and no thread that sends. -/
def start (n : ℕ) (κ : Type) (memory : ℕ → Session) (maxSessions : ℕ) (uniqueNumber : BitVec 64)
    (listenFD : SocketFD) : ServerRun n κ where
  server := Server.start n Empty memory maxSessions uniqueNumber listenFD
  sender _ := .idle
  added := []

/-! ## The moves -/

section Moves

variable {s s' : ServerRun n κ}

omit [DecidableEq κ] in
/-- A step of the pool or of `Start`. -/
structure Quiet (s s' : ServerRun n κ) : Prop where
  group_eq : s'.memory.group = s.memory.group
  callbacks_eq : s'.memory.callbacks = s.memory.callbacks
  openFDs_eq : s'.memory.openFDs = s.memory.openFDs
  mListenFD_eq : s'.memory.mListenFD = s.memory.mListenFD
  epoll_eq : s'.memory.epoll = s.memory.epoll ∨
    s.memory.epoll.add s.memory.mListenFD .accept = some s'.memory.epoll
  held_eq : ∀ i, s'.server.held (.recv i) = s.server.held (.recv i)
  job_eq : ∀ w, s'.job w = s.job w ∨
    ∃ j ∈ s.server.pool.mJobQueue, s.job w = .none ∧ s'.job w = j.execute
  sender_eq : s'.sender = s.sender
  added_eq : s'.added = s.added

omit [DecidableEq κ] in
/-- A step of the job that the worker `w` runs. -/
structure JobMove (s s' : ServerRun n κ) (w : Fin n) (next : Next) : Prop where
  moves : s.memory.JobMoves (s.job w) s'.memory next
  job_eq : s'.job = Function.update s.job w next.pc
  held : ∀ j, s'.server.held j + (s.job w).hand.count j = s.server.held j + next.hand.count j
  bound : s.memory.StepBound s'.memory (s.job w) next
  sender_eq : s'.sender = s.sender
  added_eq : s'.added = s.added ++ (s.job w).adds

/-- A step of the thread `k` in `Send`. -/
structure SendMove (s s' : ServerRun n κ) (k : κ) (pc : SendPC) : Prop where
  moves : s.memory.SendMoves (s.sender k) s'.memory pc
  job_eq : s'.job = s.job
  held_eq : ∀ j, s'.server.held j = s.server.held j
  sender_eq : s'.sender = Function.update s.sender k pc
  added_eq : s'.added = s.added

/-- A call by the thread `k`, which is before `pc` then. -/
structure CallMove (s s' : ServerRun n κ) (k : κ) (pc : SendPC) : Prop where
  idle : s.sender k = .idle
  server_eq : s'.server = s.server
  sender_eq : s'.sender = Function.update s.sender k pc
  added_eq : s'.added = s.added

/-- Everything that a step can do. -/
inductive RunMoves (s s' : ServerRun n κ) : RunStep n κ → Prop
  | quietPool {a : WorkerThreadPool.Step n Unit ServerJob} (h : s.Quiet s') :
    RunMoves s s' (.pool a)
  | quietStart {ok : Bool} (h : s.Quiet s') : RunMoves s s' (.start ok)
  | job {w : Fin n} {input : JobInput} {next : Next} (h : s.JobMove s' w next) :
    RunMoves s s' (.job w input)
  | send {k : κ} {sessionID : SessionID} {packet : IoVec} (hadded : sessionID ∈ s.added)
      (h : s.CallMove s' k (.getSession sessionID packet)) :
    RunMoves s s' (.send k sessionID packet)
  | disconnect {k : κ} {slot : ℤ} (hadded : s.Added slot)
      (h : s.CallMove s' k (.disconnect slot .swap)) : RunMoves s s' (.disconnect k slot)
  | sender {k : κ} {input : SendInput} {pc : SendPC} (h : s.SendMove s' k pc)
      (hwritev : ∀ slot sendPackets fd, s.sender k = .doSend slot (.writev sendPackets fd) →
        ∃ w, input = .writev w ∧ s.memory.WritevPossible fd sendPackets w ∧
          pc = .doSend slot (DoSendPC.afterWritev sendPackets w)) :
    RunMoves s s' (.sender k input)

omit [DecidableEq κ] in
/-- A thread that stands before `writev` goes on with the outcome of the call. -/
def AnswersWritev (s : ServerRun n κ) (k : κ) (input : SendInput) (pc : SendPC) : Prop :=
  ∀ slot sendPackets fd, s.sender k = .doSend slot (.writev sendPackets fd) →
    ∃ w, input = .writev w ∧ s.memory.WritevPossible fd sendPackets w ∧
      pc = .doSend slot (DoSendPC.afterWritev sendPackets w)

omit [DecidableEq κ] in
lemma quiet_of_pool {server : Server n Empty} (h : s.server.PoolMoves server) :
    s.Quiet { s with server := server } where
  group_eq := by rw [memory, h.memory_eq]
  callbacks_eq := by rw [memory, h.memory_eq]
  openFDs_eq := by rw [memory, h.memory_eq]
  mListenFD_eq := by rw [memory, h.memory_eq]
  epoll_eq := Or.inl (by rw [memory, h.memory_eq])
  held_eq _ := h.held_eq _
  job_eq := h.job_eq
  sender_eq := rfl
  added_eq := rfl

omit [DecidableEq κ] in
lemma quiet_of_start {server : Server n Empty} {ok : Bool} (h : s.server.StartMoves server ok) :
    s.Quiet { s with server := server } := by
  have hjob : ∀ w, server.job w = s.job w := fun w => congrFun h.job_eq w
  rcases h.memory_held with ⟨hmemory, hheld⟩ | ⟨hmemory, hheld⟩
  · exact ⟨by rw [memory, hmemory], by rw [memory, hmemory], by rw [memory, hmemory],
      by rw [memory, hmemory], Or.inl (by rw [memory, hmemory]), fun i => hheld _,
      fun w => Or.inl (hjob w), rfl, rfl⟩
  · have hrecv : ∀ i, server.held (.recv i) = s.server.held (.recv i) := fun i => hheld (.recv i)
    cases ok with
    | false =>
      have hm := Option.some.inj hmemory
      exact ⟨by rw [memory, ← hm], by rw [memory, ← hm], by rw [memory, ← hm],
        by rw [memory, ← hm], Or.inl (by rw [memory, ← hm]), hrecv,
        fun w => Or.inl (hjob w), rfl, rfl⟩
    | true =>
      obtain ⟨-, hmemory⟩ := Option.ite_none_right_eq_some.1 hmemory
      obtain ⟨epoll, hadd, hmemory⟩ := Option.bind_eq_some_iff.1 hmemory
      have hm := Option.some.inj hmemory
      exact ⟨by rw [memory, ← hm], by rw [memory, ← hm], by rw [memory, ← hm],
        by rw [memory, ← hm], Or.inr (by rw [hadd, memory, ← hm]), hrecv,
        fun w => Or.inl (hjob w), rfl, rfl⟩

/-- A step of a job is a step of its program. -/
lemma jobStep_of_step {w : Fin n} {input : JobInput} (h : s.step (.job w input) = some s') :
    ∃ next, s.memory.jobStep (s.job w) input = some (s'.memory, next) := by
  obtain ⟨server, hstep, h⟩ := Option.bind_eq_some_iff.1 h
  obtain rfl := Option.some.inj h
  obtain ⟨-, next, hjob, -⟩ := Server.jobStep_of_step hstep
  exact ⟨next, hjob⟩

/-- **Every step is one of the moves.** -/
theorem runMoves_of_step (hs : s.server.Steady) {a : RunStep n κ} (h : s.step a = some s') :
    s.RunMoves s' a := by
  cases a with
  | pool a =>
    obtain ⟨server, hstep, h⟩ := Option.bind_eq_some_iff.1 h
    obtain rfl := Option.some.inj h
    exact .quietPool (quiet_of_pool (hs.poolStep hstep))
  | job w input =>
    obtain ⟨server, hstep, h⟩ := Option.bind_eq_some_iff.1 h
    obtain rfl := Option.some.inj h
    obtain ⟨hadd, next, hjob, hfollows⟩ := Server.jobStep_of_step hstep
    have hmoves := ServerMemory.jobMoves_of_step hjob
    exact .job ⟨hmoves, hfollows.job_eq, hfollows.held hadd, hmoves.bound (hs.id_ok w) hs.max_lt,
      rfl, rfl⟩
  | start ok =>
    obtain ⟨server, hstep, h⟩ := Option.bind_eq_some_iff.1 h
    obtain rfl := Option.some.inj h
    exact .quietStart (quiet_of_start (Server.startMoves_of_step hstep))
  | send k sessionID packet =>
    obtain ⟨⟨hidle, hadded⟩, h⟩ := Option.ite_none_right_eq_some.1 h
    obtain rfl := Option.some.inj h
    exact .send hadded ⟨hidle, rfl, rfl, rfl⟩
  | disconnect k slot =>
    obtain ⟨⟨hidle, hadded⟩, h⟩ := Option.ite_none_right_eq_some.1 h
    obtain rfl := Option.some.inj h
    exact .disconnect hadded ⟨hidle, rfl, rfl, rfl⟩
  | sender k input =>
    obtain ⟨⟨memory, pc⟩, hstep, h⟩ := Option.bind_eq_some_iff.1 h
    obtain rfl := Option.some.inj h
    refine .sender ⟨ServerMemory.sendMoves_of_step hstep, rfl, fun _ => rfl, rfl, rfl⟩ ?_
    intro slot sendPackets fd hpc
    rw [hpc] at hstep
    exact ServerMemory.sendStep_writev hstep

theorem steady_step (hs : s.server.Steady) {a : RunStep n κ} (h : s.step a = some s') :
    s'.server.Steady := by
  cases a with
  | pool a =>
    obtain ⟨server, hstep, h⟩ := Option.bind_eq_some_iff.1 h
    obtain rfl := Option.some.inj h
    exact (hs.poolStep hstep).steady hs
  | job w input =>
    obtain ⟨server, hstep, h⟩ := Option.bind_eq_some_iff.1 h
    obtain rfl := Option.some.inj h
    obtain ⟨-, next, hjob, hfollows⟩ := Server.jobStep_of_step hstep
    refine hs.jobStep hfollows (fun heq => ?_)
      ((ServerMemory.jobMoves_of_step hjob).bound (hs.id_ok w) hs.max_lt)
    rw [heq] at hjob
    cases hjob
  | start ok =>
    obtain ⟨server, hstep, h⟩ := Option.bind_eq_some_iff.1 h
    obtain rfl := Option.some.inj h
    exact (Server.startMoves_of_step hstep).steady hs
  | send k sessionID packet | disconnect k slot =>
    obtain ⟨-, h⟩ := Option.ite_none_right_eq_some.1 h
    obtain rfl := Option.some.inj h
    exact hs
  | sender k input =>
    obtain ⟨⟨memory, pc⟩, hstep, h⟩ := Option.bind_eq_some_iff.1 h
    obtain rfl := Option.some.inj h
    refine ⟨hs.running, hs.id_ok, ?_⟩
    have hmax := (ServerMemory.sendMoves_of_step hstep).shrinks.max_eq
    exact hmax ▸ hs.max_lt

/-- **No step makes a second token of a job object.** -/
theorem inv_step (hs : s.server.Inv) {a : RunStep n κ} (h : s.step a = some s') :
    s'.server.Inv := by
  cases a with
  | pool a | job w input | start ok =>
    obtain ⟨server, hstep, h⟩ := Option.bind_eq_some_iff.1 h
    obtain rfl := Option.some.inj h
    exact hs.step hstep
  | send k sessionID packet | disconnect k slot =>
    obtain ⟨-, h⟩ := Option.ite_none_right_eq_some.1 h
    obtain rfl := Option.some.inj h
    exact hs
  | sender k input =>
    obtain ⟨⟨memory, pc⟩, hstep, h⟩ := Option.bind_eq_some_iff.1 h
    obtain rfl := Option.some.inj h
    have hshrinks := (ServerMemory.sendMoves_of_step hstep).shrinks
    exact hs.of_memory _ hshrinks.armed_le hshrinks.pool_eq hshrinks.max_eq

/-! ### The places of the receive jobs -/

omit [DecidableEq κ] in
lemma places_eq (s : ServerRun n κ) (j : ServerJob) :
    s.places j = s.memory.epoll.armed j + s.server.held j := rfl

omit [DecidableEq κ] in
lemma Quiet.places_recv (h : s.Quiet s') (i : ℤ) : s'.places (.recv i) = s.places (.recv i) := by
  rw [places_eq, places_eq, h.held_eq i]
  rcases h.epoll_eq with heq | hadd
  · rw [heq]
  · rw [EpollSet.armed_add hadd, if_neg (by simp), Nat.add_zero]

omit [DecidableEq κ] in
/-- What does not tell the beginning of a job from no job is the same after a quiet step. -/
lemma Quiet.job_congr {α : Type} (h : s.Quiet s') {f : JobPC → α}
    (hf : ∀ j : ServerJob, f j.execute = f .none) (w : Fin n) : f (s'.job w) = f (s.job w) := by
  rcases h.job_eq w with heq | ⟨j, -, hnone, heq⟩
  · rw [heq]
  · rw [heq, hnone, hf]

omit [DecidableEq κ] in
/-- A worker in its job stays where it is. -/
lemma Quiet.job_of_ne_none (h : s.Quiet s') {w : Fin n} (hw : s.job w ≠ .none) :
    s'.job w = s.job w :=
  (h.job_eq w).resolve_right fun ⟨_, _, hnone, _⟩ => hw hnone

omit [DecidableEq κ] in
lemma JobMove.places_le {w : Fin n} {next : Next} (h : s.JobMove s' w next) (j : ServerJob) :
    s'.places j ≤ s.places j + (s.job w).registers.toList.count j := by
  have hcount := h.bound.count j
  have hheld := h.held j
  rw [places_eq, places_eq]
  omega

lemma SendMove.places_le {k : κ} {pc : SendPC} (h : s.SendMove s' k pc) (j : ServerJob) :
    s'.places j ≤ s.places j := by
  have harmed := h.moves.shrinks.armed_le j
  rw [places_eq, places_eq, h.held_eq j]
  omega

omit [DecidableEq κ] in
/-- A worker goes on, and the others stay where they are. -/
lemma JobMove.job_self {w : Fin n} {next : Next} (h : s.JobMove s' w next) :
    s'.job w = next.pc := by
  rw [h.job_eq, Function.update_self]

omit [DecidableEq κ] in
lemma JobMove.job_of_ne {w w' : Fin n} {next : Next} (h : s.JobMove s' w next) (hne : w' ≠ w) :
    s'.job w' = s.job w' := by
  rw [h.job_eq, Function.update_of_ne hne]

lemma CallMove.sender_self {k : κ} {pc : SendPC} (h : s.CallMove s' k pc) : s'.sender k = pc := by
  rw [h.sender_eq, Function.update_self]

lemma CallMove.sender_of_ne {k k' : κ} {pc : SendPC} (h : s.CallMove s' k pc) (hne : k' ≠ k) :
    s'.sender k' = s.sender k' := by
  rw [h.sender_eq, Function.update_of_ne hne]

lemma SendMove.sender_self {k : κ} {pc : SendPC} (h : s.SendMove s' k pc) : s'.sender k = pc := by
  rw [h.sender_eq, Function.update_self]

lemma SendMove.sender_of_ne {k k' : κ} {pc : SendPC} (h : s.SendMove s' k pc) (hne : k' ≠ k) :
    s'.sender k' = s.sender k' := by
  rw [h.sender_eq, Function.update_of_ne hne]

end Moves

end ServerRun

end CoreServer
