import CoreServer.ServerJob
import CoreServer.WorkerThreadPool
import CoreServer.Lib.Epoll

/-!
# The server

A started `Server` as a machine: `n` workers that run the jobs of the server, the thread that
is still in `Server::Start`, and any other threads that call `Session::Disconnect` and set
`mIsSending`, as the senders of a session do; a callback that does so is one of them.  The
kernel decides which descriptors have events, and may reuse the number of a closed
descriptor.

The pool is the machine of `WorkerThreadPool`: a step of a job that calls `AddJob` or returns
takes the step of the pool with it, and no other step may take it for the job.
-/

namespace CoreServer

/-- The session table, the kernel's part of the state, and the calls of the application made
so far. -/
structure ServerMemory where
  group : SessionGroup
  sUniqueNumber : BitVec 64
  mListenFD : SocketFD
  openFDs : List SocketFD
  epoll : EpollSet SocketFD ServerJob
  callbacks : List Callback

namespace ServerMemory

/-- The session in a slot is changed by `f`. -/
def modifySession (m : ServerMemory) (slot : ℤ) (f : Session → Session) : Option ServerMemory := do
  let session ← m.group.slot slot
  return { m with group := { m.group with
    mSessionVector := Function.update m.group.mSessionVector slot.toNat (f session) } }

/-- `close`: the number may be reused, and the descriptor leaves the epoll set. -/
def close (m : ServerMemory) (fd : SocketFD) : ServerMemory :=
  { m with openFDs := m.openFDs.erase fd, epoll := m.epoll.del fd }

/-- The application is called. -/
def call (m : ServerMemory) (c : Callback) : ServerMemory :=
  { m with callbacks := m.callbacks ++ [c] }

/-- `epoll_ctl(mEpollFD, EPOLL_CTL_ADD, fd, &event)` with the outcome `ok`. -/
def epollAdd (m : ServerMemory) (fd : SocketFD) (job : ServerJob) (ok : Bool) :
    Option ServerMemory :=
  if ok then
    if fd ∈ m.openFDs then do
      let epoll ← m.epoll.add fd job
      return { m with epoll := epoll }
    else none
  else some m

/-- `epoll_ctl(mEpollFD, EPOLL_CTL_MOD, fd, &event)` with the outcome `ok`. -/
def epollMod (m : ServerMemory) (fd : SocketFD) (job : ServerJob) (ok : Bool) :
    Option ServerMemory :=
  if ok then do
    let epoll ← m.epoll.mod fd job
    return { m with epoll := epoll }
  else some m

/-- One step of `Session::Disconnect`, and where it goes on, or `none` when it returns. -/
def disconnectStep (m : ServerMemory) (slot : ℤ) :
    DisconnectPC → Option (ServerMemory × Option DisconnectPC)
  | .swap => do
    let session ← m.group.slot slot
    let m ← m.modifySession slot fun s => { s with mSessionFD := sINVALID_SOCKET_FD }
    return (m, some (if session.mSessionFD = sINVALID_SOCKET_FD then .isRecving
      else .epollDel session.mSessionFD))
  | .epollDel oldFD => some ({ m with epoll := m.epoll.del oldFD }, some (.close oldFD))
  | .close oldFD => some (m.close oldFD, some .isRecving)
  -- `!mIsRecving && !mIsSending` reads the flags one after the other
  | .isRecving => do
    let session ← m.group.slot slot
    return (m, if session.mIsRecving then none else some .isSending)
  | .isSending => do
    let session ← m.group.slot slot
    return (m, if session.mIsSending then none else some .onDisconnected)
  | .onDisconnected => do
    let session ← m.group.slot slot
    return (m.call (.onDisconnected session.mSessionID), none)

/-- One step of `PollJob::Execute`.  After an error, `EINTR` included, the loop is left. -/
def pollStep (m : ServerMemory) : PollPC → JobInput → Option (ServerMemory × Next)
  | .epollWait, .epollWait (.failed _) => some (m, .goto (.poll .addThis))
  | .epollWait, .epollWait (.events fds) =>
    if fds.length ≤ sMAX_EVENTS then do
      let (jobs, epoll) ← m.epoll.wait fds
      return ({ m with epoll := epoll }, .goto (.poll (.addEvents jobs)))
    else none
  | .addEvents [], .run => some (m, .goto (.poll .addThis))
  | .addEvents (job :: jobs), .run => some (m, .addJob job (.poll (.addEvents jobs)))
  | .addThis, .run => some (m, .addJob .poll (.poll .returns))
  | .returns, .run => some (m, .executeReturns true .complete)
  | _, _ => none

/-- One step of `AcceptJob::Execute` or `AcceptJob::Complete`. -/
def acceptStep (m : ServerMemory) : AcceptPC → JobInput → Option (ServerMemory × Next)
  | .accept, .accept (.accepted clientFD) =>
    if 0 ≤ clientFD ∧ clientFD ∉ m.openFDs then
      some ({ m with openFDs := clientFD :: m.openFDs }, .goto (.accept (.onAccepeted clientFD)))
    else none
  | .accept, .accept (.failed .EINTR) => some (m, .goto (.accept .accept))
  -- any other error, `EAGAIN` included, ends the loop, and `Execute` returns true
  | .accept, .accept (.failed _) => some (m, .executeReturns true (.accept .epollMod))
  | .onAccepeted clientFD, .onAccepeted result =>
    some (m, .goto (.accept (if result then .alloc clientFD else .close clientFD)))
  | .close clientFD, .run => some (m.close clientFD, .goto (.accept .accept))
  -- `AddSession`: `AllocSession`, the number, the constructor, whose stores are one step
  | .alloc clientFD, .run =>
    let (index, group) := m.group.allocSession
    some ({ m with group := group }, .goto (.accept (.number clientFD index)))
  | .number clientFD index, .run =>
    some ({ m with sUniqueNumber := m.sUniqueNumber + 1 },
      .goto (.accept (.construct clientFD index (packID m.sUniqueNumber index))))
  | .construct clientFD index sessionID, .run => do
    let group ← m.group.constructSession index sessionID clientFD
    return ({ m with group := group }, .goto (.accept (.getSession clientFD sessionID)))
  -- a null pointer would be used next, which has no defined behaviour
  | .getSession clientFD clientSession, .run => do
    let session ← m.group.getSession clientSession
    let slot ← session
    return (m, .goto (.accept (.epollAdd clientFD clientSession slot)))
  -- the result of `epoll_ctl` is not tested
  | .epollAdd clientFD clientSession session, .epollCtl ok => do
    let m ← m.epollAdd clientFD (.recv session) ok
    return (m, .goto (.accept (.onConnected clientSession)))
  | .onConnected clientSession, .run =>
    some (m.call (.onConnected clientSession), .goto (.accept .accept))
  | .epollMod, .epollCtl ok => do
    let m ← m.epollMod m.mListenFD .accept ok
    return (m, .completeReturns)
  | _, _ => none

/-- One step of `RecvJob::Execute` or `RecvJob::Complete` of the session in a slot. -/
def recvStep (m : ServerMemory) (slot : ℤ) : RecvPC → JobInput → Option (ServerMemory × Next)
  | .checkFD, .run => do
    let session ← m.group.slot slot
    return (m, .goto (.recv slot
      (if session.mSessionFD = sINVALID_SOCKET_FD then .setReceiveState else .recvArgs)))
  -- the socket is read once more for the call
  | .recvArgs, .run => do
    let session ← m.group.slot slot
    return (m, .goto (.recv slot (.recv session.mSessionFD)))
  | .recv fd, .recv (.received bytes) =>
    if fd ∈ m.openFDs then do
      let session ← m.group.slot slot
      let buffer ← RecvRun.receive session.mRecvJob.mRecvBuffer bytes
      let m ← m.modifySession slot fun s => { s with mRecvJob := ⟨buffer⟩ }
      return (m, .goto (.recv slot .checkFD))
    else none
  | .recv fd, .recv .closed =>
    if fd ∈ m.openFDs then some (m, .goto (.recv slot .setReceiveState)) else none
  | .recv _, .recv (.failed .EAGAIN) => some (m, .executeReturns true (.recv slot .usedSize))
  | .recv _, .recv (.failed .EINTR) => some (m, .goto (.recv slot .checkFD))
  | .recv _, .recv (.failed .EPIPE) => some (m, .goto (.recv slot .setReceiveState))
  | .recv _, .recv (.failed .ECONNRESET) => some (m, .goto (.recv slot .setReceiveState))
  -- an error that is only printed ends the loop, too
  | .recv _, .recv (.failed (.other _)) => some (m, .executeReturns true (.recv slot .usedSize))
  | .setReceiveState, .run => do
    let m ← m.modifySession slot fun s => s.setReceiveState false
    return (m, .goto (.recv slot (.disconnect .swap)))
  | .disconnect pc, .run => do
    let (m, pc) ← m.disconnectStep slot pc
    match pc with
    | some pc => return (m, .goto (.recv slot (.disconnect pc)))
    | none => return (m, .executeReturns false .none)
  | .usedSize, .run => do
    let session ← m.group.slot slot
    let usedSize ← session.mRecvJob.mRecvBuffer.getUsedSize
    if usedSize > 0 then
      let block ← RecvRun.inputBlock session.mRecvJob.mRecvBuffer
      return (m.call (.onRecv session.mSessionID block), .goto (.recv slot (.onRecv usedSize)))
    else return (m, .goto (.recv slot .epollModArgs))
  | .onRecv usedSize, .onRecv readSize => do
    let session ← m.group.slot slot
    let buffer ← RecvRun.consume session.mRecvJob.mRecvBuffer usedSize readSize
    let m ← m.modifySession slot fun s => { s with mRecvJob := ⟨buffer⟩ }
    return (m.call (.onRecvReturned session.mSessionID readSize), .goto (.recv slot .epollModArgs))
  | .epollModArgs, .run => do
    let session ← m.group.slot slot
    return (m, .goto (.recv slot (.epollMod session.mSessionFD)))
  -- once it is registered, the job may be executed by another worker
  | .epollMod fd, .epollCtl ok => do
    let m ← m.epollMod fd (.recv slot) ok
    return (m, if ok then .completeReturns else .goto (.recv slot .isValidSocket))
  | .isValidSocket, .run => do
    let session ← m.group.slot slot
    return (m, if session.mSessionFD ≠ sINVALID_SOCKET_FD then .completeReturns
      else .goto (.recv slot .setReceiveStateAfterMod))
  | .setReceiveStateAfterMod, .run => do
    let m ← m.modifySession slot fun s => s.setReceiveState false
    return (m, .goto (.recv slot (.disconnectAfterMod .swap)))
  | .disconnectAfterMod pc, .run => do
    let (m, pc) ← m.disconnectStep slot pc
    match pc with
    | some pc => return (m, .goto (.recv slot (.disconnectAfterMod pc)))
    | none => return (m, .completeReturns)
  | _, _ => none

/-- One step of the job that a worker runs. -/
def jobStep (m : ServerMemory) : JobPC → JobInput → Option (ServerMemory × Next)
  | .none, _ => none
  | .poll pc, input => m.pollStep pc input
  | .accept pc, input => m.acceptStep pc input
  | .recv slot pc, input => m.recvStep slot pc input
  | .complete, .run => some (m, .completeReturns)
  | .complete, _ => none

end ServerMemory

/-- Where the thread in `Server::Start` stands. -/
inductive StartPC where
  /-- Before `AddJob(pollJob)`. -/
  | addJob
  /-- In `AddJob`, or before `epoll_ctl(EPOLL_CTL_ADD)` of the listening socket. -/
  | epollAdd
  | returned
deriving DecidableEq, Repr

/-- The server: the pool, the memory, and where the workers stand in their jobs, the other
threads in `Disconnect`, and the main thread in `Start`. -/
structure Server (n : ℕ) (κ : Type) where
  pool : WorkerThreadPool n Unit ServerJob
  memory : ServerMemory
  job : Fin n → JobPC
  sender : κ → Option (ℤ × DisconnectPC)
  starting : StartPC

/-- A step: of the pool, of the job of a worker, of `Start`, or of a sender. -/
inductive ServerStep (n : ℕ) (κ : Type) where
  | pool (a : WorkerThreadPool.Step n Unit ServerJob)
  | job (worker : Fin n) (input : JobInput)
  | start (ok : Bool)
  | callDisconnect (sender : κ) (slot : ℤ)
  | disconnect (sender : κ)
  | setSendState (slot : ℤ) (state : Bool)
deriving DecidableEq, Repr

/-- The steps of the pool that the code of the pool takes by itself: all but those at which
a job, `Start` or `Stop` decides. -/
def WorkerThreadPool.Step.internal {n : ℕ} {κ J : Type} : WorkerThreadPool.Step n κ J → Bool
  | .loop _ | .pop _ | .idlePush _ | .idleRead _ | .idleReadFails _ => true
  | .addPush _ | .addTest _ | .addPop _ | .addWrite _ => true
  | .executeReturns _ _ | .completeReturns _ | .callAddJob _ _ => false
  | .stop | .stopWrite | .stopJoin => false

namespace Server

variable {n : ℕ} {κ : Type}

/-- A worker that has popped a job starts to execute it. -/
def begin (job : Fin n → JobPC) (w : Fin n) : WorkerThreadPool.WorkerPC ServerJob → Fin n → JobPC
  | .execute j => Function.update job w j.execute
  | _ => job

/-- The step of the pool that the step of a job takes with it. -/
def next (s : Server n κ) (w : Fin n) : Next → Option (Server n κ)
  | .goto pc => some { s with job := Function.update s.job w pc }
  | .addJob job pc => do
    let pool ← s.pool.step (.callAddJob (.inl w) job)
    return { s with pool := pool, job := Function.update s.job w pc }
  | .executeReturns result pc => do
    let pool ← s.pool.step (.executeReturns w result)
    return { s with pool := pool, job := Function.update s.job w (if result then pc else .none) }
  | .completeReturns => do
    let pool ← s.pool.step (.completeReturns w)
    return { s with pool := pool, job := Function.update s.job w .none }

section Machine

variable [DecidableEq κ]

/-- One step. -/
def step (s : Server n κ) : ServerStep n κ → Option (Server n κ)
  | .pool a =>
    if a.internal then do
      let pool ← s.pool.step a
      return { s with
        pool := pool
        job := match a with
          | .pop w => begin s.job w (pool.worker w)
          | _ => s.job }
    else none
  | .job w input =>
    if s.pool.adding (.inl w) = none then do
      let (memory, next) ← s.memory.jobStep (s.job w) input
      { s with memory := memory }.next w next
    else none
  | .start ok =>
    match s.starting with
    | .addJob => do
      let pool ← s.pool.step (.callAddJob (.inr ()) .poll)
      return { s with pool := pool, starting := .epollAdd }
    | .epollAdd =>
      if s.pool.adding (.inr ()) = none then do
        let memory ← s.memory.epollAdd s.memory.mListenFD .accept ok
        return { s with memory := memory, starting := .returned }
      else none
    | .returned => none
  | .callDisconnect k slot =>
    match s.sender k with
    | none => some { s with sender := Function.update s.sender k (some (slot, .swap)) }
    | some _ => none
  | .disconnect k =>
    match s.sender k with
    | none => none
    | some (slot, pc) => do
      let (memory, pc) ← s.memory.disconnectStep slot pc
      return { s with
        memory := memory
        sender := Function.update s.sender k (pc.map fun pc => (slot, pc)) }
  | .setSendState slot state => do
    let memory ← s.memory.modifySession slot fun session => session.setSendState state
    return { s with memory := memory }

/-- The machine of one server. -/
def machine (n : ℕ) (κ : Type) [DecidableEq κ] : StepMachine (Server n κ) (ServerStep n κ) := ⟨step⟩

end Machine

/-- The server in `Start`, after its descriptors, its sessions and its workers have been
created. -/
def start (n : ℕ) (κ : Type) (memory : ℕ → Session) (maxSessions : ℕ) (uniqueNumber : BitVec 64)
    (listenFD : SocketFD) : Server n κ where
  pool := WorkerThreadPool.start n Unit ServerJob
  memory :=
    { group := SessionGroup.construct memory maxSessions
      sUniqueNumber := uniqueNumber
      mListenFD := listenFD
      openFDs := [listenFD]
      epoll := EpollSet.empty
      callbacks := [] }
  job _ := .none
  sender _ := none
  starting := .addJob

end Server

end CoreServer
