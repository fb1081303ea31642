import CoreServer.Network.SessionGroup
import CoreServer.RecvJob

/-!
# The jobs of the server

Where a thread stands in `PollJob`, `AcceptJob`, `RecvJob` and `Session::Disconnect`
(`ServerJob.cpp`, `Network/Session.cpp`), one place for each access of memory or of the
kernel that other threads can see.  A slot of the session table is its index.

The calls whose effect no job can see are left out: `fcntl`, `setsockopt`, the messages on
`stderr` and the registration in the send epoll, which no job polls.
-/

namespace CoreServer

/-- The job objects: the one `PollJob`, the one `AcceptJob`, and the `RecvJob` of each slot. -/
inductive ServerJob where
  | poll
  | accept
  | recv (slot : ℤ)
deriving DecidableEq, Repr

/-- `const Int32 sMAX_EVENTS = 126`. -/
def sMAX_EVENTS : ℕ := 126

/-- Where a thread stands in `Session::Disconnect`. -/
inductive DisconnectPC where
  /-- Before `__sync_lock_test_and_set(&mSessionFD, sINVALID_SOCKET_FD)`. -/
  | swap
  /-- Before `epoll_ctl(EPOLL_CTL_DEL)`. -/
  | epollDel (oldFD : SocketFD)
  /-- Before `close`. -/
  | close (oldFD : SocketFD)
  /-- Before `!mIsRecving`. -/
  | isRecving
  /-- Before `!mIsSending`. -/
  | isSending
  /-- Before `OnDisconnected`. -/
  | onDisconnected
deriving DecidableEq, Repr

/-- Where a worker stands in `PollJob::Execute`. -/
inductive PollPC where
  /-- Before `epoll_wait`. -/
  | epollWait
  /-- In the loop over the events, with the jobs that are still to be added. -/
  | addEvents (jobs : List ServerJob)
  /-- Before `AddJob(this)`. -/
  | addThis
  /-- Before `return true`. -/
  | returns
deriving DecidableEq, Repr

/-- Where a worker stands in `AcceptJob::Execute` or `AcceptJob::Complete`. -/
inductive AcceptPC where
  /-- Before `accept`. -/
  | accept
  /-- Before `OnAccepeted`. -/
  | onAccepeted (clientFD : SocketFD)
  /-- Before `close`. -/
  | close (clientFD : SocketFD)
  /-- In `AddSession`, before `AllocSession`. -/
  | alloc (clientFD : SocketFD)
  /-- In `AddSession`, before `__sync_fetch_and_add`. -/
  | number (clientFD : SocketFD) (index : ℤ)
  /-- In `AddSession`, before `new (session) Session`. -/
  | construct (clientFD : SocketFD) (index : ℤ) (sessionID : SessionID)
  /-- Before `GetSession`. -/
  | getSession (clientFD : SocketFD) (clientSession : SessionID)
  /-- Before `epoll_ctl(EPOLL_CTL_ADD)`. -/
  | epollAdd (clientFD : SocketFD) (clientSession : SessionID) (session : ℤ)
  /-- Before `OnConnected`. -/
  | onConnected (clientSession : SessionID)
  /-- In `Complete`, before `epoll_ctl(EPOLL_CTL_MOD)`. -/
  | epollMod
deriving DecidableEq, Repr

/-- Where a worker stands in `RecvJob::Execute` or `RecvJob::Complete`. -/
inductive RecvPC where
  /-- In `Execute`, before `GetSocketFD() == sINVALID_SOCKET_FD`. -/
  | checkFD
  /-- In `Execute`, before `GetSocketFD()` in the arguments of `recv`. -/
  | recvArgs
  /-- In `Execute`, before `recv`. -/
  | recv (fd : SocketFD)
  /-- In `Execute`, before `SetReceiveState(false)`. -/
  | setReceiveState
  /-- In `Execute`, in `Disconnect`. -/
  | disconnect (pc : DisconnectPC)
  /-- In `Complete`, before `GetUsedSize`. -/
  | usedSize
  /-- In `Complete`, in `OnRecv`. -/
  | onRecv (usedSize : ℤ)
  /-- In `Complete`, before `GetSocketFD()` in the arguments of `epoll_ctl`. -/
  | epollModArgs
  /-- In `Complete`, before `epoll_ctl(EPOLL_CTL_MOD)`. -/
  | epollMod (fd : SocketFD)
  /-- In `Complete`, before `isValidSocket`. -/
  | isValidSocket
  /-- In `Complete`, before `SetReceiveState(false)`. -/
  | setReceiveStateAfterMod
  /-- In `Complete`, in `Disconnect`. -/
  | disconnectAfterMod (pc : DisconnectPC)
deriving DecidableEq, Repr

/-- Where a worker stands in the job that it runs. -/
inductive JobPC where
  /-- Not in a job. -/
  | none
  | poll (pc : PollPC)
  | accept (pc : AcceptPC)
  | recv (slot : ℤ) (pc : RecvPC)
  /-- In `IJob::Complete`, which does nothing. -/
  | complete
deriving DecidableEq, Repr

/-- The start of `Execute` of a job. -/
def ServerJob.execute : ServerJob → JobPC
  | poll => .poll .epollWait
  | accept => .accept .accept
  | recv slot => .recv slot .checkFD

/-- An outcome of `epoll_wait`: the descriptors that have events, or an error. -/
inductive EpollResult where
  | events (fds : List SocketFD)
  | failed (errno : Errno)
deriving DecidableEq, Repr

/-- An outcome of `accept`. -/
inductive AcceptResult where
  | accepted (clientFD : SocketFD)
  | failed (errno : Errno)
deriving DecidableEq, Repr

/-- What the kernel or the application answers in a step of a job. -/
inductive JobInput where
  | run
  | epollWait (result : EpollResult)
  | accept (result : AcceptResult)
  | onAccepeted (result : Bool)
  | epollCtl (ok : Bool)
  | recv (result : RecvResult)
  | onRecv (readSize : ℤ)
deriving DecidableEq, Repr

/-- A call of the application by the server. -/
inductive Callback where
  | onConnected (sessionID : SessionID)
  | onRecv (sessionID : SessionID) (buffer : List Byte)
  | onRecvReturned (sessionID : SessionID) (readSize : ℤ)
  | onDisconnected (sessionID : SessionID)
deriving DecidableEq, Repr

/-- How the control of a worker goes on after a step of its job. -/
inductive Next where
  /-- In the job. -/
  | goto (pc : JobPC)
  /-- In `AddJob`, and then in the job. -/
  | addJob (job : ServerJob) (pc : JobPC)
  /-- `Execute` returns; `pc` is where `Complete` starts. -/
  | executeReturns (result : Bool) (pc : JobPC)
  /-- `Complete` returns. -/
  | completeReturns
deriving DecidableEq, Repr

end CoreServer
