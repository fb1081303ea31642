import CoreServer.Network.RecvBuffer

/-!
# `Session`, `RecvJob` and `SendJob`: the members

The members of a `Session` (`Network/Session.hpp`) and of the two jobs it owns
(`ServerJob.hpp`), its constructors, and `Disconnect` as one thread executes it.  The back
pointers to the session and to the server, which never change, are left out.
-/

namespace CoreServer

/-- `struct iovec`: an address and a length. -/
structure IoVec where
  iov_base : ℤ
  iov_len : ℕ
deriving DecidableEq, Repr

/-- The bytes that an `iovec` points at in the memory `mem`. -/
def IoVec.bytes {β : Type} (mem : ℤ → β) (v : IoVec) : List β :=
  (List.range v.iov_len).map fun i => mem (v.iov_base + i)

@[simp] lemma IoVec.length_bytes {β : Type} (mem : ℤ → β) (v : IoVec) :
    (v.bytes mem).length = v.iov_len := by
  simp [bytes]

lemma IoVec.bytes_eq_map {β : Type} (mem : ℤ → β) (v : IoVec) :
    v.bytes mem = (List.range v.iov_len).map fun i : ℕ => mem (v.iov_base + i) := by
  have hcast : ∀ l : List ℕ, (do let i ← l; pure (i : ℤ)) = l.map fun i : ℕ => (i : ℤ) :=
    fun l => (List.map_eq_flatMap (f := fun i : ℕ => (i : ℤ)) (l := l)).symm
  rw [IoVec.bytes, hcast, List.map_map]
  rfl

/-- The members of `RecvJob`. -/
structure RecvJob where
  mRecvBuffer : RecvBuffer

/-- The members of `SendJob`. -/
structure SendJob where
  mSendPackets : List IoVec

/-- `SendJob::Reset`. -/
def SendJob.reset (_ : SendJob) : SendJob := ⟨[]⟩

/-- `SendJob::AddPackets`. -/
def SendJob.addPackets (job : SendJob) (buffer : ℤ) (size : ℕ) : SendJob :=
  ⟨job.mSendPackets ++ [⟨buffer, size⟩]⟩

/-- The members of `Session`. -/
structure Session where
  mSessionID : SessionID
  mSessionFD : SocketFD
  mIsRecving : Bool
  mRecvJob : RecvJob
  mIsSending : Bool
  mSendJob : SendJob
  mPackets : List IoVec

namespace Session

/-- `Session::Session()`: the vectors are empty, and every other member keeps what its
memory holds. -/
def constructDefault (memory : Session) : Session :=
  { memory with mSendJob := ⟨[]⟩, mPackets := [] }

/-- `Session::Session(server, sessionID, sessionFD)`, built in place.  The constructor of
`RecvJob` does not mention the buffer, so the buffer is what the memory holds. -/
def construct (memory : Session) (sessionID : SessionID) (sessionFD : SocketFD) : Session where
  mSessionID := sessionID
  mSessionFD := sessionFD
  mIsRecving := true
  mRecvJob := ⟨RecvBuffer.construct memory.mRecvJob.mRecvBuffer⟩
  mIsSending := false
  mSendJob := ⟨[]⟩
  mPackets := []

/-- The object whose memory is all zero. -/
def zeroMemory : Session := ⟨0, 0, false, ⟨RecvBuffer.zeroMemory⟩, false, ⟨[]⟩, []⟩

/-- `SetReceiveState`. -/
def setReceiveState (s : Session) (state : Bool) : Session := { s with mIsRecving := state }

/-- `SetSendState`. -/
def setSendState (s : Session) (state : Bool) : Session := { s with mIsSending := state }

/-- What a session does outside its own members: the calls of the kernel and of the
application that `Disconnect` makes. -/
inductive Effect where
  | epollDel (fd : SocketFD)
  | close (fd : SocketFD)
  | onDisconnected (sessionID : SessionID)
deriving DecidableEq, Repr

/-- `Disconnect`, executed without interruption: the session and the calls made. -/
def disconnect (s : Session) : Session × List Effect :=
  let oldFD := s.mSessionFD
  let s' := { s with mSessionFD := sINVALID_SOCKET_FD }
  let closing := if oldFD = sINVALID_SOCKET_FD then [] else [.epollDel oldFD, .close oldFD]
  let callback := if !s'.mIsRecving && !s'.mIsSending then [.onDisconnected s'.mSessionID] else []
  (s', closing ++ callback)

@[simp] lemma disconnect_mSessionFD (s : Session) :
    s.disconnect.1.mSessionFD = sINVALID_SOCKET_FD := rfl

@[simp] lemma disconnect_mPackets (s : Session) : s.disconnect.1.mPackets = s.mPackets := rfl

end Session

end CoreServer
