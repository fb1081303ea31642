import CoreServer.Server

/-!
# The moves of the jobs

Everything that one step of a job can do, one constructor for each branch of the source: the
memory afterwards, and how the control of the worker goes on.  What a proof needs to know of
a step follows from `jobMoves_of_step` by cases, without the step functions.
-/

namespace CoreServer

namespace ServerMemory

/-- The session in the slot `i`. -/
def session (m : ServerMemory) (i : ℤ) : Session := m.group.mSessionVector i.toNat

/-- The slot `i` is in the table. -/
def InTable (m : ServerMemory) (i : ℤ) : Prop := 0 ≤ i ∧ i < m.group.mMaxSession

instance (m : ServerMemory) (i : ℤ) : Decidable (m.InTable i) :=
  inferInstanceAs (Decidable (_ ∧ _))

/-- The session in the slot `i` has been changed by `f`. -/
def updateSession (m : ServerMemory) (i : ℤ) (f : Session → Session) : ServerMemory :=
  { m with group := { m.group with
    mSessionVector := Function.update m.group.mSessionVector i.toNat (f (m.session i)) } }

/-- The events of `epoll` have changed. -/
def setEpoll (m : ServerMemory) (epoll : EpollSet SocketFD ServerJob) : ServerMemory :=
  { m with epoll := epoll }

section Fields

variable (m : ServerMemory) (i : ℤ) (f : Session → Session)
  (epoll : EpollSet SocketFD ServerJob) (c : Callback) (fd : SocketFD)

@[simp] lemma epoll_updateSession : (m.updateSession i f).epoll = m.epoll := rfl
@[simp] lemma openFDs_updateSession : (m.updateSession i f).openFDs = m.openFDs := rfl
@[simp] lemma callbacks_updateSession : (m.updateSession i f).callbacks = m.callbacks := rfl
@[simp] lemma mListenFD_updateSession : (m.updateSession i f).mListenFD = m.mListenFD := rfl
@[simp] lemma pool_updateSession :
    (m.updateSession i f).group.mSessionIndexPool = m.group.mSessionIndexPool := rfl
@[simp] lemma max_updateSession :
    (m.updateSession i f).group.mMaxSession = m.group.mMaxSession := rfl

@[simp] lemma epoll_setEpoll : (m.setEpoll epoll).epoll = epoll := rfl
@[simp] lemma openFDs_setEpoll : (m.setEpoll epoll).openFDs = m.openFDs := rfl
@[simp] lemma callbacks_setEpoll : (m.setEpoll epoll).callbacks = m.callbacks := rfl
@[simp] lemma mListenFD_setEpoll : (m.setEpoll epoll).mListenFD = m.mListenFD := rfl
@[simp] lemma group_setEpoll : (m.setEpoll epoll).group = m.group := rfl

@[simp] lemma epoll_call : (m.call c).epoll = m.epoll := rfl
@[simp] lemma openFDs_call : (m.call c).openFDs = m.openFDs := rfl
@[simp] lemma callbacks_call : (m.call c).callbacks = m.callbacks ++ [c] := rfl
@[simp] lemma mListenFD_call : (m.call c).mListenFD = m.mListenFD := rfl
@[simp] lemma group_call : (m.call c).group = m.group := rfl

@[simp] lemma epoll_close : (m.close fd).epoll = m.epoll.del fd := rfl
@[simp] lemma openFDs_close : (m.close fd).openFDs = m.openFDs.erase fd := rfl
@[simp] lemma callbacks_close : (m.close fd).callbacks = m.callbacks := rfl
@[simp] lemma mListenFD_close : (m.close fd).mListenFD = m.mListenFD := rfl
@[simp] lemma group_close : (m.close fd).group = m.group := rfl

@[simp] lemma session_setEpoll : (m.setEpoll epoll).session i = m.session i := rfl
@[simp] lemma session_call : (m.call c).session i = m.session i := rfl
@[simp] lemma session_close : (m.close fd).session i = m.session i := rfl

end Fields

variable {m m' : ServerMemory}

lemma session_of_group_eq (h : m'.group = m.group) (i : ℤ) : m'.session i = m.session i := by
  rw [session, h, session]

/-- A change of one session leaves the others alone. -/
lemma session_updateSession {slot i : ℤ} (hslot : 0 ≤ slot) (hi : 0 ≤ i)
    (f : Session → Session) :
    (m.updateSession slot f).session i = if i = slot then f (m.session slot) else m.session i := by
  have hsame : i.toNat = slot.toNat ↔ i = slot := by omega
  simp only [session, updateSession, Function.update_apply, hsame]

lemma session_updateSession_self {slot : ℤ} (hslot : 0 ≤ slot) (f : Session → Session) :
    (m.updateSession slot f).session slot = f (m.session slot) := by
  rw [session_updateSession hslot hslot, if_pos rfl]

lemma modifySession_iff {slot : ℤ} {f : Session → Session} :
    m.modifySession slot f = some m' ↔ m.InTable slot ∧ m' = m.updateSession slot f := by
  constructor
  · intro h
    obtain ⟨session, hsession, h⟩ := Option.bind_eq_some_iff.1 h
    obtain ⟨hin, rfl⟩ := SessionGroup.of_slot_eq_some hsession
    exact ⟨hin, (Option.some.inj h).symm⟩
  · rintro ⟨hin, rfl⟩
    rw [modifySession, SessionGroup.slot_eq_some hin.1 hin.2]
    rfl

/-- A slot that can be read. -/
lemma slot_iff {slot : ℤ} {session : Session} :
    m.group.slot slot = some session ↔ m.InTable slot ∧ session = m.session slot := by
  refine ⟨SessionGroup.of_slot_eq_some, ?_⟩
  rintro ⟨hin, rfl⟩
  exact SessionGroup.slot_eq_some hin.1 hin.2

/-- A step that begins by reading a slot. -/
lemma slot_bind_eq_some {α : Type} {slot : ℤ} {f : Session → Option α} {a : α} :
    (m.group.slot slot).bind f = some a ↔ m.InTable slot ∧ f (m.session slot) = some a := by
  rw [Option.bind_eq_some_iff]
  constructor
  · rintro ⟨session, hsession, h⟩
    obtain ⟨hin, rfl⟩ := slot_iff.1 hsession
    exact ⟨hin, h⟩
  · rintro ⟨hin, h⟩
    exact ⟨_, slot_iff.2 ⟨hin, rfl⟩, h⟩

/-- A step that begins by changing a session. -/
lemma modifySession_bind_eq_some {α : Type} {slot : ℤ} {f : Session → Session}
    {k : ServerMemory → Option α} {a : α} :
    (m.modifySession slot f).bind k = some a ↔
      m.InTable slot ∧ k (m.updateSession slot f) = some a := by
  rw [Option.bind_eq_some_iff]
  constructor
  · rintro ⟨m', hm', h⟩
    obtain ⟨hin, rfl⟩ := modifySession_iff.1 hm'
    exact ⟨hin, h⟩
  · rintro ⟨hin, h⟩
    exact ⟨_, modifySession_iff.2 ⟨hin, rfl⟩, h⟩

/-- `GetSession` finds the slot that the ID names, if the session there has the ID. -/
lemma of_getSession {sessionID : SessionID} {slot : ℤ}
    (h : m.group.getSession sessionID = some (some slot)) :
    slot = getIndex sessionID ∧ m.InTable slot ∧ (m.session slot).mSessionID = sessionID := by
  obtain ⟨hin, h⟩ := slot_bind_eq_some.1 h
  split at h
  · cases h
  · rename_i hid
    obtain rfl := Option.some.inj (Option.some.inj h)
    exact ⟨rfl, hin, not_not.1 hid⟩

/-! ## `Disconnect` -/

/-- The session is without a socket. -/
def takeFD (s : Session) : Session := { s with mSessionFD := sINVALID_SOCKET_FD }

/-- The moves of `Disconnect`. -/
inductive DisconnectMoves (m : ServerMemory) (slot : ℤ) :
    DisconnectPC → ServerMemory → Option DisconnectPC → Prop
  | swapValid (hin : m.InTable slot) (hfd : (m.session slot).mSessionFD ≠ sINVALID_SOCKET_FD) :
    DisconnectMoves m slot .swap (m.updateSession slot takeFD)
      (some (.epollDel (m.session slot).mSessionFD))
  | swapInvalid (hin : m.InTable slot)
      (hfd : (m.session slot).mSessionFD = sINVALID_SOCKET_FD) :
    DisconnectMoves m slot .swap (m.updateSession slot takeFD) (some .isRecving)
  | epollDel (oldFD : SocketFD) :
    DisconnectMoves m slot (.epollDel oldFD) (m.setEpoll (m.epoll.del oldFD))
      (some (.close oldFD))
  | close (oldFD : SocketFD) :
    DisconnectMoves m slot (.close oldFD) (m.close oldFD) (some .isRecving)
  | recving (hin : m.InTable slot) (hrecving : (m.session slot).mIsRecving = true) :
    DisconnectMoves m slot .isRecving m none
  | notRecving (hin : m.InTable slot) (hrecving : (m.session slot).mIsRecving = false) :
    DisconnectMoves m slot .isRecving m (some .isSending)
  | sending (hin : m.InTable slot) (hsending : (m.session slot).mIsSending = true) :
    DisconnectMoves m slot .isSending m none
  | notSending (hin : m.InTable slot) (hsending : (m.session slot).mIsSending = false) :
    DisconnectMoves m slot .isSending m (some .onDisconnected)
  | onDisconnected (hin : m.InTable slot) :
    DisconnectMoves m slot .onDisconnected
      (m.call (.onDisconnected (m.session slot).mSessionID)) none

theorem disconnectMoves_of_step {slot : ℤ} {pc : DisconnectPC} {pc' : Option DisconnectPC}
    (h : m.disconnectStep slot pc = some (m', pc')) : DisconnectMoves m slot pc m' pc' := by
  cases pc with
  | swap =>
    obtain ⟨hin, h⟩ := slot_bind_eq_some.1 h
    obtain ⟨-, h⟩ := modifySession_bind_eq_some.1 h
    obtain ⟨rfl, rfl⟩ := Prod.mk.inj (Option.some.inj h)
    split
    · rename_i hfd
      exact .swapInvalid hin hfd
    · rename_i hfd
      exact .swapValid hin hfd
  | epollDel oldFD =>
    obtain ⟨rfl, rfl⟩ := Prod.mk.inj (Option.some.inj h)
    exact .epollDel oldFD
  | close oldFD =>
    obtain ⟨rfl, rfl⟩ := Prod.mk.inj (Option.some.inj h)
    exact .close oldFD
  | isRecving =>
    obtain ⟨hin, h⟩ := slot_bind_eq_some.1 h
    obtain ⟨rfl, rfl⟩ := Prod.mk.inj (Option.some.inj h)
    split
    · rename_i hrecving
      exact .recving hin hrecving
    · rename_i hrecving
      exact .notRecving hin (Bool.eq_false_iff.2 hrecving)
  | isSending =>
    obtain ⟨hin, h⟩ := slot_bind_eq_some.1 h
    obtain ⟨rfl, rfl⟩ := Prod.mk.inj (Option.some.inj h)
    split
    · rename_i hsending
      exact .sending hin hsending
    · rename_i hsending
      exact .notSending hin (Bool.eq_false_iff.2 hsending)
  | onDisconnected =>
    obtain ⟨hin, h⟩ := slot_bind_eq_some.1 h
    obtain ⟨rfl, rfl⟩ := Prod.mk.inj (Option.some.inj h)
    exact .onDisconnected hin

/-! ## `RecvJob` -/

/-- The receive buffer of the session is `b`. -/
def setRecvBuffer (b : RecvBuffer) (s : Session) : Session := { s with mRecvJob := ⟨b⟩ }

/-- The moves of `RecvJob::Execute` and `RecvJob::Complete`. -/
inductive RecvMoves (m : ServerMemory) (slot : ℤ) :
    RecvPC → ServerMemory → Next → Prop
  | fdInvalid (hfd : (m.session slot).mSessionFD = sINVALID_SOCKET_FD) :
    RecvMoves m slot .checkFD m (.goto (.recv slot .setReceiveState))
  | fdValid (hfd : (m.session slot).mSessionFD ≠ sINVALID_SOCKET_FD) :
    RecvMoves m slot .checkFD m (.goto (.recv slot .recvArgs))
  | recvArgs :
    RecvMoves m slot .recvArgs m (.goto (.recv slot (.recv (m.session slot).mSessionFD)))
  | received {fd : SocketFD} {bytes : List Byte} {b : RecvBuffer} (hin : m.InTable slot)
      (hb : RecvRun.receive (m.session slot).mRecvJob.mRecvBuffer bytes = some b) :
    RecvMoves m slot (.recv fd) (m.updateSession slot (setRecvBuffer b))
      (.goto (.recv slot .checkFD))
  | ended {fd : SocketFD} : RecvMoves m slot (.recv fd) m (.goto (.recv slot .setReceiveState))
  | interrupted {fd : SocketFD} : RecvMoves m slot (.recv fd) m (.goto (.recv slot .checkFD))
  | drained {fd : SocketFD} :
    RecvMoves m slot (.recv fd) m (.executeReturns true (.recv slot .usedSize))
  | setReceiveState (hin : m.InTable slot) :
    RecvMoves m slot .setReceiveState
      (m.updateSession slot fun s => s.setReceiveState false)
      (.goto (.recv slot (.disconnect .swap)))
  | disconnect {pc pc' : DisconnectPC} {m' : ServerMemory}
      (hmoves : DisconnectMoves m slot pc m' (some pc')) :
    RecvMoves m slot (.disconnect pc) m' (.goto (.recv slot (.disconnect pc')))
  | disconnected {pc : DisconnectPC} {m' : ServerMemory}
      (hmoves : DisconnectMoves m slot pc m' none) :
    RecvMoves m slot (.disconnect pc) m' (.executeReturns false .none)
  | noData {usedSize : ℤ}
      (hused : (m.session slot).mRecvJob.mRecvBuffer.getUsedSize = some usedSize)
      (hle : usedSize ≤ 0) : RecvMoves m slot .usedSize m (.goto (.recv slot .epollModArgs))
  | onRecv {usedSize : ℤ} {block : List Byte} (hin : m.InTable slot)
      (hused : (m.session slot).mRecvJob.mRecvBuffer.getUsedSize = some usedSize)
      (hpos : 0 < usedSize) :
    RecvMoves m slot .usedSize (m.call (.onRecv (m.session slot).mSessionID block))
      (.goto (.recv slot (.onRecv usedSize)))
  | onRecvReturned {usedSize readSize : ℤ} {b : RecvBuffer} (hin : m.InTable slot)
      (hb : RecvRun.consume (m.session slot).mRecvJob.mRecvBuffer usedSize readSize = some b) :
    RecvMoves m slot (.onRecv usedSize)
      ((m.updateSession slot (setRecvBuffer b)).call
        (.onRecvReturned (m.session slot).mSessionID readSize))
      (.goto (.recv slot .epollModArgs))
  | epollModArgs :
    RecvMoves m slot .epollModArgs m (.goto (.recv slot (.epollMod (m.session slot).mSessionFD)))
  | rearmed {fd : SocketFD} {epoll : EpollSet SocketFD ServerJob}
      (hmod : m.epoll.mod fd (.recv slot) = some epoll) :
    RecvMoves m slot (.epollMod fd) (m.setEpoll epoll) .completeReturns
  | notRearmed {fd : SocketFD} :
    RecvMoves m slot (.epollMod fd) m (.goto (.recv slot .isValidSocket))
  | validSocket (hfd : (m.session slot).mSessionFD ≠ sINVALID_SOCKET_FD) :
    RecvMoves m slot .isValidSocket m .completeReturns
  | invalidSocket (hfd : (m.session slot).mSessionFD = sINVALID_SOCKET_FD) :
    RecvMoves m slot .isValidSocket m (.goto (.recv slot .setReceiveStateAfterMod))
  | setReceiveStateAfterMod (hin : m.InTable slot) :
    RecvMoves m slot .setReceiveStateAfterMod
      (m.updateSession slot fun s => s.setReceiveState false)
      (.goto (.recv slot (.disconnectAfterMod .swap)))
  | disconnectAfterMod {pc pc' : DisconnectPC} {m' : ServerMemory}
      (hmoves : DisconnectMoves m slot pc m' (some pc')) :
    RecvMoves m slot (.disconnectAfterMod pc) m' (.goto (.recv slot (.disconnectAfterMod pc')))
  | disconnectedAfterMod {pc : DisconnectPC} {m' : ServerMemory}
      (hmoves : DisconnectMoves m slot pc m' none) :
    RecvMoves m slot (.disconnectAfterMod pc) m' .completeReturns

theorem recvMoves_of_step {slot : ℤ} {pc : RecvPC} {input : JobInput} {next : Next}
    (h : m.recvStep slot pc input = some (m', next)) : RecvMoves m slot pc m' next := by
  unfold recvStep at h
  split at h
  · obtain ⟨hin, h⟩ := slot_bind_eq_some.1 h
    obtain ⟨rfl, rfl⟩ := Prod.mk.inj (Option.some.inj h)
    split
    · rename_i hfd
      exact .fdInvalid hfd
    · rename_i hfd
      exact .fdValid hfd
  · obtain ⟨hin, h⟩ := slot_bind_eq_some.1 h
    obtain ⟨rfl, rfl⟩ := Prod.mk.inj (Option.some.inj h)
    exact .recvArgs
  · obtain ⟨-, h⟩ := Option.ite_none_right_eq_some.1 h
    obtain ⟨hin, h⟩ := slot_bind_eq_some.1 h
    obtain ⟨buffer, hbuffer, h⟩ := Option.bind_eq_some_iff.1 h
    obtain ⟨-, h⟩ := modifySession_bind_eq_some.1 h
    obtain ⟨rfl, rfl⟩ := Prod.mk.inj (Option.some.inj h)
    exact .received hin hbuffer
  · obtain ⟨-, h⟩ := Option.ite_none_right_eq_some.1 h
    obtain ⟨rfl, rfl⟩ := Prod.mk.inj (Option.some.inj h)
    exact .ended
  · obtain ⟨rfl, rfl⟩ := Prod.mk.inj (Option.some.inj h)
    exact .drained
  · obtain ⟨rfl, rfl⟩ := Prod.mk.inj (Option.some.inj h)
    exact .interrupted
  · obtain ⟨rfl, rfl⟩ := Prod.mk.inj (Option.some.inj h)
    exact .ended
  · obtain ⟨rfl, rfl⟩ := Prod.mk.inj (Option.some.inj h)
    exact .ended
  · obtain ⟨rfl, rfl⟩ := Prod.mk.inj (Option.some.inj h)
    exact .drained
  · obtain ⟨hin, h⟩ := modifySession_bind_eq_some.1 h
    obtain ⟨rfl, rfl⟩ := Prod.mk.inj (Option.some.inj h)
    exact .setReceiveState hin
  · obtain ⟨⟨m'', pc'⟩, hstep, h⟩ := Option.bind_eq_some_iff.1 h
    have hmoves := disconnectMoves_of_step hstep
    cases pc' with
    | none =>
      obtain ⟨rfl, rfl⟩ := Prod.mk.inj (Option.some.inj h)
      exact .disconnected hmoves
    | some pc' =>
      obtain ⟨rfl, rfl⟩ := Prod.mk.inj (Option.some.inj h)
      exact .disconnect hmoves
  · obtain ⟨hin, h⟩ := slot_bind_eq_some.1 h
    obtain ⟨usedSize, hused, h⟩ := Option.bind_eq_some_iff.1 h
    split at h
    · rename_i hpos
      obtain ⟨block, -, h⟩ := Option.bind_eq_some_iff.1 h
      obtain ⟨rfl, rfl⟩ := Prod.mk.inj (Option.some.inj h)
      exact .onRecv hin hused hpos
    · rename_i hpos
      obtain ⟨rfl, rfl⟩ := Prod.mk.inj (Option.some.inj h)
      exact .noData hused (not_lt.1 hpos)
  · obtain ⟨hin, h⟩ := slot_bind_eq_some.1 h
    obtain ⟨buffer, hbuffer, h⟩ := Option.bind_eq_some_iff.1 h
    obtain ⟨-, h⟩ := modifySession_bind_eq_some.1 h
    obtain ⟨rfl, rfl⟩ := Prod.mk.inj (Option.some.inj h)
    exact .onRecvReturned hin hbuffer
  · obtain ⟨hin, h⟩ := slot_bind_eq_some.1 h
    obtain ⟨rfl, rfl⟩ := Prod.mk.inj (Option.some.inj h)
    exact .epollModArgs
  · rename_i fd ok
    obtain ⟨m'', hmod, h⟩ := Option.bind_eq_some_iff.1 h
    obtain ⟨rfl, rfl⟩ := Prod.mk.inj (Option.some.inj h)
    cases ok with
    | false =>
      obtain rfl := Option.some.inj hmod
      exact .notRearmed
    | true =>
      obtain ⟨epoll, hepoll, hmod⟩ := Option.bind_eq_some_iff.1 hmod
      obtain rfl := Option.some.inj hmod
      exact .rearmed hepoll
  · obtain ⟨hin, h⟩ := slot_bind_eq_some.1 h
    obtain ⟨rfl, rfl⟩ := Prod.mk.inj (Option.some.inj h)
    split
    · rename_i hfd
      exact .validSocket hfd
    · rename_i hfd
      exact .invalidSocket (not_not.1 hfd)
  · obtain ⟨hin, h⟩ := modifySession_bind_eq_some.1 h
    obtain ⟨rfl, rfl⟩ := Prod.mk.inj (Option.some.inj h)
    exact .setReceiveStateAfterMod hin
  · obtain ⟨⟨m'', pc'⟩, hstep, h⟩ := Option.bind_eq_some_iff.1 h
    have hmoves := disconnectMoves_of_step hstep
    cases pc' with
    | none =>
      obtain ⟨rfl, rfl⟩ := Prod.mk.inj (Option.some.inj h)
      exact .disconnectedAfterMod hmoves
    | some pc' =>
      obtain ⟨rfl, rfl⟩ := Prod.mk.inj (Option.some.inj h)
      exact .disconnectAfterMod hmoves
  · cases h

/-! ## `AcceptJob` -/

/-- The moves of `AcceptJob::Execute` and `AcceptJob::Complete`. -/
inductive AcceptMoves (m : ServerMemory) : AcceptPC → ServerMemory → Next → Prop
  | accepted {clientFD : SocketFD} (hnonneg : 0 ≤ clientFD) (hnew : clientFD ∉ m.openFDs) :
    AcceptMoves m .accept { m with openFDs := clientFD :: m.openFDs }
      (.goto (.accept (.onAccepeted clientFD)))
  | interrupted : AcceptMoves m .accept m (.goto (.accept .accept))
  | noClient : AcceptMoves m .accept m (.executeReturns true (.accept .epollMod))
  | wanted {clientFD : SocketFD} :
    AcceptMoves m (.onAccepeted clientFD) m (.goto (.accept (.alloc clientFD)))
  | refused {clientFD : SocketFD} :
    AcceptMoves m (.onAccepeted clientFD) m (.goto (.accept (.close clientFD)))
  | close {clientFD : SocketFD} :
    AcceptMoves m (.close clientFD) (m.close clientFD) (.goto (.accept .accept))
  | allocNone {clientFD : SocketFD} (hpool : m.group.mSessionIndexPool = []) :
    AcceptMoves m (.alloc clientFD) m (.goto (.accept (.number clientFD sINVALID_ID)))
  | alloc {clientFD : SocketFD} {index : ℤ} {pool : List ℤ}
      (hpool : m.group.mSessionIndexPool = index :: pool) :
    AcceptMoves m (.alloc clientFD)
      { m with group := { m.group with mSessionIndexPool := pool } }
      (.goto (.accept (.number clientFD index)))
  | number {clientFD : SocketFD} {index : ℤ} :
    AcceptMoves m (.number clientFD index) { m with sUniqueNumber := m.sUniqueNumber + 1 }
      (.goto (.accept (.construct clientFD index (packID m.sUniqueNumber index))))
  | construct {clientFD : SocketFD} {index : ℤ} {sessionID : SessionID} (hin : m.InTable index) :
    AcceptMoves m (.construct clientFD index sessionID)
      (m.updateSession index fun s => s.construct sessionID clientFD)
      (.goto (.accept (.getSession clientFD sessionID)))
  | getSession {clientFD : SocketFD} {clientSession : SessionID}
      (hin : m.InTable (getIndex clientSession))
      (hid : (m.session (getIndex clientSession)).mSessionID = clientSession) :
    AcceptMoves m (.getSession clientFD clientSession) m
      (.goto (.accept (.epollAdd clientFD clientSession (getIndex clientSession))))
  | registered {clientFD : SocketFD} {clientSession : SessionID} {session : ℤ}
      {epoll : EpollSet SocketFD ServerJob} (hopen : clientFD ∈ m.openFDs)
      (hadd : m.epoll.add clientFD (.recv session) = some epoll) :
    AcceptMoves m (.epollAdd clientFD clientSession session) (m.setEpoll epoll)
      (.goto (.accept (.onConnected clientSession)))
  | notRegistered {clientFD : SocketFD} {clientSession : SessionID} {session : ℤ} :
    AcceptMoves m (.epollAdd clientFD clientSession session) m
      (.goto (.accept (.onConnected clientSession)))
  | onConnected {clientSession : SessionID} :
    AcceptMoves m (.onConnected clientSession) (m.call (.onConnected clientSession))
      (.goto (.accept .accept))
  | rearmed {epoll : EpollSet SocketFD ServerJob}
      (hmod : m.epoll.mod m.mListenFD .accept = some epoll) :
    AcceptMoves m .epollMod (m.setEpoll epoll) .completeReturns
  | notRearmed : AcceptMoves m .epollMod m .completeReturns

theorem acceptMoves_of_step {pc : AcceptPC} {input : JobInput} {next : Next}
    (h : m.acceptStep pc input = some (m', next)) : AcceptMoves m pc m' next := by
  unfold acceptStep at h
  split at h
  · obtain ⟨hfd, h⟩ := Option.ite_none_right_eq_some.1 h
    obtain ⟨rfl, rfl⟩ := Prod.mk.inj (Option.some.inj h)
    exact .accepted hfd.1 hfd.2
  · obtain ⟨rfl, rfl⟩ := Prod.mk.inj (Option.some.inj h)
    exact .interrupted
  · obtain ⟨rfl, rfl⟩ := Prod.mk.inj (Option.some.inj h)
    exact .noClient
  · rename_i clientFD result
    obtain ⟨rfl, rfl⟩ := Prod.mk.inj (Option.some.inj h)
    cases result with
    | false => exact .refused
    | true => exact .wanted
  · obtain ⟨rfl, rfl⟩ := Prod.mk.inj (Option.some.inj h)
    exact .close
  · cases hpool : m.group.mSessionIndexPool with
    | nil =>
      rw [SessionGroup.allocSession_eq_nil hpool] at h
      obtain ⟨rfl, rfl⟩ := Prod.mk.inj (Option.some.inj h)
      exact .allocNone hpool
    | cons index pool =>
      rw [SessionGroup.allocSession_eq hpool] at h
      obtain ⟨rfl, rfl⟩ := Prod.mk.inj (Option.some.inj h)
      exact .alloc hpool
  · obtain ⟨rfl, rfl⟩ := Prod.mk.inj (Option.some.inj h)
    exact .number
  · obtain ⟨group, hconstruct, h⟩ := Option.bind_eq_some_iff.1 h
    obtain ⟨rfl, rfl⟩ := Prod.mk.inj (Option.some.inj h)
    obtain ⟨hin, rfl⟩ := SessionGroup.constructSession_eq_some hconstruct
    exact .construct hin
  · obtain ⟨session, hsession, h⟩ := Option.bind_eq_some_iff.1 h
    obtain ⟨slot, rfl, h⟩ := Option.bind_eq_some_iff.1 h
    obtain ⟨rfl, rfl⟩ := Prod.mk.inj (Option.some.inj h)
    obtain ⟨rfl, hin, hid⟩ := of_getSession hsession
    exact .getSession hin hid
  · rename_i clientFD clientSession session ok
    obtain ⟨m'', hadd, h⟩ := Option.bind_eq_some_iff.1 h
    obtain ⟨rfl, rfl⟩ := Prod.mk.inj (Option.some.inj h)
    cases ok with
    | false =>
      obtain rfl := Option.some.inj hadd
      exact .notRegistered
    | true =>
      obtain ⟨hopen, hadd⟩ := Option.ite_none_right_eq_some.1 hadd
      obtain ⟨epoll, hepoll, hadd⟩ := Option.bind_eq_some_iff.1 hadd
      obtain rfl := Option.some.inj hadd
      exact .registered hopen hepoll
  · obtain ⟨rfl, rfl⟩ := Prod.mk.inj (Option.some.inj h)
    exact .onConnected
  · rename_i ok
    obtain ⟨m'', hmod, h⟩ := Option.bind_eq_some_iff.1 h
    obtain ⟨rfl, rfl⟩ := Prod.mk.inj (Option.some.inj h)
    cases ok with
    | false =>
      obtain rfl := Option.some.inj hmod
      exact .notRearmed
    | true =>
      obtain ⟨epoll, hepoll, hmod⟩ := Option.bind_eq_some_iff.1 hmod
      obtain rfl := Option.some.inj hmod
      exact .rearmed hepoll
  · cases h

/-! ## `PollJob` and the jobs together -/

/-- The moves of `PollJob::Execute`. -/
inductive PollMoves (m : ServerMemory) : PollPC → ServerMemory → Next → Prop
  | failed : PollMoves m .epollWait m (.goto (.poll .addThis))
  | fetched {fds : List SocketFD} {jobs : List ServerJob} {epoll : EpollSet SocketFD ServerJob}
      (hwait : m.epoll.wait fds = some (jobs, epoll)) :
    PollMoves m .epollWait (m.setEpoll epoll) (.goto (.poll (.addEvents jobs)))
  | noEvents : PollMoves m (.addEvents []) m (.goto (.poll .addThis))
  | addEvent {job : ServerJob} {jobs : List ServerJob} :
    PollMoves m (.addEvents (job :: jobs)) m (.addJob job (.poll (.addEvents jobs)))
  | addThis : PollMoves m .addThis m (.addJob .poll (.poll .returns))
  | returns : PollMoves m .returns m (.executeReturns true .complete)

theorem pollMoves_of_step {pc : PollPC} {input : JobInput} {next : Next}
    (h : m.pollStep pc input = some (m', next)) : PollMoves m pc m' next := by
  unfold pollStep at h
  split at h
  · obtain ⟨rfl, rfl⟩ := Prod.mk.inj (Option.some.inj h)
    exact .failed
  · obtain ⟨-, h⟩ := Option.ite_none_right_eq_some.1 h
    obtain ⟨⟨jobs, epoll⟩, hwait, h⟩ := Option.bind_eq_some_iff.1 h
    obtain ⟨rfl, rfl⟩ := Prod.mk.inj (Option.some.inj h)
    exact .fetched hwait
  · obtain ⟨rfl, rfl⟩ := Prod.mk.inj (Option.some.inj h)
    exact .noEvents
  · obtain ⟨rfl, rfl⟩ := Prod.mk.inj (Option.some.inj h)
    exact .addEvent
  · obtain ⟨rfl, rfl⟩ := Prod.mk.inj (Option.some.inj h)
    exact .addThis
  · obtain ⟨rfl, rfl⟩ := Prod.mk.inj (Option.some.inj h)
    exact .returns
  · cases h

/-- The moves of the job that a worker runs. -/
inductive JobMoves (m : ServerMemory) : JobPC → ServerMemory → Next → Prop
  | poll {pc : PollPC} {m' : ServerMemory} {next : Next} (hmoves : PollMoves m pc m' next) :
    JobMoves m (.poll pc) m' next
  | accept {pc : AcceptPC} {m' : ServerMemory} {next : Next}
      (hmoves : AcceptMoves m pc m' next) : JobMoves m (.accept pc) m' next
  | recv {slot : ℤ} {pc : RecvPC} {m' : ServerMemory} {next : Next}
      (hmoves : RecvMoves m slot pc m' next) : JobMoves m (.recv slot pc) m' next
  | complete : JobMoves m .complete m .completeReturns

/-- **The moves of the jobs are all that a step of a job can do.** -/
theorem jobMoves_of_step {pc : JobPC} {input : JobInput} {next : Next}
    (h : m.jobStep pc input = some (m', next)) : JobMoves m pc m' next := by
  cases pc with
  | none => cases h
  | poll pc => exact .poll (pollMoves_of_step h)
  | accept pc => exact .accept (acceptMoves_of_step h)
  | recv slot pc => exact .recv (recvMoves_of_step h)
  | complete =>
    cases input with
    | run =>
      obtain ⟨rfl, rfl⟩ := Prod.mk.inj (Option.some.inj h)
      exact .complete
    | epollWait result => cases h
    | accept result => cases h
    | onAccepeted result => cases h
    | epollCtl ok => cases h
    | recv result => cases h
    | onRecv readSize => cases h

end ServerMemory

/-! ## What the moves change -/

/-- Where a worker in its `RecvJob` stands in `Disconnect`. -/
def RecvPC.disconnecting : RecvPC → Option DisconnectPC
  | disconnect pc | disconnectAfterMod pc => some pc
  | _ => none

/-- The session whose `Disconnect` a worker executes, and where it stands there. -/
def JobPC.disconnecting : JobPC → Option (ℤ × DisconnectPC)
  | recv slot pc => pc.disconnecting.map fun pc => (slot, pc)
  | _ => Option.none

lemma JobPC.disconnecting_eq_some {pc : JobPC} {slot : ℤ} {dpc : DisconnectPC} :
    pc.disconnecting = some (slot, dpc) ↔
      pc = .recv slot (.disconnect dpc) ∨ pc = .recv slot (.disconnectAfterMod dpc) := by
  constructor
  · intro h
    cases pc with
    | recv slot' pc =>
      obtain ⟨dpc', hdpc, h⟩ := Option.map_eq_some_iff.1 h
      obtain ⟨rfl, rfl⟩ := Prod.mk.inj h
      cases pc <;> cases hdpc
      · exact Or.inl rfl
      · exact Or.inr rfl
    | none => cases h
    | poll pc => cases h
    | accept pc => cases h
    | complete => cases h
  · rintro (rfl | rfl) <;> rfl

namespace ServerMemory

/-- How the session in the slot `i` changes in a step of a job that stands at `pc`. -/
inductive JobChange (s : Session) (i : ℤ) : JobPC → Session → Prop
  | same {pc : JobPC} : JobChange s i pc s
  | construct (clientFD : SocketFD) (sessionID : SessionID) :
    JobChange s i (.accept (.construct clientFD i sessionID)) (s.construct sessionID clientFD)
  | setRecvBuffer {pc : RecvPC} (b : RecvBuffer) :
    JobChange s i (.recv i pc) (setRecvBuffer b s)
  | setReceiveState {pc : RecvPC}
      (hpc : pc = .setReceiveState ∨ pc = .setReceiveStateAfterMod) :
    JobChange s i (.recv i pc) (s.setReceiveState false)
  | takeFD {pc : JobPC} (hpc : pc.disconnecting = some (i, .swap)) : JobChange s i pc (takeFD s)

variable {m m' : ServerMemory}

/-- What a step leaves alone that is not a step of a worker: the free indices, the listening
socket, and all registrations but those that it takes away. -/
structure Shrinks (m m' : ServerMemory) : Prop where
  pool_eq : m'.group.mSessionIndexPool = m.group.mSessionIndexPool
  max_eq : m'.group.mMaxSession = m.group.mMaxSession
  mListenFD_eq : m'.mListenFD = m.mListenFD
  armed_le : ∀ j, m'.epoll.armed j ≤ m.epoll.armed j

lemma DisconnectMoves.shrinks {slot : ℤ} {pc : DisconnectPC} {pc' : Option DisconnectPC}
    (h : DisconnectMoves m slot pc m' pc') : m.Shrinks m' := by
  cases h with
  | epollDel oldFD => exact ⟨rfl, rfl, rfl, EpollSet.armed_del_le _ _⟩
  | close oldFD => exact ⟨rfl, rfl, rfl, EpollSet.armed_del_le _ _⟩
  | swapValid hin hfd | swapInvalid hin hfd => exact ⟨rfl, rfl, rfl, fun _ => le_rfl⟩
  | recving hin hrecving | notRecving hin hrecving => exact ⟨rfl, rfl, rfl, fun _ => le_rfl⟩
  | sending hin hsending | notSending hin hsending => exact ⟨rfl, rfl, rfl, fun _ => le_rfl⟩
  | onDisconnected hin => exact ⟨rfl, rfl, rfl, fun _ => le_rfl⟩

/-- `Disconnect` changes one session, and only by its swap. -/
lemma DisconnectMoves.session {slot : ℤ} {pc : DisconnectPC} {pc' : Option DisconnectPC}
    (h : DisconnectMoves m slot pc m' pc') {i : ℤ} (hi : 0 ≤ i) :
    m'.session i = m.session i ∨
      (i = slot ∧ pc = .swap ∧ m'.session i = ServerMemory.takeFD (m.session i)) := by
  cases h with
  | swapValid hin hfd | swapInvalid hin hfd =>
    rw [session_updateSession hin.1 hi]
    split
    · rename_i heq
      exact Or.inr ⟨heq, rfl, by rw [heq]⟩
    · exact Or.inl rfl
  | epollDel oldFD => exact Or.inl rfl
  | close oldFD => exact Or.inl rfl
  | recving hin hrecving => exact Or.inl rfl
  | notRecving hin hrecving => exact Or.inl rfl
  | sending hin hsending => exact Or.inl rfl
  | notSending hin hsending => exact Or.inl rfl
  | onDisconnected hin => exact Or.inl rfl

/-- A change of the session in one slot, seen from the slot `i`. -/
lemma JobChange.of_updateSession {pc : JobPC} {slot i : ℤ} (hslot : 0 ≤ slot) (hi : 0 ≤ i)
    {f : Session → Session} (h : i = slot → JobChange (m.session i) i pc (f (m.session i))) :
    JobChange (m.session i) i pc ((m.updateSession slot f).session i) := by
  rw [session_updateSession hslot hi]
  split
  · rename_i heq
    rw [← heq]
    exact h heq
  · exact .same

lemma JobChange.of_disconnectMoves {pc : RecvPC} {slot : ℤ} {dpc : DisconnectPC}
    {dpc' : Option DisconnectPC} (hpc : pc.disconnecting = some dpc)
    (h : DisconnectMoves m slot dpc m' dpc') {i : ℤ} (hi : 0 ≤ i) :
    JobChange (m.session i) i (.recv slot pc) (m'.session i) := by
  rcases h.session hi with heq | ⟨rfl, rfl, heq⟩
  · rw [heq]
    exact .same
  · rw [heq]
    exact .takeFD (by rw [JobPC.disconnecting, hpc]; rfl)

lemma RecvMoves.session {slot : ℤ} {pc : RecvPC} {next : Next}
    (h : RecvMoves m slot pc m' next) {i : ℤ} (hi : 0 ≤ i) :
    JobChange (m.session i) i (.recv slot pc) (m'.session i) := by
  cases h with
  | received hin hb =>
    refine .of_updateSession hin.1 hi ?_
    rintro rfl
    exact .setRecvBuffer _
  | onRecvReturned hin hb =>
    refine .of_updateSession hin.1 hi ?_
    rintro rfl
    exact .setRecvBuffer _
  | setReceiveState hin =>
    refine .of_updateSession hin.1 hi ?_
    rintro rfl
    exact .setReceiveState (Or.inl rfl)
  | setReceiveStateAfterMod hin =>
    refine .of_updateSession hin.1 hi ?_
    rintro rfl
    exact .setReceiveState (Or.inr rfl)
  | disconnect hmoves => exact .of_disconnectMoves rfl hmoves hi
  | disconnected hmoves => exact .of_disconnectMoves rfl hmoves hi
  | disconnectAfterMod hmoves => exact .of_disconnectMoves rfl hmoves hi
  | disconnectedAfterMod hmoves => exact .of_disconnectMoves rfl hmoves hi
  | fdInvalid hfd | fdValid hfd | validSocket hfd | invalidSocket hfd => exact .same
  | recvArgs | ended | interrupted | drained | noData | epollModArgs | notRearmed => exact .same
  | onRecv hin hused hpos => exact .same
  | rearmed hmod => exact .same

lemma AcceptMoves.session {pc : AcceptPC} {next : Next} (h : AcceptMoves m pc m' next) {i : ℤ}
    (hi : 0 ≤ i) : JobChange (m.session i) i (.accept pc) (m'.session i) := by
  cases h with
  | construct hin =>
    refine .of_updateSession hin.1 hi ?_
    rintro rfl
    exact .construct _ _
  | accepted hnonneg hnew => exact .same
  | interrupted | noClient | wanted | refused | close | number => exact .same
  | notRegistered | onConnected | notRearmed => exact .same
  | allocNone hpool | alloc hpool => exact .same
  | getSession hin hid => exact .same
  | registered hopen hadd => exact .same
  | rearmed hmod => exact .same

/-- **How a step of a job changes a session.** -/
theorem JobMoves.session {pc : JobPC} {next : Next} (h : JobMoves m pc m' next) {i : ℤ}
    (hi : 0 ≤ i) : JobChange (m.session i) i pc (m'.session i) := by
  cases h with
  | poll hmoves => cases hmoves <;> exact .same
  | accept hmoves => exact hmoves.session hi
  | recv hmoves => exact hmoves.session hi
  | complete => exact .same

/-- The calls of the application by a job that stands at `pc`. -/
inductive JobCalls (m : ServerMemory) : JobPC → Next → List Callback → Prop
  | none {pc : JobPC} {next : Next} : JobCalls m pc next []
  | onConnected (sessionID : SessionID) :
    JobCalls m (.accept (.onConnected sessionID)) (.goto (.accept .accept))
      [.onConnected sessionID]
  | onRecv {slot usedSize : ℤ} (block : List Byte)
      (hused : (m.session slot).mRecvJob.mRecvBuffer.getUsedSize = some usedSize)
      (hpos : 0 < usedSize) :
    JobCalls m (.recv slot .usedSize) (.goto (.recv slot (.onRecv usedSize)))
      [.onRecv (m.session slot).mSessionID block]
  | onRecvReturned {slot usedSize : ℤ} (readSize : ℤ) {next : Next} :
    JobCalls m (.recv slot (.onRecv usedSize)) next
      [.onRecvReturned (m.session slot).mSessionID readSize]
  | onDisconnected {pc : JobPC} {slot : ℤ} {next : Next}
      (hpc : pc.disconnecting = some (slot, .onDisconnected)) :
    JobCalls m pc next [.onDisconnected (m.session slot).mSessionID]

/-- `Disconnect` calls the application at its end. -/
lemma DisconnectMoves.calls {slot : ℤ} {pc : DisconnectPC} {pc' : Option DisconnectPC}
    (h : DisconnectMoves m slot pc m' pc') :
    m'.callbacks = m.callbacks ∨ (pc = .onDisconnected ∧ pc' = none ∧
      m'.callbacks = m.callbacks ++ [.onDisconnected (m.session slot).mSessionID]) := by
  cases h with
  | onDisconnected hin => exact Or.inr ⟨rfl, rfl, rfl⟩
  | swapValid hin hfd | swapInvalid hin hfd => exact Or.inl rfl
  | epollDel oldFD => exact Or.inl rfl
  | close oldFD => exact Or.inl rfl
  | recving hin hrecving | notRecving hin hrecving => exact Or.inl rfl
  | sending hin hsending | notSending hin hsending => exact Or.inl rfl

/-- **The calls of the application in a step of a job.** -/
theorem JobMoves.calls {pc : JobPC} {next : Next} (h : JobMoves m pc m' next) :
    ∃ cs, JobCalls m pc next cs ∧ m'.callbacks = m.callbacks ++ cs := by
  have hnone : m'.callbacks = m.callbacks →
      ∃ cs, JobCalls m pc next cs ∧ m'.callbacks = m.callbacks ++ cs := fun heq =>
    ⟨[], .none, by rw [heq, List.append_nil]⟩
  cases h with
  | poll hmoves => cases hmoves <;> exact hnone rfl
  | complete => exact hnone rfl
  | accept hmoves =>
    cases hmoves with
    | onConnected => exact ⟨_, .onConnected _, rfl⟩
    | accepted hnonneg hnew => exact hnone rfl
    | interrupted | noClient | wanted | refused | close | number => exact hnone rfl
    | notRegistered | notRearmed => exact hnone rfl
    | allocNone hpool | alloc hpool => exact hnone rfl
    | construct hin => exact hnone rfl
    | getSession hin hid => exact hnone rfl
    | registered hopen hadd => exact hnone rfl
    | rearmed hmod => exact hnone rfl
  | recv hmoves =>
    cases hmoves with
    | onRecv hin hused hpos => exact ⟨_, .onRecv _ hused hpos, rfl⟩
    | onRecvReturned hin hb => exact ⟨_, .onRecvReturned _, rfl⟩
    | disconnect hmoves | disconnected hmoves | disconnectAfterMod hmoves
    | disconnectedAfterMod hmoves =>
      rcases hmoves.calls with heq | ⟨rfl, -, heq⟩
      · exact hnone heq
      · exact ⟨_, .onDisconnected rfl, heq⟩
    | fdInvalid hfd | fdValid hfd | validSocket hfd | invalidSocket hfd => exact hnone rfl
    | recvArgs | ended | interrupted | drained | noData | epollModArgs | notRearmed =>
      exact hnone rfl
    | received hin hb => exact hnone rfl
    | setReceiveState hin | setReceiveStateAfterMod hin => exact hnone rfl
    | rearmed hmod => exact hnone rfl

end ServerMemory

end CoreServer
