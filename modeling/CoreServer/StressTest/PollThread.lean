import CoreServer.StressTest.Session
import CoreServer.Lib.MapUpdates
import CoreServer.Lib.StepMachine

/-!
# The poll thread of the stress test (`exe-StressTest/PollThread.cpp`)

The thread keeps a map from its sockets to their sessions.  `Loop` polls the sockets and calls
`DoRecv` and `DoSend` of those that are ready; `Clear` closes what is left.  A socket is closed by
`DoRecv`, by `DoSend` or by `Loop` itself, and each of them does so without asking the others, while
the removal from the map is one for all: the file shows for which events every socket is closed
exactly once (`pollThread_closesOnce_iff`).
-/

namespace CoreServer

namespace Test

/-! ## Polling -/

/-- `POLLRDNORM`: there is something to receive. -/
def POLLRDNORM : BitVec 16 := 0x0100

/-- `POLLIN`, which is `POLLRDNORM | POLLRDBAND`. -/
def POLLIN : BitVec 16 := 0x0300

/-- `POLLWRNORM`: there is room to send. -/
def POLLWRNORM : BitVec 16 := 0x0010

/-- `POLLOUT`, which is `POLLWRNORM`. -/
def POLLOUT : BitVec 16 := POLLWRNORM

def POLLERR : BitVec 16 := 0x0001

/-- `WSAPOLLFD`, before the poll. -/
structure WSAPOLLFD where
  fd : SOCKET
  events : BitVec 16
deriving DecidableEq, Repr

/-- What `WSAPoll` returns: `SOCKET_ERROR`, or a number, with what it tells of each socket. -/
inductive PollOutcome (ε : Type) where
  | failed
  | polled (result : ℕ) (events : SOCKET → ε)

/-- What `WSAPoll` tells of a socket, and what the calls of its session return.  What `getsockopt`
returns is printed only. -/
structure ClientEvents where
  revents : BitVec 16
  recv : RecvOutcome
  clock : ℕ → BitVec 64
  send : SendOutcome

/-- `revents & flag`. -/
def ClientEvents.Has (e : ClientEvents) (flag : BitVec 16) : Prop := e.revents &&& flag ≠ 0

instance (e : ClientEvents) (flag : BitVec 16) : Decidable (e.Has flag) :=
  inferInstanceAs (Decidable (_ ≠ _))

/-- `DoRecv`, if there is something to receive. -/
def ClientEvents.callRecv (e : ClientEvents) (debug : Bool) (session : Session) :
    Option RecvResult :=
  if e.Has POLLRDNORM then session.doRecv debug e.clock e.recv
  else some ⟨true, [], [], session⟩

/-- `DoSend`, if there is room to send. -/
def ClientEvents.callSend (e : ClientEvents) (session : Session) : Option SendResult :=
  if e.Has POLLWRNORM then session.doSend e.send else some ⟨true, [], [], session⟩

/-! ## The thread -/

/-- A `PollThread`.  The map keeps the order in which it is iterated. -/
structure PollThread where
  mMaxClientCount : ℕ
  mCurrentClientCount : ℕ
  mPollFDs : AList fun _ : SOCKET => Session

namespace PollThread

/-- The session of a socket is erased from the map. -/
def erase (t : PollThread) (fd : SOCKET) : PollThread :=
  { t with mPollFDs := t.mPollFDs.erase fd }

/-- The session of a socket has changed. -/
def update (t : PollThread) (fd : SOCKET) (session : Session) : PollThread :=
  { t with mPollFDs := t.mPollFDs.replace fd session }

/-- The sockets that `Loop` polls. -/
def pollFDs (t : PollThread) : Option (List WSAPOLLFD) :=
  t.mPollFDs.entries.mapM fun session => do
    let usedSize ← session.2.mSendBuffer.getUsedSize
    return ⟨session.1, if usedSize > 0 then POLLIN ||| POLLOUT else POLLIN⟩

/-- The body of the second loop of `Loop`: the sockets that are closed, and the thread. -/
def pollClient (debug : Bool) (events : SOCKET → ClientEvents) (t : PollThread)
    (client : WSAPOLLFD) : Option (List SOCKET × PollThread) := do
  let e := events client.fd
  let session ← t.mPollFDs.lookup client.fd
  let recv ← e.callRecv debug session
  let send ← e.callSend recv.session
  if e.Has POLLERR then return (recv.closed ++ send.closed ++ [client.fd], t.erase client.fd)
  else if send.result = false ∨ recv.result = false then
    return (recv.closed ++ send.closed, t.erase client.fd)
  else return (recv.closed ++ send.closed, t.update client.fd send.session)

/-- The second loop of `Loop`. -/
def pollClients (debug : Bool) (events : SOCKET → ClientEvents) :
    List WSAPOLLFD → PollThread → Option (List SOCKET × PollThread)
  | [], t => some ([], t)
  | client :: clients, t => do
    let (closed, t) ← pollClient debug events t client
    let (closed', t) ← pollClients debug events clients t
    return (closed ++ closed', t)

/-- `Loop`: the sockets that are closed, and the thread. -/
def loop (debug : Bool) (t : PollThread) :
    PollOutcome ClientEvents → Option (List SOCKET × PollThread)
  | .failed => do
    let _ ← t.pollFDs
    return ([], t)
  | .polled result events => do
    let pollFDs ← t.pollFDs
    assertion debug (result ≠ 0)
    pollClients debug events pollFDs t

/-- `Clear`: the sockets that are closed, and the thread. -/
def clear (t : PollThread) : List SOCKET × PollThread :=
  (t.mPollFDs.keys.filter fun fd => fd ≠ INVALID_SOCKET, { t with mPollFDs := ∅ })

end PollThread

/-! ## Runs of a thread -/

/-- A call, with what the system calls in it return. -/
inductive PollCall where
  | loop (outcome : PollOutcome ClientEvents)
  | clear

/-- A thread, and all the sockets that have been passed to `closesocket`. -/
structure PollRun where
  thread : PollThread
  closed : List SOCKET

namespace PollRun

/-- One call. -/
def step (debug : Bool) (p : PollRun) : PollCall → Option PollRun
  | .loop outcome => do
    let (closed, thread) ← p.thread.loop debug outcome
    return ⟨thread, p.closed ++ closed⟩
  | .clear => some ⟨p.thread.clear.2, p.closed ++ p.thread.clear.1⟩

/-- The machine of the calls of one thread. -/
def machine (debug : Bool) : StepMachine PollRun PollCall := ⟨step debug⟩

/-- The map has the sockets that have been connected and not been closed, and no socket has been
closed twice. -/
structure ClosesOnce (connected : List SOCKET) (p : PollRun) : Prop where
  mem_iff : ∀ fd, fd ∈ p.thread.mPollFDs ↔ fd ∈ connected ∧ fd ∉ p.closed
  nodup : p.closed.Nodup

end PollRun

/-! ## When a client is closed, and when it is dropped -/

/-- The events that `Loop` asks for. -/
def Session.requested (session : Session) : BitVec 16 :=
  if session.mSendBuffer.used ≠ 0 then POLLIN ||| POLLOUT else POLLIN

namespace ClientEvents

variable (e : ClientEvents) (s : Session)

/-- `DoRecv` is called, and closes the socket. -/
def RecvFails : Prop := e.Has POLLRDNORM ∧ (e.recv = .closed ∨ e.recv = .failed)

/-- There is something to send when `DoSend` is called: there has been before, or `DoRecv` answers
something. -/
def HasOutput : Prop := s.mSendBuffer.used ≠ 0 ∨ e.Has POLLRDNORM ∧ s.Completes e.recv

/-- `DoSend` is called, and closes the socket. -/
def SendFails : Prop := e.Has POLLWRNORM ∧ e.HasOutput s ∧ e.send = .failed

/-- `DoSend` is called, and fails without closing the socket. -/
def SendsNothing : Prop := e.Has POLLWRNORM ∧ (¬ e.HasOutput s ∨ e.send = .sent 0)

/-- The socket is closed by one of the three places at most, and it is closed if `DoSend` fails. -/
structure Balanced : Prop where
  recv_send : ¬ (e.RecvFails ∧ e.SendFails s)
  recv_err : ¬ (e.RecvFails ∧ e.Has POLLERR)
  send_err : ¬ (e.SendFails s ∧ e.Has POLLERR)
  nothing : e.SendsNothing s → e.RecvFails ∨ e.Has POLLERR

instance : Decidable e.RecvFails := inferInstanceAs (Decidable (_ ∧ _))

instance : Decidable (e.HasOutput s) := inferInstanceAs (Decidable (_ ∨ _))

instance : Decidable (e.SendFails s) := inferInstanceAs (Decidable (_ ∧ _))

instance : Decidable (e.SendsNothing s) := inferInstanceAs (Decidable (_ ∧ _))

/-- How often the socket is closed. -/
def closes : ℕ :=
  (if e.RecvFails then 1 else 0) + (if e.SendFails s then 1 else 0) +
    (if e.Has POLLERR then 1 else 0)

/-- The socket is erased from the map. -/
def Drops : Prop := e.RecvFails ∨ e.SendFails s ∨ e.SendsNothing s ∨ e.Has POLLERR

instance : Decidable (e.Drops s) := inferInstanceAs (Decidable (_ ∨ _))

variable {e s}

/-- What fails without closing the socket has not closed it. -/
lemma SendsNothing.not_sendFails (h : e.SendsNothing s) : ¬ e.SendFails s := by
  rintro ⟨-, houtput, hfailed⟩
  rcases h.2 with hnone | hsent
  · exact hnone houtput
  · rw [hsent] at hfailed
    nomatch hfailed

/-- The tests of the loop, in their order. -/
lemma drops_iff :
    e.Drops s ↔ e.Has POLLERR ∨ (e.SendFails s ∨ e.SendsNothing s) ∨ e.RecvFails := by
  rw [Drops, ← or_assoc, ← or_assoc, or_comm, or_assoc (a := e.RecvFails),
    or_comm (a := e.RecvFails)]

/-- **The balance of a client**: it is closed once and dropped, or neither. -/
lemma balanced_iff :
    e.Balanced s ↔ e.closes s + (if e.Drops s then 0 else 1) = 1 := by
  have hnothing : e.SendsNothing s → ¬ e.SendFails s := SendsNothing.not_sendFails
  have hfields : e.Balanced s ↔ ¬ (e.RecvFails ∧ e.SendFails s) ∧ ¬ (e.RecvFails ∧ e.Has POLLERR) ∧
      ¬ (e.SendFails s ∧ e.Has POLLERR) ∧ (e.SendsNothing s → e.RecvFails ∨ e.Has POLLERR) :=
    ⟨fun h => ⟨h.1, h.2, h.3, h.4⟩, fun h => ⟨h.1, h.2.1, h.2.2.1, h.2.2.2⟩⟩
  simp only [hfields, closes, Drops]
  by_cases hrecv : e.RecvFails <;> by_cases hsend : e.SendFails s <;>
    by_cases herr : e.Has POLLERR <;> by_cases hsent : e.SendsNothing s <;>
    simp_all

instance : Decidable (e.Balanced s) := decidable_of_iff _ balanced_iff.symm

/-! ### The two calls of a session -/

/-- What `DoRecv` does, if it is called. -/
lemma callRecv_moves (h : s.Valid) {debug : Bool} {r : RecvResult}
    (hrecv : e.callRecv debug s = some r) :
    r.session.Valid ∧ r.session.mSocket = s.mSocket ∧
      r.closed = List.replicate (if e.RecvFails then 1 else 0) s.mSocket ∧
      (r.result = false ↔ e.RecvFails) ∧ (r.session.mSendBuffer.used = 0 ↔ ¬ e.HasOutput s) := by
  obtain ⟨revents, recv, clock, send⟩ := e
  unfold callRecv at hrecv
  split at hrecv
  · rename_i hready
    cases Session.recvMoves_of_doRecv h hrecv with
    | closed | failed => simp [h, RecvFails, HasOutput, Session.Completes, hready]
    | received hs' hsocket hused =>
      simp [hs', hsocket, hused, RecvFails, HasOutput, hready]
  · rename_i hready
    obtain rfl := Option.some.inj hrecv
    simp [h, RecvFails, HasOutput, hready]

/-- What `DoSend` does, if it is called, after `DoRecv`. -/
lemma callSend_moves {s' : Session} (h : s'.Valid) (hsocket : s'.mSocket = s.mSocket)
    (hoff : s'.mSendBuffer.used = 0 ↔ ¬ e.HasOutput s) {r : SendResult}
    (hsend : e.callSend s' = some r) :
    r.session.Valid ∧ r.session.mSocket = s.mSocket ∧
      r.closed = List.replicate (if e.SendFails s then 1 else 0) s.mSocket ∧
      (r.result = false ↔ e.SendFails s ∨ e.SendsNothing s) := by
  obtain ⟨revents, recv, clock, send⟩ := e
  unfold callSend at hsend
  split at hsend
  · rename_i hready
    cases Session.sendMoves_of_doSend h hsend with
    | empty hused =>
      have hnone := hoff.1 hused
      simp [h, hsocket, SendFails, SendsNothing, hready, hnone]
    | failed hused | nothing hused =>
      have houtput := not_not.1 (mt hoff.2 hused)
      simp [h, hsocket, SendFails, SendsNothing, hready, houtput]
    | sent hused hpos hle =>
      have houtput := not_not.1 (mt hoff.2 hused)
      refine ⟨⟨h.recv, Session.valid_cleared (h.send.advanceFront _)⟩, hsocket, ?_, ?_⟩
      · simp [SendFails]
      · simp [SendFails, SendsNothing, houtput, hpos]
  · rename_i hready
    obtain rfl := Option.some.inj hsend
    simp [h, hsocket, SendFails, SendsNothing, hready]

end ClientEvents

namespace PollThread

variable {debug : Bool} {events : SOCKET → ClientEvents} {t t' : PollThread} {fd : SOCKET}
  {closed : List SOCKET}

/-- The sockets are sockets, and each session has its own. -/
def WellFormed (t : PollThread) : Prop :=
  ∀ entry ∈ t.mPollFDs.entries,
    entry.1 ≠ INVALID_SOCKET ∧ entry.2.mSocket = entry.1 ∧ entry.2.Valid

lemma wellFormed_iff : t.WellFormed ↔ ∀ fd session, t.mPollFDs.lookup fd = some session →
    fd ≠ INVALID_SOCKET ∧ session.mSocket = fd ∧ session.Valid :=
  ⟨fun h fd session hlookup => h ⟨fd, session⟩ (AList.mem_lookup_iff.1 hlookup),
    fun h entry hentry => h entry.1 entry.2 (AList.mem_lookup_iff.2 hentry)⟩

lemma mem_of_lookup {session : Session} (h : t.mPollFDs.lookup fd = some session) :
    fd ∈ t.mPollFDs := AList.lookup_isSome.1 (by rw [h]; rfl)

lemma lookup_erase_of_ne {fd' : SOCKET} (hne : fd' ≠ fd) (t : PollThread) :
    (t.erase fd).mPollFDs.lookup fd' = t.mPollFDs.lookup fd' := AList.lookup_erase_ne hne

lemma lookup_update_of_ne {fd' : SOCKET} (hne : fd' ≠ fd) (t : PollThread) (session : Session) :
    (t.update fd session).mPollFDs.lookup fd' = t.mPollFDs.lookup fd' := by
  rw [PollThread.update, AList.lookup_replace_of_ne hne]

lemma WellFormed.erase (h : t.WellFormed) (fd : SOCKET) : (t.erase fd).WellFormed := by
  rw [wellFormed_iff] at h ⊢
  intro fd' session hlookup
  by_cases heq : fd' = fd
  · subst heq
    rw [PollThread.erase, AList.lookup_erase] at hlookup
    nomatch hlookup
  · rw [lookup_erase_of_ne heq] at hlookup
    exact h fd' session hlookup

lemma WellFormed.update (h : t.WellFormed) {session session' : Session}
    (hlookup : t.mPollFDs.lookup fd = some session) (hvalid : session'.Valid)
    (hsocket : session'.mSocket = session.mSocket) : (t.update fd session').WellFormed := by
  rw [wellFormed_iff] at h ⊢
  intro fd' session'' hlookup'
  by_cases heq : fd' = fd
  · subst heq
    rw [PollThread.update, AList.lookup_replace_self (mem_of_lookup hlookup)] at hlookup'
    obtain rfl := Option.some.inj hlookup'
    exact ⟨(h fd' session hlookup).1, hsocket.trans (h fd' session hlookup).2.1, hvalid⟩
  · rw [lookup_update_of_ne heq] at hlookup'
    exact h fd' session'' hlookup'

/-- **The body of the loop**: the client is closed as often as its events say, and it is erased or
its session goes on. -/
theorem pollClient_moves (h : t.WellFormed) {client : WSAPOLLFD}
    (hpoll : pollClient debug events t client = some (closed, t')) :
    ∃ session session', t.mPollFDs.lookup client.fd = some session ∧ session'.Valid ∧
      session'.mSocket = session.mSocket ∧
      closed = List.replicate ((events client.fd).closes session) client.fd ∧
      t' = if (events client.fd).Drops session then t.erase client.fd
        else t.update client.fd session' := by
  obtain ⟨session, hlookup, hpoll⟩ := Option.bind_eq_some_iff.1 hpoll
  obtain ⟨recv, hrecv, hpoll⟩ := Option.bind_eq_some_iff.1 hpoll
  obtain ⟨send, hsend, hpoll⟩ := Option.bind_eq_some_iff.1 hpoll
  obtain ⟨-, hsocket, hvalid⟩ := wellFormed_iff.1 h client.fd session hlookup
  obtain ⟨hvalid₁, hsocket₁, hclosed₁, hresult₁, hoff⟩ := ClientEvents.callRecv_moves hvalid hrecv
  obtain ⟨hvalid₂, hsocket₂, hclosed₂, hresult₂⟩ :=
    ClientEvents.callSend_moves hvalid₁ hsocket₁ hoff hsend
  refine ⟨session, send.session, hlookup, hvalid₂, hsocket₂, ?_⟩
  simp only [hclosed₁, hclosed₂, hsocket, List.replicate_append_replicate, hresult₁, hresult₂]
    at hpoll
  unfold ClientEvents.closes
  split at hpoll
  · rename_i herr
    obtain ⟨rfl, rfl⟩ := Prod.mk.inj (Option.some.inj hpoll)
    exact ⟨by rw [if_pos herr, List.replicate_succ'],
      (if_pos (ClientEvents.drops_iff.2 (Or.inl herr))).symm⟩
  · rename_i herr
    split at hpoll
    · rename_i hfails
      obtain ⟨rfl, rfl⟩ := Prod.mk.inj (Option.some.inj hpoll)
      exact ⟨by rw [if_neg herr, Nat.add_zero],
        (if_pos (ClientEvents.drops_iff.2 (Or.inr hfails))).symm⟩
    · rename_i hgoes
      obtain ⟨rfl, rfl⟩ := Prod.mk.inj (Option.some.inj hpoll)
      have hkeeps := mt ClientEvents.drops_iff.1 (not_or.2 ⟨herr, hgoes⟩)
      exact ⟨by rw [if_neg herr, Nat.add_zero], (if_neg hkeeps).symm⟩

/-- What happens to a client that is polled. -/
structure Polled (events : SOCKET → ClientEvents) (t : PollThread) (closed : List SOCKET)
    (t' : PollThread) (fd : SOCKET) (session : Session) : Prop where
  lookup : t.mPollFDs.lookup fd = some session
  count : closed.count fd = (events fd).closes session
  mem_iff : fd ∈ t'.mPollFDs ↔ ¬ (events fd).Drops session

/-- Nothing happens to a client. -/
structure Untouched (t : PollThread) (closed : List SOCKET) (t' : PollThread) (fd : SOCKET) :
    Prop where
  lookup : t'.mPollFDs.lookup fd = t.mPollFDs.lookup fd
  count : closed.count fd = 0

lemma Untouched.mem_iff (h : Untouched t closed t' fd) : fd ∈ t'.mPollFDs ↔ fd ∈ t.mPollFDs := by
  rw [← AList.lookup_isSome, h.lookup, AList.lookup_isSome]

/-- The body of the loop leaves the other clients as they are. -/
lemma pollClient_each (h : t.WellFormed) {client : WSAPOLLFD}
    (hpoll : pollClient debug events t client = some (closed, t')) :
    t'.WellFormed ∧ (∃ session, Polled events t closed t' client.fd session) ∧
      ∀ fd ≠ client.fd, Untouched t closed t' fd := by
  obtain ⟨session, session', hlookup, hvalid, hsocket, rfl, rfl⟩ := pollClient_moves h hpoll
  have hcount : ∀ fd ≠ client.fd,
      (List.replicate ((events client.fd).closes session) client.fd).count fd = 0 :=
    fun fd hne => List.count_eq_zero.2 fun hmem => hne (List.eq_of_mem_replicate hmem)
  split
  · rename_i hdrops
    refine ⟨h.erase client.fd, ⟨session, hlookup, List.count_replicate_self, ?_⟩, fun fd hne => ?_⟩
    · exact iff_of_false (fun hmem => (AList.mem_erase.1 hmem).1 rfl) (not_not.2 hdrops)
    · exact ⟨lookup_erase_of_ne hne t, hcount fd hne⟩
  · rename_i hkeeps
    refine ⟨h.update hlookup hvalid hsocket, ⟨session, hlookup, List.count_replicate_self, ?_⟩,
      fun fd hne => ?_⟩
    · exact iff_of_true (AList.mem_replace.2 (mem_of_lookup hlookup)) hkeeps
    · exact ⟨lookup_update_of_ne hne t session', hcount fd hne⟩

/-- **A run of the loop.**  Every client is polled once, as it was before the loop. -/
theorem pollClients_each {clients : List WSAPOLLFD} (h : t.WellFormed)
    (hnodup : (clients.map WSAPOLLFD.fd).Nodup)
    (hpoll : pollClients debug events clients t = some (closed, t')) :
    t'.WellFormed ∧
      (∀ fd ∈ clients.map WSAPOLLFD.fd, ∃ session, Polled events t closed t' fd session) ∧
      ∀ fd ∉ clients.map WSAPOLLFD.fd, Untouched t closed t' fd := by
  induction clients generalizing t closed with
  | nil =>
    obtain ⟨rfl, rfl⟩ := Prod.mk.inj (Option.some.inj hpoll)
    exact ⟨h, nofun, fun fd _ => ⟨rfl, rfl⟩⟩
  | cons client clients ih =>
    obtain ⟨⟨closed₁, t₁⟩, hfirst, hpoll⟩ := Option.bind_eq_some_iff.1 hpoll
    obtain ⟨⟨closed₂, t₂⟩, hrest, hpoll⟩ := Option.bind_eq_some_iff.1 hpoll
    obtain ⟨rfl, rfl⟩ := Prod.mk.inj (Option.some.inj hpoll)
    rw [List.map_cons, List.nodup_cons] at hnodup
    obtain ⟨h₁, ⟨session, hclient⟩, hothers⟩ := pollClient_each h hfirst
    obtain ⟨h₂, hpolled, huntouched⟩ := ih h₁ hnodup.2 hrest
    have hcount : ∀ fd, (closed₁ ++ closed₂).count fd = closed₁.count fd + closed₂.count fd :=
      fun fd => List.count_append
    refine ⟨h₂, fun fd hfd => ?_, fun fd hfd => ?_⟩
    · rcases List.mem_cons.1 hfd with rfl | hfd
      · -- the rest of the loop does not come back to the client
        have hlast := huntouched client.fd hnodup.1
        exact ⟨session, hclient.lookup, by rw [hcount, hclient.count, hlast.count, Nat.add_zero],
          hlast.mem_iff.trans hclient.mem_iff⟩
      · have hne : fd ≠ client.fd := fun heq => hnodup.1 (heq ▸ hfd)
        obtain ⟨session', hsession'⟩ := hpolled fd hfd
        exact ⟨session', (hothers fd hne).lookup.symm.trans hsession'.lookup,
          by rw [hcount, (hothers fd hne).count, hsession'.count, Nat.zero_add],
          hsession'.mem_iff⟩
    · rw [List.map_cons, List.mem_cons, not_or] at hfd
      have hfirst := hothers fd hfd.1
      have hlast := huntouched fd hfd.2
      exact ⟨hlast.lookup.trans hfirst.lookup, by rw [hcount, hfirst.count, hlast.count]⟩

lemma mapM_eq_some {α β : Type} {f : α → Option β} {g : α → β} {l : List α}
    (h : ∀ x ∈ l, f x = some (g x)) : l.mapM f = some (l.map g) := by
  induction l with
  | nil => rfl
  | cons x l ih =>
    rw [List.forall_mem_cons] at h
    rw [List.mapM_cons, h.1, ih h.2]
    rfl

lemma WellFormed.pollFDs (h : t.WellFormed) :
    t.pollFDs = some (t.mPollFDs.entries.map fun entry => ⟨entry.1, entry.2.requested⟩) := by
  refine mapM_eq_some fun entry hentry => ?_
  rw [(h entry hentry).2.2.send.getUsedSize, Session.requested, Option.bind_eq_bind,
    Option.bind_some]
  simp [Nat.pos_iff_ne_zero]

/-- **`Loop`.** -/
theorem loop_each (h : t.WellFormed) {result : ℕ}
    (hloop : t.loop debug (.polled result events) = some (closed, t')) :
    t'.WellFormed ∧ (∀ fd ∈ t.mPollFDs, ∃ session, Polled events t closed t' fd session) ∧
      ∀ fd ∉ t.mPollFDs, Untouched t closed t' fd := by
  obtain ⟨clients, hclients, hloop⟩ := Option.bind_eq_some_iff.1 hloop
  obtain ⟨_, -, hpoll⟩ := Option.bind_eq_some_iff.1 hloop
  have hkeys : clients.map WSAPOLLFD.fd = t.mPollFDs.keys := by
    obtain rfl := Option.some.inj (h.pollFDs.symm.trans hclients)
    rw [List.map_map]
    rfl
  have hmoves := pollClients_each h (hkeys ▸ t.mPollFDs.keys_nodup) hpoll
  rw [hkeys] at hmoves
  exact hmoves

/-- `Clear` closes every socket in the map. -/
lemma WellFormed.clear_closes (h : t.WellFormed) : t.clear.1 = t.mPollFDs.keys := by
  refine List.filter_eq_self.2 fun fd hfd => decide_eq_true ?_
  obtain ⟨session, hlookup⟩ := Option.isSome_iff_exists.1 (AList.lookup_isSome.2 hfd)
  exact (wellFormed_iff.1 h fd session hlookup).1

end PollThread

/-! ## Every run -/

namespace PollRun

/-- Every client that is polled is balanced. -/
def Balanced (p : PollRun) : PollCall → Prop
  | .loop (.polled _ events) =>
    ∀ entry ∈ p.thread.mPollFDs.entries, (events entry.1).Balanced entry.2
  | .loop .failed | .clear => True

instance (p : PollRun) : DecidablePred p.Balanced
  | .loop (.polled _ events) =>
    inferInstanceAs (Decidable (∀ entry ∈ p.thread.mPollFDs.entries,
      (events entry.1).Balanced entry.2))
  | .loop .failed | .clear => inferInstanceAs (Decidable True)

/-- The invariant: only sockets that have been connected are in the map, or have been closed. -/
structure Inv (connected : List SOCKET) (p : PollRun) : Prop where
  wellFormed : p.thread.WellFormed
  mem : ∀ fd ∈ p.thread.mPollFDs, fd ∈ connected
  closed : ∀ fd ∈ p.closed, fd ∈ connected

/-- How often a socket has been closed, and one more if it is in the map. -/
def mass (p : PollRun) (fd : SOCKET) : ℕ :=
  p.closed.count fd + if fd ∈ p.thread.mPollFDs then 1 else 0

variable {debug : Bool} {connected : List SOCKET} {p p' : PollRun} {call : PollCall}

/-- The map is exact and nothing is closed twice exactly if every socket that has been connected has
been closed once or is in the map. -/
lemma Inv.closesOnce_iff (hp : p.Inv connected) :
    p.ClosesOnce connected ↔ ∀ fd ∈ connected, p.mass fd = 1 := by
  constructor
  · rintro ⟨hmem, hnodup⟩ fd hfd
    have hcount := List.nodup_iff_count_le_one.1 hnodup fd
    by_cases hclosed : fd ∈ p.closed
    · have hpos := List.count_pos_iff.2 hclosed
      rw [mass, if_neg fun hin => ((hmem fd).1 hin).2 hclosed]
      omega
    · rw [mass, if_pos ((hmem fd).2 ⟨hfd, hclosed⟩), List.count_eq_zero.2 hclosed]
  · intro hmass
    refine ⟨fun fd => ⟨fun hin => ⟨hp.mem fd hin, fun hclosed => ?_⟩, fun ⟨hfd, hclosed⟩ => ?_⟩,
      List.nodup_iff_count_le_one.2 fun fd => ?_⟩
    · have hone := hmass fd (hp.mem fd hin)
      have hpos := List.count_pos_iff.2 hclosed
      rw [mass, if_pos hin] at hone
      omega
    · by_contra hin
      have hone := hmass fd hfd
      rw [mass, if_neg hin, List.count_eq_zero.2 hclosed] at hone
      omega
    · by_cases hclosed : fd ∈ p.closed
      · have hone := hmass fd (hp.closed fd hclosed)
        rw [mass] at hone
        omega
      · rw [List.count_eq_zero.2 hclosed]
        omega

/-- What a `Loop` that has polled does to the mass of a socket. -/
lemma Inv.mass_polled (hp : p.Inv connected) {result : ℕ} {events : SOCKET → ClientEvents}
    (h : p.step debug (.loop (.polled result events)) = some p') :
    p'.Inv connected ∧
      (∀ fd session, p.thread.mPollFDs.lookup fd = some session → p'.mass fd =
        p.closed.count fd + ((events fd).closes session +
          if (events fd).Drops session then 0 else 1)) ∧
      ∀ fd ∉ p.thread.mPollFDs, p'.mass fd = p.mass fd := by
  obtain ⟨⟨closed, thread⟩, hloop, h⟩ := Option.bind_eq_some_iff.1 h
  obtain rfl := Option.some.inj h
  obtain ⟨hwellFormed, hpolled, huntouched⟩ := PollThread.loop_each hp.wellFormed hloop
  refine ⟨⟨hwellFormed, fun fd hfd => ?_, fun fd hfd => ?_⟩, fun fd session hlookup => ?_,
    fun fd hfd => ?_⟩
  · by_contra hnot
    have hout := mt (hp.mem fd) hnot
    exact hout ((huntouched fd hout).mem_iff.1 hfd)
  · by_contra hnot
    have hout := mt (hp.mem fd) hnot
    rcases List.mem_append.1 hfd with hold | hnew
    · exact hnot (hp.closed fd hold)
    · exact List.count_eq_zero.1 (huntouched fd hout).count hnew
  · obtain ⟨session', hsession'⟩ := hpolled fd (PollThread.mem_of_lookup hlookup)
    obtain rfl := Option.some.inj (hlookup.symm.trans hsession'.lookup)
    simp only [mass, List.count_append, hsession'.count, hsession'.mem_iff, ite_not]
    exact Nat.add_assoc _ _ _
  · simp only [mass, List.count_append, (huntouched fd hfd).count, (huntouched fd hfd).mem_iff,
      Nat.add_zero]

/-- If `WSAPoll` fails, nothing happens. -/
lemma Inv.eq_of_failed (hp : p.Inv connected) (h : p.step debug (.loop .failed) = some p') :
    p' = p := by
  obtain ⟨⟨closed, thread⟩, hloop, h⟩ := Option.bind_eq_some_iff.1 h
  rw [PollThread.loop, hp.wellFormed.pollFDs] at hloop
  obtain ⟨rfl, rfl⟩ := Prod.mk.inj (Option.some.inj hloop)
  obtain rfl := Option.some.inj h
  rw [List.append_nil]

/-- `Clear` closes what is in the map. -/
lemma Inv.count_clear (hp : p.Inv connected) (fd : SOCKET) :
    (p.closed ++ p.thread.clear.1).count fd = p.mass fd := by
  rw [hp.wellFormed.clear_closes, mass, List.count_append,
    List.Nodup.count p.thread.mPollFDs.keys_nodup]
  exact congrArg _ (if_congr AList.mem_keys.symm rfl rfl)

lemma Inv.clear (hp : p.Inv connected) :
    Inv connected ⟨p.thread.clear.2, p.closed ++ p.thread.clear.1⟩ ∧
      ∀ fd, mass ⟨p.thread.clear.2, p.closed ++ p.thread.clear.1⟩ fd = p.mass fd := by
  refine ⟨⟨nofun, nofun, fun fd hfd => ?_⟩, fun fd => ?_⟩
  · rcases List.mem_append.1 hfd with hold | hnew
    · exact hp.closed fd hold
    · rw [hp.wellFormed.clear_closes] at hnew
      exact hp.mem fd hnew
  · have hempty : fd ∉ p.thread.clear.2.mPollFDs := AList.notMem_empty fd
    rw [mass, if_neg hempty, Nat.add_zero, hp.count_clear]

/-- **After `Clear`** every socket that has been connected has been closed exactly once. -/
theorem Inv.clear_perm (hp : p.Inv connected) (hnodup : connected.Nodup)
    (honce : p.ClosesOnce connected) : (p.closed ++ p.thread.clear.1).Perm connected := by
  refine List.perm_iff_count.2 fun fd => ?_
  rw [hp.count_clear]
  by_cases hfd : fd ∈ connected
  · rw [hp.closesOnce_iff.1 honce fd hfd, List.count_eq_one_of_mem hnodup hfd]
  · rw [mass, List.count_eq_zero.2 (mt (hp.closed fd) hfd), if_neg (mt (hp.mem fd) hfd),
      List.count_eq_zero.2 hfd]

/-- **One step keeps the invariant.** -/
theorem Inv.step (hp : p.Inv connected) (h : p.step debug call = some p') : p'.Inv connected := by
  cases call with
  | clear => exact Option.some.inj h ▸ hp.clear.1
  | loop outcome =>
    cases outcome with
    | polled result events => exact (hp.mass_polled h).1
    | failed => exact hp.eq_of_failed h ▸ hp

/-- **One step keeps the balance exactly if its clients are balanced.** -/
theorem Inv.closesOnce_iff_balanced (hp : p.Inv connected) (honce : p.ClosesOnce connected)
    (h : p.step debug call = some p') : p'.ClosesOnce connected ↔ p.Balanced call := by
  have hone := hp.closesOnce_iff.1 honce
  rw [(hp.step h).closesOnce_iff]
  cases call with
  | clear =>
    obtain rfl := Option.some.inj h
    exact iff_of_true (fun fd hfd => (hp.clear.2 fd).trans (hone fd hfd)) trivial
  | loop outcome =>
    cases outcome with
    | failed => exact iff_of_true (hp.eq_of_failed h ▸ hone) trivial
    | polled result events =>
      obtain ⟨-, hpolled, hothers⟩ := hp.mass_polled h
      constructor
      · intro hmass entry hentry
        have hlookup := AList.mem_lookup_iff.2 hentry
        have hin := PollThread.mem_of_lookup hlookup
        have hentry := hpolled entry.1 entry.2 hlookup
        rw [hmass entry.1 (hp.mem entry.1 hin),
          List.count_eq_zero.2 ((honce.mem_iff entry.1).1 hin).2, Nat.zero_add] at hentry
        exact ClientEvents.balanced_iff.2 hentry.symm
      · intro hbalanced fd hfd
        by_cases hin : fd ∈ p.thread.mPollFDs
        · obtain ⟨session, hlookup⟩ := Option.isSome_iff_exists.1 (AList.lookup_isSome.2 hin)
          have hentry := hbalanced ⟨fd, session⟩ (AList.mem_lookup_iff.1 hlookup)
          rw [hpolled fd session hlookup, ClientEvents.balanced_iff.1 hentry,
            List.count_eq_zero.2 ((honce.mem_iff fd).1 hin).2]
        · rw [hothers fd hin, hone fd hfd]

/-- At the start nothing has been closed. -/
lemma inv_start {t : PollThread} (ht : t.WellFormed) :
    Inv t.mPollFDs.keys ⟨t, []⟩ ∧ ClosesOnce t.mPollFDs.keys ⟨t, []⟩ :=
  ⟨⟨ht, fun _ hfd => hfd, nofun⟩,
    ⟨fun _ => ⟨fun hfd => ⟨hfd, List.not_mem_nil⟩, And.left⟩, List.nodup_nil⟩⟩

/-- A run whose clients are balanced keeps the balance. -/
lemma Inv.of_exec (hp : p.Inv connected ∧ p.ClosesOnce connected) {calls : List PollCall}
    (hbalanced : (machine debug).Along Balanced p calls)
    (h : (machine debug).exec p calls = some p') : p'.Inv connected ∧ p'.ClosesOnce connected :=
  StepMachine.exec_invariant_along (I := fun p => p.Inv connected ∧ p.ClosesOnce connected)
    (fun _ _ _ hp hbalanced h => ⟨hp.1.step h, (hp.1.closesOnce_iff_balanced hp.2 h).2 hbalanced⟩)
    hp hbalanced h

end PollRun

open PollRun

/-- **When every socket is closed exactly once.**  In a run of `Loop`s and `Clear`s that starts with
the connected sockets in the map, the map has after each of them the sockets that have not been
closed, and none is closed twice, exactly if every client that is polled is balanced: of `DoRecv`,
`DoSend` and `POLLERR` one at most closes it, and one does if `DoSend` fails. -/
theorem pollThread_closesOnce_iff (debug : Bool) {t : PollThread} {calls : List PollCall}
    (ht : t.WellFormed) (hruns : ((machine debug).exec ⟨t, []⟩ calls).isSome) :
    (machine debug).Always (ClosesOnce t.mPollFDs.keys) ⟨t, []⟩ calls ↔
      (machine debug).Along Balanced ⟨t, []⟩ calls := by
  obtain ⟨hstart, honce⟩ := inv_start ht
  obtain ⟨p, hexec⟩ := Option.isSome_iff_exists.1 hruns
  constructor
  · exact StepMachine.along_of_always_of_exec (fun _ _ _ hp h => hp.step h)
      (fun _ _ _ hp honce h => (hp.closesOnce_iff_balanced honce h).1) hstart hexec
  · exact fun hbalanced _ _ hpre h =>
      (Inv.of_exec ⟨hstart, honce⟩ (hbalanced.of_prefix hpre) h).2

/-- A thread with two sessions that have nothing to send. -/
def PollThread.twoClients : PollThread where
  mMaxClientCount := 2
  mCurrentClientCount := 2
  mPollFDs := (AList.singleton 4 { Session.zeroMemory with mSocket := 4 }).insert 3
    { Session.zeroMemory with mSocket := 3 }

/-- Socket 3 receives a packet and socket 4 is closed by its peer; then socket 3 sends its answer,
and `Clear` closes it. -/
def PollRun.twoLoops : List PollCall :=
  [.loop (.polled 2 fun fd => ⟨POLLRDNORM,
      if fd = 3 then .received (PingPacket.wire ⟨1⟩) else .closed, fun _ => 5, .failed⟩),
    .loop (.polled 1 fun _ => ⟨POLLWRNORM, .failed, fun _ => 6, .sent 12⟩), .clear]

lemma PollThread.wellFormed_twoClients : twoClients.WellFormed := by
  have hempty := CircularBuffer.valid_reset Session.zeroMemory.mSendBuffer
  have hvalid : ∀ fd, ({ Session.zeroMemory with mSocket := fd } : Session).Valid :=
    fun fd => ⟨hempty, hempty⟩
  rintro entry hentry
  rcases List.mem_cons.1 hentry with rfl | hentry
  · exact ⟨by decide, rfl, hvalid 3⟩
  · obtain rfl := List.mem_singleton.1 hentry
    exact ⟨by decide, rfl, hvalid 4⟩

/-- In `twoLoops` both sockets are closed once. -/
theorem pollThread_closesOnce_twoLoops :
    (∃ p ∈ (machine true).exec ⟨PollThread.twoClients, []⟩ twoLoops, p.closed = [4, 3]) ∧
      (machine true).Always (ClosesOnce [3, 4]) ⟨PollThread.twoClients, []⟩ twoLoops :=
  ⟨by decide +kernel, (pollThread_closesOnce_iff true PollThread.wellFormed_twoClients
    (by decide +kernel)).2 (by decide +kernel)⟩

/-- **A socket that is closed twice.**  The peer of a session that has just been constructed closes
its socket: `DoRecv` closes it, and so does `DoSend`, whose `send` fails on it. -/
theorem pollThread_closes_twice :
    ∃ session ∈ Session.construct Session.zeroMemory 3 0,
      PollThread.WellFormed ⟨1, 1, AList.singleton 3 session⟩ ∧
      ¬ (machine true).Always (ClosesOnce [3]) ⟨⟨1, 1, AList.singleton 3 session⟩, []⟩
        [.loop (.polled 1 fun _ => ⟨POLLRDNORM ||| POLLWRNORM, .closed, fun _ => 0, .failed⟩),
          .clear] := by
  obtain ⟨session, hsession, hvalid, hsocket, -⟩ := Session.exists_construct Session.zeroMemory 3 0
  refine ⟨session, hsession, ?_, fun halways => ?_⟩
  · rintro entry hentry
    obtain rfl := List.mem_singleton.1 hentry
    exact ⟨show 3 ≠ INVALID_SOCKET by decide, hsocket, hvalid⟩
  · obtain ⟨session', hsession', p, hexec, htwice⟩ : ∃ session ∈ Session.construct .zeroMemory 3 0,
        ∃ p ∈ (machine true).exec ⟨⟨1, 1, AList.singleton 3 session⟩, []⟩
          [.loop (.polled 1 fun _ => ⟨POLLRDNORM ||| POLLWRNORM, .closed, fun _ => 0, .failed⟩)],
          p.closed = [3, 3] := by
      decide +kernel
    obtain rfl := Option.some.inj (hsession.symm.trans hsession')
    have hnodup := (halways _ p (List.prefix_append [_] [PollCall.clear]) hexec).nodup
    rw [htwice] at hnodup
    revert hnodup
    decide

end Test

end CoreServer
