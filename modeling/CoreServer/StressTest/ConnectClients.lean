import CoreServer.StressTest.PollThread

/-!
# Connecting the clients of the stress test

`ConnectClients` creates a socket for each client.  Those whose `connect` would block are polled,
all of them in every round, until the results of `WSAPoll` add up to their number, six rounds at
most.  A socket that has been connected in one round is writable in the next one, too, and is
counted again: the file shows that the count is exact as long as no socket completes in two rounds
(`connectClients_counted_iff`).
-/

namespace CoreServer

namespace Test

def WSAEWOULDBLOCK : ℕ := 10035

def WSAEINPROGRESS : ℕ := 10036

/-- What `connect` returns: zero, or `SOCKET_ERROR` with an error code. -/
inductive ConnectOutcome where
  | connected
  | failed (errorCode : ℕ)
deriving DecidableEq, Repr

/-- What `socket` and `connect` return for a client. -/
structure ClientSocket where
  clientSocket : SOCKET
  connect : ConnectOutcome
deriving DecidableEq, Repr

/-- What `WSAPoll` tells of a socket that is being connected, and what `getsockopt` leaves in
`err`. -/
structure PendingEvents where
  revents : BitVec 16
  err : ℤ
deriving DecidableEq, Repr

/-- The socket has been connected. -/
def PendingEvents.Completes (e : PendingEvents) : Prop := e.revents &&& POLLOUT ≠ 0 ∧ e.err = 0

instance : DecidablePred PendingEvents.Completes :=
  fun _ => inferInstanceAs (Decidable (_ ∧ _))

/-- A thread, and the number of `Session`s that have been allocated. -/
structure ConnectRun where
  thread : PollThread
  allocated : ℕ

/-- The variables of the loop over the clients. -/
structure ConnectLoop extends ConnectRun where
  connectPollFDs : List WSAPOLLFD
  blockCount : ℕ

/-- The `i`-th `new Session` gets the memory `(heap i).1`, at the tick `(heap i).2`. -/
abbrev Heap := ℕ → Session × BitVec 64

/-- `mPollFDs.insert(std::make_pair(fd, new Session(fd)))` and `mCurrentClientCount++`. -/
def ConnectRun.addClient (heap : Heap) (p : ConnectRun) (fd : SOCKET) : Option ConnectRun := do
  let session ← Session.construct (heap p.allocated).1 fd (heap p.allocated).2
  return {
    thread := { p.thread with
      mCurrentClientCount := p.thread.mCurrentClientCount + 1
      mPollFDs := p.thread.mPollFDs.insertNew fd session }
    allocated := p.allocated + 1 }

/-- The body of the loop over the clients. -/
def ConnectLoop.connectClient (heap : Heap) (p : ConnectLoop) (client : ClientSocket) :
    Option ConnectLoop :=
  if client.clientSocket = INVALID_SOCKET then some p
  else match client.connect with
    | .failed errorCode =>
      if errorCode = WSAEWOULDBLOCK ∨ errorCode = WSAEINPROGRESS then
        some { p with
          connectPollFDs := p.connectPollFDs ++ [⟨client.clientSocket, POLLOUT⟩]
          blockCount := p.blockCount + 1 }
      else some p
    | .connected => (p.toConnectRun.addClient heap client.clientSocket).map fun run =>
      { p with toConnectRun := run }

/-- The body of the loop over the sockets that are being connected. -/
def ConnectRun.pollPending (heap : Heap) (events : SOCKET → PendingEvents) (p : ConnectRun)
    (pollFD : WSAPOLLFD) : Option ConnectRun :=
  if (events pollFD.fd).revents &&& POLLOUT ≠ 0 then
    if (events pollFD.fd).err = 0 then p.addClient heap pollFD.fd else some p
  else some p

/-- The loop of the polls, if it ends after fewer than `fuel` rounds.  `rounds i` is what `WSAPoll`
returns when `loopCount` has been `i`. -/
def ConnectRun.pollRounds (heap : Heap) (rounds : ℕ → PollOutcome PendingEvents)
    (connectPollFDs : List WSAPOLLFD) (blockCount : ℕ) :
    ℕ → ℕ → ℕ → ConnectRun → Option ConnectRun
  | 0, _, _, _ => none
  | fuel + 1, connectResult, loopCount, p =>
    if connectResult ≠ blockCount ∧ loopCount ≤ 5 then
      match rounds loopCount with
      | .failed => pollRounds heap rounds connectPollFDs blockCount fuel connectResult
          (loopCount + 1) p
      | .polled result events =>
        if result = 0 then
          pollRounds heap rounds connectPollFDs blockCount fuel connectResult (loopCount + 1) p
        else
          (connectPollFDs.foldlM (pollPending heap events) p).bind
            (pollRounds heap rounds connectPollFDs blockCount fuel (connectResult + result)
              (loopCount + 1))
    else some p

namespace PollThread

/-- `PollThread::PollThread`. -/
def construct (maxClientCount : ℕ) : PollThread := ⟨maxClientCount, 0, ∅⟩

/-- `ConnectClients`.  `clients i` is what `socket` and `connect` return for the `i`-th client. -/
def connectClients (heap : Heap) (clients : ℕ → ClientSocket)
    (rounds : ℕ → PollOutcome PendingEvents) (t : PollThread) : Option ConnectRun := do
  let p ← (List.range t.mMaxClientCount).foldlM
    (fun p count => p.connectClient heap (clients count)) (⟨⟨t, 0⟩, [], 0⟩ : ConnectLoop)
  if p.blockCount = 0 then return p.toConnectRun
  else p.toConnectRun.pollRounds heap rounds p.connectPollFDs p.blockCount 7 0 0

end PollThread

/-- The count of the clients is the size of the map, and as many `Session`s have been allocated. -/
structure ConnectRun.Counted (p : ConnectRun) : Prop where
  count : p.thread.mCurrentClientCount = p.thread.mPollFDs.keys.length
  allocated : p.allocated = p.thread.mPollFDs.keys.length

/-! ## When the count is exact -/

namespace ClientSocket

/-- `connect` succeeds. -/
def Connects (c : ClientSocket) : Prop :=
  c.clientSocket ≠ INVALID_SOCKET ∧ c.connect = .connected

/-- `connect` would block. -/
def Blocks (c : ClientSocket) : Prop :=
  c.clientSocket ≠ INVALID_SOCKET ∧
    (c.connect = .failed WSAEWOULDBLOCK ∨ c.connect = .failed WSAEINPROGRESS)

instance : DecidablePred Connects := fun _ => inferInstanceAs (Decidable (_ ∧ _))

instance : DecidablePred Blocks := fun _ => inferInstanceAs (Decidable (_ ∧ _))

end ClientSocket

/-- The sockets of the first `n` clients that satisfy `P`. -/
def socketsOf (P : ClientSocket → Prop) [DecidablePred P] (clients : ℕ → ClientSocket) (n : ℕ) :
    List SOCKET :=
  (((List.range n).map clients).filter fun c => P c).map ClientSocket.clientSocket

/-- No socket is handed out twice. -/
def DistinctSockets (clients : ℕ → ClientSocket) (n : ℕ) : Prop :=
  (socketsOf (fun c => c.clientSocket ≠ INVALID_SOCKET) clients n).Nodup

instance (clients : ℕ → ClientSocket) (n : ℕ) : Decidable (DistinctSockets clients n) :=
  inferInstanceAs (Decidable (List.Nodup _))

/-- The number that is added to `connectResult`. -/
def PollOutcome.result {ε : Type} : PollOutcome ε → ℕ
  | .failed => 0
  | .polled result _ => result

/-- The socket is found connected. -/
def PollOutcome.Completes (fd : SOCKET) : PollOutcome PendingEvents → Prop
  | .failed => False
  | .polled result events => result ≠ 0 ∧ (events fd).Completes

instance (fd : SOCKET) : DecidablePred (PollOutcome.Completes fd)
  | .failed => inferInstanceAs (Decidable False)
  | .polled _ _ => inferInstanceAs (Decidable (_ ∧ _))

namespace Rounds

variable (blockCount : ℕ) (rounds : ℕ → PollOutcome PendingEvents)

/-- The sum of the results of the first `k` rounds. -/
def total (k : ℕ) : ℕ := ((List.range k).map fun i => (rounds i).result).sum

/-- The test of the loop before round `k`. -/
def Continues (k : ℕ) : Prop := total rounds k ≠ blockCount ∧ k ≤ 5

/-- Round `k` is polled. -/
def PollsRound (k : ℕ) : Prop := ∀ j ≤ k, Continues blockCount rounds j

/-- No socket of those that are polled is found connected in two of the rounds. -/
def CompletesOnce (pending : List SOCKET) : Prop :=
  ∀ fd ∈ pending, ∀ j k, j < k → PollsRound pending.length rounds k →
    ¬ ((rounds j).Completes fd ∧ (rounds k).Completes fd)

/-- The sockets that round `k` finds connected. -/
def completed (pending : List SOCKET) (k : ℕ) : List SOCKET :=
  pending.filter fun fd => (rounds k).Completes fd

lemma total_succ (k : ℕ) : total rounds (k + 1) = total rounds k + (rounds k).result := by
  rw [total, List.range_succ, List.map_append, List.sum_append, List.map_singleton,
    List.sum_singleton]
  rfl

end Rounds

open Rounds

/-! ## Adding clients -/

/-- Clients have been added, one after the other. -/
structure ConnectRun.Added (p : ConnectRun) (fds : List SOCKET) (p' : ConnectRun) : Prop where
  count : p'.thread.mCurrentClientCount = p.thread.mCurrentClientCount + fds.length
  allocated : p'.allocated = p.allocated + fds.length
  mPollFDs : ∃ entries : List (Sigma fun _ : SOCKET => Session), entries.keys = fds ∧
    (∀ entry ∈ entries, entry.2.mSocket = entry.1 ∧ entry.2.Valid) ∧
    p'.thread.mPollFDs = p.thread.mPollFDs.insertAll entries

namespace ConnectRun

variable {heap : Heap} {p p' p'' : ConnectRun} {fds fds' : List SOCKET} {fd : SOCKET}

lemma Added.refl (p : ConnectRun) : p.Added [] p := ⟨rfl, rfl, [], rfl, nofun, rfl⟩

lemma Added.trans (h : p.Added fds p') (h' : p'.Added fds' p'') : p.Added (fds ++ fds') p'' := by
  obtain ⟨hcount, hallocated, entries, hkeys, hentries, hmap⟩ := h
  obtain ⟨hcount', hallocated', entries', hkeys', hentries', hmap'⟩ := h'
  refine ⟨?_, ?_, entries ++ entries', ?_, ?_, ?_⟩
  · rw [hcount', hcount, List.length_append, Nat.add_assoc]
  · rw [hallocated', hallocated, List.length_append, Nat.add_assoc]
  · rw [List.keys_append, hkeys, hkeys']
  · intro entry hentry
    rcases List.mem_append.1 hentry with hold | hnew
    · exact hentries entry hold
    · exact hentries' entry hnew
  · rw [hmap', hmap, AList.insertAll_append]

lemma exists_addClient (heap : Heap) (p : ConnectRun) (fd : SOCKET) :
    ∃ p', p.addClient heap fd = some p' ∧ p.Added [fd] p' := by
  obtain ⟨session, hsession, hvalid, hsocket, -⟩ :=
    Session.exists_construct (heap p.allocated).1 fd (heap p.allocated).2
  refine ⟨⟨{ p.thread with
    mCurrentClientCount := p.thread.mCurrentClientCount + 1
    mPollFDs := p.thread.mPollFDs.insertNew fd session }, p.allocated + 1⟩, ?_, rfl, rfl,
    [⟨fd, session⟩], rfl, fun entry hentry => ?_, rfl⟩
  · rw [addClient, hsession]
    rfl
  · obtain rfl := List.mem_singleton.1 hentry
    exact ⟨hsocket, hvalid⟩

lemma pollPending_eq (events : SOCKET → PendingEvents) (p : ConnectRun) (pollFD : WSAPOLLFD) :
    p.pollPending heap events pollFD =
      if (events pollFD.fd).Completes then p.addClient heap pollFD.fd else some p :=
  (ite_and ..).symm

/-- One round adds the sockets that it finds connected. -/
lemma exists_pollPending (heap : Heap) (events : SOCKET → PendingEvents)
    (connectPollFDs : List WSAPOLLFD) (p : ConnectRun) :
    ∃ p', connectPollFDs.foldlM (pollPending heap events) p = some p' ∧
      p.Added ((connectPollFDs.map WSAPOLLFD.fd).filter fun fd => (events fd).Completes) p' := by
  induction connectPollFDs generalizing p with
  | nil => exact ⟨p, rfl, .refl p⟩
  | cons pollFD connectPollFDs ih =>
    rw [List.foldlM_cons, List.map_cons, List.filter_cons, pollPending_eq]
    by_cases hcompletes : (events pollFD.fd).Completes
    · obtain ⟨p₁, hadd, hadded⟩ := exists_addClient heap p pollFD.fd
      obtain ⟨p', hrest, hadded'⟩ := ih p₁
      refine ⟨p', ?_, ?_⟩
      · rw [if_pos hcompletes, hadd]
        exact hrest
      · rw [if_pos (decide_eq_true hcompletes)]
        exact hadded.trans hadded'
    · obtain ⟨p', hrest, hadded⟩ := ih p
      refine ⟨p', ?_, ?_⟩
      · rw [if_neg hcompletes]
        exact hrest
      · rw [if_neg (by simpa using hcompletes)]
        exact hadded

/-- **One round of the polls.** -/
lemma pollRounds_succ (heap : Heap) {rounds : ℕ → PollOutcome PendingEvents}
    (connectPollFDs : List WSAPOLLFD) {blockCount : ℕ} (fuel : ℕ) {loopCount : ℕ} (p : ConnectRun)
    (h : Continues blockCount rounds loopCount) :
    ∃ p₁, p.Added (completed rounds (connectPollFDs.map WSAPOLLFD.fd) loopCount) p₁ ∧
      p.pollRounds heap rounds connectPollFDs blockCount (fuel + 1) (total rounds loopCount)
        loopCount =
      p₁.pollRounds heap rounds connectPollFDs blockCount fuel (total rounds (loopCount + 1))
        (loopCount + 1) := by
  have hnothing : (∀ fd, ¬ (rounds loopCount).Completes fd) →
      completed rounds (connectPollFDs.map WSAPOLLFD.fd) loopCount = [] :=
    fun hnone => List.filter_eq_nil_iff.2 fun fd _ => by simpa using hnone fd
  have htest : total rounds loopCount ≠ blockCount ∧ loopCount ≤ 5 := h
  rw [pollRounds, if_pos htest, total_succ]
  cases hround : rounds loopCount with
  | failed => exact ⟨p, hnothing (by simp [hround, PollOutcome.Completes]) ▸ .refl p, rfl⟩
  | polled result events =>
    simp only [PollOutcome.result]
    by_cases htimeout : result = 0
    · rw [if_pos htimeout, htimeout]
      exact ⟨p, hnothing (by simp [hround, PollOutcome.Completes, htimeout]) ▸ .refl p, rfl⟩
    · obtain ⟨p₁, hpoll, hadded⟩ := exists_pollPending heap events connectPollFDs p
      refine ⟨p₁, ?_, by rw [if_neg htimeout, hpoll, Option.bind_some]⟩
      have hcompleted : completed rounds (connectPollFDs.map WSAPOLLFD.fd) loopCount =
          (connectPollFDs.map WSAPOLLFD.fd).filter fun fd => (events fd).Completes :=
        List.filter_congr fun fd _ => by simp [hround, PollOutcome.Completes, htimeout]
      exact hcompleted ▸ hadded

/-- **All the rounds.**  The loop ends, and adds what each round has found connected. -/
theorem exists_pollRounds (heap : Heap) (rounds : ℕ → PollOutcome PendingEvents)
    (connectPollFDs : List WSAPOLLFD) (blockCount fuel loopCount : ℕ) (p : ConnectRun)
    (hle : loopCount ≤ 6) (hfuel : 6 < loopCount + fuel) :
    ∃ n p', p.pollRounds heap rounds connectPollFDs blockCount fuel (total rounds loopCount)
        loopCount = some p' ∧
      (∀ k, loopCount ≤ k → k < loopCount + n → Continues blockCount rounds k) ∧
      ¬ Continues blockCount rounds (loopCount + n) ∧
      p.Added ((List.range' loopCount n).flatMap
        (completed rounds (connectPollFDs.map WSAPOLLFD.fd))) p' := by
  induction fuel generalizing loopCount p with
  | zero => omega
  | succ fuel ih =>
    by_cases hcontinues : Continues blockCount rounds loopCount
    · obtain ⟨p₁, hadded, hround⟩ := pollRounds_succ heap connectPollFDs fuel p hcontinues
      obtain ⟨n, p', hrest, hpolls, hends, hadded'⟩ := ih (loopCount + 1) p₁
        (by have := hcontinues.2; omega) (by omega)
      rw [Nat.add_right_comm, Nat.add_assoc] at hends
      refine ⟨n + 1, p', hround.trans hrest, fun k hk hlt => ?_, hends, ?_⟩
      · rcases Nat.eq_or_lt_of_le hk with rfl | hk
        · exact hcontinues
        · exact hpolls k hk (by omega)
      · rw [List.range'_succ, List.flatMap_cons]
        exact hadded.trans hadded'
    · refine ⟨0, p, ?_, fun k hk hlt => absurd hlt (by omega), hcontinues, .refl p⟩
      rw [pollRounds]
      exact if_neg hcontinues

end ConnectRun

/-! ## The loop over the clients -/

section Sockets

variable (P : ClientSocket → Prop) [DecidablePred P] (clients : ℕ → ClientSocket) (n : ℕ)

lemma socketsOf_succ : socketsOf P clients (n + 1) =
    socketsOf P clients n ++ if P (clients n) then [(clients n).clientSocket] else [] := by
  rw [socketsOf, List.range_succ, List.map_append, List.filter_append, List.map_append]
  by_cases h : P (clients n) <;> simp [socketsOf, h]

end Sockets

lemma ConnectLoop.exists_connectClient (heap : Heap) (p : ConnectLoop) (client : ClientSocket) :
    ∃ p', p.connectClient heap client = some p' ∧
      p.toConnectRun.Added (if client.Connects then [client.clientSocket] else [])
        p'.toConnectRun ∧
      p'.connectPollFDs.map WSAPOLLFD.fd = p.connectPollFDs.map WSAPOLLFD.fd ++
        (if client.Blocks then [client.clientSocket] else []) ∧
      p'.blockCount = p.blockCount + if client.Blocks then 1 else 0 := by
  obtain ⟨clientSocket, connect⟩ := client
  unfold connectClient
  by_cases hinvalid : clientSocket = INVALID_SOCKET
  · exact ⟨p, if_pos hinvalid, by simp [ClientSocket.Connects, hinvalid, ConnectRun.Added.refl],
      by simp [ClientSocket.Blocks, hinvalid], by simp [ClientSocket.Blocks, hinvalid]⟩
  · simp only [if_neg hinvalid]
    cases connect with
    | connected =>
      obtain ⟨run, hrun, hadded⟩ := p.toConnectRun.exists_addClient heap clientSocket
      refine ⟨{ p with toConnectRun := run }, by rw [hrun]; rfl, ?_, ?_, ?_⟩
      · rwa [if_pos ⟨hinvalid, rfl⟩]
      · simp [ClientSocket.Blocks]
      · simp [ClientSocket.Blocks]
    | failed errorCode =>
      by_cases hblocks : errorCode = WSAEWOULDBLOCK ∨ errorCode = WSAEINPROGRESS
      · refine ⟨_, if_pos hblocks, ?_, ?_, ?_⟩
        · simp [ClientSocket.Connects, ConnectRun.Added.refl]
        · simp [ClientSocket.Blocks, hinvalid, hblocks]
        · simp [ClientSocket.Blocks, hinvalid, hblocks]
      · refine ⟨p, if_neg hblocks, ?_, ?_, ?_⟩
        · simp [ClientSocket.Connects, ConnectRun.Added.refl]
        · simp [ClientSocket.Blocks, hblocks]
        · simp [ClientSocket.Blocks, hblocks]

/-- **The loop over the clients** adds those that are connected at once, and keeps those that are
being connected. -/
theorem exists_connectLoop (heap : Heap) (clients : ℕ → ClientSocket) (t : PollThread) (n : ℕ) :
    ∃ p, (List.range n).foldlM (fun p count => ConnectLoop.connectClient heap p (clients count))
        (⟨⟨t, 0⟩, [], 0⟩ : ConnectLoop) = some p ∧
      ConnectRun.Added ⟨t, 0⟩ (socketsOf ClientSocket.Connects clients n) p.toConnectRun ∧
      p.connectPollFDs.map WSAPOLLFD.fd = socketsOf ClientSocket.Blocks clients n ∧
      p.blockCount = (socketsOf ClientSocket.Blocks clients n).length := by
  induction n with
  | zero => exact ⟨_, rfl, .refl _, rfl, rfl⟩
  | succ n ih =>
    obtain ⟨p, hloop, hadded, hpending, hcount⟩ := ih
    obtain ⟨p', hclient, hadded', hpending', hcount'⟩ := p.exists_connectClient heap (clients n)
    refine ⟨p', ?_, ?_, ?_, ?_⟩
    · rw [List.range_succ, List.foldlM_append, hloop]
      exact (bind_pure _).trans hclient
    · rw [socketsOf_succ]
      exact hadded.trans hadded'
    · rw [socketsOf_succ, hpending', hpending]
    · rw [socketsOf_succ, hcount', hcount, List.length_append]
      split <;> rfl

/-! ## All of `ConnectClients` -/

/-- What has been added is counted exactly if no socket has been added twice. -/
lemma ConnectRun.Added.counted_iff {n : ℕ} {fds : List SOCKET} {p : ConnectRun}
    (h : Added ⟨.construct n, 0⟩ fds p) : p.Counted ↔ fds.Nodup := by
  obtain ⟨hcount, hallocated, entries, rfl, -, hmap⟩ := h
  have hexact := AList.length_keys_insertAll_eq_iff entries (PollThread.construct n).mPollFDs
  have hzero : (PollThread.construct n).mPollFDs.keys.length = 0 := rfl
  have hkeys : entries.keys.length = entries.length := List.length_map _
  rw [hzero, Nat.zero_add, ← hmap] at hexact
  have hnodup : p.thread.mPollFDs.keys.length = entries.length ↔ entries.keys.Nodup :=
    hexact.trans (and_iff_left fun fd _ => AList.notMem_empty fd)
  have hcount : p.thread.mCurrentClientCount = entries.length := by
    rw [hcount, hkeys]
    exact Nat.zero_add _
  have hallocated : p.allocated = entries.length := by
    rw [hallocated, hkeys]
    exact Nat.zero_add _
  rw [← hnodup]
  constructor
  · exact fun hcounted => hcounted.count.symm.trans hcount
  · exact fun hlength => ⟨hcount.trans hlength.symm, hallocated.trans hlength.symm⟩

/-- What the rounds find connected are different sockets exactly if none is found twice. -/
lemma nodup_completed_iff {pending : List SOCKET} (hpending : pending.Nodup)
    (rounds : ℕ → PollOutcome PendingEvents) (n : ℕ) :
    ((List.range n).flatMap (completed rounds pending)).Nodup ↔
      ∀ fd ∈ pending, ∀ j k, j < k → k < n →
        ¬ ((rounds j).Completes fd ∧ (rounds k).Completes fd) := by
  have hmem : ∀ fd k, fd ∈ completed rounds pending k ↔ fd ∈ pending ∧ (rounds k).Completes fd :=
    fun fd k => by rw [completed, List.mem_filter, decide_eq_true_iff]
  have hnodup : ∀ k ∈ List.range n, (completed rounds pending k).Nodup :=
    fun k _ => hpending.filter _
  rw [List.nodup_flatMap, and_iff_right hnodup, List.pairwise_iff_getElem]
  simp only [List.length_range, List.getElem_range]
  constructor
  · intro hdisjoint fd hfd j k hlt hk hboth
    exact hdisjoint j k (hlt.trans hk) hk hlt ((hmem fd j).2 ⟨hfd, hboth.1⟩)
      ((hmem fd k).2 ⟨hfd, hboth.2⟩)
  · intro honce j k _ hk hlt fd hj hk'
    exact honce fd ((hmem fd j).1 hj).1 j k hlt hk ⟨((hmem fd j).1 hj).2, ((hmem fd k).1 hk').2⟩

section Distinct

variable {P Q : ClientSocket → Prop} [DecidablePred P] [DecidablePred Q]
  {clients : ℕ → ClientSocket} {n : ℕ}

lemma DistinctSockets.nodup (h : DistinctSockets clients n)
    (hP : ∀ c, P c → c.clientSocket ≠ INVALID_SOCKET) : (socketsOf P clients n).Nodup :=
  List.Nodup.sublist ((List.monotone_filter_right _ fun c hc =>
    decide_eq_true (hP c (of_decide_eq_true hc))).map _) h

lemma DistinctSockets.disjoint (h : DistinctSockets clients n)
    (hP : ∀ c, P c → c.clientSocket ≠ INVALID_SOCKET)
    (hQ : ∀ c, Q c → c.clientSocket ≠ INVALID_SOCKET) (hPQ : ∀ c, P c → ¬ Q c) :
    List.Disjoint (socketsOf P clients n) (socketsOf Q clients n) := by
  intro fd hfd hfd'
  obtain ⟨c, hc, rfl⟩ := List.mem_map.1 hfd
  obtain ⟨c', hc', heq⟩ := List.mem_map.1 hfd'
  obtain ⟨hmem, hPc⟩ := List.mem_filter.1 hc
  obtain ⟨hmem', hQc⟩ := List.mem_filter.1 hc'
  have hPc := of_decide_eq_true hPc
  have hQc := of_decide_eq_true hQc
  have hsame : c' = c := List.inj_on_of_nodup_map h
    (List.mem_filter.2 ⟨hmem', decide_eq_true (hQ c' hQc)⟩)
    (List.mem_filter.2 ⟨hmem, decide_eq_true (hP c hPc)⟩) heq
  exact hPQ c hPc (hsame ▸ hQc)

end Distinct

/-- **`ConnectClients`** returns, and has added the clients that are connected at once and those
that the rounds find connected. -/
theorem exists_connectClients (heap : Heap) (clients : ℕ → ClientSocket)
    (rounds : ℕ → PollOutcome PendingEvents) {t : PollThread} {m : ℕ}
    (hmax : t.mMaxClientCount = m) {pending : List SOCKET}
    (hpending : socketsOf ClientSocket.Blocks clients m = pending) :
    ∃ n p, t.connectClients heap clients rounds = some p ∧
      (∀ k, PollsRound pending.length rounds k ↔ k < n) ∧
      ConnectRun.Added ⟨t, 0⟩ (socketsOf ClientSocket.Connects clients m ++
        (List.range n).flatMap (completed rounds pending)) p := by
  obtain ⟨p, hloop, hadded, hfds, hblockCount⟩ := exists_connectLoop heap clients t m
  rw [hpending] at hfds hblockCount
  have hrounds : ∀ n, (∀ k < n, Continues pending.length rounds k) →
      ¬ Continues pending.length rounds n → ∀ k, PollsRound pending.length rounds k ↔ k < n := by
    intro n hpolls hends k
    refine ⟨fun hk => ?_, fun hk j hj => hpolls j (by omega)⟩
    by_contra hle
    exact hends (hk n (by omega))
  rw [PollThread.connectClients, hmax, hloop, Option.bind_eq_bind, Option.bind_some]
  by_cases hnone : p.blockCount = 0
  · have hstops : ¬ Continues pending.length rounds 0 := fun h => h.1 (hblockCount ▸ hnone.symm)
    exact ⟨0, p.toConnectRun, if_pos hnone, hrounds 0 nofun hstops, by simpa using hadded⟩
  · obtain ⟨n, p', hpoll, hpolls, hends, hadded'⟩ :=
      ConnectRun.exists_pollRounds heap rounds p.connectPollFDs p.blockCount 7 0 p.toConnectRun
        (by omega) (by omega)
    rw [Nat.zero_add] at hends
    rw [hfds, ← List.range_eq_range'] at hadded'
    refine ⟨n, p', (if_neg hnone).trans hpoll, hrounds n (fun k hk => ?_) ?_,
      hadded.trans hadded'⟩
    · exact hblockCount ▸ hpolls k (Nat.zero_le k) (by omega)
    · exact hblockCount ▸ hends

/-- **When the clients are counted exactly.**  `ConnectClients` returns, and the count of the
clients and the number of `Session`s are then the size of the map, exactly if no socket whose
`connect` would have blocked has been found connected in two of the rounds that have been polled. -/
theorem connectClients_counted_iff (heap : Heap) {maxClientCount : ℕ} {clients : ℕ → ClientSocket}
    (rounds : ℕ → PollOutcome PendingEvents) (hsockets : DistinctSockets clients maxClientCount) :
    ∃ p, (PollThread.construct maxClientCount).connectClients heap clients rounds = some p ∧
      (p.Counted ↔
        CompletesOnce rounds (socketsOf ClientSocket.Blocks clients maxClientCount)) := by
  obtain ⟨n, p, hconnect, hrounds, hadded⟩ :=
    exists_connectClients heap clients rounds (t := .construct maxClientCount)
      (m := maxClientCount) rfl rfl
  have hconnected : (socketsOf ClientSocket.Connects clients maxClientCount).Nodup :=
    hsockets.nodup fun _ => And.left
  have hblocked : (socketsOf ClientSocket.Blocks clients maxClientCount).Nodup :=
    hsockets.nodup fun _ => And.left
  have hdisjoint : List.Disjoint (socketsOf ClientSocket.Connects clients maxClientCount)
      (socketsOf ClientSocket.Blocks clients maxClientCount) :=
    hsockets.disjoint (fun _ => And.left) (fun _ => And.left)
      fun c hc hblocks => by simp [ClientSocket.Blocks, hc.2] at hblocks
  refine ⟨p, hconnect, hadded.counted_iff.trans ?_⟩
  rw [List.nodup_append', and_iff_right hconnected, and_iff_left, nodup_completed_iff hblocked]
  · simp only [CompletesOnce, ← hrounds]
  · intro fd hfd hcompleted
    obtain ⟨k, -, hk⟩ := List.mem_flatMap.1 hcompleted
    exact hdisjoint hfd (List.mem_of_mem_filter hk)

/-- Of three clients one is connected at once, one is refused, and one is connected in the second
round; the first one times out. -/
def threeClients : ℕ → ClientSocket
  | 0 => ⟨3, .connected⟩
  | 1 => ⟨4, .failed 10061⟩
  | _ => ⟨5, .failed WSAEWOULDBLOCK⟩

/-- The rounds of `threeClients`. -/
def secondRound (k : ℕ) : PollOutcome PendingEvents :=
  if k = 1 then .polled 1 fun _ => ⟨POLLOUT, 0⟩ else .polled 0 fun _ => ⟨0, 0⟩

/-- Two of `threeClients` are counted. -/
theorem connectClients_counted_threeClients :
    (∃ p ∈ (PollThread.construct 3).connectClients (fun _ => ⟨Session.zeroMemory, 0⟩) threeClients
      secondRound, p.thread.mPollFDs.keys = [5, 3]) ∧
    ∃ p, (PollThread.construct 3).connectClients (fun _ => ⟨Session.zeroMemory, 0⟩) threeClients
      secondRound = some p ∧ p.Counted := by
  refine ⟨by decide +kernel, ?_⟩
  have hsockets : DistinctSockets threeClients 3 := by decide +kernel
  obtain ⟨p, hconnect, hcounted⟩ :=
    connectClients_counted_iff (fun _ => ⟨Session.zeroMemory, 0⟩) secondRound hsockets
  refine ⟨p, hconnect, hcounted.2 fun fd _ j k hlt _ hboth => ?_⟩
  have honly : ∀ k, (secondRound k).Completes fd → k = 1 := by
    intro k hk
    by_contra hne
    rw [secondRound, if_neg hne] at hk
    exact hk.1 rfl
  have hj := honly j hboth.1
  have hk := honly k hboth.2
  omega

/-- Two clients that are being connected; the first one is connected in the first round, and both
are writable in the rounds behind it. -/
def twoPending (count : ℕ) : ClientSocket := ⟨3 + count, .failed WSAEWOULDBLOCK⟩

/-- The rounds of `twoPending`. -/
def firstThenBoth (k : ℕ) : PollOutcome PendingEvents :=
  if k = 0 then .polled 1 fun fd => ⟨if fd = 3 then POLLOUT else 0, 0⟩
  else .polled 2 fun _ => ⟨POLLOUT, 0⟩

/-- **Clients that are counted more than once.**  The results of the rounds of `twoPending` are 1,
2, 2 and so on, and never add up to 2: after six rounds eleven clients have been counted, and eleven
`Session`s have been allocated for two sockets. -/
theorem connectClients_counts_twice :
    DistinctSockets twoPending 2 ∧
    ∃ p ∈ (PollThread.construct 2).connectClients (fun _ => ⟨Session.zeroMemory, 0⟩) twoPending
      firstThenBoth, p.thread.mCurrentClientCount = 11 ∧ p.allocated = 11 ∧
        p.thread.mPollFDs.keys = [4, 3] ∧ ¬ p.Counted := by
  refine ⟨by decide +kernel, ?_⟩
  obtain ⟨p, hp, hcount, hallocated, hkeys⟩ : ∃ p ∈ (PollThread.construct 2).connectClients
      (fun _ => ⟨Session.zeroMemory, 0⟩) twoPending firstThenBoth,
      p.thread.mCurrentClientCount = 11 ∧ p.allocated = 11 ∧
        p.thread.mPollFDs.keys = [4, 3] := by
    decide +kernel
  refine ⟨p, hp, hcount, hallocated, hkeys, fun hcounted => ?_⟩
  have heq := hcounted.count
  rw [hcount, hkeys] at heq
  exact absurd heq (by decide)

/-! ## The thread from its start to its end -/

/-- `Run`, if `mIsRunning` is true before each of the `outcomes` and false behind them. -/
def PollThread.run (debug : Bool) (heap : Heap) (clients : ℕ → ClientSocket)
    (rounds : ℕ → PollOutcome PendingEvents) (outcomes : List (PollOutcome ClientEvents))
    (t : PollThread) : Option PollRun := do
  let p ← t.connectClients heap clients rounds
  assertion debug (p.thread.mCurrentClientCount = p.thread.mPollFDs.keys.length)
  (PollRun.machine debug).exec ⟨p.thread, []⟩ (outcomes.map .loop ++ [.clear])

lemma mem_socketsOf {P : ClientSocket → Prop} [DecidablePred P] {clients : ℕ → ClientSocket} {n : ℕ}
    {fd : SOCKET} (h : fd ∈ socketsOf P clients n) : ∃ c, P c ∧ c.clientSocket = fd := by
  obtain ⟨c, hc, rfl⟩ := List.mem_map.1 h
  exact ⟨c, of_decide_eq_true (List.mem_filter.1 hc).2, rfl⟩

lemma ConnectRun.Added.wellFormed {p p' : ConnectRun} {fds : List SOCKET} (h : p.Added fds p')
    (hp : p.thread.WellFormed) (hfds : ∀ fd ∈ fds, fd ≠ INVALID_SOCKET) :
    p'.thread.WellFormed := by
  obtain ⟨-, -, entries, rfl, hentries, hmap⟩ := h
  rw [PollThread.wellFormed_iff] at hp ⊢
  intro fd session hlookup
  rw [hmap] at hlookup
  rcases AList.lookup_insertAll hlookup with hnew | hold
  · exact ⟨hfds fd (List.mem_map_of_mem hnew), hentries _ hnew⟩
  · exact hp fd session hold

/-- What `ConnectClients` leaves in the map are sockets with their sessions. -/
theorem connectClients_wellFormed {heap : Heap} {m : ℕ} {clients : ℕ → ClientSocket}
    {rounds : ℕ → PollOutcome PendingEvents} {p : ConnectRun}
    (h : (PollThread.construct m).connectClients heap clients rounds = some p) :
    p.thread.WellFormed := by
  obtain ⟨n, p', hconnect, -, hadded⟩ :=
    exists_connectClients heap clients rounds (t := .construct m) (m := m) rfl rfl
  obtain rfl := Option.some.inj (h.symm.trans hconnect)
  refine hadded.wellFormed nofun fun fd hfd => ?_
  rcases List.mem_append.1 hfd with hconnected | hcompleted
  · obtain ⟨c, hc, rfl⟩ := mem_socketsOf hconnected
    exact hc.1
  · obtain ⟨k, -, hk⟩ := List.mem_flatMap.1 hcompleted
    obtain ⟨c, hc, rfl⟩ := mem_socketsOf (List.mem_of_mem_filter hk)
    exact hc.1

/-- **A whole run of the thread.**  If the clients that are polled are balanced, every socket that
`ConnectClients` has left in the map has been closed exactly once when `Run` returns. -/
theorem run_closes_once {debug : Bool} {heap : Heap} {m : ℕ} {clients : ℕ → ClientSocket}
    {rounds : ℕ → PollOutcome PendingEvents} {outcomes : List (PollOutcome ClientEvents)}
    {p : PollRun} (h : (PollThread.construct m).run debug heap clients rounds outcomes = some p) :
    ∃ q, (PollThread.construct m).connectClients heap clients rounds = some q ∧
      ((PollRun.machine debug).Along PollRun.Balanced ⟨q.thread, []⟩ (outcomes.map .loop) →
        p.closed.Perm q.thread.mPollFDs.keys) := by
  obtain ⟨q, hconnect, h⟩ := Option.bind_eq_some_iff.1 h
  obtain ⟨_, -, hexec⟩ := Option.bind_eq_some_iff.1 h
  refine ⟨q, hconnect, fun hbalanced => ?_⟩
  obtain ⟨p', hloops, hclear⟩ := StepMachine.exec_append_eq_some.1 hexec
  obtain ⟨hinv, honce⟩ := PollRun.Inv.of_exec
    (PollRun.inv_start (connectClients_wellFormed hconnect)) hbalanced hloops
  obtain rfl := Option.some.inj hclear
  exact hinv.clear_perm q.thread.mPollFDs.keys_nodup honce

end Test

end CoreServer
