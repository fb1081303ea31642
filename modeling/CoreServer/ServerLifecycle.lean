import CoreServer.Types
import CoreServer.Lib.StepMachine
import Mathlib.Data.Finset.Basic

/-!
# The life cycle of the server (`Server.cpp`)

`Start` and `Stop` of one `Server`, called one after the other in any order, with every outcome of
the system calls that they make.  The descriptors that a call of `Start` has opened and that nothing
has closed are recorded; the kernel gives a number that is not one of them.  In a release build
`ASSERT` is empty.
-/

namespace CoreServer

/-- The members of `Server` that hold descriptors, `mIsRunning`, the descriptors opened by a `Start`
that are still open, and what the last call, if it was one of `Start`, has returned. -/
structure ServerLifecycle where
  mListenFD : SocketFD
  mEpollFD : ℤ
  mSendPollFD : ℤ
  mIsRunning : Bool
  openFDs : Finset SocketFD
  returned : Option Bool
deriving DecidableEq

/-- What the kernel answers in `CreateListenSocket`: the result of `socket`, and which of the other
calls succeed. -/
structure ListenResults where
  socket : SocketFD
  setsockopt : Bool
  bind : Bool
  listen : Bool
deriving DecidableEq, Repr

/-- What the kernel answers in `Start`: the results of both calls of `epoll_create1`, for each
worker thread the result of `eventfd` and whether `pthread_create` succeeds, and what it answers in
`CreateListenSocket`. -/
structure StartResults where
  epollFD : ℤ
  sendPollFD : ℤ
  workers : List (ℤ × Bool)
  listenSocket : ListenResults
deriving DecidableEq, Repr

/-- Every system call of `CreateListenSocket` succeeds. -/
def ListenResults.Succeed (r : ListenResults) : Prop :=
  r.socket ≠ sINVALID_SOCKET_FD ∧ r.setsockopt = true ∧ r.bind = true ∧ r.listen = true

instance (r : ListenResults) : Decidable r.Succeed := inferInstanceAs (Decidable (_ ∧ _ ∧ _ ∧ _))

/-- A call of `Start` or of `Stop`. -/
inductive LifecycleCall where
  | start (r : StartResults)
  | stop
deriving DecidableEq, Repr

/-- A system call that opens a descriptor returns `fd`: `-1`, or a number that is not in use. -/
def openFD (openFDs : Finset SocketFD) (fd : ℤ) : Option (Finset SocketFD) :=
  if fd = sINVALID_ID then some openFDs
  else if 0 ≤ fd ∧ fd ∉ openFDs then some (insert fd openFDs)
  else none

/-- `WorkerThreadPool::Start`, up to the first `pthread_create` that fails.  Neither result of
`eventfd` is tested, nor the result of the function in `Server::Start`. -/
def startWorkers (openFDs : Finset SocketFD) : List (ℤ × Bool) → Option (Finset SocketFD)
  | [] => some openFDs
  | (mEventFD, created) :: workers => do
    let openFDs ← openFD openFDs mEventFD
    if created then startWorkers openFDs workers else return openFDs

/-- `CreateListenSocket`: the socket, and the descriptors that are open then. -/
def createListenSocket (openFDs : Finset SocketFD) (r : ListenResults) :
    Option (SocketFD × Finset SocketFD) := do
  let listenFD := r.socket
  let openFDs ← openFD openFDs listenFD
  if listenFD = sINVALID_SOCKET_FD then return (sINVALID_SOCKET_FD, openFDs)
  else if r.setsockopt = false then return (sINVALID_SOCKET_FD, openFDs.erase listenFD)
  else if r.bind = false then return (sINVALID_SOCKET_FD, openFDs.erase listenFD)
  else if r.listen = false then return (sINVALID_SOCKET_FD, openFDs.erase listenFD)
  else return (listenFD, openFDs)

namespace ServerLifecycle

/-- `Server::Server`, which leaves `mEpollFD` and `mSendPollFD` as they are in memory. -/
def construct (epollFD sendPollFD : ℤ) : ServerLifecycle where
  mListenFD := sINVALID_SOCKET_FD
  mEpollFD := epollFD
  mSendPollFD := sendPollFD
  mIsRunning := false
  openFDs := ∅
  returned := none

/-- `Server::Start`. -/
def start (s : ServerLifecycle) (r : StartResults) : Option ServerLifecycle := do
  let openFDs ← openFD s.openFDs r.epollFD
  let s := { s with mEpollFD := r.epollFD, openFDs := openFDs }
  if s.mEpollFD = sINVALID_ID then return { s with returned := some false }
  else
    let openFDs ← openFD s.openFDs r.sendPollFD
    let s := { s with mSendPollFD := r.sendPollFD, openFDs := openFDs }
    if s.mSendPollFD = sINVALID_ID then return { s with returned := some false }
    else
      let openFDs ← startWorkers s.openFDs r.workers
      let (listenFD, openFDs) ← createListenSocket openFDs r.listenSocket
      return { s with
        mListenFD := listenFD
        mIsRunning := true
        openFDs := openFDs
        returned := some true }

/-- `Server::CloseListenSocket`. -/
def closeListenSocket (s : ServerLifecycle) : ServerLifecycle :=
  if s.mListenFD ≠ sINVALID_SOCKET_FD then
    { s with openFDs := s.openFDs.erase s.mListenFD, mListenFD := sINVALID_SOCKET_FD }
  else s

/-- `close(mEpollFD)` in `Stop`. -/
def closeEpoll (s : ServerLifecycle) : ServerLifecycle :=
  if s.mEpollFD ≠ sINVALID_ID then
    { s with openFDs := s.openFDs.erase s.mEpollFD, mEpollFD := sINVALID_ID }
  else s

/-- `close(mSendPollFD)` in `Stop`. -/
def closeSendPoll (s : ServerLifecycle) : ServerLifecycle :=
  if s.mSendPollFD ≠ sINVALID_ID then
    { s with openFDs := s.openFDs.erase s.mSendPollFD, mSendPollFD := sINVALID_ID }
  else s

/-- `Server::Stop`.  `WorkerThreadPool::Stop`, which comes last, closes nothing. -/
def stop (s : ServerLifecycle) : ServerLifecycle :=
  if s.mIsRunning = false then { s with returned := none }
  else
    let s := s.closeListenSocket
    let s := { s with mIsRunning := false, returned := none }
    -- the listening socket is closed a second time, unless it is `-1` now
    s.closeListenSocket.closeEpoll.closeSendPoll

/-- One call. -/
def step (s : ServerLifecycle) : LifecycleCall → Option ServerLifecycle
  | .start r => s.start r
  | .stop => some s.stop

/-- The machine of the calls of `Start` and `Stop`. -/
def machine : StepMachine ServerLifecycle LifecycleCall := ⟨step⟩

/-- A running server has three open descriptors, a server that does not run has left none open, and
`Start` has told whether the server runs. -/
def Sound (s : ServerLifecycle) : Prop :=
  (s.mIsRunning = true →
    s.mListenFD ∈ s.openFDs ∧ s.mEpollFD ∈ s.openFDs ∧ s.mSendPollFD ∈ s.openFDs) ∧
  (s.mIsRunning = false → s.openFDs = ∅) ∧
  ∀ result ∈ s.returned, result = s.mIsRunning

instance (s : ServerLifecycle) : Decidable s.Sound :=
  inferInstanceAs (Decidable (_ ∧ _ ∧ ∀ result ∈ s.returned, result = s.mIsRunning))

/-- Every descriptor that has been opened and not closed is held by a member of the server. -/
def HoldsAll (s : ServerLifecycle) : Prop :=
  s.openFDs ⊆ {s.mListenFD, s.mEpollFD, s.mSendPollFD}

/-- Both epolls and the listening socket are created, or the server does not run and already the
first `epoll_create1` fails; a running server is stopped if it holds all its descriptors. -/
def Balanced (s : ServerLifecycle) : LifecycleCall → Prop
  | .start r =>
    (s.mIsRunning = false ∧ r.epollFD = sINVALID_ID) ∨
      (r.epollFD ≠ sINVALID_ID ∧ r.sendPollFD ≠ sINVALID_ID ∧ r.listenSocket.Succeed)
  | .stop => s.mIsRunning = true → s.HoldsAll

instance (s : ServerLifecycle) : ∀ c, Decidable (s.Balanced c)
  | .start _ => inferInstanceAs (Decidable (_ ∨ _ ∧ _ ∧ _))
  | .stop => inferInstanceAs (Decidable (s.mIsRunning = true → s.openFDs ⊆ _))

end ServerLifecycle

/-! ## The system calls -/

/-- `-1` is not an open descriptor. -/
def Descriptors (openFDs : Finset SocketFD) : Prop := ∀ fd ∈ openFDs, 0 ≤ fd

variable {openFDs openFDs' : Finset SocketFD}

lemma Descriptors.invalid_notMem (h : Descriptors openFDs) : sINVALID_ID ∉ openFDs :=
  fun hmem => absurd (h _ hmem) (by decide)

lemma Descriptors.erase_invalid (h : Descriptors openFDs) :
    openFDs.erase sINVALID_ID = openFDs := Finset.erase_eq_of_notMem h.invalid_notMem

lemma Descriptors.erase (h : Descriptors openFDs) (fd : ℤ) : Descriptors (openFDs.erase fd) :=
  fun fd' hfd' => h fd' (Finset.mem_of_mem_erase hfd')

lemma Descriptors.insert (h : Descriptors openFDs) {fd : ℤ} (hfd : 0 ≤ fd) :
    Descriptors (insert fd openFDs) := by
  intro fd' hfd'
  rcases Finset.mem_insert.1 hfd' with rfl | hold
  · exact hfd
  · exact h fd' hold

lemma openFD_cases {fd : ℤ} (h : openFD openFDs fd = some openFDs') :
    (fd = sINVALID_ID ∧ openFDs' = openFDs) ∨
      (fd ≠ sINVALID_ID ∧ 0 ≤ fd ∧ fd ∉ openFDs ∧ openFDs' = insert fd openFDs) := by
  unfold openFD at h
  split at h
  · exact Or.inl ⟨‹_›, (Option.some.inj h).symm⟩
  · obtain ⟨⟨hfd, hnew⟩, h⟩ := Option.ite_none_right_eq_some.1 h
    exact Or.inr ⟨‹_›, hfd, hnew, (Option.some.inj h).symm⟩

/-- The eventfds are opened, and no descriptor is closed. -/
lemma startWorkers_spec {workers : List (ℤ × Bool)}
    (h : startWorkers openFDs workers = some openFDs') :
    openFDs ⊆ openFDs' ∧ (Descriptors openFDs → Descriptors openFDs') := by
  induction workers generalizing openFDs with
  | nil =>
    obtain rfl := Option.some.inj h
    exact ⟨Finset.Subset.refl _, id⟩
  | cons worker workers ih =>
    obtain ⟨mEventFD, created⟩ := worker
    obtain ⟨openFDs₁, hopen, h⟩ := Option.bind_eq_some_iff.1 h
    have hfirst : openFDs ⊆ openFDs₁ ∧ (Descriptors openFDs → Descriptors openFDs₁) := by
      rcases openFD_cases hopen with ⟨-, rfl⟩ | ⟨-, hfd, -, rfl⟩
      · exact ⟨Finset.Subset.refl _, id⟩
      · exact ⟨Finset.subset_insert _ _, fun hold => hold.insert hfd⟩
    split at h
    · exact ⟨hfirst.1.trans (ih h).1, fun hold => (ih h).2 (hfirst.2 hold)⟩
    · exact Option.some.inj h ▸ hfirst

/-- A listening socket, or `-1` after every failure; then the socket has been closed. -/
lemma createListenSocket_cases {r : ListenResults} {listenFD : SocketFD}
    (h : createListenSocket openFDs r = some (listenFD, openFDs')) :
    (r.Succeed ∧ 0 ≤ listenFD ∧ openFDs' = insert listenFD openFDs) ∨
      (¬ r.Succeed ∧ listenFD = sINVALID_SOCKET_FD ∧ openFDs' = openFDs) := by
  obtain ⟨openFDs₁, hopen, hrest⟩ := Option.bind_eq_some_iff.1 h
  clear h
  rcases openFD_cases hopen with ⟨hinvalid, rfl⟩ | ⟨hvalid, hfd, hnew, rfl⟩
  · rw [if_pos (show r.socket = sINVALID_SOCKET_FD from hinvalid)] at hrest
    obtain ⟨rfl, rfl⟩ := Prod.mk.inj (Option.some.inj hrest)
    exact Or.inr ⟨fun hsucceed => hsucceed.1 hinvalid, rfl, rfl⟩
  · rw [if_neg (show r.socket ≠ sINVALID_SOCKET_FD from hvalid)] at hrest
    split_ifs at hrest with hsetsockopt hbind hlisten
    · obtain ⟨rfl, rfl⟩ := Prod.mk.inj (Option.some.inj hrest)
      exact Or.inr ⟨fun hs => by simp [hs.2.1] at hsetsockopt, rfl, Finset.erase_insert hnew⟩
    · obtain ⟨rfl, rfl⟩ := Prod.mk.inj (Option.some.inj hrest)
      exact Or.inr ⟨fun hs => by simp [hs.2.2.1] at hbind, rfl, Finset.erase_insert hnew⟩
    · obtain ⟨rfl, rfl⟩ := Prod.mk.inj (Option.some.inj hrest)
      exact Or.inr ⟨fun hs => by simp [hs.2.2.2] at hlisten, rfl, Finset.erase_insert hnew⟩
    · obtain ⟨rfl, rfl⟩ := Prod.mk.inj (Option.some.inj hrest)
      exact Or.inl ⟨⟨hvalid, by simpa using hsetsockopt, by simpa using hbind,
        by simpa using hlisten⟩, hfd, rfl⟩

namespace ServerLifecycle

variable {s s' : ServerLifecycle}

/-! ## One call -/

/-- Everything that a call of `Start` can do. -/
inductive StartMoves (s : ServerLifecycle) (r : StartResults) : ServerLifecycle → Prop
  | epollFails (hepoll : r.epollFD = sINVALID_ID) :
    StartMoves s r { s with mEpollFD := sINVALID_ID, returned := some false }
  | sendPollFails (hepoll : r.epollFD ≠ sINVALID_ID) (hepollFD : 0 ≤ r.epollFD)
      (hsendPoll : r.sendPollFD = sINVALID_ID) :
    StartMoves s r { s with
      mEpollFD := r.epollFD
      mSendPollFD := sINVALID_ID
      openFDs := insert r.epollFD s.openFDs
      returned := some false }
  | runs (hepoll : r.epollFD ≠ sINVALID_ID) (hsendPoll : r.sendPollFD ≠ sINVALID_ID)
      {openFDs openFDs' : Finset SocketFD} {listenFD : SocketFD}
      (hsub : insert r.sendPollFD (insert r.epollFD s.openFDs) ⊆ openFDs)
      (hvalid : Descriptors s.openFDs → Descriptors openFDs)
      (hlisten : (r.listenSocket.Succeed ∧ 0 ≤ listenFD ∧ openFDs' = insert listenFD openFDs) ∨
        (¬ r.listenSocket.Succeed ∧ listenFD = sINVALID_SOCKET_FD ∧ openFDs' = openFDs)) :
    StartMoves s r ⟨listenFD, r.epollFD, r.sendPollFD, true, openFDs', some true⟩

theorem startMoves_of_start {r : StartResults} (h : s.start r = some s') : s.StartMoves r s' := by
  obtain ⟨openFDs₁, hepoll, h⟩ := Option.bind_eq_some_iff.1 h
  dsimp only at h
  rcases openFD_cases hepoll with ⟨hinvalid, rfl⟩ | ⟨hvalid, hepollFD, -, rfl⟩
  · rw [if_pos hinvalid] at h
    obtain rfl := Option.some.inj h
    rw [hinvalid]
    exact .epollFails hinvalid
  · rw [if_neg hvalid] at h
    obtain ⟨openFDs₂, hsendPoll, h⟩ := Option.bind_eq_some_iff.1 h
    rcases openFD_cases hsendPoll with ⟨hinvalid, rfl⟩ | ⟨hvalid', hsendPollFD, -, rfl⟩
    · rw [if_pos hinvalid] at h
      obtain rfl := Option.some.inj h
      rw [hinvalid]
      exact .sendPollFails hvalid hepollFD hinvalid
    · rw [if_neg hvalid'] at h
      obtain ⟨openFDs₃, hworkers, h⟩ := Option.bind_eq_some_iff.1 h
      obtain ⟨⟨listenFD, openFDs₄⟩, hlisten, h⟩ := Option.bind_eq_some_iff.1 h
      obtain rfl := Option.some.inj h
      obtain ⟨hsub, hworkersValid⟩ := startWorkers_spec hworkers
      exact .runs hvalid hvalid' hsub
        (fun hold => hworkersValid ((hold.insert hepollFD).insert hsendPollFD))
        (createListenSocket_cases hlisten)

lemma closeListenSocket_eq (hs : Descriptors s.openFDs) :
    s.closeListenSocket = { s with
      mListenFD := sINVALID_SOCKET_FD
      openFDs := s.openFDs.erase s.mListenFD } := by
  by_cases h : s.mListenFD = sINVALID_SOCKET_FD
  · rw [closeListenSocket, if_neg (not_not.2 h), h, ← h]
    rw [show s.openFDs.erase s.mListenFD = s.openFDs from h ▸ hs.erase_invalid]
  · exact if_pos h

lemma closeEpoll_eq (hs : Descriptors s.openFDs) :
    s.closeEpoll = { s with
      mEpollFD := sINVALID_ID
      openFDs := s.openFDs.erase s.mEpollFD } := by
  by_cases h : s.mEpollFD = sINVALID_ID
  · rw [closeEpoll, if_neg (not_not.2 h), h, ← h]
    rw [show s.openFDs.erase s.mEpollFD = s.openFDs from h ▸ hs.erase_invalid]
  · exact if_pos h

lemma closeSendPoll_eq (hs : Descriptors s.openFDs) :
    s.closeSendPoll = { s with
      mSendPollFD := sINVALID_ID
      openFDs := s.openFDs.erase s.mSendPollFD } := by
  by_cases h : s.mSendPollFD = sINVALID_ID
  · rw [closeSendPoll, if_neg (not_not.2 h), h, ← h]
    rw [show s.openFDs.erase s.mSendPollFD = s.openFDs from h ▸ hs.erase_invalid]
  · exact if_pos h

lemma stop_of_not_running (hrunning : s.mIsRunning = false) :
    s.stop = { s with returned := none } := if_pos hrunning

/-- A running server closes what its members hold. -/
lemma stop_of_running (hs : Descriptors s.openFDs) (hrunning : s.mIsRunning = true) :
    s.stop = ⟨sINVALID_SOCKET_FD, sINVALID_ID, sINVALID_ID, false,
      ((s.openFDs.erase s.mListenFD).erase s.mEpollFD).erase s.mSendPollFD, none⟩ := by
  have hlisten : (s.openFDs.erase s.mListenFD).erase sINVALID_SOCKET_FD =
      s.openFDs.erase s.mListenFD := (hs.erase _).erase_invalid
  rw [stop, if_neg (by simp [hrunning]), closeListenSocket_eq hs]
  dsimp only
  rw [closeListenSocket_eq (hs.erase _)]
  dsimp only
  rw [hlisten, closeEpoll_eq (hs.erase _), closeSendPoll_eq ((hs.erase _).erase _)]

/-- The record holds descriptors. -/
lemma descriptors_step (hs : Descriptors s.openFDs) {c : LifecycleCall} (h : s.step c = some s') :
    Descriptors s'.openFDs := by
  cases c with
  | start r =>
    cases startMoves_of_start h with
    | epollFails => exact hs
    | sendPollFails hepoll hepollFD => exact hs.insert hepollFD
    | runs hepoll hsendPoll hsub hvalid hlisten =>
      rcases hlisten with ⟨-, hlistenFD, rfl⟩ | ⟨-, -, rfl⟩
      · exact (hvalid hs).insert hlistenFD
      · exact hvalid hs
  | stop =>
    obtain rfl := Option.some.inj h
    cases hrunning : s.mIsRunning with
    | false =>
      rw [stop_of_not_running hrunning]
      exact hs
    | true =>
      rw [stop_of_running hs hrunning]
      exact ((hs.erase _).erase _).erase _

/-- **A call that is balanced.** -/
theorem Balanced.sound (hs : Descriptors s.openFDs) (hsound : s.Sound) {c : LifecycleCall}
    (hc : s.Balanced c) (h : s.step c = some s') : s'.Sound := by
  cases c with
  | start r =>
    cases startMoves_of_start h with
    | epollFails hepoll =>
      have hstopped : s.mIsRunning = false := (hc.resolve_right fun hc => hc.1 hepoll).1
      refine ⟨fun hrunning => ?_, hsound.2.1, ?_⟩
      · cases hstopped.symm.trans hrunning
      · rintro result ⟨⟩
        exact hstopped.symm
    | sendPollFails hepoll hepollFD hsendPoll =>
      exact absurd hsendPoll (hc.resolve_left fun hc => hepoll hc.2).2.1
    | runs hepoll hsendPoll hsub hvalid hlisten =>
      rcases hlisten with ⟨-, -, rfl⟩ | ⟨hfails, -, -⟩
      · have hsendPollFD := hsub (Finset.mem_insert_self _ _)
        have hepollFD := hsub (Finset.mem_insert_of_mem (Finset.mem_insert_self _ _))
        refine ⟨fun _ => ⟨Finset.mem_insert_self _ _, Finset.mem_insert_of_mem hepollFD,
          Finset.mem_insert_of_mem hsendPollFD⟩, nofun, ?_⟩
        rintro result ⟨⟩
        rfl
      · exact absurd (hc.resolve_left fun hc => hepoll hc.2).2.2 hfails
  | stop =>
    obtain rfl := Option.some.inj h
    cases hrunning : s.mIsRunning with
    | false =>
      rw [stop_of_not_running hrunning]
      exact ⟨hsound.1, hsound.2.1, nofun⟩
    | true =>
      have hall : s.HoldsAll := hc hrunning
      rw [stop_of_running hs hrunning]
      refine ⟨nofun, fun _ => Finset.eq_empty_of_forall_notMem fun fd hfd => ?_, nofun⟩
      -- a descriptor that is left open is none of the members
      obtain ⟨hsendPoll, hfd⟩ := Finset.mem_erase.1 hfd
      obtain ⟨hepoll, hfd⟩ := Finset.mem_erase.1 hfd
      obtain ⟨hlisten, hfd⟩ := Finset.mem_erase.1 hfd
      have hmember := hall hfd
      simp [hlisten, hepoll, hsendPoll] at hmember

/-- A call after which the server is sound has been balanced. -/
theorem balanced_of_sound (hs : Descriptors s.openFDs) {c : LifecycleCall}
    (h : s.step c = some s') (hsound : s'.Sound) : s.Balanced c := by
  cases c with
  | start r =>
    cases startMoves_of_start h with
    | epollFails hepoll =>
      refine Or.inl ⟨?_, hepoll⟩
      by_contra hrunning
      exact hs.invalid_notMem (hsound.1 (by simpa using hrunning)).2.1
    | sendPollFails hepoll hepollFD hsendPoll =>
      -- the first epoll stays open
      cases hrunning : s.mIsRunning with
      | false =>
        have hempty : insert r.epollFD s.openFDs = ∅ := hsound.2.1 hrunning
        exact absurd hempty (Finset.insert_ne_empty _ _)
      | true =>
        exact absurd (hsound.1 hrunning).2.2 (hs.insert hepollFD).invalid_notMem
    | runs hepoll hsendPoll hsub hvalid hlisten =>
      rcases hlisten with ⟨hsucceed, -, -⟩ | ⟨-, rfl, rfl⟩
      · exact Or.inr ⟨hepoll, hsendPoll, hsucceed⟩
      · exact absurd (hsound.1 rfl).1 (hvalid hs).invalid_notMem
  | stop =>
    obtain rfl := Option.some.inj h
    intro hrunning fd hfd
    rw [stop_of_running hs hrunning] at hsound
    by_contra hmember
    simp only [Finset.mem_insert, Finset.mem_singleton, not_or] at hmember
    have hleft : fd ∈ ((s.openFDs.erase s.mListenFD).erase s.mEpollFD).erase s.mSendPollFD :=
      Finset.mem_erase.2 ⟨hmember.2.2, Finset.mem_erase.2 ⟨hmember.2.1,
        Finset.mem_erase.2 ⟨hmember.1, hfd⟩⟩⟩
    have hempty : ((s.openFDs.erase s.mListenFD).erase s.mEpollFD).erase s.mSendPollFD = ∅ :=
      hsound.2.1 rfl
    rw [hempty] at hleft
    exact absurd hleft (Finset.notMem_empty _)

lemma sound_construct {epollFD sendPollFD : ℤ} : (construct epollFD sendPollFD).Sound :=
  ⟨nofun, fun _ => rfl, nofun⟩

end ServerLifecycle

open ServerLifecycle

/-- **When the life cycle of the server is sound.**  After every call of a sequence of calls of
`Start` and `Stop`, a running server has its three descriptors, a stopped one has left none open
and `Start` has told which it is, exactly if all the calls are balanced. -/
theorem server_sound_iff (epollFD sendPollFD : ℤ) {calls : List LifecycleCall} {s : ServerLifecycle}
    (hcalls : machine.exec (construct epollFD sendPollFD) calls = some s) :
    machine.Always Sound (construct epollFD sendPollFD) calls ↔
      machine.Along Balanced (construct epollFD sendPollFD) calls := by
  have hstart : Descriptors (construct epollFD sendPollFD).openFDs := nofun
  constructor
  · exact StepMachine.along_of_always_of_exec (I := fun s => Descriptors s.openFDs)
      (fun s c s' hs h => descriptors_step hs h) (fun s c s' hs _ h => balanced_of_sound hs h)
      hstart hcalls
  · exact StepMachine.always_of_along
      (I := fun s : ServerLifecycle => Descriptors s.openFDs ∧ s.Sound)
      (fun s c s' hs hc h => ⟨descriptors_step hs.1 h, Balanced.sound hs.1 hs.2 hc h⟩)
      (fun _ hs => hs.2)
      ⟨hstart, sound_construct⟩

/-- The calls of a server without worker threads that is started, stopped and started in vain. -/
def startStopStart : List LifecycleCall :=
  [.start ⟨3, 4, [], 5, true, true, true⟩, .stop, .start ⟨-1, -1, [], -1, false, false, false⟩]

/-- A server without worker threads is sound until a `Start` that fails at its first call. -/
theorem server_sound_startStopStart :
    machine.Always Sound (construct 0 0) startStopStart :=
  (server_sound_iff 0 0 (by decide +kernel : machine.exec (construct 0 0) startStopStart =
    some ⟨-1, -1, -1, false, ∅, some false⟩)).2 (by decide +kernel)

/-- `bind` fails in a server with one worker thread: `Start` returns true, and the server runs
without a listening socket. -/
theorem server_runs_without_listenSocket :
    ¬ machine.Always Sound (construct 0 0) [.start ⟨3, 4, [(5, true)], 6, true, false, false⟩] := by
  intro halways
  have hsound := halways _ ⟨-1, 3, 4, true, {5, 4, 3}, some true⟩ (List.prefix_refl _)
    (by decide +kernel)
  exact absurd (hsound.1 rfl).1 (by decide)

end CoreServer
