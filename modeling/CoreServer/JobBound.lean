import CoreServer.ServerMoves

/-!
# What a step of a job can do

A job object of the server is a token.  It travels from its registration in the epoll set
through the events that `PollJob` has fetched and the queue of the pool to a worker, which
gives it back to the epoll set (`AcceptJob`, `RecvJob`) or to the queue (`PollJob`).
`StepBound` says what one step of a job can do to the tokens that the epoll set and the
worker have, to the free indices and to the receive buffers.
-/

namespace CoreServer

open WorkerThreadPool

/-! ## The job objects that a thread has in its hands -/

/-- The job objects that a worker in `PollJob::Execute` has not added yet. -/
def PollPC.hand : PollPC → List ServerJob
  | epollWait => [.poll]
  | addEvents jobs => .poll :: jobs
  | addThis => [.poll]
  | returns => []

/-- A worker in a `RecvJob` has not come to the end of the `epoll_ctl` of `Complete`. -/
def RecvPC.beforeMod : RecvPC → Bool
  | isValidSocket | setReceiveStateAfterMod | disconnectAfterMod _ => false
  | _ => true

/-- The job objects that a worker has not given back yet. -/
def JobPC.hand : JobPC → List ServerJob
  | none => []
  | poll pc => pc.hand
  | accept _ => [.accept]
  | recv slot pc => if pc.beforeMod then [.recv slot] else []
  | complete => []

@[simp] lemma JobPC.hand_none : JobPC.none.hand = [] := rfl

@[simp] lemma ServerJob.hand_execute (j : ServerJob) : j.execute.hand = [j] := by
  cases j <;> rfl

/-- The worker is in `Execute` or in `Complete`. -/
def WorkerThreadPool.WorkerPC.inJob {J : Type} : WorkerPC J → Bool
  | execute _ | complete _ => true
  | _ => false

/-- The job object that a thread in `AddJob` has not pushed yet. -/
def pushing {n : ℕ} : Option (AddPC n ServerJob) → List ServerJob
  | some (.push job) => [job]
  | _ => []

/-- The job objects that `Start` has not handed over yet. -/
def StartPC.hand : StartPC → List ServerJob
  | addJob => [.poll, .accept]
  | epollAdd => [.accept]
  | returned => []

/-- Where the control of a worker goes on in its job. -/
def Next.pc : Next → JobPC
  | goto pc => pc
  | addJob _ pc => pc
  | executeReturns result pc => if result then pc else .none
  | completeReturns => .none

/-- The job objects that a worker has in its hands after a step of its job. -/
def Next.hand : Next → List ServerJob
  | addJob job pc => job :: pc.hand
  | next => next.pc.hand

/-- The job that a step registers for the first time. -/
def JobPC.registers : JobPC → Option ServerJob
  | accept (.epollAdd _ _ session) => some (.recv session)
  | _ => Option.none

/-- The slot of a session that `AcceptJob` is adding, up to its registration. -/
def JobPC.newSlot : JobPC → Option ℤ
  | accept (.number _ index) => if 0 ≤ index then some index else Option.none
  | accept (.construct _ index _) => if 0 ≤ index then some index else Option.none
  | accept (.getSession _ clientSession) => some (getIndex clientSession)
  | accept (.epollAdd _ _ session) => some session
  | _ => Option.none

/-- The slot whose receive buffer a worker may read or write: the slot of its `RecvJob`, up to
the end of `epoll_ctl` in `Complete`, or of the session that `AcceptJob` is adding. -/
def JobPC.buffer : JobPC → Option ℤ
  | recv slot pc => if pc.beforeMod then some slot else Option.none
  | pc => pc.newSlot

/-- The ID of a session that is about to be constructed names its slot. -/
def JobPC.IDOk : JobPC → Prop
  | accept (.construct _ index sessionID) =>
    0 ≤ index → index < 65536 → getIndex sessionID = index
  | _ => True

namespace ServerMemory

/-! ## One step of a job -/

/-- The receive buffer in the slot `i`. -/
def recvBuffer (m : ServerMemory) (i : ℤ) : RecvBuffer :=
  (m.group.mSessionVector i.toNat).mRecvJob.mRecvBuffer

variable {m m' : ServerMemory}

/-- A change of one session leaves the other receive buffers alone. -/
lemma recvBuffer_updateSession {slot i : ℤ} (hslot : 0 ≤ slot) (hi : 0 ≤ i)
    {f : Session → Session} (hf : i ≠ slot ∨ ∀ s, (f s).mRecvJob = s.mRecvJob) :
    (m.updateSession slot f).recvBuffer i = m.recvBuffer i := by
  show ((m.updateSession slot f).session i).mRecvJob.mRecvBuffer = _
  rw [session_updateSession hslot hi]
  split
  · rename_i heq
    rw [hf.resolve_left (not_not.2 heq), ← heq]
    rfl
  · rfl

/-- `Disconnect` leaves the receive buffers as they are. -/
lemma DisconnectMoves.recvBuffer {slot i : ℤ} {pc : DisconnectPC} {pc' : Option DisconnectPC}
    (h : DisconnectMoves m slot pc m' pc') (hi : 0 ≤ i) : m'.recvBuffer i = m.recvBuffer i := by
  show (m'.session i).mRecvJob.mRecvBuffer = _
  rcases h.session hi with heq | ⟨-, -, heq⟩
  · rw [heq]
    rfl
  · rw [heq]
    rfl

lemma epollAdd_eq_some {fd : SocketFD} {job : ServerJob} {ok : Bool}
    (h : m.epollAdd fd job ok = some m') :
    (∀ j, m'.epoll.armed j ≤ m.epoll.armed j + [job].count j) ∧ m'.group = m.group := by
  cases ok with
  | false =>
    obtain rfl := Option.some.inj h
    exact ⟨fun _ => Nat.le_add_right _ _, rfl⟩
  | true =>
    simp only [epollAdd, if_true] at h
    split at h
    · obtain ⟨epoll, hadd, h⟩ := Option.bind_eq_some_iff.1 h
      obtain rfl := Option.some.inj h
      refine ⟨fun j => ?_, rfl⟩
      simp only [List.count_singleton, beq_iff_eq]
      exact (EpollSet.armed_add hadd j).le
    · cases h

/-- What a step of a job can do to the job objects, the free indices and the receive
buffers. -/
structure StepBound (m m' : ServerMemory) (pc : JobPC) (next : Next) : Prop where
  /-- No job object is doubled, except for the one that is registered first. -/
  count : ∀ j, m'.epoll.armed j + next.hand.count j ≤
    m.epoll.armed j + pc.hand.count j + pc.registers.toList.count j
  /-- The poll job is not dropped. -/
  poll : pc.hand.count .poll ≤ next.hand.count .poll
  indices : m'.group.mSessionIndexPool.Sublist m.group.mSessionIndexPool
  max_eq : m'.group.mMaxSession = m.group.mMaxSession
  /-- The slot of a new session comes from the free indices. -/
  newSlot : ∀ i, next.pc.newSlot = some i →
    (pc.newSlot = some i ∧ pc.registers = Option.none) ∨
      m.group.mSessionIndexPool = i :: m'.group.mSessionIndexPool
  id_ok : next.pc.IDOk
  /-- Only the receive buffer that the worker may use is written to. -/
  buffers : ∀ i, 0 ≤ i → pc.buffer ≠ some i → m'.recvBuffer i = m.recvBuffer i

/-- A step that leaves the session table and the free indices alone. -/
lemma StepBound.of_group_eq {pc : JobPC} {next : Next}
    (hcount : ∀ j, m'.epoll.armed j + next.hand.count j ≤ m.epoll.armed j + pc.hand.count j)
    (hpoll : pc.hand.count .poll ≤ next.hand.count .poll) (hgroup : m'.group = m.group)
    (hnew : next.pc.newSlot = Option.none) (hid : next.pc.IDOk) : m.StepBound m' pc next where
  count j := (hcount j).trans (Nat.le_add_right _ _)
  poll := hpoll
  indices := by rw [hgroup]
  max_eq := by rw [hgroup]
  newSlot i hi := by simp [hnew] at hi
  id_ok := hid
  buffers i _ _ := by rw [recvBuffer, hgroup, recvBuffer]

/-- A call of the application changes nothing else. -/
lemma StepBound.call {pc : JobPC} {next : Next} (h : m.StepBound m' pc next) (c : Callback) :
    m.StepBound (m'.call c) pc next :=
  ⟨h.count, h.poll, h.indices, h.max_eq, h.newSlot, h.id_ok, h.buffers⟩

lemma PollMoves.bound {pc : PollPC} {next : Next} (h : PollMoves m pc m' next) :
    m.StepBound m' (.poll pc) next := by
  cases h with
  | failed | noEvents | addThis | returns =>
    exact .of_group_eq (fun _ => le_rfl) le_rfl rfl rfl trivial
  | fetched hwait =>
    -- the events that have been fetched are disarmed
    refine .of_group_eq (fun j => ?_) ?_ rfl rfl trivial
    · have hle := EpollSet.armed_wait hwait j
      simp only [epoll_setEpoll, Next.hand, Next.pc, JobPC.hand, PollPC.hand, List.count_cons,
        List.count_nil]
      omega
    · simp [Next.hand, Next.pc, JobPC.hand, PollPC.hand]
  | addEvent =>
    refine .of_group_eq (fun j => ?_) ?_ rfl rfl trivial
    · simp only [Next.hand, JobPC.hand, PollPC.hand, List.count_cons]
      omega
    · simp only [Next.hand, JobPC.hand, PollPC.hand, List.count_cons]
      omega

/-- `AcceptJob` keeps its one job object in the hands of the worker up to `epoll_ctl`. -/
lemma AcceptMoves.bound {pc : AcceptPC} {next : Next} (hid : (JobPC.accept pc).IDOk)
    (hmax : m.group.mMaxSession < 65536) (h : AcceptMoves m pc m' next) :
    m.StepBound m' (.accept pc) next := by
  cases h with
  | accepted | interrupted | noClient | wanted | refused | onConnected =>
    exact .of_group_eq (fun _ => le_rfl) le_rfl rfl rfl trivial
  | allocNone hpool => exact .of_group_eq (fun _ => le_rfl) le_rfl rfl rfl trivial
  | close =>
    exact .of_group_eq (fun j => Nat.add_le_add_right (EpollSet.armed_del_le _ _ j) _) le_rfl rfl
      rfl trivial
  | alloc hpool =>
    refine ⟨fun j => le_rfl, le_rfl, ?_, rfl, fun i hi => Or.inr ?_, trivial, fun _ _ _ => rfl⟩
    · rw [hpool]
      exact List.sublist_cons_self _ _
    · simp only [Next.pc, JobPC.newSlot, Option.ite_none_right_eq_some, Option.some.injEq] at hi
      rw [hpool, hi.2]
  | number =>
    exact ⟨fun j => le_rfl, le_rfl, List.Sublist.refl _, rfl, fun i hi => Or.inl ⟨hi, rfl⟩,
      fun hnonneg hlt => getIndex_packID _ hnonneg hlt, fun _ _ _ => rfl⟩
  | @construct clientFD index sessionID hin =>
    -- the slot of the session is in the table
    have hslot : (JobPC.accept (.construct clientFD index sessionID)).newSlot = some index :=
      if_pos hin.1
    refine ⟨fun j => le_rfl, le_rfl, List.Sublist.refl _, rfl, fun i hi => Or.inl ⟨?_, rfl⟩,
      trivial, fun i hi hne => ?_⟩
    · have hindex := hid hin.1 (hin.2.trans (by omega))
      simp only [Next.pc, JobPC.newSlot, Option.some.injEq] at hi
      rw [hslot, ← hi, hindex]
    · exact recvBuffer_updateSession hin.1 hi (Or.inl fun heq => hne (heq ▸ hslot))
  | getSession =>
    exact ⟨fun j => le_rfl, le_rfl, List.Sublist.refl _, rfl, fun i hi => Or.inl ⟨hi, rfl⟩,
      trivial, fun _ _ _ => rfl⟩
  | registered hopen hadd =>
    -- the receive job of the new session gets its token
    refine ⟨fun j => ?_, le_rfl, List.Sublist.refl _, rfl, fun i hi => ?_, trivial,
      fun _ _ _ => rfl⟩
    · have harmed := EpollSet.armed_add hadd j
      simp only [epoll_setEpoll, Next.hand, Next.pc, JobPC.hand, JobPC.registers,
        Option.toList_some, List.count_singleton, beq_iff_eq] at harmed ⊢
      omega
    · cases hi
  | notRegistered => exact .of_group_eq (fun _ => le_rfl) le_rfl rfl rfl trivial
  | notRearmed =>
    exact .of_group_eq (fun _ => Nat.add_le_add_left (Nat.zero_le _) _) le_rfl rfl rfl trivial
  | rearmed hmod =>
    refine .of_group_eq (fun j => ?_) le_rfl rfl rfl trivial
    have hle := EpollSet.armed_mod_le hmod j
    simp only [epoll_setEpoll, Next.hand, Next.pc, JobPC.hand, List.count_singleton,
      List.count_nil, beq_iff_eq] at hle ⊢
    omega

/-- A `RecvJob` holds at most its own job object. -/
lemma count_poll_recv (slot : ℤ) (pc : RecvPC) : (JobPC.recv slot pc).hand.count .poll = 0 := by
  simp only [JobPC.hand]
  split <;> simp

/-- A step of a `RecvJob` that changes its session. -/
lemma StepBound.of_updateSession {slot : ℤ} {f : Session → Session} {pc : RecvPC} {next : Next}
    (hslot : 0 ≤ slot)
    (hf : (JobPC.recv slot pc).buffer = some slot ∨ ∀ s, (f s).mRecvJob = s.mRecvJob)
    (hhand : next.hand = (JobPC.recv slot pc).hand) (hnew : next.pc.newSlot = Option.none)
    (hid : next.pc.IDOk) : m.StepBound (m.updateSession slot f) (.recv slot pc) next where
  count j := by
    rw [hhand]
    exact Nat.le_add_right _ _
  poll := by rw [hhand]
  indices := List.Sublist.refl _
  max_eq := rfl
  newSlot i hi := by simp [hnew] at hi
  id_ok := hid
  buffers i hi hne := by
    refine recvBuffer_updateSession hslot hi (hf.imp_left fun hbuffer heq => hne ?_)
    rw [hbuffer, heq]

/-- A step of a `RecvJob` in `Disconnect`. -/
lemma StepBound.of_disconnectMoves {slot : ℤ} {dpc : DisconnectPC} {dpc' : Option DisconnectPC}
    {pc : RecvPC} {next : Next} (h : DisconnectMoves m slot dpc m' dpc')
    (hhand : ∀ j, next.hand.count j ≤ (JobPC.recv slot pc).hand.count j)
    (hnew : next.pc.newSlot = Option.none) (hid : next.pc.IDOk) :
    m.StepBound m' (.recv slot pc) next where
  count j := (Nat.add_le_add (h.shrinks.armed_le j) (hhand j)).trans (Nat.le_add_right _ _)
  poll := by
    rw [count_poll_recv]
    exact Nat.zero_le _
  indices := by rw [h.shrinks.pool_eq]
  max_eq := h.shrinks.max_eq
  newSlot i hi := by simp [hnew] at hi
  id_ok := hid
  buffers i hi _ := h.recvBuffer hi

/-- A `RecvJob` keeps its one job object in the hands of the worker up to `epoll_ctl`, and
writes to its receive buffer only before. -/
lemma RecvMoves.bound {slot : ℤ} {pc : RecvPC} {next : Next} (h : RecvMoves m slot pc m' next) :
    m.StepBound m' (.recv slot pc) next := by
  cases h with
  | fdInvalid hfd | fdValid hfd | validSocket hfd | invalidSocket hfd =>
    exact .of_group_eq (fun _ => le_rfl) le_rfl rfl rfl trivial
  | recvArgs | ended | interrupted | drained | epollModArgs =>
    exact .of_group_eq (fun _ => le_rfl) le_rfl rfl rfl trivial
  | noData hused hle => exact .of_group_eq (fun _ => le_rfl) le_rfl rfl rfl trivial
  | onRecv hin hused hpos => exact .of_group_eq (fun _ => le_rfl) le_rfl rfl rfl trivial
  | received hin hb => exact .of_updateSession hin.1 (Or.inl rfl) rfl rfl trivial
  | onRecvReturned hin hb =>
    refine StepBound.call ?_ _
    exact .of_updateSession hin.1 (Or.inl rfl) rfl rfl trivial
  | setReceiveState hin | setReceiveStateAfterMod hin =>
    exact .of_updateSession hin.1 (Or.inr fun _ => rfl) rfl rfl trivial
  | disconnect hmoves | disconnectAfterMod hmoves =>
    exact .of_disconnectMoves hmoves (fun _ => le_rfl) rfl trivial
  | disconnected hmoves | disconnectedAfterMod hmoves =>
    exact .of_disconnectMoves hmoves (fun _ => Nat.zero_le _) rfl trivial
  | notRearmed =>
    exact .of_group_eq (fun _ => Nat.add_le_add_left (Nat.zero_le _) _) (Nat.zero_le _) rfl rfl
      trivial
  | rearmed hmod =>
    -- the job gives itself back
    refine .of_group_eq (fun j => ?_) le_rfl rfl rfl trivial
    have hle := EpollSet.armed_mod_le hmod j
    simp only [epoll_setEpoll, Next.hand, Next.pc, JobPC.hand, RecvPC.beforeMod, if_true,
      List.count_singleton, List.count_nil, beq_iff_eq] at hle ⊢
    omega

/-- **What a step of a job does to the job objects**: it moves one from place to place. -/
theorem JobMoves.bound {pc : JobPC} {next : Next} (h : JobMoves m pc m' next) (hid : pc.IDOk)
    (hmax : m.group.mMaxSession < 65536) : m.StepBound m' pc next := by
  cases h with
  | poll hmoves => exact hmoves.bound
  | accept hmoves => exact hmoves.bound hid hmax
  | recv hmoves => exact hmoves.bound
  | complete => exact .of_group_eq (fun _ => le_rfl) le_rfl rfl rfl trivial

end ServerMemory

end CoreServer
