import CoreServer.LockedServer

/-!
# The sections of the server are atomic

Every step of `LockedServer` is seen as a step of `ServerRun`, or not at all: a section counts as
done at the access that changes the container, and up to there the container is as the earlier
accesses of the section have seen it.  For `mPackets` this needs that no session is constructed
while a thread is inside a section of its slot, which `ServerRun.Life` says.
-/

namespace CoreServer

/-! ## The places of the threads -/

lemma JobPC.allocates_eq_some {pc : JobPC} {clientFD : SocketFD} :
    pc.allocates = some clientFD ↔ pc = .accept (.alloc clientFD) := by
  constructor
  · intro h
    unfold allocates at h
    split at h
    · rw [Option.some.inj h]
    · cases h
  · rintro rfl
    rfl

lemma SendPC.locks_eq_some {pc : SendPC} {slot : ℤ} {sec : PacketSection} :
    pc.locks = some (slot, sec) ↔ pc = sec.begins slot := by
  constructor
  · intro h
    unfold locks at h
    split at h
    · obtain ⟨rfl, rfl⟩ := Prod.mk.inj (Option.some.inj h)
      rfl
    · obtain ⟨rfl, rfl⟩ := Prod.mk.inj (Option.some.inj h)
      rfl
    · cases h
  · rintro rfl
    cases sec <;> rfl

namespace LockedJobPC

lemma enter_cases (pc : JobPC) :
    (∃ h, enter pc = .job pc h) ∨ ∃ clientFD, pc = .accept (.alloc clientFD) ∧
      enter pc = .alloc clientFD .lock := by
  unfold enter
  split
  · rename_i h
    exact Or.inl ⟨h, rfl⟩
  · rename_i clientFD h
    exact Or.inr ⟨clientFD, JobPC.allocates_eq_some.1 h, rfl⟩

@[simp] lemma atomic_enter (pc : JobPC) : (enter pc).atomic = pc := by
  rcases enter_cases pc with ⟨h, heq⟩ | ⟨clientFD, rfl, heq⟩
  · rw [heq]
    rfl
  · rw [heq]
    rfl

@[simp] lemma inside_enter (pc : JobPC) : (enter pc).inside = false := by
  rcases enter_cases pc with ⟨h, heq⟩ | ⟨clientFD, rfl, heq⟩
  · rw [heq]
    rfl
  · rw [heq]
    rfl

lemma Sees.of_not_inside {pc : LockedJobPC} (h : pc.inside = false) (indices : List ℤ) :
    pc.Sees indices := by
  unfold Sees
  split
  · cases h
  · cases h
  · trivial

lemma Sees.enter (pc : JobPC) (indices : List ℤ) : (enter pc).Sees indices :=
  .of_not_inside (inside_enter pc) indices

end LockedJobPC

namespace LockedSendPC

/-- The session whose packets the thread is about to access is in the table. -/
def InTable (m : ServerMemory) : LockedSendPC → Prop
  | locked slot _ _ => m.InTable slot
  | send _ _ => True

lemma enter_cases (pc : SendPC) :
    (∃ h, enter pc = .send pc h) ∨ ∃ slot sec, pc = sec.begins slot ∧
      enter pc = .locked slot sec .lock := by
  unfold enter
  split
  · rename_i h
    exact Or.inl ⟨h, rfl⟩
  · rename_i slot sec h
    exact Or.inr ⟨slot, sec, SendPC.locks_eq_some.1 h, rfl⟩

@[simp] lemma atomic_enter (pc : SendPC) : (enter pc).atomic = pc := by
  rcases enter_cases pc with ⟨h, heq⟩ | ⟨slot, sec, rfl, heq⟩
  · rw [heq]
    rfl
  · rw [heq]
    rfl

@[simp] lemma inside_enter (slot : ℤ) (pc : SendPC) : (enter pc).inside slot = false := by
  rcases enter_cases pc with ⟨h, heq⟩ | ⟨slot', sec, rfl, heq⟩
  · rw [heq]
    rfl
  · rw [heq]
    rfl

lemma Sees.enter (m : ServerMemory) (pc : SendPC) : (enter pc).Sees m := by
  rcases enter_cases pc with ⟨h, heq⟩ | ⟨slot, sec, rfl, heq⟩
  · rw [heq]
    trivial
  · rw [heq]
    trivial

lemma inside_of_ne {slot i : ℤ} (h : i ≠ slot) (sec : PacketSection) (pc : PacketPC) :
    (locked slot sec pc).inside i = false := by
  cases pc with
  | lock => rfl
  | _ => exact decide_eq_false h.symm

/-- A thread in a section has a pointer to the session. -/
lemma slot_atomic_locked (slot : ℤ) (sec : PacketSection) (pc : PacketPC) :
    (locked slot sec pc).atomic.slot = some slot := by
  cases sec <;> cases pc <;> rfl

end LockedSendPC

namespace LockedPool

variable {n : ℕ} {κ J : Type} {s s' : LockedPool n κ J} {w : Fin n}
  {t : WorkerThreadPool.Thread n κ}

/-- How a worker goes on in `PollEvents`: it takes a job from the queue, begins it, or does
neither. -/
inductive Goes : WorkerPC J → WorkerPC J → Prop
  | takes (job : J) : Goes (.popPop job) (.popUnlock (some job))
  | begins (job : J) : Goes (.popUnlock (some job)) (.execute job)
  | neither {pc pc' : WorkerPC J} (hpc : pc.running = false)
    (hfrom : ∀ job, pc ≠ .popUnlock (some job)) (hto : ∀ job, pc' ≠ .popUnlock (some job))
    (hpc' : pc'.running = false) : Goes pc pc'

lemma Goes.running {pc pc' : WorkerPC J} (h : Goes pc pc') : pc.running = false := by
  cases h with
  | neither hpc => exact hpc
  | _ => rfl

lemma goes_of_step (h : s.stepWorker w = some s') :
    s'.adding = s.adding ∧ ∃ pc, s'.worker = Function.update s.worker w pc ∧
      Goes (s.worker w) pc := by
  simp only [stepWorker] at h
  split at h <;> rename_i hpc <;> rw [hpc]
  · obtain rfl := Option.some.inj h
    refine ⟨rfl, _, rfl, .neither rfl (by simp) ?_ ?_⟩
    · split <;> simp
    · split <;> rfl
  · obtain ⟨m, -, h⟩ := Option.bind_eq_some_iff.1 h
    obtain rfl := Option.some.inj h
    exact ⟨rfl, _, rfl, .neither rfl (by simp) (by simp) rfl⟩
  · obtain rfl := Option.some.inj h
    refine ⟨rfl, _, rfl, .neither rfl (by simp) ?_ ?_⟩
    · split <;> simp
    · split <;> rfl
  · split at h
    · cases h
    · obtain rfl := Option.some.inj h
      exact ⟨rfl, _, rfl, .neither rfl (by simp) (by simp) rfl⟩
  · split at h
    · cases h
    · obtain rfl := Option.some.inj h
      exact ⟨rfl, _, rfl, .takes _⟩
  · obtain rfl := Option.some.inj h
    exact ⟨rfl, _, rfl, .neither rfl (by simp) (by simp) rfl⟩
  · obtain rfl := Option.some.inj h
    exact ⟨rfl, _, rfl, .begins _⟩
  · obtain ⟨m, -, h⟩ := Option.bind_eq_some_iff.1 h
    obtain rfl := Option.some.inj h
    exact ⟨rfl, _, rfl, .neither rfl (by simp) (by simp) rfl⟩
  · obtain rfl := Option.some.inj h
    exact ⟨rfl, _, rfl, .neither rfl (by simp) (by simp) rfl⟩
  · obtain rfl := Option.some.inj h
    exact ⟨rfl, _, rfl, .neither rfl (by simp) (by simp) rfl⟩
  · obtain ⟨-, h⟩ := Option.ite_none_left_eq_some.1 h
    obtain rfl := Option.some.inj h
    exact ⟨rfl, _, rfl, .neither rfl (by simp) (by simp) rfl⟩
  all_goals cases h

/-- A step of a worker in `PollEvents` is seen as one step of the pool, or not. -/
lemma seeWorker_cases (s : LockedPool n κ J) (w : Fin n) :
    s.seeWorker w = [] ∨
      ∃ b, s.seeWorker w = [b] ∧ b.internal = true ∧ ∀ w', b = .pop w' → w' = w := by
  unfold seeWorker
  split
  · exact Or.inr ⟨_, rfl, rfl, (by simp)⟩
  · split
    · exact Or.inr ⟨_, rfl, rfl, fun w' h => (WorkerThreadPool.Step.pop.inj h).symm⟩
    · exact Or.inl rfl
  · exact Or.inr ⟨_, rfl, rfl, fun w' h => (WorkerThreadPool.Step.pop.inj h).symm⟩
  · exact Or.inr ⟨_, rfl, rfl, (by simp)⟩
  · exact Or.inr ⟨_, rfl, rfl, (by simp)⟩
  · exact Or.inl rfl

variable [DecidableEq κ]

/-- A step in `AddJob` leaves the workers in `PollEvents` where they are, and no other thread gets
into `AddJob` by it. -/
lemma add_of_step (h : s.stepAdd t = some s') :
    s'.worker = s.worker ∧ ∀ t', s.adding t' = none → s'.adding t' = none := by
  have hother : ∀ {u : LockedPool n κ J} {pc}, u.adding = s.adding → s.adding t ≠ none →
      ∀ t', s.adding t' = none → (u.gotoAdd t pc).adding t' = none := by
    intro u pc hu ht t' ht'
    have hne : t' ≠ t := by
      rintro rfl
      exact ht ht'
    show Function.update u.adding t pc t' = none
    rw [Function.update_of_ne hne, hu, ht']
  simp only [stepAdd] at h
  split at h <;> rename_i hpc
  · cases h
  · obtain ⟨m, -, h⟩ := Option.bind_eq_some_iff.1 h
    obtain rfl := Option.some.inj h
    exact ⟨rfl, hother rfl (by simp [hpc])⟩
  · obtain rfl := Option.some.inj h
    exact ⟨rfl, hother rfl (by simp [hpc])⟩
  · obtain rfl := Option.some.inj h
    exact ⟨rfl, hother rfl (by simp [hpc])⟩
  · obtain rfl := Option.some.inj h
    exact ⟨rfl, hother rfl (by simp [hpc])⟩
  · obtain ⟨m, -, h⟩ := Option.bind_eq_some_iff.1 h
    obtain rfl := Option.some.inj h
    exact ⟨rfl, hother rfl (by simp [hpc])⟩
  · split at h
    · cases h
    · obtain rfl := Option.some.inj h
      exact ⟨rfl, hother rfl (by simp [hpc])⟩
  · split at h
    · cases h
    · obtain rfl := Option.some.inj h
      exact ⟨rfl, hother rfl (by simp [hpc])⟩
  · obtain rfl := Option.some.inj h
    exact ⟨rfl, hother rfl (by simp [hpc])⟩
  · obtain rfl := Option.some.inj h
    exact ⟨rfl, hother rfl (by simp [hpc])⟩

lemma callAddJob_of_step {job : J} (h : s.step (.callAddJob t job) = some s') :
    s'.worker = s.worker ∧ ∀ t', t' ≠ t → s'.adding t' = s.adding t' := by
  simp only [step] at h
  split at h
  · obtain rfl := Option.some.inj h
    exact ⟨rfl, fun t' hne => Function.update_of_ne hne _ _⟩
  · cases h

lemma executeReturns_of_step {result : Bool} (h : s.step (.executeReturns w result) = some s') :
    ∃ job, s' = s.goto w (if result then .complete job else .loop) := by
  simp only [step] at h
  split at h
  · exact ⟨_, (Option.some.inj h).symm⟩
  · cases h

lemma completeReturns_of_step (h : s.step (.completeReturns w) = some s') :
    s' = s.goto w .loop := by
  simp only [step] at h
  split at h
  · exact (Option.some.inj h).symm
  · cases h

lemma idleReadFails_of_step (h : s.step (.idleReadFails w) = some s') :
    s.worker w = .idleRead ∧ s' = s.goto w .loop := by
  simp only [step] at h
  split at h
  · exact ⟨‹_›, (Option.some.inj h).symm⟩
  · cases h

omit [DecidableEq κ] in
lemma seeAdd_cases (s : LockedPool n κ J) (t : WorkerThreadPool.Thread n κ) :
    s.seeAdd t = [] ∨ ∃ b, s.seeAdd t = [b] ∧ b.internal = true ∧ ∀ w, b ≠ .pop w := by
  unfold seeAdd
  split
  · exact Or.inr ⟨_, rfl, rfl, (by simp)⟩
  · exact Or.inr ⟨_, rfl, rfl, (by simp)⟩
  · exact Or.inr ⟨_, rfl, rfl, (by simp)⟩
  · exact Or.inr ⟨_, rfl, rfl, (by simp)⟩
  · exact Or.inl rfl

end LockedPool

/-! ## What the steps outside of the sections leave alone -/

namespace ServerMemory

variable {m m' : ServerMemory}

/-- Only `AllocSession` takes a free index. -/
lemma JobMoves.indices_eq {pc : JobPC} {next : Next} (h : JobMoves m pc m' next)
    (hpc : pc.allocates = none) : m'.group.mSessionIndexPool = m.group.mSessionIndexPool := by
  cases h with
  | poll hmoves => cases hmoves <;> rfl
  | accept hmoves =>
    cases hmoves with
    | alloc hpool => cases hpc
    | _ => rfl
  | recv hmoves =>
    cases hmoves with
    | disconnect hmoves | disconnected hmoves => exact hmoves.shrinks.pool_eq
    | disconnectAfterMod hmoves | disconnectedAfterMod hmoves => exact hmoves.shrinks.pool_eq
    | _ => rfl
  | complete => rfl

/-- A job changes the packets of a session only where it constructs it. -/
lemma JobChange.mPackets {s s' : Session} {i : ℤ} {pc : JobPC} (h : JobChange s i pc s') :
    s'.mPackets = s.mPackets ∨
      ∃ clientFD sessionID, pc = .accept (.construct clientFD i sessionID) := by
  cases h with
  | construct clientFD sessionID => exact Or.inr ⟨clientFD, sessionID, rfl⟩
  | _ => exact Or.inl rfl

/-- `DoSend` takes the packets once. -/
lemma DoSendMoves.ne_swap {slot : ℤ} {pc : DoSendPC} {pc' : Option DoSendPC}
    (h : DoSendMoves m slot pc m' pc') : pc' ≠ some .swap := by
  rintro rfl
  generalize hpc' : some DoSendPC.swap = pc' at h
  cases h with
  | @writev sendPackets fd w hw =>
    have hswap := Option.some.inj hpc'
    rcases DoSendPC.afterWritev_cases sendPackets w with
      ⟨failed, heq⟩ | ⟨-, -, heq⟩ | heq | ⟨-, -, heq⟩ <;>
    · rw [heq] at hswap
      cases hswap
  | disconnected hmoves =>
    rcases DoSendPC.afterDisconnect_cases hpc'.symm with heq | ⟨sendPackets, heq⟩ <;> cases heq
  | _ => cases hpc'

/-- A thread begins a section only on a session that is in the table. -/
lemma SendMoves.inTable_begins {pc : SendPC} {slot : ℤ} {sec : PacketSection}
    (h : SendMoves m pc m' (sec.begins slot)) : m'.InTable slot := by
  generalize hpc' : sec.begins slot = pc' at h
  cases h with
  | found hin =>
    cases sec with
    | emplaceBack packet =>
      obtain ⟨rfl, -⟩ := SendPC.push.inj hpc'
      exact hin
    | swap => cases hpc'
  | set hin =>
    cases sec with
    | emplaceBack packet => cases hpc'
    | swap =>
      obtain ⟨rfl, -⟩ := SendPC.doSend.inj hpc'
      exact hin
  | doSend hmoves =>
    cases sec with
    | emplaceBack packet => cases hpc'
    | swap =>
      obtain ⟨-, rfl⟩ := SendPC.doSend.inj hpc'
      exact absurd hmoves.ne_swap (by simp)
  | _ => cases sec <;> cases hpc'

/-- A section in one step. -/
lemma sendStep_begins {slot : ℤ} {sec : PacketSection} {packets : List IoVec} (hin : m.InTable slot)
    (hpackets : (m.session slot).mPackets = packets) :
    m.sendStep (sec.begins slot) .run =
      some (m.updateSession slot fun session => { session with mPackets := sec.writes packets },
        sec.ends slot packets) := by
  subst hpackets
  cases sec with
  | emplaceBack packet =>
    simp only [PacketSection.begins, sendStep, modifySession_iff.2 ⟨hin, rfl⟩,
      Option.bind_eq_bind, Option.bind_some]
    rfl
  | swap =>
    simp only [PacketSection.begins, sendStep, doSendStep, slot_iff.2 ⟨hin, rfl⟩,
      modifySession_iff.2 ⟨hin, rfl⟩, Option.bind_eq_bind, Option.bind_some]
    rfl

/-- A thread that sends changes the packets of a session only in a section. -/
lemma SendChange.mPackets {s s' : Session} {i : ℤ} {pc : SendPC} (h : SendChange s i pc s')
    (hpc : pc.locks = none) : s'.mPackets = s.mPackets := by
  cases h with
  | pushPacket packet => cases hpc
  | takePackets => cases hpc
  | _ => rfl

end ServerMemory

namespace Server

variable {n : ℕ} {κ : Type} [DecidableEq κ] {m : Server n κ} {ok : Bool}

/-- `Start` first adds the `PollJob`. -/
lemma step_start_addJob (h : m.starting = .addJob) :
    m.step (.start ok) = (m.pool.step (.callAddJob (.inr ()) .poll)).bind fun pool =>
      some { m with pool := pool, starting := .epollAdd } := by
  simp only [step, h]
  rfl

/-- Once the `PollJob` is in the queue, `Start` registers the listening socket. -/
lemma step_start_epollAdd (h : m.starting = .epollAdd) (hadd : m.pool.adding (.inr ()) = none) :
    m.step (.start ok) = (m.memory.epollAdd m.memory.mListenFD .accept ok).bind fun memory =>
      some { m with memory := memory, starting := .returned } := by
  simp only [step, h, hadd, if_true]
  rfl

end Server

namespace LockedServer

variable {n : ℕ} {κ : Type}

/-! ## The invariant -/

/-- The mutex of the session group is held by the worker inside `AllocSession`, which has seen the
stack as it is; and a worker that is in no job stands nowhere in one. -/
structure JobLocks (s : LockedServer n κ) : Prop where
  resting : ∀ w, (s.pool.worker w).running = false → s.job w = .enter .none
  alone : ∀ w, (s.job w).inside = true → s.pool.adding (.inl w) = none
  guards : s.mStackMutex.Guards fun w => (s.job w).inside
  sees : ∀ w, (s.job w).Sees s.memory.group.mSessionIndexPool

/-- The mutex of each session is held by the thread inside a section on its packets, which has seen
them as they are. -/
structure SendLocks (s : LockedServer n κ) : Prop where
  guards : ∀ i, 0 ≤ i → (s.mPacketMutex i).Guards fun k => (s.sender k).inside i
  sees : ∀ k, (s.sender k).Sees s.memory
  inTable : ∀ k, (s.sender k).InTable s.memory

/-- The invariant. -/
structure Inv (s : LockedServer n κ) : Prop where
  pool : s.pool.Inv
  jobs : s.JobLocks
  senders : s.SendLocks
  life : s.atomic.Life

variable {s s' : LockedServer n κ}

lemma inv_start (memory : ℕ → Session) {maxSessions : ℕ} (hmax : maxSessions < 65536)
    (uniqueNumber : BitVec 64) (listenFD : SocketFD) :
    (start n κ memory maxSessions uniqueNumber listenFD).Inv where
  pool := LockedPool.inv_start
  jobs :=
    { resting := fun _ _ => rfl
      alone := fun _ h => by simp [start] at h
      guards := fun w => by simp [start, Mutex.construct]
      sees := fun _ => trivial }
  senders :=
    { guards := fun i _ k => by simp [start, Mutex.construct]
      sees := fun _ => trivial
      inTable := fun _ => trivial }
  life := ServerRun.life_start hmax

/-- A step that leaves the workers where they are in their jobs. -/
lemma JobLocks.congr (hs : s.JobLocks) (hjob : s'.job = s.job)
    (hworker : ∀ w, (s'.pool.worker w).running = false → (s.pool.worker w).running = false)
    (hadding : ∀ w, s.pool.adding (.inl w) = none → s'.pool.adding (.inl w) = none)
    (hmutex : s'.mStackMutex = s.mStackMutex)
    (hindices : s'.memory.group.mSessionIndexPool = s.memory.group.mSessionIndexPool) :
    s'.JobLocks where
  resting w hw := by
    rw [hjob]
    exact hs.resting w (hworker w hw)
  alone w hw := by
    rw [hjob] at hw
    exact hadding w (hs.alone w hw)
  guards := by
    rw [hmutex, hjob]
    exact hs.guards
  sees w := by
    rw [hjob, hindices]
    exact hs.sees w

/-- A worker goes on in its job. -/
lemma JobLocks.move (hs : s.JobLocks) {w : Fin n} {pc : LockedJobPC}
    (hjob : s'.job = Function.update s.job w pc)
    (hrests : (s'.pool.worker w).running = false → pc = .enter .none)
    (hothers : ∀ w', w' ≠ w → s'.pool.worker w' = s.pool.worker w')
    (halone : pc.inside = true → s'.pool.adding (.inl w) = none)
    (hadding : ∀ w', w' ≠ w → s.pool.adding (.inl w') = none → s'.pool.adding (.inl w') = none)
    (huses : Mutex.Uses s.mStackMutex s'.mStackMutex s.memory.group.mSessionIndexPool
      s'.memory.group.mSessionIndexPool (fun w => (s.job w).inside) (fun w => (s'.job w).inside) w)
    (hsees : pc.Sees s'.memory.group.mSessionIndexPool) : s'.JobLocks := by
  have hself : s'.job w = pc := by rw [hjob, Function.update_self]
  have hother : ∀ w', w' ≠ w → s'.job w' = s.job w' := fun w' hne => by
    rw [hjob, Function.update_of_ne hne]
  constructor
  · intro w' hw'
    rcases eq_or_ne w' w with rfl | hne
    · exact hself.trans (hrests hw')
    · rw [hothers w' hne] at hw'
      exact (hother w' hne).trans (hs.resting w' hw')
  · intro w' hw'
    rcases eq_or_ne w' w with rfl | hne
    · rw [hself] at hw'
      exact halone hw'
    · rw [hother w' hne] at hw'
      exact hadding w' hne (hs.alone w' hw')
  · exact hs.guards.uses huses fun w' hne => by rw [hother w' hne]
  · intro w'
    rcases eq_or_ne w' w with rfl | hne
    · rw [hself]
      exact hsees
    · rw [hother w' hne]
      by_cases hin : (s.job w').inside = true
      · rw [huses.data_eq hs.guards (u := w') hin hne]
        exact hs.sees w'
      · exact .of_not_inside (Bool.eq_false_iff.2 hin) _

/-- A step that leaves the threads that send, the packets and the table alone. -/
lemma SendLocks.congr (hs : s.SendLocks) (hsender : s'.sender = s.sender)
    (hguards : ∀ i, 0 ≤ i → (s'.mPacketMutex i).Guards fun k => (s.sender k).inside i)
    (hpackets : ∀ k slot sec pc, s.sender k = .locked slot sec pc →
      (s'.memory.session slot).mPackets = (s.memory.session slot).mPackets)
    (hmax : s'.memory.group.mMaxSession = s.memory.group.mMaxSession) : s'.SendLocks where
  guards i hi := by
    rw [hsender]
    exact hguards i hi
  sees k := by
    have hsees := hs.sees k
    rw [hsender]
    cases hk : s.sender k with
    | send pc h => trivial
    | locked slot sec pc =>
      rw [hk] at hsees
      cases pc with
      | write packets => exact (hpackets k slot sec _ hk).trans hsees
      | lock | read | unlock => trivial
  inTable k := by
    have hin := hs.inTable k
    rw [hsender]
    cases hk : s.sender k with
    | send pc h => trivial
    | locked slot sec pc =>
      rw [hk] at hin
      exact ⟨hin.1, by rw [hmax]; exact hin.2⟩

variable [DecidableEq κ]

/-- The step from `s` to `s'` keeps the invariant, and is seen as `steps`. -/
def SeenAs (s s' : LockedServer n κ) (steps : List (RunStep n κ)) : Prop :=
  StepMachine.SeenAs (ServerRun.machine n κ) Inv atomic s s' steps

/-- The life of the sessions goes on as in the server with one-step sections. -/
lemma Inv.seenAs (hs : s.Inv) {steps : List (RunStep n κ)} (hpool : s'.pool.Inv)
    (hjobs : s'.JobLocks) (hsenders : s'.SendLocks)
    (hexec : (ServerRun.machine n κ).exec s.atomic steps = some s'.atomic) : s.SeenAs s' steps :=
  ⟨⟨hpool, hjobs, hsenders, StepMachine.exec_invariant (M := ServerRun.machine n κ)
    (fun _ _ _ hlife hstep => hlife.step hstep) hs.life hexec⟩, hexec⟩

/-! ## The steps of the pool -/

omit [DecidableEq κ] in
lemma atomicJob_of_ne {w : Fin n} (h : ∀ j, s.pool.worker w ≠ .popUnlock (some j)) :
    s.atomicJob w = (s.job w).atomic := by
  unfold atomicJob
  split
  · rename_i j hpc
    exact absurd hpc (h j)
  · rfl

omit [DecidableEq κ] in
lemma atomicJob_of_popUnlock {w : Fin n} {j : ServerJob}
    (h : s.pool.worker w = .popUnlock (some j)) : s.atomicJob w = j.execute := by
  rw [atomicJob, h]

omit [DecidableEq κ] in
/-- Where a worker stands does not change if it stands at the same place in the pool and in its
job. -/
lemma atomicJob_congr {w : Fin n} (hworker : s'.pool.worker w = s.pool.worker w)
    (hjob : s'.job w = s.job w) : s'.atomicJob w = s.atomicJob w := by
  rw [atomicJob, atomicJob, hworker, hjob]

omit [DecidableEq κ] in
/-- A worker that goes on in its job is the only one for which that changes. -/
lemma atomicJob_update {u : LockedServer n κ} {w : Fin n} {pc : LockedJobPC}
    (hjob : u.job = Function.update s.job w pc)
    (hothers : ∀ w', w' ≠ w → u.pool.worker w' = s.pool.worker w')
    (here : ∀ j, u.pool.worker w ≠ .popUnlock (some j)) :
    u.atomicJob = Function.update s.atomicJob w pc.atomic := by
  funext w'
  rcases eq_or_ne w' w with rfl | hne
  · rw [Function.update_self, atomicJob_of_ne here, hjob, Function.update_self]
  · rw [Function.update_of_ne hne]
    exact atomicJob_congr (hothers w' hne) (by rw [hjob, Function.update_of_ne hne])

/-- The jobs of the workers behind a step of the pool. -/
def poolJob (job : Fin n → JobPC) (pool : WorkerThreadPool n Unit ServerJob) :
    WorkerThreadPool.Step n Unit ServerJob → Fin n → JobPC
  | .pop w => Server.begin job w (pool.worker w)
  | _ => job

/-- The steps of the pool that a step is seen as are steps of the server. -/
lemma exec_pool {r : ServerRun n κ} {steps : List (WorkerThreadPool.Step n Unit ServerJob)}
    {pool : WorkerThreadPool n Unit ServerJob} {job : Fin n → JobPC}
    (h : (WorkerThreadPool.machine n Unit ServerJob).exec r.server.pool steps = some pool)
    (hsteps : (steps = [] ∧ job = r.server.job) ∨
      ∃ b, steps = [b] ∧ b.internal = true ∧ job = poolJob r.server.job pool b) :
    (ServerRun.machine n κ).exec r (steps.map .pool) =
      some { r with server := { r.server with pool := pool, job := job } } := by
  rcases hsteps with ⟨rfl, rfl⟩ | ⟨b, rfl, hb, rfl⟩
  · obtain rfl : r.server.pool = pool := Option.some.inj h
    rfl
  · obtain ⟨pool', hpool, hnil⟩ := StepMachine.exec_cons_eq_some.1 h
    obtain rfl : pool' = pool := Option.some.inj hnil
    have hstep : r.server.pool.step b = some pool' := hpool
    refine StepMachine.exec_cons_of_step ?_
    show (r.server.step (.pool b)).bind _ = _
    simp only [Server.step, hb, if_true, hstep, Option.bind_eq_bind, Option.bind_some]
    cases b <;> rfl

omit [DecidableEq κ] in
lemma begin_eq {job : Fin n → LockedJobPC} {w : Fin n} {pc : LockedPool.WorkerPC ServerJob}
    (h : pc.running = false) : begin job w pc = job := by
  cases pc with
  | execute j => cases h
  | _ => rfl

omit [DecidableEq κ] in
lemma server_begin_eq {job : Fin n → JobPC} {w : Fin n} {pc : LockedPool.WorkerPC ServerJob}
    (hrun : pc.running = false) (hpop : ∀ j, pc ≠ .popUnlock (some j)) :
    Server.begin job w pc.atomic = job := by
  cases pc with
  | execute j => cases hrun
  | popUnlock result =>
    cases result with
    | none => rfl
    | some j => exact absurd rfl (hpop j)
  | _ => rfl

omit [DecidableEq κ] in
/-- Only a worker that begins a job gets to another place in it. -/
lemma begin_cases (job : Fin n → LockedJobPC) (w : Fin n) (pc : LockedPool.WorkerPC ServerJob)
    (w' : Fin n) : begin job w pc w' = job w' ∨
      ∃ j, w' = w ∧ pc = .execute j ∧ begin job w pc w' = .enter j.execute := by
  cases pc with
  | execute j =>
    rcases eq_or_ne w' w with rfl | hne
    · exact Or.inr ⟨j, rfl, rfl, Function.update_self ..⟩
    · exact Or.inl (Function.update_of_ne hne ..)
  | _ => exact Or.inl rfl

/-- The server behind a step by which the pool gets to `pool` and the worker `w` may begin a
job. -/
abbrev polled (s : LockedServer n κ) (w : Fin n) (pool : LockedPool n Unit ServerJob) :
    LockedServer n κ :=
  { s with pool := pool, job := begin s.job w (pool.worker w) }

section Polled

variable {w : Fin n} {pool : LockedPool n Unit ServerJob} {pc : LockedPool.WorkerPC ServerJob}

omit [DecidableEq κ] in
lemma worker_self (hworker : pool.worker = Function.update s.pool.worker w pc) :
    pool.worker w = pc := by
  rw [hworker, Function.update_self]

omit [DecidableEq κ] in
lemma worker_of_ne (hworker : pool.worker = Function.update s.pool.worker w pc) {w' : Fin n}
    (hne : w' ≠ w) : pool.worker w' = s.pool.worker w' := by
  rw [hworker, Function.update_of_ne hne]

omit [DecidableEq κ] in
/-- A worker that begins a job has not been inside `AllocSession`, and is not inside. -/
lemma JobLocks.polled (hs : s.JobLocks) (hadding : pool.adding = s.pool.adding)
    (hworker : pool.worker = Function.update s.pool.worker w pc)
    (hrun : (s.pool.worker w).running = false) : (s.polled w pool).JobLocks := by
  have hself := worker_self hworker
  have hnone : s.job w = .enter .none := hs.resting w hrun
  have hjob := begin_cases s.job w pc
  rw [LockedServer.polled, hself]
  constructor
  · intro w' hw'
    rcases eq_or_ne w' w with rfl | hne
    · rw [← hnone]
      exact congrFun (begin_eq (hself ▸ hw')) w'
    · have hw : (s.pool.worker w').running = false := by
        rw [← worker_of_ne hworker hne]
        exact hw'
      rcases hjob w' with heq | ⟨j, rfl, -, -⟩
      · exact heq.trans (hs.resting w' hw)
      · exact absurd rfl hne
  · intro w' hw'
    show pool.adding (.inl w') = none
    rw [hadding]
    rcases hjob w' with heq | ⟨j, -, -, heq⟩
    · exact hs.alone w' (heq ▸ hw')
    · have hfalse : (begin s.job w pc w').inside = false := by rw [heq]; simp
      exact absurd hw' (by simp [hfalse])
  · refine hs.guards.congr fun w' => ?_
    rcases hjob w' with heq | ⟨j, rfl, -, heq⟩
    · exact congrArg LockedJobPC.inside heq
    · show (begin s.job w' pc w').inside = _
      rw [heq, hnone]
      simp
  · intro w'
    rcases hjob w' with heq | ⟨j, -, -, heq⟩
    · show (begin s.job w pc w').Sees _
      rw [heq]
      exact hs.sees w'
    · show (begin s.job w pc w').Sees _
      rw [heq]
      exact .enter _ _

omit [DecidableEq κ] in
/-- The other workers stand where they stood. -/
lemma atomicJob_polled_of_ne (hworker : pool.worker = Function.update s.pool.worker w pc)
    {w' : Fin n} (hne : w' ≠ w) : (s.polled w pool).atomicJob w' = s.atomicJob w' := by
  refine atomicJob_congr (worker_of_ne hworker hne) ?_
  rcases begin_cases s.job w (pool.worker w) w' with heq | ⟨j, rfl, -, -⟩
  · exact heq
  · exact absurd rfl hne

omit [DecidableEq κ] in
/-- A worker that has taken a job stands at its beginning. -/
lemma atomicJob_takes {job : ServerJob}
    (hworker : pool.worker = Function.update s.pool.worker w (.popUnlock (some job))) :
    (s.polled w pool).atomicJob = Function.update s.atomicJob w job.execute := by
  funext w'
  rcases eq_or_ne w' w with rfl | hne
  · rw [Function.update_self]
    exact atomicJob_of_popUnlock (worker_self hworker)
  · rw [Function.update_of_ne hne]
    exact atomicJob_polled_of_ne hworker hne

omit [DecidableEq κ] in
/-- There it still stands when it begins the job. -/
lemma atomicJob_begins {job : ServerJob} (hpc : s.pool.worker w = .popUnlock (some job))
    (hworker : pool.worker = Function.update s.pool.worker w (.execute job)) :
    (s.polled w pool).atomicJob = s.atomicJob := by
  have hself := worker_self hworker
  funext w'
  rcases eq_or_ne w' w with rfl | hne
  · rw [atomicJob_of_popUnlock hpc, atomicJob_of_ne (by simp [hself])]
    show (begin s.job w' (pool.worker w') w').atomic = _
    rw [hself, begin, Function.update_self]
    simp
  · exact atomicJob_polled_of_ne hworker hne

omit [DecidableEq κ] in
/-- A worker that neither takes nor begins a job stands where it stood. -/
lemma atomicJob_neither (hworker : pool.worker = Function.update s.pool.worker w pc)
    (hfrom : ∀ j, s.pool.worker w ≠ .popUnlock (some j)) (hto : ∀ j, pc ≠ .popUnlock (some j))
    (hrun : pc.running = false) : (s.polled w pool).atomicJob = s.atomicJob := by
  have hself := worker_self hworker
  funext w'
  rcases eq_or_ne w' w with rfl | hne
  · rw [atomicJob_of_ne (by rw [hself]; exact hto), atomicJob_of_ne hfrom]
    show (begin s.job w' (pool.worker w') w').atomic = _
    rw [hself, begin_eq hrun]
  · exact atomicJob_polled_of_ne hworker hne

/-- A step of a worker in `PollEvents` is seen as the steps of the pool, if these lead to where the
workers stand. -/
lemma Inv.polled (hs : s.Inv) {steps : List (WorkerThreadPool.Step n Unit ServerJob)}
    (hpool : s.pool.SeenAs pool steps) (hadding : pool.adding = s.pool.adding)
    (hworker : pool.worker = Function.update s.pool.worker w pc)
    (hrun : (s.pool.worker w).running = false)
    (hsteps : (steps = [] ∧ (s.polled w pool).atomicJob = s.atomicJob) ∨
      ∃ b, steps = [b] ∧ b.internal = true ∧
        (s.polled w pool).atomicJob = poolJob s.atomicJob pool.atomic b) :
    s.SeenAs (s.polled w pool) (steps.map .pool) :=
  hs.seenAs hpool.1 (hs.jobs.polled hadding hworker hrun)
    (hs.senders.congr rfl hs.senders.guards (fun _ _ _ _ _ => rfl) rfl) (exec_pool hpool.2 hsteps)

omit [DecidableEq κ] in
/-- What the pool sees of a worker that takes no job changes no job. -/
lemma poolJob_eq (hworker : pool.worker = Function.update s.pool.worker w pc)
    (hto : ∀ j, pc ≠ .popUnlock (some j)) (hrun : pc.running = false)
    {b : WorkerThreadPool.Step n Unit ServerJob} (hpop : ∀ w', b = .pop w' → w' = w) :
    poolJob s.atomicJob pool.atomic b = s.atomicJob := by
  unfold poolJob
  split
  · rename_i w'
    obtain rfl := hpop w' rfl
    show Server.begin _ w' (pool.worker w').atomic = _
    rw [worker_self hworker, server_begin_eq hrun hto]
  · rfl

end Polled

/-- **A step of a worker in `PollEvents`.** -/
lemma Inv.workerStep (hs : s.Inv) {w : Fin n} {pool : LockedPool n Unit ServerJob}
    (h : s.pool.stepWorker w = some pool) :
    s.SeenAs (s.polled w pool) ((s.pool.seeWorker w).map .pool) := by
  obtain ⟨hadding, pc, hworker, hgoes⟩ := LockedPool.goes_of_step h
  refine hs.polled (hs.pool.stepWorker h) hadding hworker hgoes.running ?_
  generalize hpc : s.pool.worker w = pc₀ at hgoes
  cases hgoes with
  | takes job =>
    refine Or.inr ⟨.pop w, by simp [LockedPool.seeWorker, hpc], rfl, ?_⟩
    rw [atomicJob_takes hworker]
    show _ = Server.begin _ w (pool.worker w).atomic
    rw [worker_self hworker]
    rfl
  | begins job =>
    exact Or.inl ⟨by simp [LockedPool.seeWorker, hpc], atomicJob_begins hpc hworker⟩
  | neither hrun hfrom hto hrun' =>
    have hsame := atomicJob_neither hworker (by rw [hpc]; exact hfrom) hto hrun'
    rcases s.pool.seeWorker_cases w with hnil | ⟨b, hb, hinternal, hpop⟩
    · exact Or.inl ⟨hnil, hsame⟩
    · exact Or.inr ⟨b, hb, hinternal, hsame.trans (poolJob_eq hworker hto hrun' hpop).symm⟩

/-- **A `read` that fails in `Idle`.** -/
lemma Inv.idleReadFailsStep (hs : s.Inv) {w : Fin n} {pool : LockedPool n Unit ServerJob}
    (h : s.pool.step (.idleReadFails w) = some pool) :
    s.SeenAs { s with pool := pool } [.pool (.idleReadFails w)] := by
  obtain ⟨hpc, rfl⟩ := LockedPool.idleReadFails_of_step h
  have hworker : (s.pool.goto w .loop).worker = Function.update s.pool.worker w .loop := rfl
  have hsame := atomicJob_neither hworker (by simp [hpc]) (by simp) rfl
  have hseen := hs.polled (hs.pool.step h) rfl hworker (by rw [hpc]; rfl)
    (Or.inr ⟨_, rfl, rfl, hsame.trans (poolJob_eq hworker (by simp) rfl (by simp)).symm⟩)
  rwa [LockedServer.polled, worker_self hworker] at hseen

/-- **A step of a thread in `AddJob`.** -/
lemma Inv.addStep (hs : s.Inv) {t : WorkerThreadPool.Thread n Unit}
    {pool : LockedPool n Unit ServerJob} (h : s.pool.stepAdd t = some pool) :
    s.SeenAs { s with pool := pool } ((s.pool.seeAdd t).map .pool) := by
  obtain ⟨hpool, hexec⟩ := hs.pool.stepAdd h
  obtain ⟨hworker, hadding⟩ := LockedPool.add_of_step h
  have hjob : ({ s with pool := pool } : LockedServer n κ).atomicJob = s.atomicJob := by
    funext w
    exact atomicJob_congr (congrFun hworker w) rfl
  refine hs.seenAs hpool (hs.jobs.congr rfl (fun w hw => ?_) (fun w => hadding _) rfl rfl)
    (hs.senders.congr rfl hs.senders.guards (fun _ _ _ _ _ => rfl) rfl) (exec_pool hexec ?_)
  · rw [← hworker]
    exact hw
  · rcases s.pool.seeAdd_cases t with hnil | ⟨b, hb, hinternal, hpop⟩
    · exact Or.inl ⟨hnil, hjob⟩
    · refine Or.inr ⟨b, hb, hinternal, hjob.trans ?_⟩
      unfold poolJob
      split
      · exact absurd rfl (hpop _)
      · rfl

/-- **A step of the pool.** -/
lemma Inv.poolStep (hs : s.Inv) {a : LockedPool.Step n Unit ServerJob}
    (h : s.step (.pool a) = some s') : s.SeenAs s' (s.see (.pool a)) := by
  obtain ⟨hinternal, h⟩ := Option.ite_none_right_eq_some.1 h
  obtain ⟨pool, hpool, h⟩ := Option.bind_eq_some_iff.1 h
  obtain rfl := Option.some.inj h
  cases a with
  | worker w => exact hs.workerStep hpool
  | idleReadFails w => exact hs.idleReadFailsStep hpool
  | addJob t => exact hs.addStep hpool
  | _ => cases hinternal

/-! ## The steps of a job -/

/-- The step of the pool that goes with a step of a job. -/
structure PoolNext (p p' : LockedPool n Unit ServerJob) (w : Fin n) (next : Next) : Prop where
  inv : p'.Inv
  others : ∀ w', w' ≠ w → p'.worker w' = p.worker w'
  here : ∀ j, p'.worker w ≠ .popUnlock (some j)
  rests : (p'.worker w).running = false → next.pc = .none
  adding : ∀ w', w' ≠ w → p.adding (.inl w') = none → p'.adding (.inl w') = none
  atomic : ∀ server : Server n Empty, server.pool = p.atomic → server.next w next =
    some { server with pool := p'.atomic, job := Function.update server.job w next.pc }

omit [DecidableEq κ] in
/-- The pool with one-step sections takes the step with the same label. -/
lemma atomic_step {p p' : LockedPool n Unit ServerJob} {a : LockedPool.Step n Unit ServerJob}
    {b : WorkerThreadPool.Step n Unit ServerJob} (hp : p.Inv) (h : p.step a = some p')
    (hsee : p.see a = [b]) : p'.Inv ∧ p.atomic.step b = some p'.atomic := by
  obtain ⟨hinv, hexec⟩ := hp.step h
  rw [hsee] at hexec
  obtain ⟨q, hstep, hnil⟩ := StepMachine.exec_cons_eq_some.1 hexec
  obtain rfl : q = p'.atomic := Option.some.inj hnil
  exact ⟨hinv, hstep⟩

omit [DecidableEq κ] in
lemma poolNext_of_next {w : Fin n} {next : Next} (h : s.next w next = some s') (hp : s.pool.Inv)
    (hrun : (s.pool.worker w).running = true) :
    ∃ pool, PoolNext s.pool pool w next ∧
      s' = { s with pool := pool }.gotoJob w (.enter next.pc) := by
  have hne : ∀ {pc : LockedPool.WorkerPC ServerJob}, pc.running = true →
      ∀ j, pc ≠ .popUnlock (some j) := by
    rintro pc hpc j rfl
    cases hpc
  cases next with
  | goto pc =>
    refine ⟨s.pool, ⟨hp, fun _ _ => rfl, hne hrun, fun hrest => ?_, fun _ _ => id, ?_⟩,
      (Option.some.inj h).symm⟩
    · rw [hrun] at hrest
      cases hrest
    · intro server hserver
      rw [← hserver]
      rfl
  | addJob job pc =>
    obtain ⟨pool, hpool, h⟩ := Option.bind_eq_some_iff.1 h
    obtain ⟨hinv, hatomic⟩ := atomic_step hp hpool rfl
    obtain ⟨hworker, hadding⟩ := LockedPool.callAddJob_of_step hpool
    refine ⟨pool, ⟨hinv, fun w' _ => congrFun hworker w', ?_, fun hrest => ?_, ?_, ?_⟩,
      (Option.some.inj h).symm⟩
    · rw [hworker]
      exact hne hrun
    · rw [hworker, hrun] at hrest
      cases hrest
    · intro w' hw' hnone
      rw [hadding _ (by simpa using hw')]
      exact hnone
    · intro server hserver
      simp only [Server.next, hserver, hatomic, Option.bind_eq_bind, Option.bind_some]
      rfl
  | executeReturns result pc =>
    obtain ⟨pool, hpool, h⟩ := Option.bind_eq_some_iff.1 h
    obtain ⟨hinv, hatomic⟩ := atomic_step hp hpool rfl
    obtain ⟨job, rfl⟩ := LockedPool.executeReturns_of_step hpool
    refine ⟨_, ⟨hinv, fun w' hw' => Function.update_of_ne hw' _ _, ?_, fun hrest => ?_,
      fun _ _ => id, ?_⟩, (Option.some.inj h).symm⟩
    · rw [LockedPool.goto_worker_self]
      cases result <;> simp
    · rw [LockedPool.goto_worker_self] at hrest
      cases result with
      | true => cases hrest
      | false => rfl
    · intro server hserver
      simp only [Server.next, hserver, hatomic, Option.bind_eq_bind, Option.bind_some]
      rfl
  | completeReturns =>
    obtain ⟨pool, hpool, h⟩ := Option.bind_eq_some_iff.1 h
    obtain ⟨hinv, hatomic⟩ := atomic_step hp hpool rfl
    obtain rfl := LockedPool.completeReturns_of_step hpool
    refine ⟨_, ⟨hinv, fun w' hw' => Function.update_of_ne hw' _ _, ?_, fun _ => rfl,
      fun _ _ => id, ?_⟩, (Option.some.inj h).symm⟩
    · rw [LockedPool.goto_worker_self]
      simp
    · intro server hserver
      simp only [Server.next, hserver, hatomic, Option.bind_eq_bind, Option.bind_some]
      rfl

omit [DecidableEq κ] in
lemma locked_of_inside {k : κ} {i : ℤ} (h : (s.sender k).inside i = true) :
    ∃ sec pc, s.sender k = .locked i sec pc := by
  cases hk : s.sender k with
  | send pc hpc =>
    rw [hk] at h
    cases h
  | locked slot sec pc =>
    rw [hk] at h
    have hslot : slot = i := by
      cases pc with
      | lock => cases h
      | _ => exact of_decide_eq_true h
    exact ⟨sec, pc, by rw [hslot]⟩

omit [DecidableEq κ] in
/-- No thread sends on a session that is still to be constructed. -/
lemma Inv.not_locked (hs : s.Inv) {w : Fin n} {i : ℤ} (h : (s.atomicJob w).reserved = some i)
    (k : κ) (sec : PacketSection) (pc : PacketPC) : s.sender k ≠ .locked i sec pc := by
  intro hk
  have hslot : (s.atomic.sender k).slot = some i := by
    show (s.sender k).atomic.slot = _
    rw [hk]
    exact LockedSendPC.slot_atomic_locked i sec pc
  exact hs.life.reserved w i h (hs.life.sending k i hslot)

/-- A step of a job outside of `AllocSession`. -/
lemma Inv.plainStep (hs : s.Inv) {w : Fin n} {input : JobInput} {pc : JobPC}
    {hpc : pc.allocates = none} {memory : ServerMemory} {next : Next}
    (hjob : s.job w = .job pc hpc) (hadd : s.pool.adding (.inl w) = none)
    (hstep : s.memory.jobStep pc input = some (memory, next))
    (h : ({ s with
      memory := memory
      mPacketMutex := constructs s.mPacketMutex pc
      added := s.added ++ pc.adds } : LockedServer n κ).next w next = some s') :
    s.SeenAs s' [.job w input] := by
  -- the worker is in a job, so it stands where its job says
  have hrun : (s.pool.worker w).running = true := by
    by_contra hrest
    have hnone : LockedJobPC.job pc hpc = .enter .none :=
      hjob.symm.trans (hs.jobs.resting w (Bool.eq_false_iff.2 hrest))
    obtain rfl : pc = .none := congrArg LockedJobPC.atomic hnone
    cases hstep
  have hat : s.atomicJob w = pc := by
    rw [atomicJob_of_ne, hjob]
    · rfl
    · intro j hj
      rw [hj] at hrun
      cases hrun
  have hmoves := ServerMemory.jobMoves_of_step hstep
  obtain ⟨pool, hnext, rfl⟩ := poolNext_of_next h hs.pool hrun
  have hold : (s.job w).inside = false := by rw [hjob]; rfl
  have hmax : memory.group.mMaxSession = s.memory.group.mMaxSession := by
    refine (hmoves.bound ?_ hs.life.steady.max_lt).max_eq
    rw [← hat]
    exact hs.life.steady.id_ok w
  refine hs.seenAs hnext.inv (hs.jobs.move rfl (fun hrest => by rw [hnext.rests hrest])
    hnext.others ?_ hnext.adding (.nothing rfl (hmoves.indices_eq hpc) ?_) (.enter _ _)) ?_ ?_
  · rw [LockedJobPC.inside_enter]
    intro hin
    cases hin
  · simp [gotoJob, hold]
  · refine hs.senders.congr rfl (fun i hi => ?_) (fun k slot sec pc' hk => ?_) hmax
    · show (constructs s.mPacketMutex pc i).Guards _
      unfold constructs
      split
      · rename_i clientFD index sessionID
        rcases eq_or_ne i index with rfl | hne
        · rw [Function.update_self]
          intro k
          have hout : ¬ (s.sender k).inside i = true := fun hin => by
            obtain ⟨sec, pc', hk⟩ := locked_of_inside hin
            exact hs.not_locked (w := w) (by rw [hat]; rfl) k sec pc' hk
          simp [hout, Mutex.construct]
        · rw [Function.update_of_ne hne]
          exact hs.senders.guards i hi
      · exact hs.senders.guards i hi
    · have hin := hs.senders.inTable k
      rw [hk] at hin
      rcases (hmoves.session hin.1).mPackets with heq | ⟨clientFD, sessionID, rfl⟩
      · exact heq
      · exact absurd hk (hs.not_locked (w := w) (by rw [hat]; rfl) k sec pc')
  · refine StepMachine.exec_cons_of_step ?_
    show (s.atomic.server.step (.job w input)).bind _ = _
    have hadd' : s.pool.atomic.adding (.inl w) = none := LockedPool.atomic_adding hadd
    have hserver : s.atomic.server.step (.job w input) = some { s.atomic.server with
        memory := memory
        pool := pool.atomic
        job := Function.update s.atomicJob w next.pc } := by
      show (if s.pool.atomic.adding (.inl w) = none then _ else none) = _
      rw [if_pos hadd']
      show (s.memory.jobStep (s.atomicJob w) input).bind _ = _
      rw [hat, hstep]
      exact hnext.atomic { s.atomic.server with memory := memory } rfl
    have hjob' := atomicJob_update (s := s) (u := { s with
      memory := memory
      mPacketMutex := constructs s.mPacketMutex pc
      added := s.added ++ pc.adds
      pool := pool }.gotoJob w (.enter next.pc)) rfl hnext.others hnext.here
    rw [LockedJobPC.atomic_enter] at hjob'
    rw [hserver, ← hjob']
    show some (ServerRun.mk _ _ (s.added ++ (s.atomicJob w).adds)) = _
    rw [hat]
    rfl

section Alloc

variable {w : Fin n} {clientFD : SocketFD} {pc : AllocPC}

omit [DecidableEq κ] in
/-- A worker in `AllocSession` is in a job. -/
lemma Inv.running_alloc (hs : s.Inv) (hjob : s.job w = .alloc clientFD pc) :
    (s.pool.worker w).running = true := by
  by_contra hrest
  have hnone := hs.jobs.resting w (Bool.eq_false_iff.2 hrest)
  rw [hjob] at hnone
  cases hnone

omit [DecidableEq κ] in
lemma Inv.ne_popUnlock_alloc (hs : s.Inv) (hjob : s.job w = .alloc clientFD pc) (j : ServerJob) :
    s.pool.worker w ≠ .popUnlock (some j) := by
  intro hw
  have hrun := hs.running_alloc hjob
  rw [hw] at hrun
  cases hrun

omit [DecidableEq κ] in
lemma Inv.atomicJob_alloc (hs : s.Inv) (hjob : s.job w = .alloc clientFD pc) :
    s.atomicJob w = (LockedJobPC.alloc clientFD pc).atomic := by
  rw [atomicJob_of_ne (hs.ne_popUnlock_alloc hjob), hjob]

/-- A worker goes on in `AllocSession`, or leaves it. -/
lemma Inv.allocMove (hs : s.Inv) (hjob : s.job w = .alloc clientFD pc)
    (hadd : s.pool.adding (.inl w) = none) {pc' : LockedJobPC} {mutex : Mutex (Fin n)}
    {indices : List ℤ} {steps : List (RunStep n κ)}
    (huses : Mutex.Uses s.mStackMutex mutex s.memory.group.mSessionIndexPool indices
      (fun w => (s.job w).inside) (fun w' => (Function.update s.job w pc' w').inside) w)
    (hsees : pc'.Sees indices)
    (hexec : (ServerRun.machine n κ).exec s.atomic steps = some { s.atomic with
      server := { s.atomic.server with
        memory := { s.memory with group := { s.memory.group with mSessionIndexPool := indices } }
        job := Function.update s.atomicJob w pc'.atomic } }) :
    s.SeenAs ({ s with
      mStackMutex := mutex
      memory := { s.memory with
        group := { s.memory.group with mSessionIndexPool := indices } } }.gotoJob w pc') steps := by
  have hjobs := atomicJob_update (s := s) (u := { s with
    mStackMutex := mutex
    memory := { s.memory with
      group := { s.memory.group with mSessionIndexPool := indices } } }.gotoJob w pc')
    rfl (fun _ _ => rfl) (hs.ne_popUnlock_alloc hjob)
  refine hs.seenAs hs.pool (hs.jobs.move rfl (fun hrest => ?_) (fun _ _ => rfl) (fun _ => hadd)
    (fun _ _ => id) huses hsees)
    (hs.senders.congr rfl hs.senders.guards (fun _ _ _ _ _ => rfl) rfl) ?_
  · have hrun := hs.running_alloc hjob
    exact absurd hrest (by simp [gotoJob, hrun])
  · rw [hexec, ← hjobs]
    rfl

/-- A step in `AllocSession` that the server with one-step sections does not take. -/
lemma Inv.allocUnseen (hs : s.Inv) (hjob : s.job w = .alloc clientFD pc)
    (hadd : s.pool.adding (.inl w) = none) {pc' : LockedJobPC} {mutex : Mutex (Fin n)}
    (huses : Mutex.Uses s.mStackMutex mutex s.memory.group.mSessionIndexPool
      s.memory.group.mSessionIndexPool (fun w => (s.job w).inside)
      (fun w' => (Function.update s.job w pc' w').inside) w)
    (hsees : pc'.Sees s.memory.group.mSessionIndexPool)
    (hatomic : pc'.atomic = (LockedJobPC.alloc clientFD pc).atomic) :
    s.SeenAs ({ s with mStackMutex := mutex }.gotoJob w pc') [] := by
  refine hs.allocMove hjob hadd huses hsees ?_
  rw [hatomic, ← hs.atomicJob_alloc hjob, Function.update_eq_self]
  rfl

/-- The step in which the section of `AllocSession` is done. -/
lemma Inv.exec_alloc (hs : s.Inv) (hjob : s.job w = .alloc clientFD pc)
    (hadd : s.pool.adding (.inl w) = none)
    (hatomic : (LockedJobPC.alloc clientFD pc).atomic = .accept (.alloc clientFD)) {index : ℤ}
    {group : SessionGroup} (halloc : s.memory.group.allocSession = (index, group)) :
    (ServerRun.machine n κ).exec s.atomic [.job w .run] = some { s.atomic with
      server := { s.atomic.server with
        memory := { s.memory with group := group }
        job := Function.update s.atomicJob w (.accept (.number clientFD index)) } } := by
  have hat := (hs.atomicJob_alloc hjob).trans hatomic
  have hadd' : s.pool.atomic.adding (.inl w) = none := LockedPool.atomic_adding hadd
  have hserver : s.atomic.server.step (.job w .run) = some { s.atomic.server with
      memory := { s.memory with group := group }
      job := Function.update s.atomicJob w (.accept (.number clientFD index)) } := by
    show (if s.pool.atomic.adding (.inl w) = none then _ else none) = _
    rw [if_pos hadd']
    show (s.memory.jobStep (s.atomicJob w) .run).bind _ = _
    rw [hat]
    simp only [ServerMemory.jobStep, ServerMemory.acceptStep, halloc, Option.bind_some]
    rfl
  refine StepMachine.exec_cons_of_step ?_
  show (s.atomic.server.step (.job w .run)).bind _ = _
  rw [hserver]
  show some (ServerRun.mk _ _ (s.added ++ (s.atomicJob w).adds)) = _
  rw [hat]
  show some (ServerRun.mk _ _ (s.added ++ [])) = _
  rw [List.append_nil]
  rfl

/-- **A step of a worker in `AllocSession`.** -/
lemma Inv.allocStep (hs : s.Inv) (hjob : s.job w = .alloc clientFD pc)
    (hadd : s.pool.adding (.inl w) = none) (h : s.stepAlloc w clientFD pc = some s') :
    s.SeenAs s' (s.seeJob w .run) := by
  have hold : (s.job w).inside = (LockedJobPC.alloc clientFD pc).inside := by rw [hjob]
  simp only [seeJob, hjob]
  cases pc with
  | lock =>
    obtain ⟨m, hlock, h⟩ := Option.bind_eq_some_iff.1 h
    obtain rfl := Option.some.inj h
    refine hs.allocUnseen hjob hadd (.lock hlock rfl ?_) trivial rfl
    simp [LockedJobPC.inside]
  | empty =>
    obtain rfl := Option.some.inj h
    by_cases hnil : s.memory.group.mSessionIndexPool = []
    · have halloc := SessionGroup.allocSession_eq_nil hnil
      simp only [hnil, List.isEmpty_nil, if_true]
      refine hs.allocMove hjob hadd (.nothing rfl rfl ?_) trivial
        (hs.exec_alloc hjob hadd rfl halloc)
      simp [hjob, LockedJobPC.inside]
    · have hfalse : s.memory.group.mSessionIndexPool.isEmpty = false := by simpa using hnil
      simp only [hfalse, Bool.false_eq_true, if_false]
      refine hs.allocUnseen hjob hadd (.nothing rfl rfl ?_) hnil rfl
      simp [hjob, LockedJobPC.inside]
  | top =>
    simp only [stepAlloc] at h
    split at h
    · cases h
    · rename_i index indices hindices
      obtain rfl := Option.some.inj h
      refine hs.allocUnseen hjob hadd (.nothing rfl rfl ?_) (congrArg List.head? hindices) rfl
      simp [hjob, LockedJobPC.inside]
  | pop index =>
    simp only [stepAlloc] at h
    split at h
    · cases h
    · rename_i index' indices hindices
      obtain rfl := Option.some.inj h
      -- the index on top is still the one that `top` has returned
      have hsees := hs.jobs.sees w
      rw [hjob] at hsees
      obtain rfl : index' = index := by simpa [LockedJobPC.Sees, hindices] using hsees
      have halloc := SessionGroup.allocSession_eq hindices
      refine hs.allocMove hjob hadd (.access rfl hold ?_) trivial
        (hs.exec_alloc hjob hadd rfl halloc)
      simp [LockedJobPC.inside]
  | unlock index =>
    obtain rfl := Option.some.inj h
    refine hs.allocUnseen hjob hadd (.unlock rfl rfl hold ?_) (.enter _ _)
      (LockedJobPC.atomic_enter _)
    simp

end Alloc

/-- **A step of a job.** -/
lemma Inv.jobStep (hs : s.Inv) {w : Fin n} {input : JobInput}
    (h : s.step (.job w input) = some s') : s.SeenAs s' (s.see (.job w input)) := by
  obtain ⟨hadd, h⟩ := Option.ite_none_right_eq_some.1 h
  cases hjob : s.job w with
  | job pc hpc =>
    simp only [hjob] at h
    obtain ⟨⟨memory, next⟩, hstep, h⟩ := Option.bind_eq_some_iff.1 h
    have hsee : s.see (.job w input) = [.job w input] := by simp only [see, seeJob, hjob]
    rw [hsee]
    exact hs.plainStep hjob hadd hstep h
  | alloc clientFD pc =>
    simp only [hjob] at h
    obtain ⟨rfl, h⟩ := Option.ite_none_right_eq_some.1 h
    exact hs.allocStep hjob hadd h

/-! ## The steps of `Start` -/

/-- **A step of `Start`.** -/
lemma Inv.startStep (hs : s.Inv) {ok : Bool} (h : s.step (.start ok) = some s') :
    s.SeenAs s' [.start ok] := by
  simp only [step] at h
  split at h
  · rename_i hstarting
    obtain ⟨pool, hpool, h⟩ := Option.bind_eq_some_iff.1 h
    obtain rfl := Option.some.inj h
    obtain ⟨hinv, hatomic⟩ := atomic_step hs.pool hpool rfl
    obtain ⟨hworker, hadding⟩ := LockedPool.callAddJob_of_step hpool
    have hjob : ({ s with pool := pool, starting := .epollAdd } : LockedServer n κ).atomicJob =
        s.atomicJob := by
      funext w
      exact atomicJob_congr (congrFun hworker w) rfl
    refine hs.seenAs hinv (hs.jobs.congr rfl (fun w hw => ?_) (fun w hw => ?_) rfl rfl)
      (hs.senders.congr rfl hs.senders.guards (fun _ _ _ _ _ => rfl) rfl)
      (StepMachine.exec_cons_of_step ?_)
    · rw [← hworker]
      exact hw
    · rw [hadding _ (by simp)]
      exact hw
    · have hserver : s.atomic.server.step (.start ok) = some { s.atomic.server with
          pool := pool.atomic
          starting := .epollAdd } := by
        rw [Server.step_start_addJob (m := s.atomic.server) hstarting]
        show (s.pool.atomic.step (.callAddJob (.inr ()) .poll)).bind _ = _
        rw [hatomic]
        rfl
      show (s.atomic.server.step (.start ok)).bind _ = _
      rw [hserver]
      show some (ServerRun.mk (Server.mk _ _ s.atomicJob _ _) _ _) = _
      rw [← hjob]
      rfl
  · rename_i hstarting
    obtain ⟨hadd, h⟩ := Option.ite_none_right_eq_some.1 h
    obtain ⟨memory, hmemory, h⟩ := Option.bind_eq_some_iff.1 h
    obtain rfl := Option.some.inj h
    have hgroup := (ServerMemory.epollAdd_eq_some hmemory).2
    refine hs.seenAs hs.pool (hs.jobs.congr rfl (fun _ => id) (fun _ => id) rfl ?_)
      (hs.senders.congr rfl hs.senders.guards (fun k slot _ _ _ => ?_) ?_)
      (StepMachine.exec_cons_of_step ?_)
    · exact congrArg SessionGroup.mSessionIndexPool hgroup
    · exact congrArg Session.mPackets (ServerMemory.session_of_group_eq hgroup slot)
    · exact congrArg SessionGroup.mMaxSession hgroup
    · have hadd' : s.pool.atomic.adding (.inr ()) = none := LockedPool.atomic_adding hadd
      have hserver : s.atomic.server.step (.start ok) = some { s.atomic.server with
          memory := memory
          starting := .returned } := by
        rw [Server.step_start_epollAdd (m := s.atomic.server) hstarting hadd']
        show (s.memory.epollAdd s.memory.mListenFD .accept ok).bind _ = _
        rw [hmemory]
        rfl
      show (s.atomic.server.step (.start ok)).bind _ = _
      rw [hserver]
      rfl
  · cases h

/-! ## The threads that send -/

/-- A thread goes on, with the mutexes of the sessions or the packets of one changed. -/
lemma SendLocks.move (hs : s.SendLocks) {k : κ} {pc : LockedSendPC}
    (hsender : s'.sender = Function.update s.sender k pc)
    (huses : ∀ i, 0 ≤ i → Mutex.Uses (s.mPacketMutex i) (s'.mPacketMutex i)
      (s.memory.session i).mPackets (s'.memory.session i).mPackets (fun k => (s.sender k).inside i)
      (fun k => (s'.sender k).inside i) k)
    (hsees : pc.Sees s'.memory) (hin : pc.InTable s'.memory)
    (hmax : s'.memory.group.mMaxSession = s.memory.group.mMaxSession) : s'.SendLocks := by
  have hself : s'.sender k = pc := by rw [hsender, Function.update_self]
  have hother : ∀ k', k' ≠ k → s'.sender k' = s.sender k' := fun k' hne => by
    rw [hsender, Function.update_of_ne hne]
  constructor
  · intro i hi
    exact (hs.guards i hi).uses (huses i hi) fun k' hne => by rw [hother k' hne]
  · intro k'
    rcases eq_or_ne k' k with rfl | hne
    · rw [hself]
      exact hsees
    · have hsees' := hs.sees k'
      have hin' := hs.inTable k'
      rw [hother k' hne]
      cases hk : s.sender k' with
      | send pc' h => trivial
      | locked slot sec pc' =>
        rw [hk] at hsees' hin'
        cases pc' with
        | write packets =>
          have hinside : (s.sender k').inside slot = true := by
            rw [hk]
            exact decide_eq_true rfl
          have hsame := (huses slot hin'.1).data_eq (hs.guards slot hin'.1) (u := k') hinside hne
          exact hsame.trans hsees'
        | _ => trivial
  · intro k'
    rcases eq_or_ne k' k with rfl | hne
    · rw [hself]
      exact hin
    · have hin' := hs.inTable k'
      rw [hother k' hne]
      cases hk : s.sender k' with
      | send pc' h => trivial
      | locked slot sec pc' =>
        rw [hk] at hin'
        exact ⟨hin'.1, by rw [hmax]; exact hin'.2⟩

/-- A thread that sends goes on, or has made a call. -/
lemma Inv.sendMove (hs : s.Inv) {k : κ} {pc : LockedSendPC} {memory : ServerMemory}
    {mutex : ℤ → Mutex κ} {steps : List (RunStep n κ)}
    (hindices : memory.group.mSessionIndexPool = s.memory.group.mSessionIndexPool)
    (hmax : memory.group.mMaxSession = s.memory.group.mMaxSession)
    (huses : ∀ i, 0 ≤ i → Mutex.Uses (s.mPacketMutex i) (mutex i) (s.memory.session i).mPackets
      (memory.session i).mPackets (fun k => (s.sender k).inside i)
      (fun k' => (Function.update s.sender k pc k').inside i) k)
    (hsees : pc.Sees memory) (hin : pc.InTable memory)
    (hexec : (ServerRun.machine n κ).exec s.atomic steps = some { s.atomic with
      server := { s.atomic.server with memory := memory }
      sender := Function.update s.atomic.sender k pc.atomic }) :
    s.SeenAs ({ s with memory := memory, mPacketMutex := mutex }.gotoSender k pc) steps := by
  refine hs.seenAs hs.pool (hs.jobs.congr rfl (fun _ => id) (fun _ => id) rfl hindices)
    (hs.senders.move rfl huses hsees hin hmax) ?_
  rw [hexec]
  have hsender : Function.update s.atomic.sender k pc.atomic =
      fun k' => (Function.update s.sender k pc k').atomic := by
    funext k'
    rw [Function.apply_update (fun _ => LockedSendPC.atomic)]
    rfl
  rw [hsender]
  rfl

/-- A call of `Send` or `Disconnect`. -/
lemma Inv.callStep (hs : s.Inv) {k : κ} {pc : SendPC} {a : RunStep n κ}
    (hidle : s.sender k = .enter .idle) (hpc : (LockedSendPC.enter pc).InTable s.memory)
    (ha : s.atomic.step a =
      some { s.atomic with sender := Function.update s.atomic.sender k pc }) :
    s.SeenAs (s.gotoSender k (.enter pc)) [a] := by
  refine hs.sendMove rfl rfl (fun i _ => .nothing rfl rfl ?_) (.enter _ _) hpc ?_
  · rw [Function.update_self, hidle]
    simp
  · rw [LockedSendPC.atomic_enter]
    exact StepMachine.exec_cons_of_step ha

section Section

variable {k : κ} {slot : ℤ} {sec : PacketSection} {pc : PacketPC}

/-- A step of a thread outside of the sections. -/
lemma Inv.sendStep (hs : s.Inv) {input : SendInput} {spc pc' : SendPC} {hpc : spc.locks = none}
    {memory : ServerMemory} (hk : s.sender k = .send spc hpc)
    (hstep : s.memory.sendStep spc input = some (memory, pc')) :
    s.SeenAs ({ s with memory := memory }.gotoSender k (.enter pc')) [.sender k input] := by
  have hmoves := ServerMemory.sendMoves_of_step hstep
  refine hs.sendMove hmoves.shrinks.pool_eq hmoves.shrinks.max_eq (fun i hi => .nothing rfl ?_ ?_)
    (.enter _ _) ?_ (StepMachine.exec_cons_of_step ?_)
  · exact (hmoves.session hi).mPackets hpc
  · rw [Function.update_self, LockedSendPC.inside_enter, hk]
    rfl
  · rcases LockedSendPC.enter_cases pc' with ⟨h, heq⟩ | ⟨slot, sec, rfl, heq⟩
    · rw [heq]
      trivial
    · rw [heq]
      exact hmoves.inTable_begins
  · have hat : s.atomic.sender k = spc := by
      show (s.sender k).atomic = _
      rw [hk]
      rfl
    show (s.memory.sendStep (s.atomic.sender k) input).bind _ = _
    rw [hat, hstep, LockedSendPC.atomic_enter]
    rfl

/-- **A step of a thread in a section.** -/
lemma Inv.packetStep (hs : s.Inv) (hk : s.sender k = .locked slot sec pc)
    (h : s.stepPackets k slot sec pc = some s') : s.SeenAs s' (s.seeSender k .run) := by
  have hat : s.atomic.sender k = (LockedSendPC.locked slot sec pc).atomic :=
    congrArg LockedSendPC.atomic hk
  have hin : s.memory.InTable slot := by
    have hin := hs.senders.inTable k
    rw [hk] at hin
    exact hin
  -- the thread stays where it is for the server with one-step sections
  have hstays : ∀ pc' : LockedSendPC, pc'.atomic = (LockedSendPC.locked slot sec pc).atomic →
      (ServerRun.machine n κ).exec s.atomic [] = some { s.atomic with
        server := { s.atomic.server with memory := s.memory }
        sender := Function.update s.atomic.sender k pc'.atomic } := by
    intro pc' hpc'
    rw [hpc', ← hat, Function.update_eq_self]
    rfl
  simp only [seeSender, hk]
  cases pc with
  | lock =>
    obtain ⟨m, hlock, h⟩ := Option.bind_eq_some_iff.1 h
    obtain rfl := Option.some.inj h
    refine hs.sendMove rfl rfl (fun i _ => ?_) trivial hin (hstays _ rfl)
    rcases eq_or_ne i slot with rfl | hne
    · refine .lock ?_ rfl ?_
      · rw [Function.update_self]
        exact hlock
      · simp [LockedSendPC.inside]
    · refine .nothing (Function.update_of_ne hne _ _) rfl ?_
      simp [hk, LockedSendPC.inside_of_ne hne]
  | read =>
    obtain ⟨-, h⟩ := ServerMemory.slot_bind_eq_some.1 h
    obtain rfl := Option.some.inj h
    refine hs.sendMove rfl rfl (fun i _ => .nothing rfl rfl ?_) rfl hin (hstays _ rfl)
    simp [hk, LockedSendPC.inside]
  | write packets =>
    obtain ⟨-, h⟩ := ServerMemory.modifySession_bind_eq_some.1 h
    obtain rfl := Option.some.inj h
    -- the vector is still what the thread has read
    have hsees : (s.memory.session slot).mPackets = packets := by
      have hsees := hs.senders.sees k
      rw [hk] at hsees
      exact hsees
    refine hs.sendMove rfl rfl (fun i hi => ?_) trivial hin (StepMachine.exec_cons_of_step ?_)
    · rcases eq_or_ne i slot with rfl | hne
      · refine .access rfl ?_ ?_
        · simp [hk, LockedSendPC.inside]
        · simp [LockedSendPC.inside]
      · refine .nothing rfl ?_ ?_
        · rw [ServerMemory.session_updateSession hin.1 hi, if_neg hne]
        · simp [hk, LockedSendPC.inside_of_ne hne]
    · show (s.memory.sendStep (s.atomic.sender k) .run).bind _ = _
      have hbegins : s.atomic.sender k = sec.begins slot := hat
      rw [hbegins, ServerMemory.sendStep_begins hin hsees]
      rfl
  | unlock packets =>
    obtain rfl := Option.some.inj h
    refine hs.sendMove rfl rfl (fun i _ => ?_) (.enter _ _) ?_ (hstays _ ?_)
    · rcases eq_or_ne i slot with rfl | hne
      · refine .unlock ?_ rfl ?_ ?_
        · rw [Function.update_self]
        · simp [hk, LockedSendPC.inside]
        · simp
      · refine .nothing (Function.update_of_ne hne _ _) rfl ?_
        simp [hk, LockedSendPC.inside_of_ne hne]
    · rcases LockedSendPC.enter_cases (sec.ends slot packets) with
        ⟨h, heq⟩ | ⟨slot', sec', hends, heq⟩
      · rw [heq]
        trivial
      · exact absurd hends (PacketSection.ends_ne_begins sec slot packets sec' slot')
    · exact LockedSendPC.atomic_enter _

end Section

/-- **A step of a thread that sends.** -/
lemma Inv.senderStep (hs : s.Inv) {k : κ} {input : SendInput}
    (h : s.step (.sender k input) = some s') : s.SeenAs s' (s.see (.sender k input)) := by
  simp only [step] at h
  simp only [see]
  split at h
  · rename_i pc hpc hk
    obtain ⟨⟨memory, pc'⟩, hstep, h⟩ := Option.bind_eq_some_iff.1 h
    obtain rfl := Option.some.inj h
    have hsee : s.seeSender k input = [.sender k input] := by simp only [seeSender, hk]
    rw [hsee]
    exact hs.sendStep hk hstep
  · rename_i slot sec pc hk
    obtain ⟨rfl, h⟩ := Option.ite_none_right_eq_some.1 h
    exact hs.packetStep hk h

/-- **One step** keeps the invariant, and is seen as the steps that `see` says. -/
theorem Inv.step (hs : s.Inv) {a : LockedRunStep n κ} (h : s.step a = some s') :
    s.SeenAs s' (s.see a) := by
  have hidle : ∀ {k : κ}, s.sender k = .enter .idle → s.atomic.sender k = .idle := by
    intro k hk
    show (s.sender k).atomic = _
    rw [hk]
    rfl
  cases a with
  | pool a => exact hs.poolStep h
  | job w input => exact hs.jobStep h
  | start ok => exact hs.startStep h
  | send k sessionID packet =>
    obtain ⟨⟨hk, hadded⟩, h⟩ := Option.ite_none_right_eq_some.1 h
    obtain rfl := Option.some.inj h
    exact hs.callStep hk trivial (if_pos ⟨hidle hk, hadded⟩)
  | disconnect k slot =>
    obtain ⟨⟨hk, hadded⟩, h⟩ := Option.ite_none_right_eq_some.1 h
    obtain rfl := Option.some.inj h
    exact hs.callStep hk trivial (if_pos ⟨hidle hk, hadded⟩)
  | sender k input => exact hs.senderStep h

/-- The server with all its mutexes refines the server with one-step sections. -/
lemma refines : (machine n κ).Refines (ServerRun.machine n κ) Inv atomic see where
  keeps hs h := (hs.step h).1
  simulates hs h := (hs.step h).2

end LockedServer

open LockedServer

/-- **The sections of the server are atomic.**  However the threads of a started server are
interleaved, at most one of them is inside a section of each mutex: of the two of the pool, of the
one of the session group, and of the one of the session in each slot.  A run is seen as a run of
the server in which every section is one step. -/
theorem server_sections_atomic {n : ℕ} {κ : Type} [DecidableEq κ] (memory : ℕ → Session)
    {maxSessions : ℕ} (hmax : maxSessions < 65536) (uniqueNumber : BitVec 64)
    (listenFD : SocketFD) {as : List (LockedRunStep n κ)} {s : LockedServer n κ}
    (hrun : (LockedServer.machine n κ).exec
      (LockedServer.start n κ memory maxSessions uniqueNumber listenFD) as = some s) :
    (ServerRun.machine n κ).exec (ServerRun.start n κ memory maxSessions uniqueNumber listenFD)
        ((LockedServer.machine n κ).seen see
          (LockedServer.start n κ memory maxSessions uniqueNumber listenFD) as) = some s.atomic ∧
      (∀ t t', s.pool.inQueue t = true → s.pool.inQueue t' = true → t = t') ∧
      (∀ t t', s.pool.inStack t = true → s.pool.inStack t' = true → t = t') ∧
      (∀ w w', (s.job w).inside = true → (s.job w').inside = true → w = w') ∧
      ∀ i k k', (s.sender k).inside i = true → (s.sender k').inside i = true → k = k' := by
  have h₀ := LockedServer.inv_start (n := n) (κ := κ) memory hmax uniqueNumber listenFD
  have hs : s.Inv := LockedServer.refines.invariant h₀ hrun
  refine ⟨LockedServer.refines.exec h₀ hrun, fun _ _ => hs.pool.queue.unique,
    fun _ _ => hs.pool.stack.unique, fun _ _ => hs.jobs.guards.unique, fun i k k' hk hk' => ?_⟩
  obtain ⟨sec, pc, hsender⟩ := locked_of_inside hk
  have hin := hs.senders.inTable k
  rw [hsender] at hin
  exact (hs.senders.guards i hin.1).unique hk hk'

namespace LockedServer

/-- A thread goes on in `AddJob`, which finds no worker idle. -/
def addJob (t : WorkerThreadPool.Thread 2 Unit) : List (LockedRunStep 2 Bool) :=
  List.replicate 4 (.pool (.addJob t))

/-- The first worker takes a job from the queue and begins it. -/
def popJob : List (LockedRunStep 2 Bool) := List.replicate 6 (.pool (.worker 0))

/-- The server accepts a client.  Two threads send to it: the second one wants to put its packet
into the queue while the first one is inside the section, and gets the mutex when it has left. -/
def twoSends : List (LockedRunStep 2 Bool) :=
  [.start true] ++ addJob (.inr ()) ++ [.start true] ++ popJob ++
    [.job 0 (.epollWait (.events [3])), .job 0 .run] ++ addJob (.inl 0) ++
    List.replicate 2 (.job 0 .run) ++ addJob (.inl 0) ++ List.replicate 2 (.job 0 .run) ++ popJob ++
    [.job 0 (.accept (.accepted 7)), .job 0 (.onAccepeted true)] ++
    List.replicate 8 (.job 0 .run) ++
    [.send true 0 ⟨4096, 1⟩, .sender true .run, .sender true .run, .send false 0 ⟨8192, 1⟩,
      .sender false .run, .sender true .run, .sender true .run, .sender true .run,
      .sender false .run]

end LockedServer

theorem server_sections_atomic_twoSends : ∃ s,
    (LockedServer.machine 2 Bool).exec
      (LockedServer.start 2 Bool (fun _ => Session.zeroMemory) 2 0 3) twoSends = some s ∧
      (ServerRun.machine 2 Bool).exec
        (ServerRun.start 2 Bool (fun _ => Session.zeroMemory) 2 0 3)
        ((LockedServer.machine 2 Bool).seen see
          (LockedServer.start 2 Bool (fun _ => Session.zeroMemory) 2 0 3) twoSends) =
            some s.atomic :=
  StepMachine.exists_exec_and (fun _ => True) (by decide +kernel) fun _ hrun _ =>
    (server_sections_atomic (fun _ => Session.zeroMemory) (by decide) 0 3 hrun).1

end CoreServer
