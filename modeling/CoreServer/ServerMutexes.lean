import CoreServer.ServerSections

/-!
# No mutex of the server is held for good

A thread of a running server holds at most one mutex at a time, and while it holds one it waits for
nothing: it can always go on, and after a few steps of its own it has given the mutex back.  So the
mutexes cannot bring the server to a halt.  The one exception is a thread in `WakeOneThread` that
asks the empty idle stack for its top, which has no defined behaviour.
-/

namespace CoreServer

lemma LockedPool.Step.internal_of {n : ℕ} {κ J : Type} {a : LockedPool.Step n κ J}
    {t : WorkerThreadPool.Thread n κ} (h : a.Of t) : a.internal = true := by
  rcases h with rfl | ⟨w, -, rfl⟩ <;> rfl

namespace LockedPool

variable {n : ℕ} {κ J : Type} {s : LockedPool n κ J} {t : WorkerThreadPool.Thread n κ}

lemma WorkerPC.not_inside_of_running {pc : WorkerPC J} (h : pc.running = true) :
    pc.inQueue = false ∧ pc.inStack = false := by
  cases pc with
  | execute job => exact ⟨rfl, rfl⟩
  | complete job => exact ⟨rfl, rfl⟩
  | _ => cases h

/-- A thread is inside a section of one of the mutexes of the pool at most. -/
lemma Inv.not_both (hs : s.Inv) (hqueue : s.inQueue t = true) : s.inStack t = false := by
  rw [Bool.eq_false_iff]
  intro hstack
  cases hadd : s.adding t with
  | some pc =>
    have hrun := hs.running hadd
    rw [inQueue_add hrun, hadd] at hqueue
    rw [inStack_add hrun, hadd] at hstack
    cases pc <;> simp [AddPC.inQueue, AddPC.inStack] at hqueue hstack
  | none =>
    cases t with
    | inl w =>
      rw [inQueue_worker hadd] at hqueue
      rw [inStack_worker hadd] at hstack
      cases hpc : s.worker w <;> simp [hpc, WorkerPC.inQueue, WorkerPC.inStack] at hqueue hstack
    | inr k => simp [inQueue, hadd] at hqueue

/-- A worker that runs a job, and is not in `AddJob`, is inside no section of the pool. -/
lemma not_inside_of_running {w : Fin n} (hrun : (s.worker w).running = true)
    (hadd : s.adding (.inl w) = none) :
    s.inQueue (.inl w) = false ∧ s.inStack (.inl w) = false := by
  rw [inQueue_worker hadd, inStack_worker hadd]
  exact WorkerPC.not_inside_of_running hrun

end LockedPool

namespace LockedServer

variable {n : ℕ} {κ : Type} [DecidableEq κ] {s s' : LockedServer n κ}

/-- After `k` steps labelled `a` the mutex `m` is free. -/
def Frees {τ : Type} (m : LockedServer n κ → Mutex τ) (a : LockedRunStep n κ)
    (s : LockedServer n κ) (k : ℕ) : Prop :=
  ∃ s', (machine n κ).exec s (List.replicate k a) = some s' ∧ (m s').mMutex = none

/-- Every thread that holds a mutex can give it back by at most four steps of its own. -/
structure GivesBack (s : LockedServer n κ) : Prop where
  queue : ∀ t, s.pool.mQueueMutex.mMutex = some t →
    ∃ a k, a.Of t ∧ k ≤ 4 ∧ s.Frees (fun s => s.pool.mQueueMutex) (.pool a) k
  stack : ∀ t, s.pool.mStackMutex.mMutex = some t →
    (s.pool.adding t = some .wakeTop ∧ s.pool.mIdleThreads = []) ∨
      ∃ a k, a.Of t ∧ k ≤ 4 ∧ s.Frees (fun s => s.pool.mStackMutex) (.pool a) k
  indices : ∀ w, s.mStackMutex.mMutex = some w →
    ∃ k ≤ 4, s.Frees mStackMutex (.job w .run) k
  packets : ∀ i, 0 ≤ i → ∀ t, (s.mPacketMutex i).mMutex = some t →
    ∃ k ≤ 4, s.Frees (fun s => s.mPacketMutex i) (.sender t .run) k

omit [DecidableEq κ] in
/-- No thread holds two mutexes. -/
structure OneMutex (s : LockedServer n κ) : Prop where
  pool : ∀ t, s.pool.mQueueMutex.mMutex = some t → s.pool.mStackMutex.mMutex ≠ some t
  indices : ∀ w, s.mStackMutex.mMutex = some w →
    s.pool.mQueueMutex.mMutex ≠ some (.inl w) ∧ s.pool.mStackMutex.mMutex ≠ some (.inl w)
  packets : ∀ i j, 0 ≤ i → 0 ≤ j → ∀ t, (s.mPacketMutex i).mMutex = some t →
    (s.mPacketMutex j).mMutex = some t → i = j

omit [DecidableEq κ] in
lemma Inv.oneMutex (hs : s.Inv) : s.OneMutex := by
  constructor
  · intro t hqueue hstack
    have hin := hs.pool.not_both ((hs.pool.queue t).2 hqueue)
    rw [(hs.pool.stack t).2 hstack] at hin
    cases hin
  · intro w hw
    have hin : (s.job w).inside = true := (hs.jobs.guards w).2 hw
    have hadd := hs.jobs.alone w hin
    have hrun : (s.pool.worker w).running = true := by
      cases hjob : s.job w with
      | job pc h =>
        rw [hjob] at hin
        cases hin
      | alloc clientFD pc => exact hs.running_alloc hjob
    obtain ⟨hqueue, hstack⟩ := LockedPool.not_inside_of_running hrun hadd
    constructor
    · intro hheld
      rw [(hs.pool.queue _).2 hheld] at hqueue
      cases hqueue
    · intro hheld
      rw [(hs.pool.stack _).2 hheld] at hstack
      cases hstack
  · intro i j hi hj t hti htj
    obtain ⟨sec, pc, hk⟩ := locked_of_inside ((hs.senders.guards i hi t).2 hti)
    obtain ⟨sec', pc', hk'⟩ := locked_of_inside ((hs.senders.guards j hj t).2 htj)
    rw [hk] at hk'
    exact (LockedSendPC.locked.inj hk').1

/-! ## The steps of the holder -/

variable {τ : Type} {m : LockedServer n κ → Mutex τ} {a : LockedRunStep n κ} {k : ℕ}

lemma Frees.cons (h : s.step a = some s') (hk : s'.Frees m a k) : s.Frees m a (k + 1) := by
  obtain ⟨t, hexec, hfree⟩ := hk
  exact ⟨t, (StepMachine.exec_cons_of_step h).trans hexec, hfree⟩

lemma Frees.last (h : s.step a = some s') (hfree : (m s').mMutex = none) : s.Frees m a 1 :=
  .cons h ⟨s', rfl, hfree⟩

/-- The steps of a thread in the pool are steps of the server. -/
lemma exec_replicate_pool {a : LockedPool.Step n Unit ServerJob} (ha : a.internal = true)
    {pool : LockedPool n Unit ServerJob}
    (h : (LockedPool.machine n Unit ServerJob).exec s.pool (List.replicate k a) = some pool) :
    ∃ s', (machine n κ).exec s (List.replicate k (.pool a)) = some s' ∧ s'.pool = pool := by
  induction k generalizing s with
  | zero =>
    obtain rfl : s.pool = pool := Option.some.inj h
    exact ⟨s, rfl, rfl⟩
  | succ k ih =>
    obtain ⟨pool', hstep, hrest⟩ := StepMachine.exec_cons_eq_some.1 h
    have hpool : s.pool.step a = some pool' := hstep
    have hserver : ∃ job, s.step (.pool a) = some { s with pool := pool', job := job } := by
      simp only [step, ha, if_true, hpool]
      exact ⟨_, rfl⟩
    obtain ⟨job, hserver⟩ := hserver
    obtain ⟨s', hexec, heq⟩ := ih (s := { s with pool := pool', job := job }) hrest
    exact ⟨s', (StepMachine.exec_cons_of_step hserver).trans hexec, heq⟩

lemma frees_of_pool {m : LockedPool n Unit ServerJob → Mutex (WorkerThreadPool.Thread n Unit)}
    {a : LockedPool.Step n Unit ServerJob} (ha : a.internal = true) (h : s.pool.Frees m a k) :
    s.Frees (fun s => m s.pool) (.pool a) k := by
  obtain ⟨pool, hexec, hfree⟩ := h
  obtain ⟨s', hexec', rfl⟩ := exec_replicate_pool ha hexec
  exact ⟨s', hexec', hfree⟩

section Alloc

variable {w : Fin n} {clientFD : SocketFD} {pc : AllocPC}

/-- A step of a worker in `AllocSession`. -/
lemma step_alloc (hjob : s.job w = .alloc clientFD pc) (hadd : s.pool.adding (.inl w) = none) :
    s.step (.job w .run) = s.stepAlloc w clientFD pc := by
  simp only [step, hadd, hjob, if_true]

omit [DecidableEq κ] in
lemma gotoJob_self (s : LockedServer n κ) (w : Fin n) (pc : LockedJobPC) :
    (s.gotoJob w pc).job w = pc := Function.update_self ..

lemma frees_allocUnlock {index : ℤ} (hjob : s.job w = .alloc clientFD (.unlock index))
    (hadd : s.pool.adding (.inl w) = none) : s.Frees mStackMutex (.job w .run) 1 :=
  .last (step_alloc hjob hadd) rfl

lemma frees_allocPop {index : ℤ} (hjob : s.job w = .alloc clientFD (.pop index))
    (hadd : s.pool.adding (.inl w) = none) (hindices : s.memory.group.mSessionIndexPool ≠ []) :
    s.Frees mStackMutex (.job w .run) 2 := by
  obtain ⟨index', indices, hindices⟩ := List.exists_cons_of_ne_nil hindices
  have h : s.step (.job w .run) = some ({ s with memory := { s.memory with
      group := { s.memory.group with mSessionIndexPool := indices } } }.gotoJob w
        (.alloc clientFD (.unlock index))) := by
    rw [step_alloc hjob hadd]
    simp only [stepAlloc, hindices]
  exact .cons h (frees_allocUnlock (gotoJob_self ..) hadd)

lemma frees_allocTop (hjob : s.job w = .alloc clientFD .top)
    (hadd : s.pool.adding (.inl w) = none) (hindices : s.memory.group.mSessionIndexPool ≠ []) :
    s.Frees mStackMutex (.job w .run) 3 := by
  obtain ⟨index, indices, hcons⟩ := List.exists_cons_of_ne_nil hindices
  have h : s.step (.job w .run) = some (s.gotoJob w (.alloc clientFD (.pop index))) := by
    rw [step_alloc hjob hadd]
    simp only [stepAlloc, hcons]
  exact .cons h (frees_allocPop (gotoJob_self ..) hadd hindices)

/-- A worker inside `AllocSession` leaves it in at most four steps. -/
lemma Inv.frees_alloc (hs : s.Inv) (hin : (s.job w).inside = true) :
    ∃ k ≤ 4, s.Frees mStackMutex (.job w .run) k := by
  have hadd := hs.jobs.alone w hin
  have hsees := hs.jobs.sees w
  cases hjob : s.job w with
  | job pc h =>
    rw [hjob] at hin
    cases hin
  | alloc clientFD pc =>
    rw [hjob] at hin hsees
    cases pc with
    | lock => cases hin
    | empty =>
      by_cases hnil : s.memory.group.mSessionIndexPool = []
      · have h : s.step (.job w .run) =
            some (s.gotoJob w (.alloc clientFD (.unlock sINVALID_ID))) := by
          rw [step_alloc hjob hadd]
          simp [stepAlloc, hnil]
        exact ⟨2, by omega, .cons h (frees_allocUnlock (gotoJob_self ..) hadd)⟩
      · have h : s.step (.job w .run) = some (s.gotoJob w (.alloc clientFD .top)) := by
          rw [step_alloc hjob hadd]
          simp [stepAlloc, hnil]
        exact ⟨4, le_rfl, .cons h (frees_allocTop (gotoJob_self ..) hadd hnil)⟩
    | top => exact ⟨3, by omega, frees_allocTop hjob hadd hsees⟩
    | pop index =>
      refine ⟨2, by omega, frees_allocPop hjob hadd fun hnil => ?_⟩
      simp [LockedJobPC.Sees, hnil] at hsees
    | unlock index => exact ⟨1, by omega, frees_allocUnlock hjob hadd⟩

end Alloc

section Packets

variable {t : κ} {slot : ℤ} {sec : PacketSection} {pc : PacketPC}

/-- A step of a thread in a section on `mPackets`. -/
lemma step_packets (hk : s.sender t = .locked slot sec pc) :
    s.step (.sender t .run) = s.stepPackets t slot sec pc := by
  simp only [step, hk, if_true]

lemma gotoSender_self (s : LockedServer n κ) (t : κ) (pc : LockedSendPC) :
    (s.gotoSender t pc).sender t = pc := Function.update_self ..

lemma frees_packetUnlock {packets : List IoVec}
    (hk : s.sender t = .locked slot sec (.unlock packets)) :
    s.Frees (fun s => s.mPacketMutex slot) (.sender t .run) 1 := by
  refine .last (step_packets hk) ?_
  show (Function.update s.mPacketMutex slot _ slot).mMutex = none
  rw [Function.update_self]
  rfl

lemma frees_packetWrite {packets : List IoVec}
    (hk : s.sender t = .locked slot sec (.write packets)) (hin : s.memory.InTable slot) :
    s.Frees (fun s => s.mPacketMutex slot) (.sender t .run) 2 := by
  have h : s.step (.sender t .run) = some ({ s with
      memory := s.memory.updateSession slot fun session =>
        { session with mPackets := sec.writes packets } }.gotoSender t
          (.locked slot sec (.unlock packets))) := by
    rw [step_packets hk]
    simp only [stepPackets, ServerMemory.modifySession_iff.2 ⟨hin, rfl⟩]
    rfl
  exact .cons h (frees_packetUnlock (gotoSender_self ..))

lemma frees_packetRead (hk : s.sender t = .locked slot sec .read) (hin : s.memory.InTable slot) :
    s.Frees (fun s => s.mPacketMutex slot) (.sender t .run) 3 := by
  have h : s.step (.sender t .run) =
      some (s.gotoSender t (.locked slot sec (.write (s.memory.session slot).mPackets))) := by
    rw [step_packets hk]
    simp only [stepPackets, ServerMemory.slot_iff.2 ⟨hin, rfl⟩]
    rfl
  exact .cons h (frees_packetWrite (gotoSender_self ..) hin)

/-- A thread inside a section on `mPackets` leaves it in at most three steps. -/
lemma Inv.frees_packets (hs : s.Inv) (hin : (s.sender t).inside slot = true) :
    ∃ k ≤ 4, s.Frees (fun s => s.mPacketMutex slot) (.sender t .run) k := by
  obtain ⟨sec, pc, hk⟩ := locked_of_inside hin
  have htable := hs.senders.inTable t
  rw [hk] at hin htable
  cases pc with
  | lock => cases hin
  | read => exact ⟨3, by omega, frees_packetRead hk htable⟩
  | write packets => exact ⟨2, by omega, frees_packetWrite hk htable⟩
  | unlock packets => exact ⟨1, by omega, frees_packetUnlock hk⟩

end Packets

lemma Inv.givesBack (hs : s.Inv) : s.GivesBack := by
  constructor
  · intro t hheld
    obtain ⟨a, k, ha, hk, hfrees⟩ := hs.pool.frees_queue hheld
    exact ⟨a, k, ha, hk, frees_of_pool (LockedPool.Step.internal_of ha) hfrees⟩
  · intro t hheld
    rcases hs.pool.frees_stack hheld with hempty | ⟨a, k, ha, hk, hfrees⟩
    · exact Or.inl hempty
    · exact Or.inr ⟨a, k, ha, hk, frees_of_pool (LockedPool.Step.internal_of ha) hfrees⟩
  · intro w hheld
    exact hs.frees_alloc ((hs.jobs.guards w).2 hheld)
  · intro i hi t hheld
    exact hs.frees_packets ((hs.senders.guards i hi t).2 hheld)

end LockedServer

open LockedServer

/-- **No mutex of the server is held for good.**  However the threads of a started server are
interleaved, a thread holds at most one of the mutexes of the pool, of the session group and of the
sessions, and can give it back by at most four steps of its own, whatever the other threads do not
do; the one exception is a thread that asks the empty idle stack for its top. -/
theorem server_mutexes_givenBack {n : ℕ} {κ : Type} [DecidableEq κ] (memory : ℕ → Session)
    {maxSessions : ℕ} (hmax : maxSessions < 65536) (uniqueNumber : BitVec 64)
    (listenFD : SocketFD) {as : List (LockedRunStep n κ)} {s : LockedServer n κ}
    (hrun : (LockedServer.machine n κ).exec
      (LockedServer.start n κ memory maxSessions uniqueNumber listenFD) as = some s) :
    s.GivesBack ∧ s.OneMutex := by
  have hs : s.Inv := LockedServer.refines.invariant
    (LockedServer.inv_start memory hmax uniqueNumber listenFD) hrun
  exact ⟨hs.givesBack, hs.oneMutex⟩

/-- The second thread that sends has the mutex of the session. -/
theorem server_mutexes_givenBack_twoSends : ∃ s,
    (LockedServer.machine 2 Bool).exec
      (LockedServer.start 2 Bool (fun _ => Session.zeroMemory) 2 0 3) twoSends = some s ∧
      ∃ k ≤ 4, s.Frees (fun s => s.mPacketMutex 0) (.sender false .run) k :=
  StepMachine.exists_exec_and (fun s => (s.mPacketMutex 0).mMutex = some false)
    (by decide +kernel) fun _ hrun hheld =>
      (server_mutexes_givenBack (fun _ => Session.zeroMemory) (by decide) 0 3 hrun).1.packets 0
        (by decide) false hheld

end CoreServer
