import CoreServer.DisconnectThreads

/-!
# The end of receiving

Once `mIsRecving` of a session is false, its receive job is past its last `OnRecv`: it is in
no place any more, or the worker that has cleared the flag is still in `Disconnect` with it.
As `OnDisconnected` is called with the flag cleared, it comes after every `OnRecv`.
-/

namespace CoreServer

/-- The application is given bytes of the session, or gives the control back. -/
def Callback.Receives (c : Callback) (id : SessionID) : Prop :=
  (∃ buffer, c = onRecv id buffer) ∨ ∃ readSize, c = onRecvReturned id readSize

namespace ServerMemory

variable {m m' : ServerMemory}

/-- A worker comes behind the `epoll_ctl` of `Complete` when that has failed. -/
lemma RecvMoves.of_not_beforeMod {slot i : ℤ} {pc pc' : RecvPC} {next : Next}
    (h : RecvMoves m slot pc m' next) (hnext : next.pc = .recv i pc')
    (hpc' : pc'.beforeMod = false) :
    pc.beforeMod = false ∨ (m' = m ∧ pc.beforeMod = true ∧ next.hand = []) := by
  cases h with
  | notRearmed => exact Or.inr ⟨rfl, rfl, rfl⟩
  | invalidSocket hfd => exact Or.inl rfl
  | setReceiveStateAfterMod hin => exact Or.inl rfl
  | disconnectAfterMod hmoves => exact Or.inl rfl
  | rearmed hmod => cases hnext
  | validSocket hfd => cases hnext
  | disconnected hmoves => cases hnext
  | disconnectedAfterMod hmoves => cases hnext
  | _ =>
    obtain ⟨-, rfl⟩ := JobPC.recv.inj hnext
    cases hpc'

/-- A worker in the `Disconnect` of `Execute` goes on there, or drops the job object. -/
lemma JobMoves.of_disconnect {i : ℤ} {dpc : DisconnectPC} {next : Next}
    (h : JobMoves m (.recv i (.disconnect dpc)) m' next) :
    (∃ dpc', next.pc = .recv i (.disconnect dpc')) ∨ (next.hand = [] ∧ m.Shrinks m') := by
  cases h with
  | recv hmoves =>
    cases hmoves with
    | disconnect hmoves => exact Or.inl ⟨_, rfl⟩
    | disconnected hmoves => exact Or.inr ⟨rfl, hmoves.shrinks⟩

end ServerMemory

namespace ServerRun

variable {n : ℕ} {κ : Type} {s s' : ServerRun n κ}

/-- Where the receive jobs are that will not run again. -/
structure JobEnded (s : ServerRun n κ) : Prop where
  /-- Behind a failed `epoll_ctl` a worker has lost the job object. -/
  lost : ∀ w i pc, s.job w = .recv i pc → pc.beforeMod = false → s.places (.recv i) = 0
  /-- Without `mIsRecving` the job object is nowhere but in a `Disconnect`. -/
  ended : ∀ i, s.Added i → (s.session i).mIsRecving = false →
    s.places (.recv i) = 0 ∨ ∃ w pc, s.job w = .recv i (.disconnect pc)
  registering : ∀ w id, (s.job w).registering = some id →
    (s.session (getIndex id)).mIsRecving = true

/-- The invariant. -/
structure Ended (s : ServerRun n κ) : Prop extends s.JobEnded where
  /-- Behind its first test `Disconnect` has found `mIsRecving` cleared. -/
  tested : ∀ t i pc, s.disconnecting t = some (i, pc) →
    pc = .isSending ∨ pc = .onDisconnected → (s.session i).mIsRecving = false
  called : ∀ id, .onDisconnected id ∈ s.memory.callbacks →
    (s.session (getIndex id)).mIsRecving = false
  ordered : s.memory.callbacks.Pairwise fun c c' => ∀ id, c = .onDisconnected id → ¬ c'.Receives id

/-! ## The places of a receive job -/

/-- A worker that drops the job object in its hands drops the only one. -/
lemma JobMove.places_eq_zero (hs : s.Life) {w : Fin n} {next : Next} (h : s.JobMove s' w next)
    {j : ServerJob} (hhand : j ∈ (s.job w).hand) (hnext : next.hand = [])
    (harmed : s'.memory.epoll.armed j ≤ s.memory.epoll.armed j) : s'.places j = 0 := by
  have hle := hs.places_le j
  have hheld := h.held j
  have hpos := List.count_pos_iff.2 hhand
  rw [hnext, List.count_nil] at hheld
  rw [places_eq] at hle ⊢
  omega

/-- A receive job that is nowhere and is not registered stays nowhere. -/
lemma JobMove.places_of_not_registers {w : Fin n} {next : Next} (h : s.JobMove s' w next)
    {j : ServerJob} (hnone : (s.job w).registers ≠ some j) (hzero : s.places j = 0) :
    s'.places j = 0 := by
  have hle := h.places_le j
  have hcount : (s.job w).registers.toList.count j = 0 :=
    List.count_eq_zero.2 fun hmem => hnone (Option.mem_toList.1 hmem)
  omega

/-- A receive job is not registered while a worker runs it. -/
lemma Life.registers_ne_of_running (hs : s.Life) {w w' : Fin n} {i : ℤ} {pc : RecvPC}
    (hw' : s.job w' = .recv i pc) : (s.job w).registers ≠ some (.recv i) := by
  intro h
  obtain ⟨id, hid, rfl⟩ := hs.registering_of_registers h
  exact hs.quiet w id hid w' pc hw'

/-- A session that is registered has `mIsRecving` set. -/
lemma JobEnded.registers_ne (hs : s.Life) (he : s.JobEnded) {w : Fin n} {i : ℤ}
    (hrecving : (s.session i).mIsRecving = false) : (s.job w).registers ≠ some (.recv i) := by
  intro h
  obtain ⟨id, hid, rfl⟩ := hs.registering_of_registers h
  rw [he.registering w id hid] at hrecving
  cases hrecving

/-! ## One step -/

lemma JobEnded.lost_job (hs : s.Life) (he : s.JobEnded) {w : Fin n} {next : Next}
    (h : s.JobMove s' w next) {w' : Fin n} {i : ℤ} {pc : RecvPC} (hw' : s'.job w' = .recv i pc)
    (hpc : pc.beforeMod = false) : s'.places (.recv i) = 0 := by
  obtain ⟨pc', hold⟩ := h.recv_of_recv hw'
  have hnone : (s.job w).registers ≠ some (.recv i) := hs.registers_ne_of_running hold
  rcases eq_or_ne w' w with rfl | hne
  · rw [h.job_self] at hw'
    have hmoves := h.moves
    rw [hold] at hmoves
    cases hmoves with
    | recv hmoves =>
      rcases hmoves.of_not_beforeMod hw' hpc with hbefore | ⟨hmemory, hbefore, hhand⟩
      · exact h.places_of_not_registers hnone (he.lost w' i pc' hold hbefore)
      · refine h.places_eq_zero hs ?_ hhand (by rw [hmemory])
        rw [hold, JobPC.hand, if_pos hbefore]
        exact List.mem_singleton_self _
  · rw [h.job_of_ne hne] at hw'
    exact h.places_of_not_registers hnone (he.lost w' i pc hw' hpc)

lemma JobEnded.ended_job (hs : s.Life) (he : s.JobEnded) {w : Fin n} {next : Next}
    (h : s.JobMove s' w next) {i : ℤ} (hi : s.Added i)
    (hrecving' : (s'.session i).mIsRecving = false) :
    s'.places (.recv i) = 0 ∨ ∃ w pc, s'.job w = .recv i (.disconnect pc) := by
  have hmoves := h.moves
  rcases h.mIsRecving hs hi with heq | ⟨-, hpc | hpc⟩
  · have hrecving : (s.session i).mIsRecving = false := heq ▸ hrecving'
    rcases he.ended i hi hrecving with hzero | ⟨w', dpc, hw'⟩
    · exact Or.inl (h.places_of_not_registers (he.registers_ne hs hrecving) hzero)
    · rcases eq_or_ne w' w with rfl | hne
      · rw [hw'] at hmoves
        rcases hmoves.of_disconnect with ⟨dpc', hnext⟩ | ⟨hhand, hshrinks⟩
        · exact Or.inr ⟨w', dpc', h.job_self.trans hnext⟩
        · refine Or.inl (h.places_eq_zero hs ?_ hhand (hshrinks.armed_le _))
          rw [hw']
          exact List.mem_singleton_self _
      · exact Or.inr ⟨w', dpc, (h.job_of_ne hne).trans hw'⟩
  · -- the flag is cleared in `Execute`
    rw [hpc] at hmoves
    cases hmoves with
    | recv hmoves =>
      generalize hm' : s'.memory = m' at hmoves
      cases hmoves with
      | setReceiveState hin => exact Or.inr ⟨w, .swap, h.job_self⟩
  · -- the flag is cleared behind a failed `epoll_ctl`
    left
    exact h.places_of_not_registers (hs.registers_ne_of_running hpc) (he.lost w i _ hpc rfl)

lemma JobEnded.registering_job (hs : s.Life) (he : s.JobEnded) {w : Fin n} {next : Next}
    (h : s.JobMove s' w next) {w' : Fin n} {id : SessionID}
    (hw' : (s'.job w').registering = some id) :
    (s'.session (getIndex id)).mIsRecving = true := by
  have hkeep : (s.job w').registering = some id →
      (s'.session (getIndex id)).mIsRecving = true := by
    intro hold
    have hadded : s.Added (getIndex id) :=
      ⟨id, hs.connecting w' id (JobPC.connecting_of_registering hold), rfl⟩
    rcases h.mIsRecving hs hadded with heq | ⟨-, hpc | hpc⟩
    · rw [heq]
      exact he.registering w' id hold
    · exact absurd hpc (hs.quiet w' id hold w _)
    · exact absurd hpc (hs.quiet w' id hold w _)
  rcases eq_or_ne w' w with rfl | hne
  · rw [h.job_self] at hw'
    have hconnecting := JobPC.connecting_of_registering hw'
    cases h.moves.acceptNext.1 with
    | alloc hadds hreserved hnone hi =>
      rw [hnone] at hconnecting
      cases hconnecting
    | reserved hadds hreserved hnone =>
      rw [hnone] at hconnecting
      cases hconnecting
    | construct hpc hnone hid =>
      obtain rfl := Option.some.inj (hid.symm.trans hw')
      obtain ⟨-, rfl, -, hsession, -⟩ := h.of_construct hs hpc
      rw [hsession]
      rfl
    | connecting hadds hnone hconnecting' hregistering =>
      rcases hregistering with heq | heq
      · rw [heq] at hw'
        cases hw'
      · exact hkeep (heq ▸ hw')
  · exact hkeep (h.job_of_ne hne ▸ hw')

/-- A step of a worker. -/
lemma JobEnded.job_step (hs : s.Life) (he : s.JobEnded) {w : Fin n} {next : Next}
    (h : s.JobMove s' w next) : s'.JobEnded where
  lost _ _ _ hw' hpc := he.lost_job hs h hw' hpc
  ended i hi hrecving' := by
    have hold : s.Added i → s'.places (.recv i) = 0 ∨ ∃ w pc, s'.job w = .recv i (.disconnect pc) :=
      fun hi => he.ended_job hs h hi hrecving'
    rcases h.added_cases hs with heq | ⟨clientFD, index, id, -, heq, rfl, -, hsession, -⟩
    · exact hold (by rw [Added, ← heq]; exact hi)
    · obtain ⟨id', hid', rfl⟩ := hi
      rw [heq, List.mem_append] at hid'
      rcases hid' with hid' | hid'
      · exact hold ⟨id', hid', rfl⟩
      · rw [List.mem_singleton.1 hid', hsession] at hrecving'
        cases hrecving'
  registering _ _ hw' := he.registering_job hs h hw'

/-- A step that gives no receive job a place and leaves `mIsRecving` alone. -/
lemma JobEnded.frame (he : s.JobEnded)
    (hjob : ∀ w, s'.job w = s.job w ∨ ∃ j : ServerJob, s.job w = .none ∧ s'.job w = j.execute)
    (hplaces : ∀ i, s'.places (.recv i) ≤ s.places (.recv i)) (hadded : s'.added = s.added)
    (hrecving : ∀ i, 0 ≤ i → (s'.session i).mIsRecving = (s.session i).mIsRecving) :
    s'.JobEnded where
  lost w i pc hw hpc := by
    refine Nat.le_zero.1 ((hplaces i).trans ?_)
    rcases hjob w with heq | ⟨j, -, heq⟩
    · exact (he.lost w i pc (heq ▸ hw) hpc).le
    · rw [heq] at hw
      cases j <;> cases hw
      cases hpc
  ended i hi hnot := by
    rw [Added, hadded] at hi
    rw [hrecving i (Added.nonneg hi)] at hnot
    rcases he.ended i hi hnot with hzero | ⟨w, pc, hw⟩
    · exact Or.inl (Nat.le_zero.1 ((hplaces i).trans hzero.le))
    · rcases hjob w with heq | ⟨j, hnone, -⟩
      · exact Or.inr ⟨w, pc, heq.trans hw⟩
      · rw [hnone] at hw
        cases hw
  registering w id hw := by
    rw [hrecving _ (getIndex_nonneg id)]
    rcases hjob w with heq | ⟨j, -, heq⟩
    · exact he.registering w id (heq ▸ hw)
    · rw [heq, (execute_cases j).2.2.1] at hw
      cases hw

variable [DecidableEq κ] {a : RunStep n κ}

/-- **One step, for the receive jobs.** -/
theorem JobEnded.step (hs : s.Life) (he : s.JobEnded) (h : s.RunMoves s' a) : s'.JobEnded := by
  have hquiet : s.Quiet s' → s'.JobEnded := fun h =>
    he.frame (fun w => (h.job_eq w).imp_right fun ⟨j, _, hj⟩ => ⟨j, hj⟩)
      (fun i => (h.places_recv i).le) h.added_eq fun i _ => by rw [h.session_eq]
  have hcall : ∀ {k : κ} {pc : SendPC}, s.CallMove s' k pc → s'.JobEnded := fun h =>
    he.frame (fun w => Or.inl (by rw [job, h.server_eq]))
      (fun i => by rw [places, h.server_eq]) h.added_eq fun i _ => by rw [h.session_eq]
  cases h with
  | quietPool h | quietStart h => exact hquiet h
  | send hadded h | disconnect hadded h => exact hcall h
  | job h => exact he.job_step hs h
  | sender h =>
    exact he.frame (fun w => Or.inl (by rw [h.job_eq])) (fun i => h.places_le _) h.added_eq
      fun i hi => h.mIsRecving hi

/-- Behind its first test `Disconnect` has found `mIsRecving` cleared. -/
lemma Ended.tested_step (hs : s.Life) (he : s.Ended) (h : s.RunMoves s' a) {t : Fin n ⊕ κ} {i : ℤ}
    {pc : DisconnectPC} (ht : s'.disconnecting t = some (i, pc))
    (hpc : pc = .isSending ∨ pc = .onDisconnected) : (s'.session i).mIsRecving = false := by
  rcases h.disconnecting_cases ht with hold | ⟨pc', hold, hmoves⟩ | ⟨rfl, -⟩
  · exact h.mIsRecving_eq_false hs (hs.added_of_disconnecting hold) (he.tested t i pc hold hpc)
  · refine h.mIsRecving_eq_false hs (hs.added_of_disconnecting hold) ?_
    generalize s'.memory = m' at hmoves
    rcases hpc with rfl | rfl
    · cases hmoves with
      | notRecving hin hrecving => exact hrecving
    · cases hmoves with
      | notSending hin hsending => exact he.tested t i _ hold (Or.inl rfl)
  · rcases hpc with hpc | hpc <;> cases hpc

lemma Ended.called_step (hs : s.Life) (he : s.Ended) (h : s.RunMoves s' a) {id : SessionID}
    (hid : .onDisconnected id ∈ s'.memory.callbacks) :
    (s'.session (getIndex id)).mIsRecving = false := by
  obtain ⟨cs, hcalls, heq⟩ := h.calls
  rw [heq, List.mem_append] at hid
  rcases hid with hid | hid
  · have hadded : s.Added (getIndex id) := ⟨id, hs.called _ hid, rfl⟩
    exact h.mIsRecving_eq_false hs hadded (he.called id hid)
  · cases hcalls with
    | @onDisconnected t i ht ht' ha =>
      obtain rfl := Callback.onDisconnected.inj (List.mem_singleton.1 hid)
      have hadded := hs.added_of_disconnecting ht
      rw [(hs.mSessionID_mem hadded).2]
      exact h.mIsRecving_eq_false hs hadded (he.tested t i _ ht (Or.inr rfl))
    | none => cases hid
    | onConnected sessionID hw hw' => cases List.mem_singleton.1 hid
    | onRecv block hw hused hpos ha => cases List.mem_singleton.1 hid
    | onRecvReturned readSize hw => cases List.mem_singleton.1 hid

omit [DecidableEq κ] in
/-- The session of a worker that is about to call `OnRecv`, or in it, has not been reported. -/
lemma Ended.not_called (hs : s.Life) (he : s.Ended) {w : Fin n} {i : ℤ} {pc : RecvPC}
    (hw : s.job w = .recv i pc) (hbefore : pc.beforeMod = true)
    (hpc : ∀ dpc, pc ≠ .disconnect dpc) :
    .onDisconnected (s.session i).mSessionID ∉ s.memory.callbacks := by
  intro hcalled
  have hadded := hs.running w i pc hw
  have hrecving := he.called _ hcalled
  rw [(hs.mSessionID_mem hadded).2] at hrecving
  have hhand : ServerJob.recv i ∈ (s.job w).hand := by
    rw [hw, JobPC.hand, if_pos hbefore]
    exact List.mem_singleton_self _
  rcases he.ended i hadded hrecving with hzero | ⟨w', dpc, hw'⟩
  · exact (Server.places_pos hhand).ne' hzero
  · -- the worker in `Disconnect` has the job object in its hands as well
    have hhand' : ServerJob.recv i ∈ (s.job w').hand := by
      rw [hw']
      exact List.mem_singleton_self _
    obtain rfl := hs.inv.worker_unique hhand hhand'
    rw [hw] at hw'
    exact hpc dpc (JobPC.recv.inj hw').2

lemma Ended.ordered_step (hs : s.Life) (he : s.Ended) (h : s.RunMoves s' a) :
    s'.memory.callbacks.Pairwise fun c c' => ∀ id, c = .onDisconnected id → ¬ c'.Receives id := by
  obtain ⟨cs, hcalls, heq⟩ := h.calls
  rw [heq, List.pairwise_append]
  refine ⟨he.ordered, ?_, fun c hc c' hc' id hid => ?_⟩
  · cases hcalls <;> first | exact List.Pairwise.nil | exact List.pairwise_singleton _ _
  · subst hid
    rintro (⟨buffer, rfl⟩ | ⟨readSize, rfl⟩)
    · cases hcalls with
      | onRecv block hw hused hpos ha =>
        obtain ⟨rfl, -⟩ := Callback.onRecv.inj (List.mem_singleton.1 hc')
        exact he.not_called hs hw rfl (fun dpc hdpc => by cases hdpc) hc
      | none => cases hc'
      | onConnected sessionID hw hw' => cases List.mem_singleton.1 hc'
      | onRecvReturned readSize hw => cases List.mem_singleton.1 hc'
      | onDisconnected ht ht' ha => cases List.mem_singleton.1 hc'
    · cases hcalls with
      | onRecvReturned readSize hw =>
        obtain ⟨rfl, -⟩ := Callback.onRecvReturned.inj (List.mem_singleton.1 hc')
        exact he.not_called hs hw rfl (fun dpc hdpc => by cases hdpc) hc
      | none => cases hc'
      | onConnected sessionID hw hw' => cases List.mem_singleton.1 hc'
      | onRecv block hw hused hpos ha => cases List.mem_singleton.1 hc'
      | onDisconnected ht ht' ha => cases List.mem_singleton.1 hc'

omit [DecidableEq κ] in
lemma ended_start {memory : ℕ → Session} {maxSessions : ℕ} {uniqueNumber : BitVec 64}
    {listenFD : SocketFD} : (start n κ memory maxSessions uniqueNumber listenFD).Ended where
  lost w i pc h := by cases h
  ended i h := by
    obtain ⟨id, hid, -⟩ := h
    cases hid
  registering w id h := by cases h
  tested t i pc h := by cases t <;> cases h
  called id h := by cases h
  ordered := List.Pairwise.nil

/-- **One step keeps the invariant.** -/
theorem Ended.step (hs : s.Life) (he : s.Ended) (h : s.RunMoves s' a) : s'.Ended where
  toJobEnded := he.toJobEnded.step hs h
  tested _ _ _ := he.tested_step hs h
  called _ := he.called_step hs h
  ordered := he.ordered_step hs h

/-- `OnDisconnected` comes last on the receive side. -/
structure DisconnectedLast (s : ServerRun n κ) : Prop where
  /-- No `OnRecv` begins or returns after `OnDisconnected` for the same session. -/
  ordered : s.memory.callbacks.Pairwise fun c c' => ∀ id, c = .onDisconnected id → ¬ c'.Receives id
  /-- No worker is in `OnRecv` for a session that has been reported. -/
  notInOnRecv : ∀ w i usedSize, s.job w = .recv i (.onRecv usedSize) →
    .onDisconnected (s.session i).mSessionID ∉ s.memory.callbacks

omit [DecidableEq κ] in
lemma Ended.disconnectedLast (hs : s.Life) (he : s.Ended) : s.DisconnectedLast where
  ordered := he.ordered
  notInOnRecv _ _ _ hw := he.not_called hs hw rfl fun _ hdpc => by cases hdpc

end ServerRun

/-- **`OnDisconnected` comes last.**  However the threads of a started server interleave,
whatever the kernel answers, and whenever the other threads send or disconnect, the
application is not in `OnRecv` for a session that it has been told is disconnected, and is
never called with `OnRecv` for it again. -/
theorem server_disconnectedLast {n : ℕ} {κ : Type} [DecidableEq κ] (memory : ℕ → Session)
    {maxSessions : ℕ} (hmax : maxSessions < 65536) (uniqueNumber : BitVec 64)
    (listenFD : SocketFD) (as : List (RunStep n κ)) :
    (ServerRun.machine n κ).Always ServerRun.DisconnectedLast
      (ServerRun.start n κ memory maxSessions uniqueNumber listenFD) as :=
  ServerRun.always_of_moves (fun hs he _ h => he.step hs h) (fun hs he => he.disconnectedLast hs)
    hmax ServerRun.ended_start (StepMachine.along_of_forall (fun _ _ => trivial) _ as)

/-- The application is told of a disconnection that began while it was in `OnRecv`. -/
theorem server_disconnectedLast_closeInOnRecv : ∃ s,
    (ServerRun.machine 2 Unit).exec
      (ServerRun.start 2 Unit (fun _ => Session.zeroMemory) 2 0 3) ServerRun.closeInOnRecv =
        some s ∧
      s.memory.callbacks =
        [.onConnected 0, .onRecv 0 [65], .onRecvReturned 0 1, .onDisconnected 0] ∧
      s.DisconnectedLast :=
  StepMachine.exists_exec_and (fun s => s.memory.callbacks =
      [.onConnected 0, .onRecv 0 [65], .onRecvReturned 0 1, .onDisconnected 0])
    (by decide +kernel) fun s hrun hcallbacks => ⟨hcallbacks,
      server_disconnectedLast _ (by decide) 0 3 _ _ s (List.prefix_refl _) hrun⟩

end CoreServer
