import CoreServer.DisconnectOnce
import CoreServer.Registrations
import CoreServer.TestServerEcho

/-!
# How the sessions of the echo server end

In `TestServer` only the worker that runs the receive job of a session disconnects it.  So the
conditions of the general results hold at every step: no registration is stale, and a session is
left by the last thread in its `Disconnect` with both flags clear at most once.  What is left is a
session that is closed while `mIsSending` is set, which only a partial write does: it is not
reported.
-/

namespace CoreServer

/-- What a worker in the receive job of a session relies on: before `Disconnect` the flag
`mIsRecving` is set, and nobody else takes the socket. -/
def RecvPC.Ends (session : Session) : RecvPC → Prop
  | disconnect pc | disconnectAfterMod pc =>
    session.mIsRecving = false ∧ (pc = .onDisconnected → session.mIsSending = false)
  | epollMod fd => session.mIsRecving = true ∧ session.mSessionFD = fd
  | _ => session.mIsRecving = true

/-- The socket and the slot of a session that `AcceptJob` has constructed and not registered. -/
def JobPC.newSocket : JobPC → Option (SocketFD × ℤ)
  | accept (.getSession clientFD clientSession) => some (clientFD, getIndex clientSession)
  | accept (.epollAdd clientFD _ session) => some (clientFD, session)
  | _ => Option.none

namespace ServerMemory

variable {m m' : ServerMemory} {i : ℤ} {pc : RecvPC} {next : Next}

/-- A step of `Disconnect`, for the worker in the receive job. -/
lemma DisconnectMoves.ends {dpc dpc' : DisconnectPC} (hi : 0 ≤ i)
    (h : DisconnectMoves m i dpc m' (some dpc')) (hrecving : (m.session i).mIsRecving = false) :
    (m'.session i).mIsRecving = false ∧
      (dpc' = .onDisconnected → (m'.session i).mIsSending = false) := by
  have hsame : (m'.session i).mIsRecving = (m.session i).mIsRecving ∧
      (m'.session i).mIsSending = (m.session i).mIsSending := by
    rcases h.session hi with heq | ⟨-, -, heq⟩ <;> rw [heq] <;> exact ⟨rfl, rfl⟩
  refine ⟨hsame.1.trans hrecving, ?_⟩
  rintro rfl
  rw [hsame.2]
  cases h with
  | notSending hin hsending => exact hsending

/-- A step of the receive job. -/
lemma RecvMoves.ends (hi : 0 ≤ i) (h : RecvMoves m i pc m' next) (hpc : pc.Ends (m.session i))
    {pc' : RecvPC} (hnext : next.pc = .recv i pc') : pc'.Ends (m'.session i) := by
  cases h with
  | fdInvalid | fdValid | recvArgs | ended | interrupted | drained | noData =>
    obtain ⟨-, rfl⟩ := JobPC.recv.inj hnext
    exact hpc
  | received hin hb =>
    obtain ⟨-, rfl⟩ := JobPC.recv.inj hnext
    rw [session_updateSession_self hi]
    exact hpc
  | setReceiveState hin =>
    obtain ⟨-, rfl⟩ := JobPC.recv.inj hnext
    rw [session_updateSession_self hi]
    exact ⟨rfl, by simp⟩
  | disconnect hmoves =>
    obtain ⟨-, rfl⟩ := JobPC.recv.inj hnext
    exact hmoves.ends hi hpc.1
  | disconnected hmoves => cases hnext
  | onRecv hin hused hpos =>
    obtain ⟨-, rfl⟩ := JobPC.recv.inj hnext
    exact hpc
  | onRecvReturned hin hb =>
    obtain ⟨-, rfl⟩ := JobPC.recv.inj hnext
    change RecvPC.Ends ((m.updateSession i _).session i) _
    rw [session_updateSession_self hi]
    exact hpc
  | epollModArgs =>
    obtain ⟨-, rfl⟩ := JobPC.recv.inj hnext
    exact ⟨hpc, rfl⟩
  | rearmed hmod => cases hnext
  | notRearmed =>
    obtain ⟨-, rfl⟩ := JobPC.recv.inj hnext
    exact hpc.1
  | validSocket hfd => cases hnext
  | invalidSocket hfd =>
    obtain ⟨-, rfl⟩ := JobPC.recv.inj hnext
    exact hpc
  | setReceiveStateAfterMod hin =>
    obtain ⟨-, rfl⟩ := JobPC.recv.inj hnext
    rw [session_updateSession_self hi]
    exact ⟨rfl, by simp⟩
  | disconnectAfterMod hmoves =>
    obtain ⟨-, rfl⟩ := JobPC.recv.inj hnext
    exact hmoves.ends hi hpc.1
  | disconnectedAfterMod hmoves => cases hnext

/-- The end of `Disconnect`, for the worker in the receive job. -/
lemma DisconnectMoves.reports {dpc : DisconnectPC} (h : DisconnectMoves m i dpc m' none)
    (hrecving : (m.session i).mIsRecving = false) :
    (m'.session i).mIsRecving = false ∧ ((m'.session i).mIsSending = false →
      .onDisconnected (m.session i).mSessionID ∈ m'.callbacks) := by
  cases h with
  | recving hin htrue => simp [hrecving] at htrue
  | sending hin hsending => exact ⟨hrecving, fun hidle => by simp [hsending] at hidle⟩
  | onDisconnected hin =>
    exact ⟨hrecving, fun _ => List.mem_append_right _ (List.mem_singleton_self _)⟩

/-- A worker leaves the receive job of a closed session at the end of `Disconnect`. -/
lemma RecvMoves.reports (h : RecvMoves m i pc m' next) (hpc : pc.Ends (m.session i))
    (hleaves : ∀ pc', next.pc ≠ .recv i pc')
    (hclosed : (m'.session i).mSessionFD = sINVALID_SOCKET_FD)
    (hnone : m.epoll.data sINVALID_SOCKET_FD = none) :
    (m'.session i).mIsRecving = false ∧ ((m'.session i).mIsSending = false →
      .onDisconnected (m.session i).mSessionID ∈ m'.callbacks) := by
  cases h with
  | disconnected hmoves | disconnectedAfterMod hmoves => exact hmoves.reports hpc.1
  | validSocket hfd => exact absurd hclosed hfd
  | @rearmed fd epoll hmod =>
    have hfd : sINVALID_SOCKET_FD = fd := hclosed.symm.trans hpc.2
    subst hfd
    rw [EpollSet.mod_of_data_eq_none hnone] at hmod
    cases hmod
  | _ => exact absurd rfl (hleaves _)

/-- What `AcceptJob` is going to register it has constructed. -/
lemma JobMoves.newSocket {pc : JobPC} (h : JobMoves m pc m' next) {fd : SocketFD}
    (hnext : next.pc.newSocket = some (fd, i)) :
    pc.newSocket = some (fd, i) ∨
      ∃ index id, pc = .accept (.construct fd index id) ∧ getIndex id = i := by
  cases h with
  | poll hmoves =>
    rcases hmoves.next_pc with heq | ⟨pc', heq⟩ <;>
    · rw [heq] at hnext
      cases hnext
  | recv hmoves =>
    rcases hmoves.next_pc with heq | ⟨pc', heq⟩ <;>
    · rw [heq] at hnext
      cases hnext
  | complete => cases hnext
  | accept hmoves =>
    cases hmoves with
    | construct hin =>
      obtain ⟨rfl, rfl⟩ := Prod.mk.inj (Option.some.inj hnext)
      exact Or.inr ⟨_, _, rfl, rfl⟩
    | getSession hin hid => exact Or.inl hnext
    | _ => cases hnext

end ServerMemory

namespace TestServerRun

variable {n : ℕ} {l : Layout} {s s' : TestServerRun n} {h : Traffic n}
  {received : ℤ → List Byte} {a : RunStep n (Fin n)} {w : Fin n} {i : ℤ}

/-- A session that has been added. -/
structure Ends (s : TestServerRun n) (i : ℤ) : Prop where
  running : ∀ w pc, s.run.job w = .recv i pc → pc.Ends (s.run.session i)
  reported : s.run.Reported i → (s.run.session i).mIsSending = false
  /-- A closed session that no worker serves has been reported, unless it is left sending. -/
  resting : (∀ w pc, s.run.job w ≠ .recv i pc) →
    (s.run.session i).mSessionFD = sINVALID_SOCKET_FD →
    (s.run.session i).mIsRecving = false ∧
      ((s.run.session i).mIsSending = false → s.run.Reported i)
  newSocket : ∀ w fd, (s.run.job w).newSocket = some (fd, i) →
    (s.run.session i).mSessionFD = fd ∧ fd ≠ sINVALID_SOCKET_FD

/-- The invariant. -/
structure Closing (s : TestServerRun n) : Prop where
  ended : s.run.Ended
  single : s.run.Single
  matched : s.run.MatchedOrClosing
  listen : s.run.memory.mListenFD ≠ sINVALID_SOCKET_FD
  unregistered : s.run.memory.epoll.data sINVALID_SOCKET_FD = none
  ends : ∀ i, s.run.Added i → s.Ends i

/-! ### Who is in `Disconnect` -/

/-- A worker in `Send` of a session is in its `OnRecv`, and `mIsRecving` is set. -/
lemma Closing.recving_of_sender (hC : s.Closing) (hI : s.Inv l h received)
    (hslot : (s.run.sender w).slot = some i) :
    (∃ usedSize, s.run.job w = .recv i (.onRecv usedSize)) ∧
      (s.run.session i).mIsRecving = true := by
  obtain ⟨j, usedSize, r, hj, hjob, -⟩ :=
    hI.sends (w := w) fun hidle => by rw [hidle] at hslot; cases hslot
  obtain rfl := hI.slot_eq hjob hslot
  exact ⟨⟨usedSize, hjob⟩, (hC.ends _ hj).running w _ hjob⟩

/-- A receive job that waits in the queue is the one of a session with `mIsRecving` set. -/
lemma Closing.recving_of_queued (hC : s.Closing) (hI : s.Inv l h received) (hi : s.run.Added i)
    (hmem : .recv i ∈ s.run.server.pool.mJobQueue) : (s.run.session i).mIsRecving = true := by
  by_contra hnot
  rcases hC.ended.ended i hi (Bool.not_eq_true _ ▸ hnot) with hzero | ⟨w, dpc, hw⟩
  · exact (ServerRun.places_pos_of_mem hmem).ne' hzero
  · exact ServerRun.not_running_of_queued hI.life hI.ended hmem w _ hw

/-- When the receive job clears `mIsRecving`, nobody is in `Disconnect` of the session. -/
lemma Closing.undisconnected (hC : s.Closing) (hI : s.Inv l h received) {pc : RecvPC}
    (hw : s.run.job w = .recv i pc)
    (hpc : pc = .setReceiveState ∨ pc = .setReceiveStateAfterMod) : s.run.Undisconnected i := by
  have hadded := hI.life.running w i pc hw
  obtain ⟨r, hS⟩ := hI.served i hadded.nonneg
  refine ⟨?_, fun hreported => ?_⟩
  · rintro (w' | k) ⟨dpc, ht⟩
    · rcases JobPC.disconnecting_eq_some.1 ht with hw' | hw' <;>
      · obtain rfl := hS.serves.unique _ _ _ _ hw' hw
        obtain ⟨-, rfl⟩ := JobPC.recv.inj (hw.symm.trans hw')
        simp at hpc
    · obtain ⟨⟨usedSize, hk⟩, -⟩ := hC.recving_of_sender hI (SendPC.slot_of_disconnecting ht)
      obtain rfl := hS.serves.unique _ _ _ _ hk hw
      obtain ⟨-, rfl⟩ := JobPC.recv.inj (hw.symm.trans hk)
      simp at hpc
  · have hrecving : (s.run.session i).mIsRecving = true := by
      have hends := (hC.ends i hadded).running w pc hw
      rcases hpc with rfl | rfl <;> exact hends
    have hcalled := hC.ended.called _ hreported
    rw [(hI.life.mSessionID_mem hadded).2, hrecving] at hcalled
    cases hcalled

/-- **Every step of `TestServer` leaves at most one thread in `Disconnect`.** -/
lemma Closing.clearsAlone (hC : s.Closing) (hI : s.Inv l h received) (ha : s.Allows l a) :
    s.run.ClearsAlone a := by
  cases a with
  | pool | start | send => trivial
  | disconnect => exact ha.elim
  | job w input =>
    intro i hi _
    unfold JobPC.clearsRecving at hi
    split at hi
    · obtain rfl := Option.some.inj hi
      exact hC.undisconnected hI ‹_› (Or.inl rfl)
    · obtain rfl := Option.some.inj hi
      exact hC.undisconnected hI ‹_› (Or.inr rfl)
    · cases hi
  | sender w input =>
    have hnot : ∀ i, (s.run.sender w).slot = some i → (s.run.session i).mIsRecving ≠ false :=
      fun i hslot => by simp [(hC.recving_of_sender hI hslot).2]
    refine ⟨fun i hi hrecving => absurd hrecving (hnot i ?_),
      fun i hi hrecving => absurd hrecving (hnot i ?_)⟩
    · unfold SendPC.givesUp at hi
      split at hi
      · rename_i hpc
        rw [hpc]
        exact hi
      · cases hi
    · unfold SendPC.clears at hi
      split at hi
      · rename_i hpc
        rw [hpc]
        exact hi
      · cases hi

/-! ### What is registered -/

/-- What a step registers is a new session, or the one of a receive job that ends its round. -/
lemma registersFD_cases {fd : SocketFD} (hreg : s.run.registersFD a = some (fd, i)) :
    ∃ w, (s.run.job w).newSocket = some (fd, i) ∨
      a = .job w (.epollCtl true) ∧ s.run.job w = .recv i (.epollMod fd) := by
  unfold ServerRun.registersFD at hreg
  split at hreg
  · rename_i w input
    refine ⟨w, ?_⟩
    unfold JobPC.registersFD at hreg
    split at hreg
    · rename_i hpc
      exact Or.inl (by rw [hpc]; exact hreg)
    · rename_i hpc
      obtain ⟨rfl, rfl⟩ := Prod.mk.inj (Option.some.inj hreg)
      exact Or.inr ⟨rfl, hpc⟩
    · cases hreg
  · cases hreg

/-- **Every step of `TestServer` registers a client for its own session.** -/
lemma Closing.neverStale (hC : s.Closing) (hI : s.Inv l h received) : s.run.NeverStale a := by
  refine fun _ => ⟨?_, ?_⟩
  · rintro ⟨fd, slot⟩ hreg -
    have hadded := hI.life.toRooted.added_of_registersFD hreg
    obtain ⟨w, hnew | ⟨-, hpc⟩⟩ := registersFD_cases hreg
    · exact Or.inl ((hC.ends _ hadded).newSocket w _ hnew).1
    · exact Or.inl ((hC.ends _ hadded).running w _ hpc).2
  · rintro ⟨i, fd⟩ hnew fd' hfd' hlisten
    obtain ⟨j, hptr, hj, -⟩ := hC.matched fd' _ (EpollSet.mem_fds.1 hfd') hlisten
    obtain rfl := ServerJob.recv.inj hptr
    exact absurd hnew (hI.life.constructs_ne hj fd)

/-- A closed socket is not registered. -/
lemma Closing.unregistered_step (hC : s.Closing) (hI : s.Inv l h received)
    (hstep : s.run.step a = some s'.run) :
    s'.run.memory.epoll.data sINVALID_SOCKET_FD = none := by
  by_contra hsome
  obtain ⟨ptr, hdata⟩ := Option.ne_none_iff_exists'.1 hsome
  rcases ServerRun.step_data hI.life.toRooted hstep with ⟨fd, slot, hreg, -, hall⟩ | ⟨-, hfewer⟩
  · have hadded := hI.life.toRooted.added_of_registersFD hreg
    rw [hall] at hdata
    split at hdata
    · rename_i hfd
      subst hfd
      obtain ⟨w, hnew | ⟨rfl, hpc⟩⟩ := registersFD_cases hreg
      · exact ((hC.ends _ hadded).newSocket w _ hnew).2 rfl
      · obtain ⟨next, hjob⟩ := ServerRun.jobStep_of_step hstep
        rw [hpc] at hjob
        obtain ⟨m, hmod, -⟩ := Option.bind_eq_some_iff.1 hjob
        obtain ⟨epoll, hepoll, -⟩ := Option.bind_eq_some_iff.1 hmod
        rw [EpollSet.mod_of_data_eq_none hC.unregistered] at hepoll
        cases hepoll
    · rw [hC.unregistered] at hdata
      cases hdata
  · have hold := hfewer _ ptr hC.listen.symm hdata
    rw [hC.unregistered] at hold
    cases hold

/-! ### One step, for one session -/

/-- Nobody sends on a session whose receive job has cleared `mIsRecving`. -/
lemma Closing.mIsSending_eq (hC : s.Closing) (hI : s.Inv l h received)
    (hmoves : s.run.RunMoves s'.run a) (hi : s.run.Added i)
    (hrecving : (s.run.session i).mIsRecving = false) :
    (s'.run.session i).mIsSending = (s.run.session i).mIsSending := by
  cases hmoves with
  | quietPool hmove | quietStart hmove => rw [hmove.session_eq]
  | send hadded hmove | disconnect hadded hmove => rw [hmove.session_eq]
  | job hmove => exact (hmove.sendMembers hI.life hi).1
  | @sender k input pc hmove hwritev =>
    refine congrArg Session.mIsSending
      (hmove.moves.session_of_slot_ne hi.nonneg fun hslot => ?_)
    have htrue := (hC.recving_of_sender hI hslot).2
    simp [hrecving] at htrue

/-- The worker that runs the receive job. -/
lemma Closing.running_step (hC : s.Closing) (hI : s.Inv l h received)
    (hstep : s.run.step a = some s'.run) (hi : s.run.Added i) {pc : RecvPC}
    (hw : s'.run.job w = .recv i pc) : pc.Ends (s'.run.session i) := by
  have hmoves := ServerRun.runMoves_of_step hI.life.inv.steady hstep
  have hends := (hC.ends i hi).running
  obtain ⟨r, hS⟩ := hI.served i hi.nonneg
  have hsame : s.run.job w = .recv i pc → worker a ≠ some w → pc.Ends (s'.run.session i) :=
    fun hold hne => by
      rw [hI.session_eq hmoves hi]
      · exact hends w pc hold
      · intro k hk pc' hkw
        obtain rfl := hS.serves.unique _ _ _ _ hkw hold
        exact hne hk
  cases hmoves with
  | quietPool hmove | quietStart hmove =>
    rcases hmove.job_eq w with heq | ⟨j, hj, -, heq⟩
    · exact hsame (heq ▸ hw) (by simp [worker])
    · rw [heq] at hw
      rw [hmove.session_eq i]
      cases j with
      | recv slot =>
        obtain ⟨rfl, rfl⟩ := JobPC.recv.inj hw
        exact hC.recving_of_queued hI hi hj
      | poll | accept => cases hw
  | send hadded hmove | disconnect hadded hmove =>
    rw [hmove.session_eq i]
    exact hends w pc (by rwa [ServerRun.job, hmove.server_eq] at hw)
  | @sender k input spc hmove hwritev =>
    have hold : s.run.job w = .recv i pc := hmove.job_eq ▸ hw
    rcases eq_or_ne w k with rfl | hne
    · obtain ⟨j, usedSize, hj⟩ := hI.sent w (hI.sender w (busy_of_step hstep))
      obtain ⟨-, rfl⟩ := JobPC.recv.inj (hold.symm.trans hj)
      exact (hmove.mIsRecving hi.nonneg).trans (hends w _ hold)
    · exact hsame hold (by simp [worker, hne.symm])
  | @job k input next hmove =>
    rcases eq_or_ne w k with rfl | hne
    · obtain ⟨pc₀, hold⟩ := hmove.recv_of_recv hw
      have hjob := hmove.moves
      rw [hmove.job_self] at hw
      rw [hold] at hjob
      have hpc := hends w pc₀ hold
      rw [ServerRun.session]
      generalize s'.run.memory = m' at hjob ⊢
      cases hjob with
      | recv hjob => exact hjob.ends hi.nonneg hpc hw
    · exact hsame (by rwa [hmove.job_of_ne hne] at hw) (by simp [worker, hne.symm])

/-- A session is reported by a worker that finds `mIsSending` cleared. -/
lemma Closing.reported_step (hC : s.Closing) (hI : s.Inv l h received)
    (hmoves : s.run.RunMoves s'.run a) (hi : s.run.Added i) (hreported : s'.run.Reported i) :
    (s'.run.session i).mIsSending = false := by
  rcases hmoves.reported_cases hI.life hi hreported with hold | ⟨t, ht, -⟩
  · have hrecving := hC.ended.called _ hold
    rw [(hI.life.mSessionID_mem hi).2] at hrecving
    rw [hC.mIsSending_eq hI hmoves hi hrecving]
    exact (hC.ends i hi).reported hold
  · have hrecving := hC.ended.tested t i _ ht (Or.inr rfl)
    rw [hC.mIsSending_eq hI hmoves hi hrecving]
    cases t with
    | inl w =>
      rcases JobPC.disconnecting_eq_some.1 ht with hw | hw <;>
      exact ((hC.ends i hi).running w _ hw).2 rfl
    | inr k =>
      have htrue := (hC.recving_of_sender hI (SendPC.slot_of_disconnecting ht)).2
      simp [hrecving] at htrue

/-- The worker that has left the receive job of a closed session has reported it. -/
lemma Closing.resting_step (hC : s.Closing) (hI : s.Inv l h received)
    (hmoves : s.run.RunMoves s'.run a) (hi : s.run.Added i)
    (hrest : ∀ w pc, s'.run.job w ≠ .recv i pc)
    (hclosed : (s'.run.session i).mSessionFD = sINVALID_SOCKET_FD) :
    (s'.run.session i).mIsRecving = false ∧
      ((s'.run.session i).mIsSending = false → s'.run.Reported i) := by
  by_cases hold : ∃ w pc, s.run.job w = .recv i pc
  · obtain ⟨w, pc, hw⟩ := hold
    have hid := hmoves.mSessionID hI.life hi
    obtain ⟨next, hmove⟩ : ∃ next, s.run.JobMove s'.run w next := by
      cases hmoves with
      | quietPool hmove | quietStart hmove =>
        rcases hmove.job_eq w with heq | ⟨j, -, hnone, -⟩
        · exact absurd (heq.trans hw) (hrest w pc)
        · rw [hw] at hnone
          cases hnone
      | send hadded hmove | disconnect hadded hmove =>
        exact absurd (by rwa [ServerRun.job, hmove.server_eq]) (hrest w pc)
      | sender hmove => exact absurd (by rwa [hmove.job_eq]) (hrest w pc)
      | @job k input next hmove =>
        rcases eq_or_ne w k with rfl | hne
        · exact ⟨next, hmove⟩
        · exact absurd ((hmove.job_of_ne hne).trans hw) (hrest w pc)
    have hleaves : ∀ pc', next.pc ≠ .recv i pc' := fun pc' heq =>
      hrest w pc' (hmove.job_self.trans heq)
    have hpc := (hC.ends i hi).running w pc hw
    have hjob := hmove.moves
    rw [hw] at hjob
    rw [ServerRun.Reported, hid]
    rw [ServerRun.session] at hclosed ⊢
    generalize s'.run.memory = m' at hjob hclosed ⊢
    cases hjob with
    | recv hjob => exact hjob.reports hpc hleaves hclosed hC.unregistered
  · have hnobody : ∀ w pc, s.run.job w ≠ .recv i pc := fun w pc hw => hold ⟨w, pc, hw⟩
    have hsession := hI.session_eq hmoves hi fun w _ pc => hnobody w pc
    rw [hsession] at hclosed ⊢
    obtain ⟨hrecving, hreported⟩ := (hC.ends i hi).resting hnobody hclosed
    exact ⟨hrecving, fun hidle => hmoves.reported hI.life hi (hreported hidle)⟩

/-- Nobody has anything to do with a session before `AcceptJob` has registered it. -/
lemma Closing.newSocket_step (hC : s.Closing) (hI : s.Inv l h received)
    (hmoves : s.run.RunMoves s'.run a) (hi : s.run.Added i) {fd : SocketFD}
    (hw : (s'.run.job w).newSocket = some (fd, i)) :
    (s'.run.session i).mSessionFD = fd ∧ fd ≠ sINVALID_SOCKET_FD := by
  have hsame : (s.run.job w).newSocket = some (fd, i) →
      (s'.run.session i).mSessionFD = fd ∧ fd ≠ sINVALID_SOCKET_FD := fun hold => by
    have hquiet : ∀ w' pc, s.run.job w' ≠ .recv i pc := by
      have hregistering : ∃ id, (s.run.job w).registering = some id ∧ getIndex id = i := by
        have hpointer := hI.life.pointer w
        generalize s.run.job w = pc at hold hpointer
        unfold JobPC.newSocket at hold
        split at hold
        · exact ⟨_, rfl, (Prod.mk.inj (Option.some.inj hold)).2⟩
        · exact ⟨_, rfl, hpointer.symm.trans (Prod.mk.inj (Option.some.inj hold)).2⟩
        · cases hold
      obtain ⟨id, hid, rfl⟩ := hregistering
      exact hI.life.quiet w id hid
    rw [hI.session_eq hmoves hi fun w' _ => hquiet w']
    exact (hC.ends i hi).newSocket w fd hold
  cases hmoves with
  | quietPool hmove | quietStart hmove =>
    rcases hmove.job_eq w with heq | ⟨j, -, -, heq⟩
    · exact hsame (heq ▸ hw)
    · rw [heq] at hw
      cases j <;> cases hw
  | send hadded hmove | disconnect hadded hmove =>
    exact hsame (by rwa [ServerRun.job, hmove.server_eq] at hw)
  | sender hmove => exact hsame (hmove.job_eq ▸ hw)
  | @job k input next hmove =>
    rcases eq_or_ne w k with rfl | hne
    · rw [hmove.job_self] at hw
      rcases hmove.moves.newSocket hw with hold | ⟨index, id, hpc, rfl⟩
      · exact hsame hold
      · obtain ⟨-, rfl, -⟩ := hmove.construct_eq hI.life.toRooted hpc
        refine absurd ?_ (hI.life.constructs_ne (a := .job w input) hi fd)
        rw [ServerRun.constructs, hpc]
        rfl
    · exact hsame (by rwa [hmove.job_of_ne hne] at hw)

/-- A session that has just been constructed. -/
lemma Closing.new_step (hI : s.Inv l h received) (hmoves : s.run.RunMoves s'.run a)
    (hold : ¬ s.run.Added i) (hnew : s'.run.Added i) : s'.Ends i := by
  have hconstructs := (hmoves.added_cases hI.life.toRooted hnew).resolve_left hold
  unfold ServerRun.constructs JobPC.constructs at hconstructs
  split at hconstructs
  · split at hconstructs
    · rename_i k input pc clientFD index id hpc
      obtain ⟨rfl, -⟩ := Prod.mk.inj (Option.some.inj hconstructs)
      obtain _ | _ | hmove := hmoves
      obtain ⟨-, hindex, hsession⟩ := hmove.construct_eq hI.life.toRooted hpc
      have hnobody : ∀ w pc, s'.run.job w ≠ .recv index pc := fun w pc hw => by
        obtain ⟨pc', hw⟩ := hmove.recv_of_recv hw
        exact hold (hI.life.running w _ pc' hw)
      -- `AcceptJob` has held the socket
      have hvalid : clientFD ≠ sINVALID_SOCKET_FD := by
        rintro rfl
        have hholds : s.run.Holds (.inr (.inl k)) sINVALID_SOCKET_FD := by
          rw [ServerRun.Holds, ServerRun.threadHolds, hpc]
          rfl
        exact hI.arrived.owns.invalid (hI.arrived.owns.held.mem hholds)
      refine ⟨fun w pc hw => absurd hw (hnobody w pc), fun _ => ?_, fun _ hclosed => ?_,
        fun w fd hw => ?_⟩
      · rw [hsession]
        rfl
      · rw [hsession] at hclosed
        exact absurd hclosed hvalid
      · rw [hsession]
        rcases eq_or_ne w k with rfl | hne
        · rw [hmove.job_self] at hw
          rcases hmove.moves.newSocket hw with hnone | ⟨index', id', hpc', -⟩
          · rw [hpc] at hnone
            cases hnone
          · obtain ⟨rfl, -, -⟩ := AcceptPC.construct.inj (JobPC.accept.inj (hpc.symm.trans hpc'))
            exact ⟨rfl, hvalid⟩
        · -- one worker runs `AcceptJob`
          rw [hmove.job_of_ne hne] at hw
          refine absurd ?_ hne
          generalize hjob : s.run.job w = wpc at hw
          unfold JobPC.newSocket at hw
          split at hw
          · exact hI.life.accept_unique hjob hpc
          · exact hI.life.accept_unique hjob hpc
          · cases hw
    · cases hconstructs
  · cases hconstructs

/-- **One step.** -/
theorem Closing.step (hC : s.Closing) (hI : s.Inv l h received) (hstep : s.step l a = some s') :
    s'.Closing := by
  obtain ⟨ha, hstep, -⟩ := step_eq_some.1 hstep
  have hmoves := ServerRun.runMoves_of_step hI.life.inv.steady hstep
  refine ⟨hC.ended.step hI.life hmoves,
    hC.single.step hI.life hC.ended (hC.clearsAlone hI ha) hmoves,
    hC.matched.step hI.life.toRooted (hC.neverStale hI) hstep, ?_,
    hC.unregistered_step hI hstep, fun i hi => ?_⟩
  · rw [hmoves.mListenFD_eq]
    exact hC.listen
  · by_cases hold : s.run.Added i
    · exact {
        running w pc := hC.running_step hI hstep hold
        reported := hC.reported_step hI hmoves hold
        resting := hC.resting_step hI hmoves hold
        newSocket w fd := hC.newSocket_step hI hmoves hold }
    · exact Closing.new_step hI hmoves hold hi

/-- When the server starts. -/
lemma closing_start {memory : ℕ → Session} {maxSessions : ℕ} {uniqueNumber : BitVec 64}
    {listenFD : SocketFD} (hlisten : listenFD ≠ sINVALID_SOCKET_FD) :
    (start n memory maxSessions uniqueNumber listenFD).Closing where
  ended := ServerRun.ended_start
  single := ServerRun.single_start
  matched := ServerRun.matchedOrClosing_start
  listen := hlisten
  unregistered := rfl
  ends i hi := by
    obtain ⟨id, hid, -⟩ := hi
    cases hid

/-- Every state of a run. -/
lemma closing_of_exec {memory : ℕ → Session} {maxSessions : ℕ} (hmax : maxSessions < 65536)
    {uniqueNumber : BitVec 64} {listenFD : SocketFD} (hlisten : listenFD ≠ sINVALID_SOCKET_FD)
    (hvalid : ∀ i, (memory i).mRecvJob.mRecvBuffer.Valid)
    (hempty : ∀ i, (memory i).mRecvJob.mRecvBuffer.mFront =
      (memory i).mRecvJob.mRecvBuffer.mRear) {as : List (RunStep n (Fin n))}
    (hrun : (machine l n).exec (start n memory maxSessions uniqueNumber listenFD) as = some s) :
    s.run.Life ∧ s.Closing := by
  have hs : s.Closing ∧ ∃ h received, s.Inv l h received :=
    StepMachine.exec_invariant (M := machine l n)
      (I := fun s => s.Closing ∧ ∃ h received, s.Inv l h received)
      (fun s a s' ⟨hC, h, received, hI⟩ hstep => ⟨hC.step hI hstep, _, hI.step hstep⟩)
      ⟨closing_start hlisten, _, _, inv_start hmax hlisten hvalid hempty⟩ hrun
  obtain ⟨hC, h, received, hI⟩ := hs
  exact ⟨hI.life, hC⟩

end TestServerRun

/-- **Sessions of the echo server are reported once.**  In every run of `TestServer` on slots whose
receive buffers are empty at first, with any number of workers and at most as many clients as there
are slots, `OnDisconnected` is called at most once for each session.  Once a session is closed and
no worker runs its receive job any more, it has been called if and only if `mIsSending` is clear: a
session whose last write was partial dies silently. -/
theorem testServer_reportsOnce (l : Layout) {n : ℕ} {memory : ℕ → Session}
    {maxSessions : ℕ} (hmax : maxSessions < 65536) (uniqueNumber : BitVec 64)
    {listenFD : SocketFD} (hlisten : listenFD ≠ sINVALID_SOCKET_FD)
    (hvalid : ∀ i, (memory i).mRecvJob.mRecvBuffer.Valid)
    (hempty : ∀ i, (memory i).mRecvJob.mRecvBuffer.mFront =
      (memory i).mRecvJob.mRecvBuffer.mRear)
    {as : List (RunStep n (Fin n))} {s : TestServerRun n}
    (hrun : (TestServerRun.machine l n).exec
      (TestServerRun.start n memory maxSessions uniqueNumber listenFD) as = some s) :
    s.run.DisconnectedOnce ∧
      ∀ id ∈ s.run.added, (s.run.session (getIndex id)).mSessionFD = sINVALID_SOCKET_FD →
        (∀ w, (s.run.job w).receiving ≠ some (getIndex id)) →
        (.onDisconnected id ∈ s.run.memory.callbacks ↔
          (s.run.session (getIndex id)).mIsSending = false) := by
  obtain ⟨hlife, hC⟩ := TestServerRun.closing_of_exec hmax hlisten hvalid hempty hrun
  refine ⟨hC.single.once, fun id hid hclosed hnobody => ?_⟩
  have hends := hC.ends (getIndex id) ⟨id, hid, rfl⟩
  have hreported : s.run.Reported (getIndex id) ↔
      .onDisconnected id ∈ s.run.memory.callbacks := by
    rw [ServerRun.Reported, hlife.added_id id hid]
  rw [← hreported]
  refine ⟨hends.reported, (hends.resting (fun w pc hw => ?_) hclosed).2⟩
  exact hnobody w (by rw [hw]; rfl)

/-- The only client closes its connection, which the receive job reports. -/
theorem testServer_reportsOnce_close : ∃ s,
    (TestServerRun.machine .megabytes 2).exec
      (TestServerRun.start 2 (fun _ => Session.zeroMemory) 2 0 3) ServerRun.close = some s ∧
      s.run.DisconnectedOnce ∧ .onDisconnected 0 ∈ s.run.memory.callbacks :=
  StepMachine.exists_exec_and
    (fun s => 0 ∈ s.run.added ∧
      (s.run.session (getIndex 0)).mSessionFD = sINVALID_SOCKET_FD ∧
      (∀ w, (s.run.job w).receiving ≠ some (getIndex 0)) ∧
      (s.run.session (getIndex 0)).mIsSending = false) (by decide +kernel)
    fun s hrun ⟨hid, hclosed, hnobody, hidle⟩ => by
      have hreports := testServer_reportsOnce .megabytes (by decide) 0 (by decide)
        (fun _ => CircularBuffer.valid_reset RecvBuffer.zeroMemory) (fun _ => rfl) hrun
      exact ⟨hreports.1, (hreports.2 0 hid hclosed hnobody).2 hidle⟩

/-- **Registrations of the echo server.**  In every run of `TestServer` on slots whose receive
buffers are empty at first, with any number of workers, at most as many clients as there are slots,
and descriptor numbers that the kernel uses again, every client that is registered carries the
receive job of the session whose socket it is, or of the one from which the worker in its
`Disconnect` has taken this socket and is about to delete the registration. -/
theorem testServer_registrationsMatch (l : Layout) {n : ℕ} {memory : ℕ → Session}
    {maxSessions : ℕ} (hmax : maxSessions < 65536) (uniqueNumber : BitVec 64)
    {listenFD : SocketFD} (hlisten : listenFD ≠ sINVALID_SOCKET_FD)
    (hvalid : ∀ i, (memory i).mRecvJob.mRecvBuffer.Valid)
    (hempty : ∀ i, (memory i).mRecvJob.mRecvBuffer.mFront =
      (memory i).mRecvJob.mRecvBuffer.mRear)
    {as : List (RunStep n (Fin n))} {s : TestServerRun n}
    (hrun : (TestServerRun.machine l n).exec
      (TestServerRun.start n memory maxSessions uniqueNumber listenFD) as = some s) :
    s.run.MatchedOrClosing :=
  (TestServerRun.closing_of_exec hmax hlisten hvalid hempty hrun).2.matched

/-- A second client gets the descriptor number of the first one, and is registered for its own
session. -/
theorem testServer_registrationsMatch_reuse : ∃ s,
    (TestServerRun.machine .megabytes 2).exec
      (TestServerRun.start 2 (fun _ => Session.zeroMemory) 2 0 3)
      (ServerRun.close ++ ServerRun.acceptAgain) = some s ∧
      s.run.memory.epoll.data 7 = some (.recv 1) ∧ s.run.MatchedOrClosing :=
  StepMachine.exists_exec_and (fun s => s.run.memory.epoll.data 7 = some (.recv 1))
    (by decide +kernel) fun _ hrun hdata =>
      ⟨hdata, testServer_registrationsMatch .megabytes (by decide) 0 (by decide)
        (fun _ => CircularBuffer.valid_reset RecvBuffer.zeroMemory) (fun _ => rfl) hrun⟩

end CoreServer
