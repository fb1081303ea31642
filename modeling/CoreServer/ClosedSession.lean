import CoreServer.ReceiveEnd

/-!
# What is left of a closed session

`Disconnect` withholds `OnDisconnected` while `mIsRecving` or `mIsSending` is set, and relies
on the thread that will clear the flag.  A closed session is `Handled` as long as there is
one: its receive job is still to run, or a thread is on its way to `Disconnect`.  `KeepsHandler`
says when a step does not take the last one away.
-/

namespace CoreServer

/-- The session of a receive job. -/
def ServerJob.slot : ServerJob → Option ℤ
  | recv i => some i
  | _ => none

/-- The session whose `RecvJob` a worker runs. -/
def JobPC.receiving : JobPC → Option ℤ
  | recv i _ => some i
  | _ => Option.none

/-- The client that `AcceptJob` has accepted. -/
def JobPC.clientFD : JobPC → Option SocketFD
  | accept (.onAccepeted fd) | accept (.close fd) | accept (.alloc fd) | accept (.number fd _)
  | accept (.construct fd _ _) | accept (.getSession fd _) | accept (.epollAdd fd _ _) => some fd
  | _ => Option.none

/-- The descriptor whose registration a worker is about to take away. -/
def JobPC.removes : JobPC → Option SocketFD
  | accept (.close fd) => some fd
  | recv _ (.disconnect pc) | recv _ (.disconnectAfterMod pc) => pc.removes
  | _ => Option.none

/-- The descriptor whose registration a thread that sends is about to take away. -/
def SendPC.removes : SendPC → Option SocketFD
  | doSend _ (.disconnect pc _) | disconnect _ pc => pc.removes
  | _ => none

lemma SendPC.removes_of_swap {pc : SendPC} {i : ℤ} (h : pc.disconnecting = some (i, .swap)) :
    pc.removes = none := by
  unfold disconnecting at h
  split at h
  · obtain ⟨-, rfl⟩ := Prod.mk.inj (Option.some.inj h)
    rfl
  · obtain ⟨-, rfl⟩ := Prod.mk.inj (Option.some.inj h)
    rfl
  · cases h

/-- The registration that a worker is about to change, and its new data. -/
def ServerMemory.modifies (m : ServerMemory) : JobPC → Option (SocketFD × ServerJob)
  | .recv i (.epollMod fd) => some (fd, .recv i)
  | .accept .epollMod => some (m.mListenFD, .accept)
  | _ => none

lemma JobPC.receiving_of_modifies {m : ServerMemory} {pc : JobPC} {fd : SocketFD} {i : ℤ}
    (h : m.modifies pc = some (fd, .recv i)) : pc.receiving = some i := by
  unfold ServerMemory.modifies at h
  split at h
  · obtain ⟨-, h⟩ := Prod.mk.inj (Option.some.inj h)
    exact congrArg some (ServerJob.recv.inj h)
  · obtain ⟨-, h⟩ := Prod.mk.inj (Option.some.inj h)
    cases h
  · cases h

/-- The session of a thread that is about to call `writev`. -/
def SendPC.writing : SendPC → Option ℤ
  | doSend i (.writev _ _) => some i
  | _ => none

/-- The kernel takes bytes in this step. -/
def SendInput.accepts : SendInput → Bool
  | writev (.accepted _ _) => true
  | _ => false

/-- A thread in `DoSend` will find a closed socket closed. -/
def DoSendPC.FindsClosed (mPackets : List IoVec) : DoSendPC → Prop
  | swap => mPackets ≠ []
  | checkFD _ | writevArgs _ | writev _ _ | giveUp _ => True
  | clear | disconnect _ _ | addPackets _ _ => False

instance (mPackets : List IoVec) : ∀ pc : DoSendPC, Decidable (pc.FindsClosed mPackets)
  | .swap => inferInstanceAs (Decidable (_ ≠ _))
  | .checkFD _ | .writevArgs _ | .writev _ _ | .giveUp _ => .isTrue trivial
  | .clear | .disconnect _ _ | .addPackets _ _ => .isFalse not_false

/-- A thread will find the closed socket of the session in the slot `i` closed. -/
def SendPC.FindsClosed (mPackets : List IoVec) (i : ℤ) : SendPC → Prop
  | doSend slot pc => slot = i ∧ pc.FindsClosed mPackets
  | _ => False

instance (mPackets : List IoVec) (i : ℤ) : ∀ pc : SendPC, Decidable (pc.FindsClosed mPackets i)
  | .doSend _ _ => inferInstanceAs (Decidable (_ ∧ _))
  | .idle | .getSession _ _ | .push _ _ | .testAndSet _ | .disconnect _ _ => .isFalse not_false

lemma SendPC.FindsClosed.eq_doSend {mPackets : List IoVec} {i : ℤ} {pc : SendPC}
    (h : pc.FindsClosed mPackets i) : ∃ dpc, pc = .doSend i dpc ∧ dpc.FindsClosed mPackets := by
  unfold FindsClosed at h
  split at h
  · obtain ⟨rfl, h⟩ := h
    exact ⟨_, rfl, h⟩
  · cases h

lemma DoSendPC.FindsClosed.mono {l l' : List IoVec} {pc : DoSendPC}
    (h : pc.FindsClosed l) (hl : pc = .swap → l ≠ [] → l' ≠ []) : pc.FindsClosed l' := by
  cases pc with
  | swap => exact hl rfl h
  | checkFD sendPackets => trivial
  | writevArgs sendPackets => trivial
  | writev sendPackets fd => trivial
  | giveUp failed => trivial
  | clear => cases h
  | disconnect pc failed => cases h
  | addPackets sendPackets result => cases h

namespace ServerMemory

variable {m m' : ServerMemory} {pc : JobPC} {next : Next}

lemma DisconnectMoves.le_armed {slot : ℤ} {pc : DisconnectPC} {pc' : Option DisconnectPC}
    (h : DisconnectMoves m slot pc m' pc') {j : ServerJob}
    (hremoves : ∀ fd, pc.removes = some fd → m.epoll.waiting fd ≠ some j) :
    m.epoll.armed j ≤ m'.epoll.armed j := by
  cases h with
  | epollDel oldFD => exact (EpollSet.armed_del (hremoves oldFD rfl)).ge
  | close oldFD => exact (EpollSet.armed_del (hremoves oldFD rfl)).ge
  | swapValid hin hfd | swapInvalid hin hfd => exact le_rfl
  | recving hin hrecving | notRecving hin hrecving => exact le_rfl
  | sending hin hsending | notSending hin hsending => exact le_rfl
  | onDisconnected hin => exact le_rfl

lemma SendMoves.le_armed {pc pc' : SendPC} (h : SendMoves m pc m' pc') {j : ServerJob}
    (hremoves : ∀ fd, pc.removes = some fd → m.epoll.waiting fd ≠ some j) :
    m.epoll.armed j ≤ m'.epoll.armed j := by
  have hdoSend : ∀ {slot : ℤ} {pc : DoSendPC} {pc' : Option DoSendPC},
      (∀ fd, (SendPC.doSend slot pc).removes = some fd → m.epoll.waiting fd ≠ some j) →
        DoSendMoves m slot pc m' pc' → m.epoll.armed j ≤ m'.epoll.armed j := by
    intro slot pc pc' hremoves hmoves
    cases hmoves with
    | disconnect hmoves | disconnected hmoves => exact hmoves.le_armed hremoves
    | _ => exact le_rfl
  cases h with
  | doSend hmoves => exact hdoSend hremoves hmoves
  | done hmoves => exact hdoSend hremoves hmoves
  | disconnect hmoves | disconnected hmoves => exact hmoves.le_armed hremoves
  | _ => exact le_rfl

/-- A step of a job loses no receive job but the one that the worker runs, if it takes no
registration of one away. -/
lemma JobMoves.le_count (h : JobMoves m pc m' next) {i : ℤ} (hpc : pc.receiving ≠ some i)
    (hremoves : ∀ fd, pc.removes = some fd → m.epoll.waiting fd ≠ some (.recv i))
    (hmodifies : ∀ fd ptr, m.modifies pc = some (fd, ptr) → m.epoll.waiting fd ≠ some (.recv i)) :
    m.epoll.armed (.recv i) + pc.hand.count (.recv i) ≤
      m'.epoll.armed (.recv i) + next.hand.count (.recv i) := by
  have hmod : ∀ {fd ptr} {epoll : EpollSet SocketFD ServerJob}, m.modifies pc = some (fd, ptr) →
      m.epoll.mod fd ptr = some epoll → m.epoll.armed (.recv i) ≤ epoll.armed (.recv i) := by
    intro fd ptr epoll hpc hmod
    rw [EpollSet.armed_mod hmod, EpollSet.armed_del (hmodifies fd ptr hpc)]
    exact Nat.le_add_right _ _
  cases h with
  | complete => exact le_rfl
  | poll hmoves =>
    cases hmoves with
    | failed | noEvents | addThis => exact le_rfl
    | fetched hwait =>
      have harmed := EpollSet.armed_wait hwait (.recv i)
      simp only [epoll_setEpoll, Next.hand, Next.pc, JobPC.hand, PollPC.hand, List.count_cons,
        List.count_nil]
      omega
    | addEvent =>
      simp only [Next.hand, JobPC.hand, PollPC.hand, List.count_cons]
      omega
    | returns => exact le_rfl
  | accept hmoves =>
    have hhand : ∀ j : List ServerJob, m'.epoll.armed (.recv i) ≤
        m'.epoll.armed (.recv i) + j.count (.recv i) := fun j => Nat.le_add_right _ _
    cases hmoves with
    | close => exact ((EpollSet.armed_del (hremoves _ rfl)).ge).trans (hhand _)
    | registered hopen hadd =>
      refine le_trans ?_ (hhand _)
      rw [epoll_setEpoll, EpollSet.armed_add hadd]
      exact Nat.le_add_right _ _
    | rearmed hmod' => exact (hmod rfl hmod').trans (hhand _)
    | accepted hnonneg hnew => exact hhand _
    | interrupted | noClient | wanted | refused | number | notRegistered => exact hhand _
    | onConnected | notRearmed => exact hhand _
    | allocNone hpool | alloc hpool => exact hhand _
    | construct hin => exact hhand _
    | getSession hin hid => exact hhand _
  | @recv slot rpc m' next hmoves =>
    -- the worker runs the job of another slot
    have hne : slot ≠ i := fun heq => hpc (congrArg some heq)
    have hhand : (JobPC.recv slot rpc).hand.count (.recv i) = 0 := by
      refine List.count_eq_zero.2 fun hmem => ?_
      rw [JobPC.hand] at hmem
      split at hmem
      · exact hne (ServerJob.recv.inj (List.mem_singleton.1 hmem)).symm
      · cases hmem
    rw [hhand, Nat.add_zero]
    refine le_trans ?_ (Nat.le_add_right _ _)
    cases hmoves with
    | disconnect hmoves | disconnected hmoves => exact hmoves.le_armed hremoves
    | disconnectAfterMod hmoves | disconnectedAfterMod hmoves => exact hmoves.le_armed hremoves
    | rearmed hmod' => exact hmod rfl hmod'
    | fdInvalid hfd | fdValid hfd | validSocket hfd | invalidSocket hfd => exact le_rfl
    | recvArgs | ended | interrupted | drained | noData | epollModArgs | notRearmed =>
      exact le_rfl
    | received hin hb | onRecvReturned hin hb => exact le_rfl
    | onRecv hin hused hpos => exact le_rfl
    | setReceiveState hin | setReceiveStateAfterMod hin => exact le_rfl

/-- A worker leaves its `RecvJob` when it has armed the registration, when the socket is
valid, or at the end of `Disconnect`. -/
lemma JobMoves.receiving (h : JobMoves m pc m' next) {i : ℤ} (hpc : pc.receiving = some i) :
    next.pc.receiving = some i ∨ 0 < m'.epoll.armed (.recv i) ∨
      (m.session i).mSessionFD ≠ sINVALID_SOCKET_FD ∨ ∃ dpc, pc.disconnecting = some (i, dpc) := by
  cases h with
  | poll hmoves => cases hpc
  | accept hmoves => cases hpc
  | complete => cases hpc
  | recv hmoves =>
    obtain rfl := Option.some.inj hpc
    cases hmoves with
    | rearmed hmod =>
      right; left
      rw [epoll_setEpoll, EpollSet.armed_mod hmod, if_pos rfl]
      exact Nat.succ_pos _
    | validSocket hfd => exact Or.inr (Or.inr (Or.inl hfd))
    | disconnect hmoves | disconnectAfterMod hmoves => exact Or.inl rfl
    | disconnected hmoves | disconnectedAfterMod hmoves => exact Or.inr (Or.inr (Or.inr ⟨_, rfl⟩))
    | fdInvalid hfd | fdValid hfd | invalidSocket hfd => exact Or.inl rfl
    | recvArgs | ended | interrupted | drained | noData | epollModArgs | notRearmed =>
      exact Or.inl rfl
    | received hin hb | onRecvReturned hin hb => exact Or.inl rfl
    | onRecv hin hused hpos => exact Or.inl rfl
    | setReceiveState hin | setReceiveStateAfterMod hin => exact Or.inl rfl

/-- A worker that comes to `Disconnect` has cleared `mIsRecving`. -/
lemma JobMoves.setReceiveState (h : JobMoves m pc m' next) {i : ℤ} (hi : 0 ≤ i)
    (hpc : pc = .recv i .setReceiveState ∨ pc = .recv i .setReceiveStateAfterMod) :
    (m'.session i).mIsRecving = false ∧ next.pc.disconnecting = some (i, .swap) := by
  have hclear : ((m.updateSession i fun s => s.setReceiveState false).session i).mIsRecving =
      false := by
    rw [session_updateSession_self hi]
    rfl
  rcases hpc with rfl | rfl
  · cases h with
    | recv hmoves =>
      cases hmoves with
      | setReceiveState hin => exact ⟨hclear, rfl⟩
  · cases h with
    | recv hmoves =>
      cases hmoves with
      | setReceiveStateAfterMod hin => exact ⟨hclear, rfl⟩

/-- A client that `AcceptJob` goes on with has a descriptor. -/
lemma JobMoves.clientFD (h : JobMoves m pc m' next) {fd : SocketFD}
    (hnext : next.pc.clientFD = some fd) : pc.clientFD = some fd ∨ 0 ≤ fd := by
  cases h with
  | poll hmoves =>
    rcases hmoves.next_pc with heq | ⟨pc', heq⟩ <;>
    · rw [heq] at hnext
      cases hnext
  | recv hmoves =>
    rcases hmoves.next_pc with heq | ⟨pc', heq⟩ <;>
    · rw [heq] at hnext
      cases hnext
  | complete => cases hnext
  | accept hmoves =>
    cases hmoves with
    | accepted hnonneg hnew =>
      obtain rfl := Option.some.inj hnext
      exact Or.inr hnonneg
    | wanted | refused | number => exact Or.inl hnext
    | allocNone hpool | alloc hpool => exact Or.inl hnext
    | construct hin => exact Or.inl hnext
    | getSession hin hid => exact Or.inl hnext
    | registered hopen hadd => cases hnext
    | interrupted | noClient | close | notRegistered | onConnected | notRearmed => cases hnext
    | rearmed hmod => cases hnext

/-- A `writev` that fails leaves the packets with the thread. -/
lemma findsClosed_afterWritev (mPackets sendPackets : List IoVec) (errno : Errno) :
    (DoSendPC.afterWritev sendPackets (.failed errno)).FindsClosed mPackets := by
  have hnegative : toInt32 (WritevResult.failed errno).value < 0 :=
    (by decide : toInt32 (-1) < 0)
  simp only [DoSendPC.afterWritev, if_pos hnegative]
  split <;> exact trivial

/-- A thread in `DoSend` of a closed session goes on to `Disconnect`, unless a `writev`
succeeds. -/
lemma DoSendMoves.findsClosed {slot : ℤ} {pc : DoSendPC} {pc' : Option DoSendPC}
    (h : DoSendMoves m slot pc m' pc') (hfinds : pc.FindsClosed (m.session slot).mPackets)
    (hfd : (m.session slot).mSessionFD = sINVALID_SOCKET_FD)
    (hwritev : ∀ sendPackets fd, pc ≠ .writev sendPackets fd) :
    (∃ dpc, pc' = some dpc ∧ ∀ mPackets, dpc.FindsClosed mPackets) ∨
      ∃ failed, pc' = some (.disconnect .swap failed) := by
  cases h with
  | swapEmpty hin hpackets => exact absurd hpackets hfinds
  | swap hin hpackets => exact Or.inl ⟨_, rfl, fun _ => trivial⟩
  | fdInvalid hinvalid => exact Or.inl ⟨_, rfl, fun _ => trivial⟩
  | fdValid hvalid => exact absurd hfd hvalid
  | writevArgs => exact Or.inl ⟨_, rfl, fun _ => trivial⟩
  | writev w hw => exact absurd rfl (hwritev _ _)
  | giveUp hin => exact Or.inr ⟨_, rfl⟩
  | clear hin => cases hfinds
  | disconnect hmoves => cases hfinds
  | disconnected hmoves => cases hfinds
  | addPackets job hin => cases hfinds

end ServerMemory

namespace ServerRun

variable {n : ℕ} {κ : Type} {s s' : ServerRun n κ}

/-- The receive job of a session is armed, fetched, queued or run. -/
def Pending (s : ServerRun n κ) (i : ℤ) : Prop :=
  0 < s.places (.recv i) ∨ ∃ w, (s.job w).receiving = some i

/-- A thread in `DoSend` will find the socket of the session closed. -/
def FindsClosed (s : ServerRun n κ) (i : ℤ) : Fin n ⊕ κ → Prop
  | .inl _ => False
  | .inr k => (s.sender k).FindsClosed (s.session i).mPackets i

/-- A thread is in `Disconnect` of the session, or on its way to it. -/
def Rescues (s : ServerRun n κ) (i : ℤ) (t : Fin n ⊕ κ) : Prop :=
  s.InDisconnect i t ∨ s.FindsClosed i t

/-- A closed session has been reported, or somebody is still to do so. -/
def Handled (s : ServerRun n κ) (i : ℤ) : Prop :=
  s.Reported i ∨ ((s.session i).mIsRecving = true ∧ s.Pending i) ∨
    ((s.session i).mIsRecving = false ∧ ∃ t, s.Rescues i t)

/-- The session is closed, and only its receive job can report it. -/
def AwaitsRecvJob (s : ServerRun n κ) (i : ℤ) : Prop :=
  (s.session i).mSessionFD = sINVALID_SOCKET_FD ∧ (s.session i).mIsRecving = true

/-- The registration of a descriptor is not one that a closed session waits for. -/
def MayTake (s : ServerRun n κ) (fd : SocketFD) : Prop :=
  ∀ j ∈ s.memory.epoll.waiting fd, ∀ i ∈ j.slot, ¬ s.AwaitsRecvJob i

/-- Somebody else than the thread `t` has reported the session, or will do so. -/
def Covered (s : ServerRun n κ) (i : ℤ) (t : Fin n ⊕ κ) : Prop :=
  s.Reported i ∨ ∃ t', t' ≠ t ∧ s.Rescues i t'

/-- A thread in `Disconnect` closes the socket of a session with `mIsRecving` set only if its
receive job is pending, and leaves it for the sake of `mIsSending` only if the session is
covered. -/
def LeavesHandled (s : ServerRun n κ) (t : Fin n ⊕ κ) : Prop :=
  ∀ p ∈ s.disconnecting t,
    (p.2 = .swap → (s.session p.1).mSessionFD ≠ sINVALID_SOCKET_FD →
      (s.session p.1).mIsRecving = true → s.Pending p.1) ∧
    (p.2 = .isSending → (s.session p.1).mIsSending = true → s.Covered p.1 t)

/-- The step does not take away the last one that can report a closed session. -/
def KeepsHandler (s : ServerRun n κ) : RunStep n κ → Prop
  | .job w _ =>
    (∀ fd ∈ (s.job w).removes, s.MayTake fd) ∧
      (∀ p ∈ s.memory.modifies (s.job w), s.memory.epoll.waiting p.1 ≠ some p.2 →
        s.MayTake p.1) ∧ s.LeavesHandled (.inl w)
  | .sender k input =>
    (∀ fd ∈ (s.sender k).removes, s.MayTake fd) ∧ s.LeavesHandled (.inr k) ∧
      ∀ i ∈ (s.sender k).writing, input.accepts = true →
        (s.session i).mSessionFD = sINVALID_SOCKET_FD → (s.session i).mIsRecving = false →
          s.Covered i (.inr k)
  | .pool _ | .start _ | .send _ _ _ | .disconnect _ _ => True

section Decidable

variable [Fintype κ] [DecidableEq κ] (s : ServerRun n κ)

instance (i : ℤ) : Decidable (s.Pending i) := inferInstanceAs (Decidable (_ ∨ ∃ _, _))

instance (i : ℤ) : ∀ t : Fin n ⊕ κ, Decidable (s.FindsClosed i t)
  | .inl _ => .isFalse not_false
  | .inr k => inferInstanceAs (Decidable ((s.sender k).FindsClosed _ _))

instance (i : ℤ) (t : Fin n ⊕ κ) : Decidable (s.Rescues i t) := inferInstanceAs (Decidable (_ ∨ _))

instance (fd : SocketFD) : Decidable (s.MayTake fd) :=
  inferInstanceAs (Decidable (∀ j ∈ _, ∀ i ∈ _, ¬ (_ ∧ _)))

instance (i : ℤ) (t : Fin n ⊕ κ) : Decidable (s.Covered i t) :=
  inferInstanceAs (Decidable (_ ∨ ∃ _, _ ∧ _))

instance (t : Fin n ⊕ κ) : Decidable (s.LeavesHandled t) :=
  inferInstanceAs (Decidable (∀ p ∈ _, _ ∧ _))

instance : ∀ a : RunStep n κ, Decidable (s.KeepsHandler a)
  | .job _ _ => inferInstanceAs (Decidable ((∀ fd ∈ _, _) ∧ (∀ p ∈ _, _) ∧ _))
  | .sender _ _ => inferInstanceAs (Decidable ((∀ fd ∈ _, _) ∧ _ ∧ ∀ i ∈ _, _))
  | .pool _ | .start _ | .send _ _ _ | .disconnect _ _ => .isTrue trivial

end Decidable

/-- The invariant. -/
structure Watched (s : ServerRun n κ) : Prop where
  client : ∀ w fd, (s.job w).clientFD = some fd → 0 ≤ fd
  /-- A worker in `Disconnect` has cleared `mIsRecving`. -/
  cleared : ∀ w i pc, (s.job w).disconnecting = some (i, pc) →
    (s.session i).mIsRecving = false
  handled : ∀ i, s.Added i → (s.session i).mSessionFD = sINVALID_SOCKET_FD → s.Handled i

lemma watched_start {memory : ℕ → Session} {maxSessions : ℕ} {uniqueNumber : BitVec 64}
    {listenFD : SocketFD} : (start n κ memory maxSessions uniqueNumber listenFD).Watched where
  client w fd h := by cases h
  cleared w i pc h := by cases h
  handled i h := by
    obtain ⟨id, hid, -⟩ := h
    cases hid

/-! ## Steps of the other threads -/

/-- A thread that does not move goes on to find the socket closed. -/
lemma FindsClosed.mono {i : ℤ} {t : Fin n ⊕ κ} (h : s.FindsClosed i t)
    (hsender : ∀ k, t = .inr k → s'.sender k = s.sender k)
    (hpackets : ∀ k, t = .inr k → s.sender k = .doSend i .swap →
      (s.session i).mPackets ≠ [] → (s'.session i).mPackets ≠ []) : s'.FindsClosed i t := by
  cases t with
  | inl w => exact h
  | inr k =>
    obtain ⟨dpc, hpc, hfinds⟩ := SendPC.FindsClosed.eq_doSend h
    rw [FindsClosed, hsender k rfl, hpc]
    exact ⟨rfl, hfinds.mono fun hswap => hpackets k rfl (by rw [hpc, hswap])⟩

/-- A step of a worker takes nobody else from his way. -/
lemma JobMove.rescues (hs : s.Life) {w : Fin n} {next : Next} (h : s.JobMove s' w next) {i : ℤ}
    (hi : s.Added i) {t : Fin n ⊕ κ} (hne : t ≠ .inl w) (ht : s.Rescues i t) : s'.Rescues i t := by
  refine ht.imp (fun ⟨pc, hpc⟩ => ⟨pc, (h.disconnecting_of_ne hne).trans hpc⟩) fun hfinds => ?_
  refine hfinds.mono (fun k _ => by rw [h.sender_eq]) fun k _ _ hpackets => ?_
  rw [(h.sendMembers hs hi).2.1]
  exact hpackets

lemma SendMove.rescues [DecidableEq κ] {k : κ} {pc : SendPC} (h : s.SendMove s' k pc) {i : ℤ}
    (hi : 0 ≤ i) (hswap : s.sender k ≠ .doSend i .swap) {t : Fin n ⊕ κ} (hne : t ≠ .inr k)
    (ht : s.Rescues i t) : s'.Rescues i t := by
  refine ht.imp (fun ⟨pc, hpc⟩ => ⟨pc, (h.disconnecting_of_ne hne).trans hpc⟩) fun hfinds => ?_
  refine hfinds.mono (fun k' hk' => h.sender_of_ne fun heq => hne (by rw [hk', heq]))
    fun k' _ _ hpackets => h.mPackets_ne_nil hi hswap hpackets

/-- Where a thread in `Disconnect` without `mIsRecving` leaves the session. -/
lemma Handled.of_disconnect {t : Fin n ⊕ κ} {i : ℤ} {dpc : DisconnectPC}
    {dpc' : Option DisconnectPC} (ht : s.disconnecting t = some (i, dpc))
    (hmoves : ServerMemory.DisconnectMoves s.memory i dpc s'.memory dpc')
    (hnext : s'.disconnecting t = dpc'.map fun dpc' => (i, dpc'))
    (hrecving : (s.session i).mIsRecving = false) (hrecving' : (s'.session i).mIsRecving = false)
    (hleaves : s.LeavesHandled t) (hreported : s.Reported i → s'.Reported i)
    (hothers : ∀ t', t' ≠ t → s.Rescues i t' → s'.Rescues i t') : s'.Handled i := by
  have hstays : ∀ {dpc'}, s'.disconnecting t = some (i, dpc') → s'.Handled i := fun h =>
    Or.inr (Or.inr ⟨hrecving', t, Or.inl ⟨_, h⟩⟩)
  generalize hm' : s'.memory = m' at hmoves
  cases hmoves with
  | swapValid hin hfd | swapInvalid hin hfd => exact hstays hnext
  | epollDel oldFD => exact hstays hnext
  | close oldFD => exact hstays hnext
  | notRecving hin _ => exact hstays hnext
  | notSending hin hsending => exact hstays hnext
  | recving hin hset =>
    rw [session, hset] at hrecving
    cases hrecving
  | sending hin hsending =>
    -- the thread goes away, and leaves the session to another one
    rcases (hleaves _ ht).2 rfl hsending with hr | ⟨t', hne, ht'⟩
    · exact Or.inl (hreported hr)
    · exact Or.inr (Or.inr ⟨hrecving', t', hothers t' hne ht'⟩)
  | onDisconnected hin =>
    left
    rw [Reported, session, hm']
    exact List.mem_append_right _ (List.mem_singleton_self _)

/-! ## One step -/

variable [DecidableEq κ] {a : RunStep n κ}

omit [DecidableEq κ] in
/-- A step of a worker keeps the receive job of a closed session pending. -/
lemma Watched.pending_job (hw : s.Watched) {w : Fin n} {input : JobInput} {next : Next}
    (h : s.JobMove s' w next) (ha : s.KeepsHandler (.job w input)) {i : ℤ}
    (hawaits : s.AwaitsRecvJob i) (hpending : s.Pending i) : s'.Pending i := by
  by_cases hrunning : (s.job w).receiving = some i
  · -- the receive job itself moves on, or is given back to the epoll set
    rcases h.moves.receiving hrunning with hnext | harmed | hfd | ⟨dpc, hdpc⟩
    · exact Or.inr ⟨w, by rw [h.job_self, hnext]⟩
    · left
      rw [places_eq]
      exact Nat.add_pos_left harmed _
    · exact absurd hawaits.1 hfd
    · have hcleared := hw.cleared w i dpc hdpc
      rw [hawaits.2] at hcleared
      cases hcleared
  · rcases hpending with hpos | ⟨w', hw'⟩
    · left
      have hcount := h.moves.le_count hrunning
        (fun fd hfd hwaiting => ha.1 fd hfd _ hwaiting i rfl hawaits)
        fun fd ptr hmod hwaiting => by
          refine ha.2.1 _ hmod (fun heq => ?_) _ hwaiting i rfl hawaits
          obtain rfl := Option.some.inj (hwaiting.symm.trans heq)
          exact hrunning (JobPC.receiving_of_modifies hmod)
      have hheld := h.held (.recv i)
      rw [places_eq] at hpos ⊢
      omega
    · refine Or.inr ⟨w', ?_⟩
      rw [h.job_of_ne fun heq => hrunning (heq ▸ hw'), hw']

lemma Watched.handled_job (hs : s.Life) (hw : s.Watched) {w : Fin n} {input : JobInput}
    {next : Next} (h : s.JobMove s' w next) (ha : s.KeepsHandler (.job w input))
    (hreported : ∀ i, s.Added i → s.Reported i → s'.Reported i) {i : ℤ} (hi : s.Added i)
    (hfd' : (s'.session i).mSessionFD = sINVALID_SOCKET_FD) : s'.Handled i := by
  have hself : s'.disconnecting (.inl w) = next.pc.disconnecting := by
    rw [disconnecting, h.job_self]
  by_cases hfd : (s.session i).mSessionFD = sINVALID_SOCKET_FD
  · rcases hw.handled i hi hfd with hr | ⟨hrecving, hpending⟩ | ⟨hrecving, t, ht⟩
    · exact Or.inl (hreported i hi hr)
    · -- the receive job is still to run, or has just cleared its flag
      rcases h.mIsRecving hs hi with heq | ⟨-, hpc⟩
      · exact Or.inr (Or.inl ⟨heq.trans hrecving, hw.pending_job h ha ⟨hfd, hrecving⟩ hpending⟩)
      · obtain ⟨hcleared, hnext⟩ := h.moves.setReceiveState hi.nonneg hpc
        exact Or.inr (Or.inr ⟨hcleared, .inl w, Or.inl ⟨_, hself.trans hnext⟩⟩)
    · have hrecving' : (s'.session i).mIsRecving = false := by
        rcases h.mIsRecving hs hi with heq | ⟨heq, -⟩
        · exact heq.trans hrecving
        · exact heq
      by_cases ht' : t = .inl w
      · subst ht'
        obtain ⟨dpc, hdpc⟩ := ht.resolve_right not_false
        obtain ⟨dpc', hmoves, hnext⟩ := h.moves.of_disconnecting hdpc
        exact .of_disconnect hdpc hmoves (hself.trans hnext) hrecving hrecving' ha.2.2
          (hreported i hi) fun t' hne => h.rescues hs hi hne
      · exact Or.inr (Or.inr ⟨hrecving', t, h.rescues hs hi ht' ht⟩)
  · -- the worker has just taken the socket
    rcases h.mSessionFD hs hi with heq | ⟨-, hdpc⟩
    · exact absurd (heq ▸ hfd') hfd
    · have hrecving := hw.cleared w i _ hdpc
      have hrecving' : (s'.session i).mIsRecving = false := by
        rcases h.mIsRecving hs hi with heq | ⟨heq, -⟩
        · exact heq.trans hrecving
        · exact heq
      obtain ⟨dpc', hmoves, hnext⟩ := h.moves.of_disconnecting hdpc
      have hdpc' : s.disconnecting (.inl w) = some (i, .swap) := hdpc
      exact .of_disconnect hdpc' hmoves (hself.trans hnext) hrecving hrecving'
        ha.2.2 (hreported i hi) fun t' hne => h.rescues hs hi hne

/-- A step of a thread that sends keeps the receive job of a closed session pending. -/
lemma SendMove.pending {k : κ} {pc : SendPC} (h : s.SendMove s' k pc) {i : ℤ}
    (hremoves : ∀ fd, (s.sender k).removes = some fd → s.memory.epoll.waiting fd ≠ some (.recv i))
    (hpending : s.Pending i) : s'.Pending i := by
  refine hpending.imp (fun hpos => ?_) fun ⟨w, hw⟩ => ⟨w, by rw [h.job_eq, hw]⟩
  have hle := h.moves.le_armed hremoves
  rw [places_eq] at hpos ⊢
  rw [h.held_eq]
  omega

/-- Where a thread goes on that is to find the socket closed. -/
lemma Handled.of_findsClosed {k : κ} {pc : SendPC} (h : s.SendMove s' k pc) {input : SendInput}
    (hwritev : s.AnswersWritev k input pc) {i : ℤ} {dpc : DoSendPC}
    (hk : s.sender k = .doSend i dpc) (hfinds : dpc.FindsClosed (s.session i).mPackets)
    (hfd : (s.session i).mSessionFD = sINVALID_SOCKET_FD)
    (hrecving' : (s'.session i).mIsRecving = false)
    (haccepts : ∀ j ∈ (s.sender k).writing, input.accepts = true → s'.Handled j) :
    s'.Handled i := by
  have hstays : ∀ {dpc' : DoSendPC}, pc = .doSend i dpc' →
      dpc'.FindsClosed (s'.session i).mPackets → s'.Handled i := by
    intro dpc' hpc hfinds'
    refine Or.inr (Or.inr ⟨hrecving', .inr k, Or.inr ?_⟩)
    rw [FindsClosed, h.sender_self, hpc]
    exact ⟨rfl, hfinds'⟩
  -- only a `writev` that takes bytes lets the thread go without `Disconnect`
  by_cases hdpc : ∃ sendPackets fd, dpc = .writev sendPackets fd
  · obtain ⟨sendPackets, fd, rfl⟩ := hdpc
    obtain ⟨w, rfl, hpossible, hpc⟩ := hwritev i sendPackets fd hk
    cases w with
    | accepted count errno => exact haccepts i (by rw [hk]; exact rfl) rfl
    | failed errno => exact hstays hpc (ServerMemory.findsClosed_afterWritev _ _ _)
  · have hmoves := h.moves
    rw [hk] at hmoves
    obtain ⟨dpc', hmoves, hpc⟩ := hmoves.of_doSend
    rcases hmoves.findsClosed hfinds hfd (fun sendPackets fd heq => hdpc ⟨_, _, heq⟩) with
      ⟨dpc', rfl, hfinds'⟩ | ⟨failed, rfl⟩
    · exact hstays hpc (hfinds' _)
    · refine Or.inr (Or.inr ⟨hrecving', .inr k, Or.inl ⟨.swap, ?_⟩⟩)
      rw [disconnecting, h.sender_self, hpc]
      rfl

/-- A thread that is to find the socket closed takes a step. -/
lemma Handled.of_finds {k : κ} {input : SendInput} {pc : SendPC} (h : s.SendMove s' k pc)
    (hwritev : s.AnswersWritev k input pc) (ha : s.KeepsHandler (.sender k input)) {i : ℤ}
    (hi : s.Added i)
    (hreported : s.Reported i → s'.Reported i)
    (hfd : (s.session i).mSessionFD = sINVALID_SOCKET_FD)
    (hrecving : (s.session i).mIsRecving = false) {dpc : DoSendPC}
    (hk : s.sender k = .doSend i dpc) (hfinds : dpc.FindsClosed (s.session i).mPackets) :
    s'.Handled i := by
  have hrecving' : (s'.session i).mIsRecving = false :=
    (h.mIsRecving hi.nonneg).trans hrecving
  refine .of_findsClosed h hwritev hk hfinds hfd hrecving' fun j hj haccept => ?_
  -- the kernel has accepted bytes for a closed session, so that somebody else attends to it
  obtain ⟨sendPackets, fd, rfl, rfl⟩ : ∃ sendPackets fd, dpc = .writev sendPackets fd ∧ j = i := by
    have hwriting : (s.sender k).writing = some j := hj
    rw [hk] at hwriting
    unfold SendPC.writing at hwriting
    split at hwriting
    · rename_i heq
      obtain ⟨rfl, rfl⟩ := SendPC.doSend.inj heq
      exact ⟨_, _, rfl, (Option.some.inj hwriting).symm⟩
    · cases hwriting
  have hne : s.sender k ≠ .doSend j .swap := by
    rw [hk]
    simp
  rcases ha.2.2 j hj haccept hfd hrecving with hr | ⟨t', hne', ht'⟩
  · exact Or.inl (hreported hr)
  · exact Or.inr (Or.inr ⟨hrecving', t', h.rescues hi.nonneg hne hne' ht'⟩)

/-- A thread moves while another one, or the thread itself, attends to a closed session. -/
lemma Handled.of_rescues {k : κ} {input : SendInput} {pc : SendPC} (h : s.SendMove s' k pc)
    (hwritev : s.AnswersWritev k input pc) (ha : s.KeepsHandler (.sender k input)) {i : ℤ}
    (hi : s.Added i)
    (hreported : s.Reported i → s'.Reported i)
    (hfd : (s.session i).mSessionFD = sINVALID_SOCKET_FD)
    (hrecving : (s.session i).mIsRecving = false) {t : Fin n ⊕ κ} (ht : s.Rescues i t) :
    s'.Handled i := by
  have hrecving' : (s'.session i).mIsRecving = false :=
    (h.mIsRecving hi.nonneg).trans hrecving
  by_cases ht' : t = .inr k
  · subst ht'
    rcases ht with ⟨dpc, hdpc⟩ | hfindsClosed
    · have hne : s.sender k ≠ .doSend i .swap := by
        intro heq
        rw [disconnecting, heq] at hdpc
        cases hdpc
      obtain ⟨dpc', hmoves, hnext⟩ := h.moves.of_disconnecting hdpc
      have hself : s'.disconnecting (.inr k) = pc.disconnecting := by
        rw [disconnecting, h.sender_self]
      exact .of_disconnect hdpc hmoves (hself.trans hnext) hrecving hrecving' ha.2.1 hreported
        fun t' hne' => h.rescues hi.nonneg hne hne'
    · obtain ⟨dpc, hk, hdpc⟩ := SendPC.FindsClosed.eq_doSend hfindsClosed
      exact .of_finds h hwritev ha hi hreported hfd hrecving hk hdpc
  · by_cases hswap : s.sender k = .doSend i .swap
    · -- whoever takes the packets finds the socket closed with them
      by_cases hpackets : (s.session i).mPackets = []
      · refine Or.inr (Or.inr ⟨hrecving', t, ?_⟩)
        rcases ht with ⟨dpc, hdpc⟩ | hfindsClosed
        · exact Or.inl ⟨dpc, (h.disconnecting_of_ne ht').trans hdpc⟩
        · exact Or.inr (hfindsClosed.mono
            (fun k' hk' => h.sender_of_ne fun heq => ht' (by rw [hk', heq]))
            fun k' _ _ hne => absurd hpackets hne)
      · exact .of_finds h hwritev ha hi hreported hfd hrecving hswap hpackets
    · exact Or.inr (Or.inr ⟨hrecving', t, h.rescues hi.nonneg hswap ht' ht⟩)

lemma Watched.handled_send (hw : s.Watched) {k : κ} {input : SendInput} {pc : SendPC}
    (h : s.SendMove s' k pc) (hwritev : s.AnswersWritev k input pc)
    (ha : s.KeepsHandler (.sender k input))
    (hreported : ∀ i, s.Added i → s.Reported i → s'.Reported i) {i : ℤ} (hi : s.Added i)
    (hfd' : (s'.session i).mSessionFD = sINVALID_SOCKET_FD) : s'.Handled i := by
  have hrecving' := h.mIsRecving hi.nonneg
  by_cases hfd : (s.session i).mSessionFD = sINVALID_SOCKET_FD
  · rcases hw.handled i hi hfd with hr | ⟨hrecving, hpending⟩ | ⟨hrecving, t, ht⟩
    · exact Or.inl (hreported i hi hr)
    · refine Or.inr (Or.inl ⟨hrecving'.trans hrecving, h.pending (fun fd hmem hwaiting => ?_)
        hpending⟩)
      exact ha.1 fd hmem _ hwaiting i rfl ⟨hfd, hrecving⟩
    · exact .of_rescues h hwritev ha hi (hreported i hi) hfd hrecving ht
  · -- the thread has just taken the socket
    rcases h.mSessionFD hi.nonneg with heq | ⟨-, hdpc⟩
    · exact absurd (heq ▸ hfd') hfd
    · have ht : s.disconnecting (.inr k) = some (i, .swap) := hdpc
      -- while `mIsRecving` is set, the session is left to its receive job
      cases hrecving : (s.session i).mIsRecving with
      | true =>
        refine Or.inr (Or.inl ⟨hrecving'.trans hrecving, h.pending (fun fd hmem _ => ?_)
          ((ha.2.1 _ ht).1 rfl hfd hrecving)⟩)
        rw [SendPC.removes_of_swap hdpc] at hmem
        cases hmem
      | false =>
        have hne : s.sender k ≠ .doSend i .swap := by
          intro heq
          rw [heq] at hdpc
          cases hdpc
        obtain ⟨dpc', hmoves, hnext⟩ := h.moves.of_disconnecting hdpc
        have hself : s'.disconnecting (.inr k) = pc.disconnecting := by
          rw [disconnecting, h.sender_self]
        exact .of_disconnect ht hmoves (hself.trans hnext) hrecving (hrecving'.trans hrecving)
          ha.2.1 (hreported i hi) fun t' hne' => h.rescues hi.nonneg hne hne'

omit [DecidableEq κ] in
/-- A step that leaves the session, its receive job and the threads on their way alone. -/
lemma Handled.frame {i : ℤ} (h : s.Handled i) (hsession : s'.session i = s.session i)
    (hreported : s.Reported i → s'.Reported i)
    (hplaces : s'.places (.recv i) = s.places (.recv i))
    (hjob : ∀ w, s.job w ≠ .none → s'.job w = s.job w)
    (hsender : ∀ k, s.sender k ≠ .idle → s'.sender k = s.sender k) : s'.Handled i := by
  rcases h with hr | ⟨hrecving, hpending⟩ | ⟨hrecving, t, ⟨dpc, hdpc⟩ | hfinds⟩
  · exact Or.inl (hreported hr)
  · refine Or.inr (Or.inl ⟨hsession ▸ hrecving, hpending.imp (fun hpos => hplaces ▸ hpos) ?_⟩)
    rintro ⟨w, hw⟩
    refine ⟨w, ?_⟩
    rw [hjob w fun heq => by rw [heq] at hw; cases hw]
    exact hw
  · refine Or.inr (Or.inr ⟨hsession ▸ hrecving, t, Or.inl ⟨dpc, ?_⟩⟩)
    cases t with
    | inl w =>
      have hne : s.job w ≠ .none := fun heq => by
        rw [disconnecting, heq] at hdpc
        cases hdpc
      rw [disconnecting, hjob w hne]
      exact hdpc
    | inr k =>
      have hne : s.sender k ≠ .idle := fun heq => by
        rw [disconnecting, heq] at hdpc
        cases hdpc
      rw [disconnecting, hsender k hne]
      exact hdpc
  · refine Or.inr (Or.inr ⟨hsession ▸ hrecving, t, Or.inr ?_⟩)
    refine hfinds.mono (fun k hk => hsender k fun heq => ?_) fun k _ _ hpackets => ?_
    · rw [hk, FindsClosed, heq] at hfinds
      exact hfinds
    · rw [hsession]
      exact hpackets

/-- A worker in `Disconnect` has cleared `mIsRecving`. -/
lemma Watched.cleared_step (hs : s.Life) (hw : s.Watched) (h : s.RunMoves s' a) {w : Fin n} {i : ℤ}
    {pc : DisconnectPC} (hpc : (s'.job w).disconnecting = some (i, pc)) :
    (s'.session i).mIsRecving = false := by
  have ht : s'.disconnecting (.inl w) = some (i, pc) := hpc
  rcases h.disconnecting_cases ht with hold | ⟨pc', hold, -⟩ | ⟨-, henters⟩
  · exact h.mIsRecving_eq_false hs (hs.added_of_disconnecting hold) (hw.cleared w i pc hold)
  · exact h.mIsRecving_eq_false hs (hs.added_of_disconnecting hold) (hw.cleared w i pc' hold)
  · cases henters with
    | recvJob hold =>
      cases h with
      | job h =>
        have hi : s.Added i := by
          rcases hold with hold | hold <;> exact hs.running w i _ hold
        exact (h.moves.setReceiveState hi.nonneg hold).1

/-- **One step keeps the invariant.** -/
theorem Watched.step (hs : s.Life) (hw : s.Watched) (ha : s.KeepsHandler a)
    (h : s.RunMoves s' a) : s'.Watched where
  cleared _ _ _ := hw.cleared_step hs h
  client w fd hfd := by
    have hcall : ∀ {k : κ} {pc : SendPC}, s.CallMove s' k pc → 0 ≤ fd := by
      intro k pc h
      rw [job, h.server_eq] at hfd
      exact hw.client w fd hfd
    have hquiet : s.Quiet s' → 0 ≤ fd := by
      intro h
      rw [h.job_congr (f := JobPC.clientFD) fun j => by cases j <;> rfl] at hfd
      exact hw.client w fd hfd
    cases h with
    | quietPool h | quietStart h => exact hquiet h
    | send hadded h | disconnect hadded h => exact hcall h
    | sender h => exact hw.client w fd (by rw [← h.job_eq, hfd])
    | @job w' input next h =>
      rcases eq_or_ne w w' with rfl | hne
      · rw [h.job_self] at hfd
        exact (h.moves.clientFD hfd).elim (hw.client w fd) id
      · exact hw.client w fd (h.job_of_ne hne ▸ hfd)
  handled i hi hfd := by
    have hreported : ∀ i, s.Added i → s.Reported i → s'.Reported i := fun i hi => h.reported hs hi
    have hquiet : s.Quiet s' → s'.Handled i := by
      intro h
      have hi := (h.added_iff i).1 hi
      rw [h.session_eq] at hfd
      refine (hw.handled i hi hfd).frame (h.session_eq i) (hreported i hi) (h.places_recv i)
        (fun w hne => h.job_of_ne_none hne) fun k _ => by rw [h.sender_eq]
    have hcall : ∀ {k : κ} {pc : SendPC}, s.CallMove s' k pc → s'.Handled i := by
      intro k pc h
      have hi : s.Added i := by
        rw [Added, h.added_eq] at hi
        exact hi
      rw [h.session_eq] at hfd
      refine (hw.handled i hi hfd).frame (h.session_eq i) (hreported i hi)
        (by rw [places, h.server_eq]) (fun w _ => by rw [job, h.server_eq]) fun k' hne => ?_
      exact h.sender_of_ne fun heq => hne (heq ▸ h.idle)
    cases h with
    | quietPool h | quietStart h => exact hquiet h
    | send hadded h | disconnect hadded h => exact hcall h
    | sender h hwritev =>
      have hi : s.Added i := by
        rw [Added, h.added_eq] at hi
        exact hi
      exact hw.handled_send h hwritev ha hreported hi hfd
    | @job w input next h =>
      obtain ⟨id, hid, rfl⟩ := hi
      rcases h.added_cases hs with heq | ⟨clientFD, index, id', hpc, heq, rfl, -, hsession, -⟩
      · exact hw.handled_job hs h ha hreported ⟨id, heq ▸ hid, rfl⟩ hfd
      · rw [heq, List.mem_append] at hid
        rcases hid with hid | hid
        · exact hw.handled_job hs h ha hreported ⟨id, hid, rfl⟩ hfd
        · -- a session that has just been constructed has a socket
          rw [List.mem_singleton.1 hid, hsession] at hfd
          have hnonneg := hw.client w clientFD (by rw [hpc]; rfl)
          obtain rfl : clientFD = sINVALID_SOCKET_FD := hfd
          exact absurd hnonneg (by decide)

/-- A session without a socket, without a thread in one of its methods or jobs, and without a
pending receive job has been reported. -/
def ClosedReported (s : ServerRun n κ) : Prop :=
  ∀ i, s.Added i → (s.session i).mSessionFD = sINVALID_SOCKET_FD →
    (∀ w, (s.job w).receiving ≠ some i) → (∀ k, (s.sender k).slot ≠ some i) →
      s.places (.recv i) = 0 → s.Reported i

omit [DecidableEq κ] in
lemma Watched.closedReported (hw : s.Watched) : s.ClosedReported := by
  intro i hi hfd hjob hsender hplaces
  rcases hw.handled i hi hfd with hr | ⟨-, hpos | ⟨w, hw⟩⟩ | ⟨-, t, ⟨dpc, hdpc⟩ | hfinds⟩
  · exact hr
  · exact absurd hplaces hpos.ne'
  · exact absurd hw (hjob w)
  · cases t with
    | inl w =>
      refine absurd ?_ (hjob w)
      rcases JobPC.disconnecting_eq_some.1 hdpc with hpc | hpc <;>
      · rw [hpc]
        exact rfl
    | inr k => exact absurd (SendPC.slot_of_disconnecting hdpc) (hsender k)
  · cases t with
    | inl w => cases hfinds
    | inr k =>
      obtain ⟨dpc, hpc, -⟩ := SendPC.FindsClosed.eq_doSend hfinds
      exact absurd (by rw [hpc]; rfl) (hsender k)

end ServerRun

/-- **When no session dies silently.**  In every run none of whose steps takes away the last
one that can report a closed session, every closed session that nobody has to do with any
more has been reported to the application. -/
theorem server_closedReported {n : ℕ} {κ : Type} [DecidableEq κ] (memory : ℕ → Session)
    {maxSessions : ℕ} (hmax : maxSessions < 65536) (uniqueNumber : BitVec 64)
    (listenFD : SocketFD) {as : List (RunStep n κ)}
    (has : (ServerRun.machine n κ).Along ServerRun.KeepsHandler
      (ServerRun.start n κ memory maxSessions uniqueNumber listenFD) as) :
    (ServerRun.machine n κ).Always ServerRun.ClosedReported
      (ServerRun.start n κ memory maxSessions uniqueNumber listenFD) as :=
  ServerRun.always_of_moves (fun hs hw ha h => hw.step hs ha h) (fun _ hw => hw.closedReported)
    hmax ServerRun.watched_start has

/-- A disconnection that a thread begins while the application is in `OnRecv` is reported by
the receive job. -/
theorem server_closedReported_closeInOnRecv :
    (ServerRun.machine 2 Unit).Always ServerRun.ClosedReported
      (ServerRun.start 2 Unit (fun _ => Session.zeroMemory) 2 0 3) ServerRun.closeInOnRecv :=
  server_closedReported _ (by decide) 0 3 (by decide +kernel)

/-- A thread that sends to a connected client finds its receive buffer full. -/
def ServerRun.slowClient : List (RunStep 2 Unit) :=
  ServerRun.connect ++ [.send () 0 ⟨4096, 1⟩, .sender () .run, .sender () .run, .sender () .run,
    .sender () .run, .sender () .run, .sender () .run, .sender () (.writev (.failed .EAGAIN)),
    .sender () .run, .sender () .run, .sender () .run, .sender () .run, .sender () .run]

/-- When `Disconnect` takes away the registration of an idle connection, nobody is left to
report it. -/
theorem server_closes_silently :
    ¬ (ServerRun.machine 2 Unit).Always ServerRun.ClosedReported
      (ServerRun.start 2 Unit (fun _ => Session.zeroMemory) 2 0 3) ServerRun.slowClient := by
  obtain ⟨s, hrun, ⟨hadded, hfd, hjob, hsender, hplaces⟩, hr⟩ : ∃ s ∈
      (ServerRun.machine 2 Unit).exec
        (ServerRun.start 2 Unit (fun _ => Session.zeroMemory) 2 0 3) ServerRun.slowClient,
      (s.Added 0 ∧ (s.session 0).mSessionFD = sINVALID_SOCKET_FD ∧
        (∀ w, (s.job w).receiving ≠ some 0) ∧ (∀ k, (s.sender k).slot ≠ some 0) ∧
        s.places (.recv 0) = 0) ∧ ¬ s.Reported 0 := by
    decide +kernel
  intro halways
  exact hr (halways _ s (List.prefix_refl _) hrun 0 hadded hfd hjob hsender hplaces)

end CoreServer
