import CoreServer.DeleteRun

/-!
# The registrations of the clients

A descriptor that is registered in `mEpollFD` should carry the `RecvJob` of the session that has
it as its socket.  `AcceptJob` and `RecvJob::Complete` register a descriptor that they have read
before, `AddSession` and `Disconnect` change the socket of a session.  `RegistersOwn` says when a
step of theirs does not tell the two apart, and `NeverStale` when it does so only as long as
`Disconnect` takes to delete the registration.
-/

namespace CoreServer

/-- The descriptor that `epoll_ctl` registers in a step of a job, and the slot whose `RecvJob` it
carries then. -/
def JobPC.registersFD : JobPC → JobInput → Option (SocketFD × ℤ)
  | accept (.epollAdd clientFD _ session), .epollCtl true => some (clientFD, session)
  | recv slot (.epollMod fd), .epollCtl true => some (fd, slot)
  | _, _ => Option.none

/-- The slot in which a step of a job constructs a session, and its socket. -/
def JobPC.constructs : JobPC → Option (ℤ × SocketFD)
  | accept (.construct clientFD index _) => some (index, clientFD)
  | _ => Option.none

namespace ServerMemory

variable {m m' : ServerMemory}

/-- `Disconnect` takes registrations away, and its swap takes none. -/
lemma DisconnectMoves.data {slot : ℤ} {pc : DisconnectPC} {pc' : Option DisconnectPC}
    (h : DisconnectMoves m slot pc m' pc') (fd : SocketFD) :
    m'.epoll.data fd = m.epoll.data fd ∨ (m'.epoll.data fd = none ∧ pc.removes = some fd) := by
  cases h with
  | epollDel oldFD | close oldFD =>
    by_cases hfd : fd = oldFD
    · exact Or.inr ⟨by simp [EpollSet.data_del, hfd], by rw [hfd]; rfl⟩
    · exact Or.inl (by simp [EpollSet.data_del, hfd])
  | swapValid hin hfd | swapInvalid hin hfd => exact Or.inl rfl
  | recving hin hrecving | notRecving hin hrecving => exact Or.inl rfl
  | sending hin hsending | notSending hin hsending => exact Or.inl rfl
  | onDisconnected hin => exact Or.inl rfl

/-- The registrations of the clients shrink. -/
def FewerData (m m' : ServerMemory) : Prop :=
  ∀ fd ptr, fd ≠ m.mListenFD → m'.epoll.data fd = some ptr → m.epoll.data fd = some ptr

lemma FewerData.of_epoll_eq (h : m'.epoll = m.epoll) : m.FewerData m' :=
  fun _ _ _ hdata => h ▸ hdata

lemma DisconnectMoves.fewerData {slot : ℤ} {pc : DisconnectPC} {pc' : Option DisconnectPC}
    (h : DisconnectMoves m slot pc m' pc') : m.FewerData m' := by
  intro fd ptr _ hdata
  rcases h.data fd with heq | ⟨hnone, -⟩
  · exact heq ▸ hdata
  · rw [hnone] at hdata
    cases hdata

lemma SendMoves.fewerData {pc pc' : SendPC} (h : SendMoves m pc m' pc') : m.FewerData m' := by
  have hdoSend : ∀ {slot : ℤ} {pc : DoSendPC} {pc' : Option DoSendPC},
      DoSendMoves m slot pc m' pc' → m.FewerData m' := by
    intro slot pc pc' hmoves
    cases hmoves with
    | disconnect hmoves | disconnected hmoves => exact hmoves.fewerData
    | swapEmpty hin hpackets | swap hin hpackets => exact .of_epoll_eq rfl
    | clear hin | giveUp hin => exact .of_epoll_eq rfl
    | addPackets job hin => exact .of_epoll_eq rfl
    | fdInvalid hfd | fdValid hfd => exact .of_epoll_eq rfl
    | writevArgs => exact .of_epoll_eq rfl
    | writev w hw => exact .of_epoll_eq rfl
  cases h with
  | doSend hmoves | done hmoves => exact hdoSend hmoves
  | disconnect hmoves | disconnected hmoves => exact hmoves.fewerData
  | notFound => exact .of_epoll_eq rfl
  | found hin hid hlen => exact .of_epoll_eq rfl
  | push hin => exact .of_epoll_eq rfl
  | alreadySet hin hsending | set hin hsending => exact .of_epoll_eq rfl

/-- A step of a job that is not about to register a client. -/
lemma JobMoves.fewerData {pc : JobPC} {next : Next} (h : JobMoves m pc m' next)
    (hadd : ∀ clientFD id session, pc ≠ .accept (.epollAdd clientFD id session))
    (hmod : ∀ slot fd, pc ≠ .recv slot (.epollMod fd)) : m.FewerData m' := by
  cases h with
  | complete => exact .of_epoll_eq rfl
  | poll hmoves =>
    cases hmoves with
    | fetched hwait => exact fun fd ptr _ hdata => EpollSet.data_wait hwait fd ▸ hdata
    | failed | noEvents | addEvent | addThis | returns => exact .of_epoll_eq rfl
  | accept hmoves =>
    cases hmoves with
    | registered hopen hadd' => exact absurd rfl (hadd _ _ _)
    | notRegistered => exact absurd rfl (hadd _ _ _)
    | close =>
      -- the kernel deletes the registration of a descriptor that is closed
      intro fd ptr _ hdata
      rw [epoll_close, EpollSet.data_del] at hdata
      split at hdata
      · cases hdata
      · exact hdata
    | rearmed hmod' =>
      -- `AcceptJob` arms the listening socket
      intro fd ptr hfd hdata
      rw [epoll_setEpoll, EpollSet.data_mod hmod', if_neg hfd] at hdata
      exact hdata
    | accepted hnonneg hnew => exact .of_epoll_eq rfl
    | interrupted | noClient | wanted | refused | number => exact .of_epoll_eq rfl
    | onConnected | notRearmed => exact .of_epoll_eq rfl
    | allocNone hpool | alloc hpool => exact .of_epoll_eq rfl
    | construct hin => exact .of_epoll_eq rfl
    | getSession hin hid => exact .of_epoll_eq rfl
  | recv hmoves =>
    cases hmoves with
    | rearmed hmod' => exact absurd rfl (hmod _ _)
    | notRearmed => exact absurd rfl (hmod _ _)
    | disconnect hmoves | disconnected hmoves => exact hmoves.fewerData
    | disconnectAfterMod hmoves | disconnectedAfterMod hmoves => exact hmoves.fewerData
    | fdInvalid hfd | fdValid hfd | validSocket hfd | invalidSocket hfd => exact .of_epoll_eq rfl
    | recvArgs | ended | interrupted | drained | epollModArgs => exact .of_epoll_eq rfl
    | noData hused hle => exact .of_epoll_eq rfl
    | received hin hb | onRecvReturned hin hb => exact .of_epoll_eq rfl
    | setReceiveState hin | setReceiveStateAfterMod hin => exact .of_epoll_eq rfl
    | onRecv hin hused hpos => exact .of_epoll_eq rfl

/-- **What a step of a job registers.**  It registers one descriptor of a client, and changes no
session then, or none. -/
theorem jobStep_data {pc : JobPC} {input : JobInput} {next : Next}
    (h : m.jobStep pc input = some (m', next)) :
    (∃ fd slot, pc.registersFD input = some (fd, slot) ∧ m'.group = m.group ∧
      ∀ fd', m'.epoll.data fd' = if fd' = fd then some (.recv slot) else m.epoll.data fd') ∨
    (pc.registersFD input = none ∧ m.FewerData m') := by
  by_cases hadd : ∃ clientFD id session, pc = .accept (.epollAdd clientFD id session)
  · obtain ⟨clientFD, id, session, rfl⟩ := hadd
    cases input with
    | epollCtl ok =>
      obtain ⟨m'', hadd, h⟩ := Option.bind_eq_some_iff.1 h
      obtain ⟨rfl, rfl⟩ := Prod.mk.inj (Option.some.inj h)
      cases ok with
      | true =>
        obtain ⟨-, hadd⟩ := Option.ite_none_right_eq_some.1 hadd
        obtain ⟨epoll, hepoll, hadd⟩ := Option.bind_eq_some_iff.1 hadd
        obtain rfl := Option.some.inj hadd
        exact Or.inl ⟨clientFD, session, rfl, rfl, EpollSet.data_add hepoll⟩
      | false =>
        obtain rfl := Option.some.inj hadd
        exact Or.inr ⟨rfl, .of_epoll_eq rfl⟩
    | _ => cases h
  · by_cases hmod : ∃ slot fd, pc = .recv slot (.epollMod fd)
    · obtain ⟨slot, fd, rfl⟩ := hmod
      cases input with
      | epollCtl ok =>
        obtain ⟨m'', hmod, h⟩ := Option.bind_eq_some_iff.1 h
        obtain ⟨rfl, rfl⟩ := Prod.mk.inj (Option.some.inj h)
        cases ok with
        | true =>
          obtain ⟨epoll, hepoll, hmod⟩ := Option.bind_eq_some_iff.1 hmod
          obtain rfl := Option.some.inj hmod
          exact Or.inl ⟨fd, slot, rfl, rfl, EpollSet.data_mod hepoll⟩
        | false =>
          obtain rfl := Option.some.inj hmod
          exact Or.inr ⟨rfl, .of_epoll_eq rfl⟩
      | _ => cases h
    · refine Or.inr ⟨?_, (jobMoves_of_step h).fewerData
        (fun clientFD id session heq => hadd ⟨clientFD, id, session, heq⟩)
        fun slot fd heq => hmod ⟨slot, fd, heq⟩⟩
      unfold JobPC.registersFD
      split
      · exact absurd ⟨_, _, _, rfl⟩ hadd
      · exact absurd ⟨_, _, rfl⟩ hmod
      · rfl

/-- A step that constructs a session registers nothing. -/
lemma JobMoves.of_constructs {pc : JobPC} {next : Next} (h : JobMoves m pc m' next) {i : ℤ}
    {fd : SocketFD} (hpc : pc.constructs = some (i, fd)) :
    m'.epoll = m.epoll ∧ (m'.session i).mSessionFD = fd := by
  unfold JobPC.constructs at hpc
  split at hpc
  · obtain ⟨rfl, rfl⟩ := Prod.mk.inj (Option.some.inj hpc)
    cases h with
    | accept hmoves =>
      cases hmoves with
      | construct hin =>
        refine ⟨rfl, ?_⟩
        rw [session_updateSession_self hin.1]
        rfl
  · cases hpc

/-- The swap of `Disconnect` leaves the registration where it is. -/
lemma DisconnectMoves.of_swap {slot : ℤ} {pc' : Option DisconnectPC}
    (h : DisconnectMoves m slot .swap m' pc') :
    m'.epoll = m.epoll ∧ (m'.session slot).mSessionFD = sINVALID_SOCKET_FD := by
  cases h with
  | swapValid hin hfd | swapInvalid hin hfd =>
    refine ⟨rfl, ?_⟩
    rw [session_updateSession_self hin.1]
    rfl

/-- The listening socket stays the same. -/
lemma JobMoves.mListenFD_eq {pc : JobPC} {next : Next} (h : JobMoves m pc m' next) :
    m'.mListenFD = m.mListenFD := by
  cases h with
  | poll hmoves => cases hmoves <;> rfl
  | accept hmoves => cases hmoves <;> rfl
  | complete => rfl
  | recv hmoves =>
    cases hmoves with
    | disconnect hmoves | disconnected hmoves => exact hmoves.shrinks.mListenFD_eq
    | disconnectAfterMod hmoves | disconnectedAfterMod hmoves => exact hmoves.shrinks.mListenFD_eq
    | _ => rfl

end ServerMemory

namespace ServerRun

variable {n : ℕ} {κ : Type} {s s' : ServerRun n κ}

/-- The descriptor that a step registers, and the slot whose `RecvJob` it carries then. -/
def registersFD (s : ServerRun n κ) : RunStep n κ → Option (SocketFD × ℤ)
  | .job w input => (s.job w).registersFD input
  | _ => none

/-- The slot in which a step constructs a session, and its socket. -/
def constructs (s : ServerRun n κ) : RunStep n κ → Option (ℤ × SocketFD)
  | .job w _ => (s.job w).constructs
  | _ => none

/-- The session from which a step of `Disconnect` takes the socket. -/
def swaps (s : ServerRun n κ) (a : RunStep n κ) : Option ℤ :=
  a.thread.bind fun t => (s.disconnecting t).bind fun p => if p.2 = .swap then some p.1 else none

/-- The session in whose `Disconnect` a thread is about to take a registration away, and the
descriptor. -/
def removing (s : ServerRun n κ) (t : Fin n ⊕ κ) : Option (ℤ × SocketFD) :=
  (s.disconnecting t).bind fun p => p.2.removes.map fun fd => (p.1, fd)

lemma swaps_eq_some {a : RunStep n κ} {i : ℤ} :
    s.swaps a = some i ↔ ∃ t, a.thread = some t ∧ s.disconnecting t = some (i, .swap) := by
  constructor
  · intro h
    obtain ⟨t, ha, h⟩ := Option.bind_eq_some_iff.1 h
    obtain ⟨⟨i', pc⟩, ht, h⟩ := Option.bind_eq_some_iff.1 h
    obtain ⟨hpc, h⟩ := Option.ite_none_right_eq_some.1 h
    obtain rfl := Option.some.inj h
    obtain rfl : pc = .swap := hpc
    exact ⟨t, ha, ht⟩
  · rintro ⟨t, ha, ht⟩
    rw [swaps, ha, Option.bind_some, ht, Option.bind_some, if_pos rfl]

lemma removing_eq_some {t : Fin n ⊕ κ} {i : ℤ} {fd : SocketFD} : s.removing t = some (i, fd) ↔
    ∃ pc, s.disconnecting t = some (i, pc) ∧ pc.removes = some fd := by
  constructor
  · intro h
    obtain ⟨⟨i', pc⟩, ht, h⟩ := Option.bind_eq_some_iff.1 h
    obtain ⟨fd', hpc, h⟩ := Option.map_eq_some_iff.1 h
    obtain ⟨rfl, rfl⟩ := Prod.mk.inj h
    exact ⟨pc, ht, hpc⟩
  · rintro ⟨pc, ht, hpc⟩
    rw [removing, ht, Option.bind_some, hpc, Option.map_some]

variable [DecidableEq κ] {a : RunStep n κ}

lemma RunMoves.mListenFD_eq (h : s.RunMoves s' a) :
    s'.memory.mListenFD = s.memory.mListenFD := by
  cases h with
  | quietPool h | quietStart h => exact h.mListenFD_eq
  | send hadded h | disconnect hadded h => rw [memory, h.server_eq]
  | job h => exact h.moves.mListenFD_eq
  | sender h => exact h.moves.shrinks.mListenFD_eq

omit [DecidableEq κ] in
/-- The receive job that a step registers is the one of a session that has been added. -/
lemma Rooted.added_of_registersFD (hs : s.Rooted) {fd : SocketFD} {slot : ℤ}
    (h : s.registersFD a = some (fd, slot)) : s.Added slot := by
  unfold registersFD at h
  split at h
  · rename_i w input
    have hpointer := hs.pointer w
    have hconnecting := hs.connecting w
    have hrunning := hs.running w
    generalize s.job w = pc at h hpointer hconnecting hrunning
    unfold JobPC.registersFD at h
    split at h
    · obtain ⟨rfl, rfl⟩ := Prod.mk.inj (Option.some.inj h)
      exact ⟨_, hconnecting _ rfl, hpointer.symm⟩
    · obtain ⟨rfl, rfl⟩ := Prod.mk.inj (Option.some.inj h)
      exact hrunning _ _ rfl
    · cases h
  · cases h

/-- **What a step registers.** -/
theorem step_data (hs : s.Rooted) (hstep : s.step a = some s') :
    (∃ fd slot, s.registersFD a = some (fd, slot) ∧ s'.memory.group = s.memory.group ∧
      ∀ fd', s'.memory.epoll.data fd' =
        if fd' = fd then some (.recv slot) else s.memory.epoll.data fd') ∨
    (s.registersFD a = none ∧ s.memory.FewerData s'.memory) := by
  have hmoves := runMoves_of_step hs.steady hstep
  have hquiet : s.Quiet s' → s.memory.FewerData s'.memory := by
    intro h fd ptr hfd hdata
    rcases h.epoll_eq with heq | hadd
    · exact heq ▸ hdata
    · rwa [EpollSet.data_add hadd, if_neg hfd] at hdata
  have hcall : ∀ {k pc}, s.CallMove s' k pc → s.memory.FewerData s'.memory := fun h =>
    .of_epoll_eq (by rw [memory, h.server_eq])
  cases hmoves with
  | quietPool h | quietStart h => exact Or.inr ⟨rfl, hquiet h⟩
  | send hadded h | disconnect hadded h => exact Or.inr ⟨rfl, hcall h⟩
  | sender h => exact Or.inr ⟨rfl, h.moves.fewerData⟩
  | job _ =>
    obtain ⟨next, hjob⟩ := jobStep_of_step hstep
    exact ServerMemory.jobStep_data hjob

/-- **How a step changes the socket of a session.**  It constructs a session with its socket, or
takes the socket away. -/
theorem RunMoves.mSessionFD_change (h : s.RunMoves s' a) {i : ℤ} (hi : 0 ≤ i) :
    (s'.session i).mSessionFD = (s.session i).mSessionFD ∨
      s.constructs a = some (i, (s'.session i).mSessionFD) ∨
      ((s'.session i).mSessionFD = sINVALID_SOCKET_FD ∧
        ∃ t, a.thread = some t ∧ s.disconnecting t = some (i, .swap)) := by
  cases h with
  | quietPool h | quietStart h => exact Or.inl (by rw [h.session_eq])
  | send hadded h | disconnect hadded h => exact Or.inl (by rw [h.session_eq])
  | @sender k input pc h =>
    exact (h.mSessionFD hi).imp_right fun ⟨hfd, hpc⟩ => Or.inr ⟨hfd, .inr k, rfl, hpc⟩
  | @job w input next h =>
    have hchange := h.moves.session hi
    have hconstructs : s.constructs (.job w input) = (s.job w).constructs := rfl
    have hthread : s.disconnecting (.inl w) = (s.job w).disconnecting := rfl
    rw [hconstructs, session, session]
    generalize s'.memory.session i = t at hchange ⊢
    generalize s.job w = pc at hchange hthread ⊢
    cases hchange with
    | construct clientFD id => exact Or.inr (Or.inl rfl)
    | takeFD hpc => exact Or.inr (Or.inr ⟨rfl, .inl w, rfl, hthread.trans hpc⟩)
    | same => exact Or.inl rfl
    | setRecvBuffer b => exact Or.inl rfl
    | setReceiveState hpc => exact Or.inl rfl

/-- The thread that moves in `Disconnect`. -/
lemma RunMoves.of_thread (h : s.RunMoves s' a) {t : Fin n ⊕ κ} (ha : a.thread = some t) {i : ℤ}
    {dpc : DisconnectPC} (ht : s.disconnecting t = some (i, dpc)) :
    ∃ dpc', ServerMemory.DisconnectMoves s.memory i dpc s'.memory dpc' ∧
      s'.disconnecting t = dpc'.map fun dpc' => (i, dpc') := by
  cases h with
  | job h =>
    obtain rfl := Option.some.inj ha
    rw [disconnecting, h.job_self]
    exact h.moves.of_disconnecting ht
  | sender h =>
    obtain rfl := Option.some.inj ha
    rw [disconnecting, h.sender_self]
    exact h.moves.of_disconnecting ht
  | quietPool h | quietStart h => cases ha
  | send hadded h | disconnect hadded h => cases ha

/-! ## Registrations of the sessions -/

omit [DecidableEq κ] in
/-- Every client that is registered carries the receive job of the session whose socket it is. -/
def Matched (s : ServerRun n κ) : Prop :=
  ∀ fd ptr, s.memory.epoll.data fd = some ptr → fd ≠ s.memory.mListenFD →
    ∃ i, ptr = .recv i ∧ s.Added i ∧ (s.session i).mSessionFD = fd

/-- A step registers a client for the session whose socket it is, constructs a session in a slot
for which no other client is registered, and takes the socket of a session for which none is. -/
def RegistersOwn (s : ServerRun n κ) (a : RunStep n κ) : Prop :=
  (s.step a).isSome →
    (∀ p ∈ s.registersFD a, p.1 ≠ s.memory.mListenFD → (s.session p.2).mSessionFD = p.1) ∧
    (∀ p ∈ s.constructs a, ∀ fd ∈ s.memory.epoll.fds (.recv p.1),
      fd ≠ s.memory.mListenFD → fd = p.2) ∧
    (∀ i ∈ s.swaps a, ∀ fd ∈ s.memory.epoll.fds (.recv i),
      fd ≠ s.memory.mListenFD → fd = sINVALID_SOCKET_FD)

instance (s : ServerRun n κ) (a : RunStep n κ) : Decidable (s.RegistersOwn a) :=
  inferInstanceAs (Decidable (_ → _ ∧ _ ∧ _))

omit [DecidableEq κ] in
lemma matched_start {memory : ℕ → Session} {maxSessions : ℕ} {uniqueNumber : BitVec 64}
    {listenFD : SocketFD} : (start n κ memory maxSessions uniqueNumber listenFD).Matched := by
  intro fd ptr hdata
  cases hdata

/-- **One step.** -/
theorem Matched.step (hs : s.Rooted) (hmatched : s.Matched) (ha : s.RegistersOwn a)
    (h : s.step a = some s') : s'.Matched := by
  have hmoves := runMoves_of_step hs.steady h
  obtain ⟨hregisters, hconstructs, hswaps⟩ := ha (by rw [h]; rfl)
  intro fd ptr hdata hfd
  rw [hmoves.mListenFD_eq] at hfd
  -- a registration that was there before
  have hkept : s.memory.epoll.data fd = some ptr →
      ∃ i, ptr = .recv i ∧ s'.Added i ∧ (s'.session i).mSessionFD = fd := by
    intro hdata
    obtain ⟨i, rfl, hi, hsocket⟩ := hmatched fd ptr hdata hfd
    refine ⟨i, rfl, hi.of_subset hmoves.subset, ?_⟩
    have hmem := EpollSet.mem_fds.2 hdata
    rcases hmoves.mSessionFD_change hi.nonneg with heq | hnew | ⟨hinvalid, t, ht, hpc⟩
    · exact heq.trans hsocket
    · exact (hconstructs _ hnew fd hmem hfd).symm
    · exact hinvalid.trans (hswaps i (swaps_eq_some.2 ⟨t, ht, hpc⟩) fd hmem hfd).symm
  rcases step_data hs h with ⟨fd', slot, hreg, hgroup, hall⟩ | ⟨-, hfewer⟩
  · rw [hall fd] at hdata
    split at hdata
    · rename_i heq
      subst heq
      obtain rfl := Option.some.inj hdata
      refine ⟨slot, rfl, (hs.added_of_registersFD hreg).of_subset hmoves.subset, ?_⟩
      rw [session, ServerMemory.session_of_group_eq hgroup]
      exact hregisters _ hreg hfd
    · exact hkept hdata
  · exact hkept (hfewer fd ptr hfd hdata)

/-- **The converse.**  Only such a step leads to a state in which every client is registered for
the session whose socket it is. -/
theorem Matched.registersOwn (hs : s.Rooted) (h : s.step a = some s') (hmatched : s'.Matched) :
    s.RegistersOwn a := by
  have hmoves := runMoves_of_step hs.steady h
  have hlisten := hmoves.mListenFD_eq
  have hsocket : ∀ {i fd}, s'.memory.epoll.data fd = some (.recv i) →
      fd ≠ s.memory.mListenFD → (s'.session i).mSessionFD = fd := by
    intro i fd hdata hfd
    obtain ⟨i', hptr, -, hsocket⟩ := hmatched fd _ hdata (hlisten ▸ hfd)
    rw [ServerJob.recv.inj hptr, hsocket]
  intro _
  refine ⟨?_, ?_, ?_⟩
  · rintro ⟨fd, slot⟩ hreg hfd
    rcases step_data hs h with ⟨fd', slot', hreg', hgroup, hall⟩ | ⟨hnone, -⟩
    · obtain ⟨rfl, rfl⟩ := Prod.mk.inj (Option.some.inj (hreg'.symm.trans hreg))
      have hnew := hsocket ((hall fd').trans (if_pos rfl)) hfd
      rwa [session, ServerMemory.session_of_group_eq hgroup] at hnew
    · rw [hnone] at hreg
      cases hreg
  · rintro ⟨i, clientFD⟩ hnew fd hmem hfd
    cases hmoves with
    | job hmove =>
      obtain ⟨hepoll, hclient⟩ := hmove.moves.of_constructs hnew
      have hold := hsocket (hepoll ▸ EpollSet.mem_fds.1 hmem) hfd
      exact hold.symm.trans hclient
    | quietPool hmove | quietStart hmove => cases hnew
    | send hadded hmove | disconnect hadded hmove => cases hnew
    | sender hmove => cases hnew
  · intro i hswap fd hmem hfd
    obtain ⟨t, ha, ht⟩ := swaps_eq_some.1 hswap
    obtain ⟨dpc', hdisconnect, -⟩ := hmoves.of_thread ha ht
    obtain ⟨hepoll, hinvalid⟩ := hdisconnect.of_swap
    have hold := hsocket (hepoll ▸ EpollSet.mem_fds.1 hmem) hfd
    exact hold.symm.trans hinvalid

/-! ## Registrations that are about to be taken away -/

omit [DecidableEq κ] in
/-- Every client that is registered carries the receive job of the session whose socket it is, or
from which a thread in `Disconnect` has taken this socket and is about to delete the
registration. -/
def MatchedOrClosing (s : ServerRun n κ) : Prop :=
  ∀ fd ptr, s.memory.epoll.data fd = some ptr → fd ≠ s.memory.mListenFD →
    ∃ i, ptr = .recv i ∧ s.Added i ∧
      ((s.session i).mSessionFD = fd ∨ ∃ t, s.removing t = some (i, fd))

omit [DecidableEq κ] in
lemma Matched.orClosing (hmatched : s.Matched) : s.MatchedOrClosing := by
  intro fd ptr hdata hfd
  obtain ⟨i, hptr, hi, hsocket⟩ := hmatched fd ptr hdata hfd
  exact ⟨i, hptr, hi, Or.inl hsocket⟩

/-- A step registers a client for the session whose socket it is, or for one in whose
`Disconnect` a thread is about to delete the registration, and constructs a session in a slot
only if all other clients that are registered for it are about to be deleted. -/
def NeverStale (s : ServerRun n κ) (a : RunStep n κ) : Prop :=
  (s.step a).isSome →
    (∀ p ∈ s.registersFD a, p.1 ≠ s.memory.mListenFD →
      (s.session p.2).mSessionFD = p.1 ∨ ∃ t, s.removing t = some (p.2, p.1)) ∧
    (∀ p ∈ s.constructs a, ∀ fd ∈ s.memory.epoll.fds (.recv p.1), fd ≠ s.memory.mListenFD →
      fd = p.2 ∨ ∃ t, s.removing t = some (p.1, fd))

instance [Fintype κ] (s : ServerRun n κ) (a : RunStep n κ) : Decidable (s.NeverStale a) :=
  inferInstanceAs (Decidable (_ → _ ∧ _))

omit [DecidableEq κ] in
lemma matchedOrClosing_start {memory : ℕ → Session} {maxSessions : ℕ} {uniqueNumber : BitVec 64}
    {listenFD : SocketFD} :
    (start n κ memory maxSessions uniqueNumber listenFD).MatchedOrClosing := by
  intro fd ptr hdata
  cases hdata

/-- A thread that is about to take a registration away still is after a step, or has done it. -/
lemma RunMoves.removing (h : s.RunMoves s' a) {t : Fin n ⊕ κ} {i : ℤ} {fd : SocketFD}
    (ht : s.removing t = some (i, fd)) :
    s'.removing t = some (i, fd) ∨ s'.memory.epoll.data fd = none := by
  obtain ⟨pc, hpc, hremoves⟩ := removing_eq_some.1 ht
  rcases h.of_disconnecting hpc with heq | ⟨pc', hmoves, -⟩
  · exact Or.inl (removing_eq_some.2 ⟨pc, heq, hremoves⟩)
  · right
    unfold DisconnectPC.removes at hremoves
    generalize s'.memory = m' at hmoves
    split at hremoves
    · obtain rfl := Option.some.inj hremoves
      cases hmoves with
      | epollDel => exact (EpollSet.data_del _ _).trans (if_pos rfl)
    · obtain rfl := Option.some.inj hremoves
      cases hmoves with
      | close => exact (EpollSet.data_del _ _).trans (if_pos rfl)
    · cases hremoves

/-- A thread that takes the socket of a session deletes its registration next. -/
lemma RunMoves.removing_of_swap (h : s.RunMoves s' a) {t : Fin n ⊕ κ} (ha : a.thread = some t)
    {i : ℤ} (ht : s.disconnecting t = some (i, .swap)) :
    (s.session i).mSessionFD = sINVALID_SOCKET_FD ∨
      s'.removing t = some (i, (s.session i).mSessionFD) := by
  obtain ⟨dpc', hmoves, hnext⟩ := h.of_thread ha ht
  generalize s'.memory = m' at hmoves
  cases hmoves with
  | swapValid hin hfd => exact Or.inr (removing_eq_some.2 ⟨_, hnext, rfl⟩)
  | swapInvalid hin hfd => exact Or.inl hfd

/-- **One step.** -/
theorem MatchedOrClosing.step (hs : s.Rooted) (hmatched : s.MatchedOrClosing)
    (ha : s.NeverStale a) (h : s.step a = some s') : s'.MatchedOrClosing := by
  have hmoves := runMoves_of_step hs.steady h
  obtain ⟨hregisters, hconstructs⟩ := ha (by rw [h]; rfl)
  intro fd ptr hdata' hfd
  rw [hmoves.mListenFD_eq] at hfd
  -- a registration that was to be taken away, and still is there
  have hremoving : ∀ {i}, (∃ t, s.removing t = some (i, fd)) →
      ∃ t, s'.removing t = some (i, fd) := by
    rintro i ⟨t, ht⟩
    refine ⟨t, (hmoves.removing ht).resolve_right fun hnone => ?_⟩
    rw [hnone] at hdata'
    cases hdata'
  -- a registration that was there before
  have hkept : s.memory.epoll.data fd = some ptr → ∃ i, ptr = .recv i ∧ s'.Added i ∧
      ((s'.session i).mSessionFD = fd ∨ ∃ t, s'.removing t = some (i, fd)) := by
    intro hdata
    obtain ⟨i, rfl, hi, hsocket⟩ := hmatched fd ptr hdata hfd
    refine ⟨i, rfl, hi.of_subset hmoves.subset, ?_⟩
    rcases hsocket with hsocket | hsocket
    · rcases hmoves.mSessionFD_change hi.nonneg with heq | hnew | ⟨hinvalid, t, ht, hpc⟩
      · exact Or.inl (heq.trans hsocket)
      · exact (hconstructs _ hnew fd (EpollSet.mem_fds.2 hdata) hfd).imp Eq.symm hremoving
      · rcases hmoves.removing_of_swap ht hpc with hnone | hnext
        · exact Or.inl (hinvalid.trans (hnone.symm.trans hsocket))
        · exact Or.inr ⟨t, hsocket ▸ hnext⟩
    · exact Or.inr (hremoving hsocket)
  rcases step_data hs h with ⟨fd', slot, hreg, hgroup, hall⟩ | ⟨-, hfewer⟩
  · by_cases heq : fd = fd'
    · subst heq
      have hptr := hdata'
      rw [hall fd, if_pos rfl] at hptr
      obtain rfl := Option.some.inj hptr
      refine ⟨slot, rfl, (hs.added_of_registersFD hreg).of_subset hmoves.subset, ?_⟩
      rw [session, ServerMemory.session_of_group_eq hgroup]
      exact (hregisters _ hreg hfd).imp_right hremoving
    · rw [hall fd, if_neg heq] at hdata'
      exact hkept hdata'
  · exact hkept (hfewer fd ptr hfd hdata')

/-- The first worker ends its round, fetches the event of the listening socket, and accepts a
client on the descriptor 7, up to its registration. -/
def acceptAgain : List (RunStep 2 κ) :=
  [.job 0 .run, .job 0 .run, .pool (.addPush (.inl 0)), .pool (.addTest (.inl 0)), .job 0 .run,
    .job 0 .run, .pool (.loop 0), .pool (.pop 0), .job 0 (.epollWait (.events [3])), .job 0 .run,
    .pool (.addPush (.inl 0)), .pool (.addTest (.inl 0)), .job 0 .run, .job 0 .run,
    .pool (.addPush (.inl 0)), .pool (.addTest (.inl 0)), .job 0 .run, .job 0 .run,
    .pool (.loop 0), .pool (.pop 0), .job 0 (.accept (.accepted 7)), .job 0 (.onAccepeted true),
    .job 0 .run, .job 0 .run, .job 0 .run, .job 0 .run, .job 0 (.epollCtl true)]

/-- The peer closes the connection, its session is deleted, and a new client gets its slot and its
descriptor number. -/
def reuse : List (DeleteStep 2 Unit Unit) :=
  close.map .run ++ [.delete () 0, .deleter (), .deleter ()] ++ acceptAgain.map .run

/-- `RecvJob::Complete` has read the descriptor 7 when a thread disconnects the session; a new
client gets the number, and is registered, before `epoll_ctl(EPOLL_CTL_MOD)`. -/
def rearmReused : List (RunStep 2 Unit) :=
  receive ++ [.job 1 (.recv (.failed .EAGAIN)), .job 1 .run, .job 1 .run, .disconnect () 0,
    .sender () .run, .sender () .run, .sender () .run] ++ acceptAgain ++ [.job 1 (.epollCtl true)]

end ServerRun

namespace DeleteRun

variable {n : ℕ} {κ δ : Type} [DecidableEq κ] [DecidableEq δ]

/-- The steps of the server satisfy `G`. -/
def OnRun (G : ServerRun n κ → RunStep n κ → Prop) (s : DeleteRun n κ δ) :
    DeleteStep n κ δ → Prop
  | .run a => G s.run a
  | .delete _ _ | .deleter _ => True

instance (G : ServerRun n κ → RunStep n κ → Prop) [∀ s a, Decidable (G s a)]
    (s : DeleteRun n κ δ) : ∀ a, Decidable (s.OnRun G a)
  | .run _ => inferInstanceAs (Decidable (G _ _))
  | .delete _ _ | .deleter _ => inferInstanceAs (Decidable True)

/-- **The invariant rule** for what is kept by the steps of the server that satisfy `G`, and by
the deletion of sessions. -/
theorem always_of_run {P : ServerRun n κ → Prop} {G : ServerRun n κ → RunStep n κ → Prop}
    (hrun : ∀ {r r' a}, r.Rooted → P r → G r a → r.step a = some r' → P r')
    (hfree : ∀ {r index}, P r → P (ServerRun.freeSession r index)) {memory : ℕ → Session}
    {maxSessions : ℕ} (hmax : maxSessions < 65536) {uniqueNumber : BitVec 64}
    {listenFD : SocketFD}
    (hstart : P (ServerRun.start n κ memory maxSessions uniqueNumber listenFD))
    {as : List (DeleteStep n κ δ)} (h : (machine n κ δ).Along (OnRun G)
      (start n κ δ memory maxSessions uniqueNumber listenFD) as) :
    (machine n κ δ).Always (fun s => P s.run)
      (start n κ δ memory maxSessions uniqueNumber listenFD) as := by
  refine StepMachine.always_of_along (I := fun s => s.run.Rooted ∧ P s.run) ?_
    (fun s hs => hs.2) ⟨ServerRun.rooted_start hmax, hstart⟩ h
  rintro s a s' ⟨hs, hP⟩ hG hstep
  refine ⟨rooted_step hs hstep, ?_⟩
  cases moves_of_step hs hstep with
  | run hmoves hmove => exact hrun hs hP hG hmove
  | call heq | check heq => exact heq ▸ hP
  | free index heq => exact heq ▸ hfree hP

end DeleteRun

/-- **When the registrations match the sessions.**  In a server with any number of threads that
send, disconnect and delete sessions, every client that is registered carries the receive job of
the session whose socket it is, throughout a run, if and only if every step registers its own.
If no step is stale, a registration that does not match is one that a thread in `Disconnect` is
about to delete. -/
theorem server_registrationsMatch {n : ℕ} {κ δ : Type} [DecidableEq κ] [DecidableEq δ]
    (memory : ℕ → Session) {maxSessions : ℕ} (hmax : maxSessions < 65536)
    (uniqueNumber : BitVec 64) (listenFD : SocketFD) (as : List (DeleteStep n κ δ)) :
    ((DeleteRun.machine n κ δ).Always (fun s => s.run.Matched)
        (DeleteRun.start n κ δ memory maxSessions uniqueNumber listenFD) as ↔
      (DeleteRun.machine n κ δ).Along (DeleteRun.OnRun ServerRun.RegistersOwn)
        (DeleteRun.start n κ δ memory maxSessions uniqueNumber listenFD) as) ∧
    ((DeleteRun.machine n κ δ).Along (DeleteRun.OnRun ServerRun.NeverStale)
        (DeleteRun.start n κ δ memory maxSessions uniqueNumber listenFD) as →
      (DeleteRun.machine n κ δ).Always (fun s => s.run.MatchedOrClosing)
        (DeleteRun.start n κ δ memory maxSessions uniqueNumber listenFD) as) := by
  refine ⟨⟨fun h => ?_, DeleteRun.always_of_run ServerRun.Matched.step id hmax
    ServerRun.matched_start⟩, DeleteRun.always_of_run ServerRun.MatchedOrClosing.step id hmax
    ServerRun.matchedOrClosing_start⟩
  refine StepMachine.along_of_always (I := fun s => s.run.Rooted)
    (fun s a s' hs hstep => DeleteRun.rooted_step hs hstep) ?_ ?_ (ServerRun.rooted_start hmax) h
  · intro s a s' hs hstep hmatched
    cases DeleteRun.moves_of_step hs hstep with
    | run hmoves hrun => exact hmatched.registersOwn hs hrun
    | call heq | check heq | free index heq => trivial
  · intro s a hnone
    cases a with
    | run a =>
      -- a step that cannot be taken registers nothing
      intro hsome
      obtain ⟨run, hrun⟩ := Option.isSome_iff_exists.1 hsome
      have hstep : s.step (.run a) = some { s with run := run } :=
        Option.bind_eq_some_iff.2 ⟨run, hrun, rfl⟩
      cases hstep.symm.trans hnone
    | delete d sessionID => trivial
    | deleter d => trivial

/-- Two runs in which the registrations match: in the second one, a slot and a descriptor number
are used again. -/
theorem server_registrationsMatch_reuse :
    (DeleteRun.machine 2 Unit Unit).Always (fun s => s.run.Matched)
      (DeleteRun.start 2 Unit Unit (fun _ => Session.zeroMemory) 2 0 3)
      (ServerRun.receive.map .run) ∧
    (DeleteRun.machine 2 Unit Unit).Always (fun s => s.run.MatchedOrClosing)
      (DeleteRun.start 2 Unit Unit (fun _ => Session.zeroMemory) 2 0 3) ServerRun.reuse :=
  ⟨(server_registrationsMatch _ (by decide) 0 3 (ServerRun.receive.map .run)).1.2
      (by decide +kernel),
    (server_registrationsMatch _ (by decide) 0 3 ServerRun.reuse).2 (by decide +kernel)⟩

/-- The new client is registered for the session that the peer has left, whose socket it is
not, and nobody is about to delete the registration. -/
theorem server_rearms_reused_descriptor :
    ¬ (DeleteRun.machine 2 Unit Unit).Always (fun s => s.run.Matched)
      (DeleteRun.start 2 Unit Unit (fun _ => Session.zeroMemory) 2 0 3)
      (ServerRun.rearmReused.map .run) ∧
    ¬ (DeleteRun.machine 2 Unit Unit).Always (fun s => s.run.MatchedOrClosing)
      (DeleteRun.start 2 Unit Unit (fun _ => Session.zeroMemory) 2 0 3)
      (ServerRun.rearmReused.map .run) := by
  obtain ⟨s, hrun, hdata, hlisten, hsocket⟩ : ∃ s ∈ (DeleteRun.machine 2 Unit Unit).exec
      (DeleteRun.start 2 Unit Unit (fun _ => Session.zeroMemory) 2 0 3)
      (ServerRun.rearmReused.map .run),
      s.run.memory.epoll.data 7 = some (.recv 0) ∧ 7 ≠ s.run.memory.mListenFD ∧
        (s.run.session 0).mSessionFD ≠ 7 ∧ ∀ t, s.run.removing t ≠ some (0, 7) := by
    decide +kernel
  have hnot : ¬ s.run.MatchedOrClosing := by
    intro hmatched
    obtain ⟨i, hptr, -, hclosing⟩ := hmatched 7 _ hdata hlisten
    obtain rfl := ServerJob.recv.inj hptr
    rcases hclosing with hfd | ⟨t, ht⟩
    · exact hsocket.1 hfd
    · exact hsocket.2 t ht
  exact ⟨fun halways => hnot (halways _ s (List.prefix_refl _) hrun).orClosing,
    fun halways => hnot (halways _ s (List.prefix_refl _) hrun)⟩

end CoreServer
