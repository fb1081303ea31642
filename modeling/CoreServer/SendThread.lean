import CoreServer.ServerMoves
import CoreServer.Network.SendStream

/-!
# The threads that send

Where a thread stands in `Server::Send`, `Session::Send` and `Session::DoSend`, or in a
`Session::Disconnect` that it has called itself (`Server.cpp`, `Network/Session.cpp`), one
place for each access of memory or of the kernel that other threads can see, and what one
step does.  The registrations of the send epoll are left out, as no job polls it.
-/

namespace CoreServer

/-- The number of bytes that Linux transfers at most in one `writev`. -/
def sMAX_RW_COUNT : ℕ := 0x7ffff000

/-- Where a thread stands in `Session::DoSend`.  `failed` holds the packets of a `writev`
that has failed with an error after which the code goes on behind `Disconnect`. -/
inductive DoSendPC where
  /-- Before `sendPackets.swap(mPackets)`, under `mPacketMutex`. -/
  | swap
  /-- Before `mSessionFD == sINVALID_SOCKET_FD`. -/
  | checkFD (sendPackets : List IoVec)
  /-- Before `mSessionFD` in the arguments of `writev`. -/
  | writevArgs (sendPackets : List IoVec)
  /-- Before `writev`. -/
  | writev (sendPackets : List IoVec) (fd : SocketFD)
  /-- Before `mIsSending = false` and `return`. -/
  | clear
  /-- Before `mIsSending = false` and `Disconnect`. -/
  | giveUp (failed : Option (List IoVec))
  /-- In `Disconnect`. -/
  | disconnect (pc : DisconnectPC) (failed : Option (List IoVec))
  /-- Before `mSendJob.Reset()`. -/
  | addPackets (sendPackets : List IoVec) (result : ℤ)
deriving DecidableEq, Repr

/-- Where a thread stands in `Server::Send`, `Session::Send` or `Session::Disconnect`. -/
inductive SendPC where
  /-- Not sending. -/
  | idle
  /-- In `Server::Send`, before `GetSession`. -/
  | getSession (sessionID : SessionID) (packet : IoVec)
  /-- In `Session::Send`, before `mPackets.emplace_back`, under `mPacketMutex`. -/
  | push (slot : ℤ) (packet : IoVec)
  /-- Before `__sync_lock_test_and_set(&mIsSending, true)`. -/
  | testAndSet (slot : ℤ)
  /-- In `DoSend`. -/
  | doSend (slot : ℤ) (pc : DoSendPC)
  /-- In a `Disconnect` that the thread has called itself. -/
  | disconnect (slot : ℤ) (pc : DisconnectPC)
deriving DecidableEq, Repr

/-- What the kernel answers in a step of a thread that sends. -/
inductive SendInput where
  | run
  | writev (result : WritevResult)
deriving DecidableEq, Repr

/-- Where `DoSend` goes on after `writev`. -/
def DoSendPC.afterWritev (sendPackets : List IoVec) (w : WritevResult) : DoSendPC :=
  let result := toInt32 w.value
  if result < 0 then
    match w.errno with
    | .EAGAIN => giveUp none
    | .EINTR => checkFD sendPackets
    | _ => giveUp (some sendPackets)
  else if result = SendRun.totalSendBytes sendPackets then clear
  else addPackets sendPackets result

/-- Where `DoSend` goes on after `Disconnect`: it has returned, or goes on with the result -1
of a failed `writev`. -/
def DoSendPC.afterDisconnect : Option (List IoVec) → Option DoSendPC
  | none => none
  | some sendPackets =>
    if -1 = SendRun.totalSendBytes sendPackets then some clear
    else some (addPackets sendPackets (-1))

/-- After `writev` a thread gives up, tries again, is done, or keeps the rest of its batch. -/
lemma DoSendPC.afterWritev_cases (sendPackets : List IoVec) (w : WritevResult) :
    (∃ failed, afterWritev sendPackets w = giveUp failed) ∨
      (toInt32 w.value < 0 ∧ w.errno = .EINTR ∧
        afterWritev sendPackets w = checkFD sendPackets) ∨
      afterWritev sendPackets w = clear ∨
      (0 ≤ toInt32 w.value ∧ toInt32 w.value ≠ SendRun.totalSendBytes sendPackets ∧
        afterWritev sendPackets w = addPackets sendPackets (toInt32 w.value)) := by
  simp only [afterWritev]
  split
  · rename_i hneg
    split
    · exact Or.inl ⟨_, rfl⟩
    · rename_i herrno
      exact Or.inr (Or.inl ⟨hneg, herrno, rfl⟩)
    · exact Or.inl ⟨_, rfl⟩
  · rename_i hnonneg
    split
    · exact Or.inr (Or.inr (Or.inl rfl))
    · rename_i hne
      exact Or.inr (Or.inr (Or.inr ⟨Int.not_lt.1 hnonneg, hne, rfl⟩))

/-- After `Disconnect` a thread that has a batch goes on as after a `writev` of no use. -/
lemma DoSendPC.afterDisconnect_cases {failed : Option (List IoVec)} {pc : DoSendPC}
    (h : afterDisconnect failed = some pc) :
    pc = clear ∨ ∃ sendPackets, pc = addPackets sendPackets (-1) := by
  unfold afterDisconnect at h
  split at h
  · cases h
  · split at h
    · exact Or.inl (Option.some.inj h).symm
    · exact Or.inr ⟨_, (Option.some.inj h).symm⟩

namespace ServerMemory

/-- An outcome that the kernel can give to `writev(fd, …)`: a count is at least one, at most
the number of bytes offered and at most `sMAX_RW_COUNT`, and the descriptor is open. -/
def WritevPossible (m : ServerMemory) (fd : SocketFD) (sendPackets : List IoVec) :
    WritevResult → Prop
  | .accepted count _ => fd ∈ m.openFDs ∧ 1 ≤ count ∧
      count ≤ (sendPackets.map IoVec.iov_len).sum ∧ count ≤ sMAX_RW_COUNT
  | .failed _ => True

instance (m : ServerMemory) (fd : SocketFD) (sendPackets : List IoVec) (w : WritevResult) :
    Decidable (m.WritevPossible fd sendPackets w) :=
  match w with
  | .accepted _ _ => inferInstanceAs (Decidable (_ ∧ _ ∧ _ ∧ _))
  | .failed _ => inferInstanceAs (Decidable True)

/-- One step of `Session::DoSend`, and where it goes on, or `none` when it returns. -/
def doSendStep (m : ServerMemory) (slot : ℤ) :
    DoSendPC → SendInput → Option (ServerMemory × Option DoSendPC)
  | .swap, .run => do
    let session ← m.group.slot slot
    let m ← m.modifySession slot fun s => { s with mPackets := [] }
    return (m, some (if session.mPackets = [] then .clear else .checkFD session.mPackets))
  | .checkFD sendPackets, .run => do
    let session ← m.group.slot slot
    return (m, some (if session.mSessionFD = sINVALID_SOCKET_FD then .giveUp none
      else .writevArgs sendPackets))
  -- the socket that has been tested is read once more for the call
  | .writevArgs sendPackets, .run => do
    let session ← m.group.slot slot
    return (m, some (.writev sendPackets session.mSessionFD))
  | .writev sendPackets fd, .writev w =>
    if m.WritevPossible fd sendPackets w then
      some (m, some (DoSendPC.afterWritev sendPackets w))
    else none
  | .clear, .run => do
    let m ← m.modifySession slot fun s => s.setSendState false
    return (m, none)
  | .giveUp failed, .run => do
    let m ← m.modifySession slot fun s => s.setSendState false
    return (m, some (.disconnect .swap failed))
  -- with a batch in its hands, `DoSend` goes on behind `Disconnect`
  | .disconnect pc failed, .run => do
    let (m, pc) ← m.disconnectStep slot pc
    match pc with
    | some pc => return (m, some (.disconnect pc failed))
    | none => return (m, DoSendPC.afterDisconnect failed)
  -- `mIsSending` stays set, and the rest is left to `mSendJob`
  | .addPackets sendPackets result, .run => do
    let (startOffset, packets) := SendRun.cutPackets result sendPackets
    let m ← m.modifySession slot fun s =>
      { s with mSendJob := SendRun.addRemainder s.mSendJob.reset startOffset packets }
    return (m, none)
  | _, _ => none

/-- One step of `Server::Send`, and where it goes on. -/
def sendStep (m : ServerMemory) : SendPC → SendInput → Option (ServerMemory × SendPC)
  | .getSession sessionID packet, .run => do
    let session ← m.group.getSession sessionID
    match session with
    | none => return (m, .idle)
    | some slot =>
      return (m, if packet.iov_base = 0 ∨ packet.iov_len ≤ 0 then .idle else .push slot packet)
  | .push slot packet, .run => do
    let m ← m.modifySession slot fun s => { s with mPackets := s.mPackets ++ [packet] }
    return (m, .testAndSet slot)
  -- a thread that finds the flag set leaves its packet to another one
  | .testAndSet slot, .run => do
    let session ← m.group.slot slot
    let m ← m.modifySession slot fun s => s.setSendState true
    return (m, if session.mIsSending then .idle else .doSend slot .swap)
  | .doSend slot pc, input => do
    let (m, pc) ← m.doSendStep slot pc input
    match pc with
    | some pc => return (m, .doSend slot pc)
    | none => return (m, .idle)
  | .disconnect slot pc, .run => do
    let (m, pc) ← m.disconnectStep slot pc
    match pc with
    | some pc => return (m, .disconnect slot pc)
    | none => return (m, .idle)
  | _, _ => none

/-! ## The moves -/

variable {m m' : ServerMemory}

/-- The queue of the session is empty. -/
def takePackets (s : Session) : Session := { s with mPackets := [] }

/-- A packet has been put in the queue of the session. -/
def pushPacket (packet : IoVec) (s : Session) : Session :=
  { s with mPackets := s.mPackets ++ [packet] }

/-- The send job of the session is `job`. -/
def setSendJob (job : SendJob) (s : Session) : Session := { s with mSendJob := job }

/-- The moves of `DoSend`. -/
inductive DoSendMoves (m : ServerMemory) (slot : ℤ) :
    DoSendPC → ServerMemory → Option DoSendPC → Prop
  | swapEmpty (hin : m.InTable slot) (hpackets : (m.session slot).mPackets = []) :
    DoSendMoves m slot .swap (m.updateSession slot takePackets) (some .clear)
  | swap (hin : m.InTable slot) (hpackets : (m.session slot).mPackets ≠ []) :
    DoSendMoves m slot .swap (m.updateSession slot takePackets)
      (some (.checkFD (m.session slot).mPackets))
  | fdInvalid {sendPackets : List IoVec}
      (hfd : (m.session slot).mSessionFD = sINVALID_SOCKET_FD) :
    DoSendMoves m slot (.checkFD sendPackets) m (some (.giveUp none))
  | fdValid {sendPackets : List IoVec} (hfd : (m.session slot).mSessionFD ≠ sINVALID_SOCKET_FD) :
    DoSendMoves m slot (.checkFD sendPackets) m (some (.writevArgs sendPackets))
  | writevArgs {sendPackets : List IoVec} :
    DoSendMoves m slot (.writevArgs sendPackets) m
      (some (.writev sendPackets (m.session slot).mSessionFD))
  | writev {sendPackets : List IoVec} {fd : SocketFD} (w : WritevResult)
      (hw : m.WritevPossible fd sendPackets w) :
    DoSendMoves m slot (.writev sendPackets fd) m (some (DoSendPC.afterWritev sendPackets w))
  | clear (hin : m.InTable slot) :
    DoSendMoves m slot .clear (m.updateSession slot fun s => s.setSendState false) none
  | giveUp {failed : Option (List IoVec)} (hin : m.InTable slot) :
    DoSendMoves m slot (.giveUp failed) (m.updateSession slot fun s => s.setSendState false)
      (some (.disconnect .swap failed))
  | disconnect {pc pc' : DisconnectPC} {failed : Option (List IoVec)} {m' : ServerMemory}
      (hmoves : DisconnectMoves m slot pc m' (some pc')) :
    DoSendMoves m slot (.disconnect pc failed) m' (some (.disconnect pc' failed))
  | disconnected {pc : DisconnectPC} {failed : Option (List IoVec)} {m' : ServerMemory}
      (hmoves : DisconnectMoves m slot pc m' none) :
    DoSendMoves m slot (.disconnect pc failed) m' (DoSendPC.afterDisconnect failed)
  | addPackets {sendPackets : List IoVec} {result : ℤ} (job : SendJob) (hin : m.InTable slot) :
    DoSendMoves m slot (.addPackets sendPackets result) (m.updateSession slot (setSendJob job))
      none

theorem doSendMoves_of_step {slot : ℤ} {pc : DoSendPC} {input : SendInput}
    {pc' : Option DoSendPC} (h : m.doSendStep slot pc input = some (m', pc')) :
    DoSendMoves m slot pc m' pc' := by
  unfold doSendStep at h
  split at h
  · obtain ⟨hin, h⟩ := slot_bind_eq_some.1 h
    obtain ⟨-, h⟩ := modifySession_bind_eq_some.1 h
    obtain ⟨rfl, rfl⟩ := Prod.mk.inj (Option.some.inj h)
    split
    · rename_i hpackets
      exact .swapEmpty hin hpackets
    · rename_i hpackets
      exact .swap hin hpackets
  · obtain ⟨hin, h⟩ := slot_bind_eq_some.1 h
    obtain ⟨rfl, rfl⟩ := Prod.mk.inj (Option.some.inj h)
    split
    · rename_i hfd
      exact .fdInvalid hfd
    · rename_i hfd
      exact .fdValid hfd
  · obtain ⟨hin, h⟩ := slot_bind_eq_some.1 h
    obtain ⟨rfl, rfl⟩ := Prod.mk.inj (Option.some.inj h)
    exact .writevArgs
  · obtain ⟨hw, h⟩ := Option.ite_none_right_eq_some.1 h
    obtain ⟨rfl, rfl⟩ := Prod.mk.inj (Option.some.inj h)
    exact .writev _ hw
  · obtain ⟨hin, h⟩ := modifySession_bind_eq_some.1 h
    obtain ⟨rfl, rfl⟩ := Prod.mk.inj (Option.some.inj h)
    exact .clear hin
  · obtain ⟨hin, h⟩ := modifySession_bind_eq_some.1 h
    obtain ⟨rfl, rfl⟩ := Prod.mk.inj (Option.some.inj h)
    exact .giveUp hin
  · obtain ⟨⟨m'', pc''⟩, hstep, h⟩ := Option.bind_eq_some_iff.1 h
    have hmoves := disconnectMoves_of_step hstep
    cases pc'' with
    | none =>
      obtain ⟨rfl, rfl⟩ := Prod.mk.inj (Option.some.inj h)
      exact .disconnected hmoves
    | some pc'' =>
      obtain ⟨rfl, rfl⟩ := Prod.mk.inj (Option.some.inj h)
      exact .disconnect hmoves
  · obtain ⟨hin, h⟩ := modifySession_bind_eq_some.1 h
    obtain ⟨rfl, rfl⟩ := Prod.mk.inj (Option.some.inj h)
    exact .addPackets _ hin
  · cases h

/-- The moves of `Server::Send`. -/
inductive SendMoves (m : ServerMemory) : SendPC → ServerMemory → SendPC → Prop
  | notFound {sessionID : SessionID} {packet : IoVec} :
    SendMoves m (.getSession sessionID packet) m .idle
  | found {sessionID : SessionID} {packet : IoVec} (hin : m.InTable (getIndex sessionID))
      (hid : (m.session (getIndex sessionID)).mSessionID = sessionID)
      (hlen : 0 < packet.iov_len) :
    SendMoves m (.getSession sessionID packet) m (.push (getIndex sessionID) packet)
  | push {slot : ℤ} {packet : IoVec} (hin : m.InTable slot) :
    SendMoves m (.push slot packet) (m.updateSession slot (pushPacket packet)) (.testAndSet slot)
  | alreadySet {slot : ℤ} (hin : m.InTable slot) (hsending : (m.session slot).mIsSending = true) :
    SendMoves m (.testAndSet slot) (m.updateSession slot fun s => s.setSendState true) .idle
  | set {slot : ℤ} (hin : m.InTable slot) (hsending : (m.session slot).mIsSending = false) :
    SendMoves m (.testAndSet slot) (m.updateSession slot fun s => s.setSendState true)
      (.doSend slot .swap)
  | doSend {slot : ℤ} {pc pc' : DoSendPC} {m' : ServerMemory}
      (hmoves : DoSendMoves m slot pc m' (some pc')) :
    SendMoves m (.doSend slot pc) m' (.doSend slot pc')
  | done {slot : ℤ} {pc : DoSendPC} {m' : ServerMemory}
      (hmoves : DoSendMoves m slot pc m' none) : SendMoves m (.doSend slot pc) m' .idle
  | disconnect {slot : ℤ} {pc pc' : DisconnectPC} {m' : ServerMemory}
      (hmoves : DisconnectMoves m slot pc m' (some pc')) :
    SendMoves m (.disconnect slot pc) m' (.disconnect slot pc')
  | disconnected {slot : ℤ} {pc : DisconnectPC} {m' : ServerMemory}
      (hmoves : DisconnectMoves m slot pc m' none) : SendMoves m (.disconnect slot pc) m' .idle

/-- A thread in `DoSend` goes on there, or returns from `Send`. -/
lemma SendMoves.of_doSend {slot : ℤ} {pc : DoSendPC} {spc : SendPC}
    (h : SendMoves m (.doSend slot pc) m' spc) :
    ∃ pc', DoSendMoves m slot pc m' pc' ∧ spc = pc'.elim .idle fun pc' => .doSend slot pc' := by
  generalize hpc : SendPC.doSend slot pc = spc₀ at h
  cases h with
  | doSend hmoves =>
    obtain ⟨rfl, rfl⟩ := SendPC.doSend.inj hpc
    exact ⟨_, hmoves, rfl⟩
  | done hmoves =>
    obtain ⟨rfl, rfl⟩ := SendPC.doSend.inj hpc
    exact ⟨_, hmoves, rfl⟩
  | _ => cases hpc

/-- **The moves of a thread that sends are all that its step can do.** -/
theorem sendMoves_of_step {pc pc' : SendPC} {input : SendInput}
    (h : m.sendStep pc input = some (m', pc')) : SendMoves m pc m' pc' := by
  unfold sendStep at h
  split at h
  · obtain ⟨session, hsession, h⟩ := Option.bind_eq_some_iff.1 h
    split at h
    · obtain ⟨rfl, rfl⟩ := Prod.mk.inj (Option.some.inj h)
      exact .notFound
    · obtain ⟨rfl, rfl⟩ := Prod.mk.inj (Option.some.inj h)
      obtain ⟨rfl, hin, hid⟩ := of_getSession hsession
      split
      · exact .notFound
      · exact .found hin hid (by omega)
  · obtain ⟨hin, h⟩ := modifySession_bind_eq_some.1 h
    obtain ⟨rfl, rfl⟩ := Prod.mk.inj (Option.some.inj h)
    exact .push hin
  · obtain ⟨hin, h⟩ := slot_bind_eq_some.1 h
    obtain ⟨-, h⟩ := modifySession_bind_eq_some.1 h
    obtain ⟨rfl, rfl⟩ := Prod.mk.inj (Option.some.inj h)
    split
    · rename_i hsending
      exact .alreadySet hin hsending
    · rename_i hsending
      exact .set hin (Bool.eq_false_iff.2 hsending)
  · obtain ⟨⟨m'', pc''⟩, hstep, h⟩ := Option.bind_eq_some_iff.1 h
    have hmoves := doSendMoves_of_step hstep
    cases pc'' with
    | none =>
      obtain ⟨rfl, rfl⟩ := Prod.mk.inj (Option.some.inj h)
      exact .done hmoves
    | some pc'' =>
      obtain ⟨rfl, rfl⟩ := Prod.mk.inj (Option.some.inj h)
      exact .doSend hmoves
  · obtain ⟨⟨m'', pc''⟩, hstep, h⟩ := Option.bind_eq_some_iff.1 h
    have hmoves := disconnectMoves_of_step hstep
    cases pc'' with
    | none =>
      obtain ⟨rfl, rfl⟩ := Prod.mk.inj (Option.some.inj h)
      exact .disconnected hmoves
    | some pc'' =>
      obtain ⟨rfl, rfl⟩ := Prod.mk.inj (Option.some.inj h)
      exact .disconnect hmoves
  · cases h

end ServerMemory

namespace ServerMemory

/-- What `writev` can do. -/
lemma sendStep_writev {m m' : ServerMemory} {slot : ℤ} {sendPackets : List IoVec} {fd : SocketFD}
    {input : SendInput} {pc' : SendPC}
    (h : m.sendStep (.doSend slot (.writev sendPackets fd)) input = some (m', pc')) :
    ∃ w, input = .writev w ∧ m.WritevPossible fd sendPackets w ∧
      pc' = .doSend slot (DoSendPC.afterWritev sendPackets w) := by
  obtain ⟨⟨m'', pc''⟩, hstep, h⟩ := Option.bind_eq_some_iff.1 h
  cases input with
  | run => cases hstep
  | writev w =>
    obtain ⟨hw, hstep⟩ := Option.ite_none_right_eq_some.1 hstep
    obtain ⟨rfl, rfl⟩ := Prod.mk.inj (Option.some.inj hstep)
    obtain ⟨rfl, rfl⟩ := Prod.mk.inj (Option.some.inj h)
    exact ⟨w, rfl, hw, rfl⟩

end ServerMemory

/-! ## What the moves change -/

/-- The session whose `Disconnect` a thread executes, and where it stands there. -/
def SendPC.disconnecting : SendPC → Option (ℤ × DisconnectPC)
  | doSend slot (.disconnect pc _) | disconnect slot pc => some (slot, pc)
  | _ => none

/-- The session that a thread has a pointer to. -/
def SendPC.slot : SendPC → Option ℤ
  | push slot _ | testAndSet slot | doSend slot _ | disconnect slot _ => some slot
  | _ => none

/-- The session whose `mIsSending` a thread is about to clear at the end of `DoSend`. -/
def SendPC.clears : SendPC → Option ℤ
  | doSend i .clear => some i
  | _ => none

lemma SendPC.slot_of_disconnecting {pc : SendPC} {i : ℤ} {dpc : DisconnectPC}
    (h : pc.disconnecting = some (i, dpc)) : pc.slot = some i := by
  unfold disconnecting at h
  split at h
  · exact congrArg some (Prod.mk.inj (Option.some.inj h)).1
  · exact congrArg some (Prod.mk.inj (Option.some.inj h)).1
  · cases h

namespace ServerMemory

/-- How the session in the slot `i` changes in a step of a thread that stands at `pc`. -/
inductive SendChange (s : Session) (i : ℤ) : SendPC → Session → Prop
  | same {pc : SendPC} : SendChange s i pc s
  | pushPacket (packet : IoVec) : SendChange s i (.push i packet) (pushPacket packet s)
  | testAndSet : SendChange s i (.testAndSet i) (s.setSendState true)
  | takePackets : SendChange s i (.doSend i .swap) (takePackets s)
  | clear {pc : DoSendPC} (hpc : pc = .clear ∨ ∃ failed, pc = .giveUp failed) :
    SendChange s i (.doSend i pc) (s.setSendState false)
  | setSendJob (sendPackets : List IoVec) (result : ℤ) (job : SendJob) :
    SendChange s i (.doSend i (.addPackets sendPackets result)) (setSendJob job s)
  | takeFD {pc : SendPC} (hpc : pc.disconnecting = some (i, .swap)) : SendChange s i pc (takeFD s)

variable {m m' : ServerMemory}

/-- A change of the session in one slot, seen from the slot `i`. -/
lemma SendChange.of_updateSession {pc : SendPC} {slot i : ℤ} (hslot : 0 ≤ slot) (hi : 0 ≤ i)
    {f : Session → Session} (h : i = slot → SendChange (m.session i) i pc (f (m.session i))) :
    SendChange (m.session i) i pc ((m.updateSession slot f).session i) := by
  rw [session_updateSession hslot hi]
  split
  · rename_i heq
    rw [← heq]
    exact h heq
  · exact .same

lemma SendChange.of_disconnectMoves {pc : SendPC} {slot : ℤ} {dpc : DisconnectPC}
    {dpc' : Option DisconnectPC} (hpc : pc.disconnecting = some (slot, dpc))
    (h : DisconnectMoves m slot dpc m' dpc') {i : ℤ} (hi : 0 ≤ i) :
    SendChange (m.session i) i pc (m'.session i) := by
  rcases h.session hi with heq | ⟨rfl, rfl, heq⟩
  · rw [heq]
    exact .same
  · rw [heq]
    exact .takeFD hpc

lemma DoSendMoves.session {slot : ℤ} {pc : DoSendPC} {pc' : Option DoSendPC}
    (h : DoSendMoves m slot pc m' pc') {i : ℤ} (hi : 0 ≤ i) :
    SendChange (m.session i) i (.doSend slot pc) (m'.session i) := by
  cases h with
  | swapEmpty hin hpackets | swap hin hpackets =>
    refine .of_updateSession hin.1 hi ?_
    rintro rfl
    exact .takePackets
  | clear hin =>
    refine .of_updateSession hin.1 hi ?_
    rintro rfl
    exact .clear (Or.inl rfl)
  | giveUp hin =>
    refine .of_updateSession hin.1 hi ?_
    rintro rfl
    exact .clear (Or.inr ⟨_, rfl⟩)
  | addPackets job hin =>
    refine .of_updateSession hin.1 hi ?_
    rintro rfl
    exact .setSendJob _ _ _
  | disconnect hmoves => exact .of_disconnectMoves rfl hmoves hi
  | disconnected hmoves => exact .of_disconnectMoves rfl hmoves hi
  | fdInvalid hfd | fdValid hfd => exact .same
  | writevArgs => exact .same
  | writev w hw => exact .same

/-- **How a step of a thread that sends changes a session.** -/
theorem SendMoves.session {pc pc' : SendPC} (h : SendMoves m pc m' pc') {i : ℤ} (hi : 0 ≤ i) :
    SendChange (m.session i) i pc (m'.session i) := by
  cases h with
  | notFound => exact .same
  | found hin hid hlen => exact .same
  | push hin =>
    refine .of_updateSession hin.1 hi ?_
    rintro rfl
    exact .pushPacket _
  | alreadySet hin hsending | set hin hsending =>
    refine .of_updateSession hin.1 hi ?_
    rintro rfl
    exact .testAndSet
  | doSend hmoves => exact hmoves.session hi
  | done hmoves => exact hmoves.session hi
  | disconnect hmoves => exact .of_disconnectMoves rfl hmoves hi
  | disconnected hmoves => exact .of_disconnectMoves rfl hmoves hi

/-- **A thread that sends calls the application only at the end of `Disconnect`.** -/
theorem SendMoves.calls {pc pc' : SendPC} (h : SendMoves m pc m' pc') :
    m'.callbacks = m.callbacks ∨ ∃ slot, pc.disconnecting = some (slot, .onDisconnected) ∧
      m'.callbacks = m.callbacks ++ [.onDisconnected (m.session slot).mSessionID] := by
  have hdoSend : ∀ {slot : ℤ} {pc : DoSendPC} {pc' : Option DoSendPC},
      DoSendMoves m slot pc m' pc' → m'.callbacks = m.callbacks ∨
        ∃ i, (SendPC.doSend slot pc).disconnecting = some (i, .onDisconnected) ∧
          m'.callbacks = m.callbacks ++ [.onDisconnected (m.session i).mSessionID] := by
    intro slot pc pc' hmoves
    cases hmoves with
    | disconnect hmoves | disconnected hmoves =>
      rcases hmoves.calls with heq | ⟨rfl, -, heq⟩
      · exact Or.inl heq
      · exact Or.inr ⟨slot, rfl, heq⟩
    | swapEmpty hin hpackets | swap hin hpackets => exact Or.inl rfl
    | clear hin | giveUp hin => exact Or.inl rfl
    | addPackets job hin => exact Or.inl rfl
    | fdInvalid hfd | fdValid hfd => exact Or.inl rfl
    | writevArgs => exact Or.inl rfl
    | writev w hw => exact Or.inl rfl
  cases h with
  | notFound => exact Or.inl rfl
  | found hin hid hlen => exact Or.inl rfl
  | push hin => exact Or.inl rfl
  | alreadySet hin hsending | set hin hsending => exact Or.inl rfl
  | doSend hmoves => exact hdoSend hmoves
  | done hmoves => exact hdoSend hmoves
  | disconnect hmoves | disconnected hmoves =>
    rcases hmoves.calls with heq | ⟨rfl, -, heq⟩
    · exact Or.inl heq
    · exact Or.inr ⟨_, rfl, heq⟩

lemma DoSendMoves.shrinks {slot : ℤ} {pc : DoSendPC} {pc' : Option DoSendPC}
    (h : DoSendMoves m slot pc m' pc') : m.Shrinks m' := by
  cases h with
  | disconnect hmoves => exact hmoves.shrinks
  | disconnected hmoves => exact hmoves.shrinks
  | swapEmpty hin hpackets | swap hin hpackets => exact ⟨rfl, rfl, rfl, fun _ => le_rfl⟩
  | clear hin | giveUp hin => exact ⟨rfl, rfl, rfl, fun _ => le_rfl⟩
  | addPackets job hin => exact ⟨rfl, rfl, rfl, fun _ => le_rfl⟩
  | fdInvalid hfd | fdValid hfd => exact ⟨rfl, rfl, rfl, fun _ => le_rfl⟩
  | writevArgs => exact ⟨rfl, rfl, rfl, fun _ => le_rfl⟩
  | writev w hw => exact ⟨rfl, rfl, rfl, fun _ => le_rfl⟩

lemma SendMoves.shrinks {pc pc' : SendPC} (h : SendMoves m pc m' pc') : m.Shrinks m' := by
  cases h with
  | doSend hmoves => exact hmoves.shrinks
  | done hmoves => exact hmoves.shrinks
  | disconnect hmoves => exact hmoves.shrinks
  | disconnected hmoves => exact hmoves.shrinks
  | notFound => exact ⟨rfl, rfl, rfl, fun _ => le_rfl⟩
  | found hin hid hlen => exact ⟨rfl, rfl, rfl, fun _ => le_rfl⟩
  | push hin => exact ⟨rfl, rfl, rfl, fun _ => le_rfl⟩
  | alreadySet hin hsending | set hin hsending => exact ⟨rfl, rfl, rfl, fun _ => le_rfl⟩

end ServerMemory

end CoreServer
