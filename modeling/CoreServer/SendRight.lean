import CoreServer.SendThread

/-!
# The right to send on a session

Any number of threads on one session, which call `Session::Send` or `Session::Disconnect`, or
execute the `SendJob` of the session (`Network/Session.cpp`, `ServerJob.cpp`).  The send job is
executed once for every event that its registration with `EPOLLOUT` has had, and `Send` and
`DoSend` arm this registration anew.

`mIsSending` is the right to send.  `Send` takes it before it calls `DoSend`; `SendJob::Execute`
calls `DoSend` without it.
-/

namespace CoreServer

/-- Where a thread stands on the session.  A `DoSend` is called by `Send` or by the send job. -/
inductive SessionThread where
  | idle
  /-- In `Send`, before `mPackets.emplace_back`, under `mPacketMutex`. -/
  | push (packet : IoVec)
  /-- In `Send`, before `__sync_lock_test_and_set(&mIsSending, true)`. -/
  | testAndSet
  | doSend (inSend : Bool) (pc : DoSendPC)
  /-- In `DoSend`, before `epoll_ctl(EPOLL_CTL_MOD)`. -/
  | rearm (inSend : Bool)
  /-- In `Send`, before `epoll_ctl(EPOLL_CTL_MOD)`. -/
  | rearmSend
  /-- In a `Disconnect` that the thread has called itself. -/
  | disconnect (pc : DisconnectPC)
deriving DecidableEq, Repr

/-- The session in one slot of the memory, the registration of its send job, the number of
events for which the send job is still to be executed, and where the threads stand. -/
structure SessionThreads (κ : Type) where
  memory : ServerMemory
  armed : Bool
  delivered : ℕ
  thread : κ → SessionThread

/-- A step: a call of `Send` or of `Disconnect`, an event of the send job, the start of its
execution, or a step of a thread in one of these.  The two steps before an `epoll_ctl` have its
outcome. -/
inductive SessionStep (κ : Type) where
  | send (thread : κ) (packet : IoVec)
  | disconnect (thread : κ)
  | deliver
  | execute (thread : κ)
  | run (thread : κ) (input : SendInput)
  | rearm (thread : κ) (ok : Bool)
deriving DecidableEq, Repr

/-- Where a thread goes on after a step of `DoSend` that stood at `pc`. -/
def SessionThread.afterDoSend (inSend : Bool) (pc : DoSendPC) : Option DoSendPC → SessionThread
  | some pc' => doSend inSend pc'
  | none =>
    match pc with
    | .addPackets _ _ => rearm inSend
    | _ => if inSend then rearmSend else idle

namespace ServerMemory

/-- One step of a thread on the session in a slot. -/
def threadStep (m : ServerMemory) (slot : ℤ) :
    SessionThread → SendInput → Option (ServerMemory × SessionThread)
  | .push packet, .run => do
    let m ← m.modifySession slot fun s => { s with mPackets := s.mPackets ++ [packet] }
    return (m, .testAndSet)
  | .testAndSet, .run => do
    let session ← m.group.slot slot
    let m ← m.modifySession slot fun s => s.setSendState true
    return (m, if session.mIsSending then .idle else .doSend true .swap)
  | .doSend inSend pc, input => do
    let (m, pc') ← m.doSendStep slot pc input
    return (m, .afterDoSend inSend pc pc')
  | .disconnect pc, .run => do
    let (m, pc) ← m.disconnectStep slot pc
    return (m, pc.elim .idle .disconnect)
  | _, _ => none

end ServerMemory

namespace SessionThreads

variable {κ : Type}

/-- The session. -/
abbrev session (s : SessionThreads κ) (slot : ℤ) : Session := s.memory.session slot

variable [DecidableEq κ]

/-- A thread goes on at `t`. -/
def goto (s : SessionThreads κ) (k : κ) (t : SessionThread) : SessionThreads κ :=
  { s with thread := Function.update s.thread k t }

/-- The `epoll_ctl(mServer->GetSendPollFD(), EPOLL_CTL_MOD, mSessionFD, &event)` of a thread,
with the outcome `ok`. -/
def rearm (s : SessionThreads κ) (slot : ℤ) (k : κ) (ok : Bool) (t : SessionThread) :
    Option (SessionThreads κ) :=
  if ok = true ∧ (s.session slot).mSessionFD = sINVALID_SOCKET_FD then none
  else some { s.goto k t with armed := s.armed || ok }

/-- One step. -/
def step (slot : ℤ) (s : SessionThreads κ) : SessionStep κ → Option (SessionThreads κ)
  | .send k packet =>
    if s.thread k = .idle then
      some (s.goto k (if packet.iov_base = 0 ∨ packet.iov_len ≤ 0 then .idle else .push packet))
    else none
  | .disconnect k => if s.thread k = .idle then some (s.goto k (.disconnect .swap)) else none
  | .deliver =>
    if s.armed then some { s with armed := false, delivered := s.delivered + 1 } else none
  | .execute k =>
    if s.thread k = .idle ∧ 0 < s.delivered then
      some { s.goto k (.doSend false .swap) with delivered := s.delivered - 1 }
    else none
  | .run k input => do
    let (memory, t) ← s.memory.threadStep slot (s.thread k) input
    return { s.goto k t with memory := memory }
  | .rearm k ok =>
    match s.thread k with
    | .rearm inSend => s.rearm slot k ok (if inSend then .rearmSend else .idle)
    | .rearmSend => s.rearm slot k ok .idle
    | _ => none

/-- The machine of the threads on the session in a slot. -/
def machine (κ : Type) [DecidableEq κ] (slot : ℤ) :
    StepMachine (SessionThreads κ) (SessionStep κ) := ⟨step slot⟩

omit [DecidableEq κ] in
/-- No thread is on the session, whose send job has not been armed. -/
def start (κ : Type) (memory : ServerMemory) : SessionThreads κ where
  memory := memory
  armed := false
  delivered := 0
  thread _ := .idle

end SessionThreads

/-! ## The moves of a thread -/

/-- Everything that a step of a thread can do. -/
inductive ThreadMoves (m : ServerMemory) (slot : ℤ) :
    SessionThread → ServerMemory → SessionThread → Prop
  | push {packet : IoVec} (hin : m.InTable slot) :
    ThreadMoves m slot (.push packet)
      (m.updateSession slot (ServerMemory.pushPacket packet)) .testAndSet
  | alreadySet (hin : m.InTable slot) (hsending : (m.session slot).mIsSending = true) :
    ThreadMoves m slot .testAndSet (m.updateSession slot fun s => s.setSendState true) .idle
  | set (hin : m.InTable slot) (hsending : (m.session slot).mIsSending = false) :
    ThreadMoves m slot .testAndSet (m.updateSession slot fun s => s.setSendState true)
      (.doSend true .swap)
  | doSend {inSend : Bool} {pc : DoSendPC} {pc' : Option DoSendPC} {m' : ServerMemory}
      (hmoves : ServerMemory.DoSendMoves m slot pc m' pc') :
    ThreadMoves m slot (.doSend inSend pc) m' (.afterDoSend inSend pc pc')
  | disconnect {pc : DisconnectPC} {pc' : Option DisconnectPC} {m' : ServerMemory}
      (hmoves : ServerMemory.DisconnectMoves m slot pc m' pc') :
    ThreadMoves m slot (.disconnect pc) m' (pc'.elim .idle .disconnect)

theorem threadMoves_of_step {m m' : ServerMemory} {slot : ℤ} {t t' : SessionThread}
    {input : SendInput} (h : m.threadStep slot t input = some (m', t')) :
    ThreadMoves m slot t m' t' := by
  unfold ServerMemory.threadStep at h
  split at h
  · obtain ⟨hin, h⟩ := ServerMemory.modifySession_bind_eq_some.1 h
    obtain ⟨rfl, rfl⟩ := Prod.mk.inj (Option.some.inj h)
    exact .push hin
  · obtain ⟨hin, h⟩ := ServerMemory.slot_bind_eq_some.1 h
    obtain ⟨-, h⟩ := ServerMemory.modifySession_bind_eq_some.1 h
    obtain ⟨rfl, rfl⟩ := Prod.mk.inj (Option.some.inj h)
    split
    · rename_i hsending
      exact .alreadySet hin hsending
    · rename_i hsending
      exact .set hin (Bool.eq_false_iff.2 hsending)
  · obtain ⟨⟨m'', pc'⟩, hstep, h⟩ := Option.bind_eq_some_iff.1 h
    obtain ⟨rfl, rfl⟩ := Prod.mk.inj (Option.some.inj h)
    exact .doSend (ServerMemory.doSendMoves_of_step hstep)
  · obtain ⟨⟨m'', pc'⟩, hstep, h⟩ := Option.bind_eq_some_iff.1 h
    obtain ⟨rfl, rfl⟩ := Prod.mk.inj (Option.some.inj h)
    exact .disconnect (ServerMemory.disconnectMoves_of_step hstep)
  · cases h

/-! ## Who may send -/

/-- A `DoSend` that has not finished writing its batch: it is going to call `writev`, goes on behind
an error with a batch of which nothing is written, or has the rest of a partial write in its hands.
After `EAGAIN`, or on an invalid socket, `DoSend` is on its way out and does nothing more with the
batch; whether it still counts then is left open, and said by `dropped`. -/
def DoSendPC.unwritten (dropped : Bool) : DoSendPC → Bool
  | .checkFD _ | .writevArgs _ | .writev _ _ | .addPackets _ _ => true
  | .giveUp failed | .disconnect _ failed => dropped || failed.isSome
  | .swap | .clear => false

/-- The thread has a batch that it has not finished writing. -/
def SessionThread.unwritten (dropped : Bool) : SessionThread → Bool
  | .doSend _ pc => pc.unwritten dropped
  | _ => false

variable {dropped : Bool}

lemma SessionThread.unwritten_afterDoSend (inSend : Bool) (pc : DoSendPC)
    (pc' : Option DoSendPC) :
    (SessionThread.afterDoSend inSend pc pc').unwritten dropped =
      pc'.elim false (DoSendPC.unwritten dropped) := by
  cases pc' with
  | some pc' => rfl
  | none =>
    simp only [SessionThread.afterDoSend]
    split
    · rfl
    · split <;> rfl

/-- A batch that is unwritten behind `Disconnect` was so before. -/
lemma DoSendPC.unwritten_of_afterDisconnect {failed : Option (List IoVec)}
    (h : (DoSendPC.afterDisconnect failed).elim false (DoSendPC.unwritten dropped) = true) :
    (dropped || failed.isSome) = true := by
  cases failed with
  | none => cases h
  | some sendPackets => rw [Option.isSome_some, Bool.or_true]

namespace SessionThreads

variable {κ : Type} {s s' : SessionThreads κ} {slot : ℤ}

/-- A thread has a batch that it has not finished writing only while `mIsSending` is set, and no
two threads have one. -/
def Exclusive (dropped : Bool) (slot : ℤ) (s : SessionThreads κ) : Prop :=
  (∀ k, (s.thread k).unwritten dropped = true → (s.session slot).mIsSending = true) ∧
    ∀ k k', (s.thread k).unwritten dropped = true → (s.thread k').unwritten dropped = true →
      k = k'

/-- No thread but `k` has a batch that it has not finished writing. -/
def Alone (dropped : Bool) (s : SessionThreads κ) (k : κ) : Prop :=
  ∀ k', (s.thread k').unwritten dropped = true → k' = k

variable [DecidableEq κ]

/-- A thread clears `mIsSending` only while no thread, itself included, has an unwritten batch, and
takes a batch only while `mIsSending` is set and no other thread has one. -/
def RightHeld (dropped : Bool) (slot : ℤ) (s : SessionThreads κ) : SessionStep κ → Prop
  | .run k input => (s.step slot (.run k input)).isSome →
    match s.thread k with
    | .doSend _ .swap => (s.session slot).mPackets ≠ [] →
        (s.session slot).mIsSending = true ∧ s.Alone dropped k
    | .doSend _ .clear | .doSend _ (.giveUp _) => ∀ k', (s.thread k').unwritten dropped = false
    | _ => True
  | _ => True

/-- A step after which no other thread has a new batch, and the flag is still set for the old
ones. -/
lemma Exclusive.of_thread (hs : s.Exclusive dropped slot) {k : κ} {t : SessionThread}
    {memory : ServerMemory} {armed : Bool} {delivered : ℕ}
    (hflag : (s.session slot).mIsSending = true → (memory.session slot).mIsSending = true)
    (ht : t.unwritten dropped = true → (s.thread k).unwritten dropped = true) :
    (⟨memory, armed, delivered, Function.update s.thread k t⟩ : SessionThreads κ).Exclusive
      dropped slot := by
  have hold : ∀ k', (Function.update s.thread k t k').unwritten dropped = true →
      (s.thread k').unwritten dropped = true := by
    intro k' hk'
    rw [Function.update_apply] at hk'
    split at hk'
    · rename_i heq
      exact heq ▸ ht hk'
    · exact hk'
  exact ⟨fun k' hk' => hflag (hs.1 k' (hold k' hk')),
    fun k₁ k₂ h₁ h₂ => hs.2 k₁ k₂ (hold k₁ h₁) (hold k₂ h₂)⟩

/-- A step by which the thread `k` gives up or takes a batch, and is alone. -/
lemma exclusive_of_alone {k : κ} {t : SessionThread} {memory : ServerMemory} {armed : Bool}
    {delivered : ℕ} (halone : s.Alone dropped k)
    (hflag : t.unwritten dropped = true → (memory.session slot).mIsSending = true) :
    (⟨memory, armed, delivered, Function.update s.thread k t⟩ : SessionThreads κ).Exclusive
      dropped slot := by
  have honly : ∀ k', (Function.update s.thread k t k').unwritten dropped = true →
      k' = k ∧ t.unwritten dropped = true := by
    intro k' hk'
    rw [Function.update_apply] at hk'
    split at hk'
    · rename_i heq
      exact ⟨heq, hk'⟩
    · rename_i hne
      exact absurd (halone k' hk') hne
  exact ⟨fun k' hk' => hflag (honly k' hk').2,
    fun k₁ k₂ h₁ h₂ => (honly k₁ h₁).1.trans (honly k₂ h₂).1.symm⟩

/-- A step of the thread `k` while nobody has a batch, nor the thread afterwards. -/
lemma exclusive_of_none {k : κ} {t : SessionThread} {memory : ServerMemory} {armed : Bool}
    {delivered : ℕ} (hnone : ∀ k', (s.thread k').unwritten dropped = false)
    (ht : t.unwritten dropped = false) :
    (⟨memory, armed, delivered, Function.update s.thread k t⟩ : SessionThreads κ).Exclusive
      dropped slot :=
  exclusive_of_alone (fun k' hk' => absurd hk' (Bool.eq_false_iff.1 (hnone k')))
    fun hnew => absurd hnew (Bool.eq_false_iff.1 ht)

omit [DecidableEq κ] in
/-- `Disconnect` leaves `mIsSending` as it is. -/
lemma mIsSending_of_disconnect {m m' : ServerMemory} {pc : DisconnectPC}
    {pc' : Option DisconnectPC} (h : ServerMemory.DisconnectMoves m slot pc m' pc')
    (hslot : 0 ≤ slot) : (m'.session slot).mIsSending = (m.session slot).mIsSending := by
  rcases h.session hslot with heq | ⟨-, -, heq⟩
  · rw [heq]
  · rw [heq]
    rfl

/-- What a step of `DoSend` does to the right to send. -/
lemma Exclusive.doSend (hs : s.Exclusive dropped slot) (hslot : 0 ≤ slot) {k : κ} {inSend : Bool}
    {pc : DoSendPC} {pc' : Option DoSendPC} {memory : ServerMemory} {armed : Bool}
    {delivered : ℕ} (hk : s.thread k = .doSend inSend pc)
    (hmoves : ServerMemory.DoSendMoves s.memory slot pc memory pc')
    (hswap : pc = .swap → (s.session slot).mPackets ≠ [] →
      (s.session slot).mIsSending = true ∧ s.Alone dropped k)
    (hclear : pc = .clear ∨ (∃ failed, pc = .giveUp failed) →
      ∀ k', (s.thread k').unwritten dropped = false) :
    (⟨memory, armed, delivered,
      Function.update s.thread k (.afterDoSend inSend pc pc')⟩ : SessionThreads κ).Exclusive
      dropped slot := by
  -- what the thread has in its hands before and after
  have hnew : (SessionThread.afterDoSend inSend pc pc').unwritten dropped =
      pc'.elim false (DoSendPC.unwritten dropped) :=
    SessionThread.unwritten_afterDoSend inSend pc pc'
  have hold : (s.thread k).unwritten dropped = pc.unwritten dropped := by rw [hk]; rfl
  cases hmoves with
  | swapEmpty hin hpackets =>
    refine hs.of_thread (fun hflag => ?_) fun ht => ?_
    · rw [ServerMemory.session_updateSession_self hslot]
      exact hflag
    · rw [hnew] at ht
      cases ht
  | swap hin hpackets =>
    obtain ⟨hflag, halone⟩ := hswap rfl hpackets
    refine exclusive_of_alone halone fun _ => ?_
    rw [ServerMemory.session_updateSession_self hslot]
    exact hflag
  | fdInvalid hfd | fdValid hfd | writevArgs | writev w hw =>
    exact hs.of_thread id fun _ => hold
  | clear hin =>
    refine exclusive_of_none (hclear (Or.inl rfl)) ?_
    rw [hnew]
    rfl
  | giveUp hin =>
    -- the thread keeps what it has in its hands, which does not count
    have hnone := hclear (Or.inr ⟨_, rfl⟩)
    exact exclusive_of_none hnone (hnew.trans (hold.symm.trans (hnone k)))
  | disconnect hmoves =>
    refine hs.of_thread (fun hflag => ?_) fun ht => ?_
    · rw [mIsSending_of_disconnect hmoves hslot]
      exact hflag
    · rw [hnew] at ht
      exact hold.trans ht
  | @disconnected dpc failed m' hmoves =>
    refine hs.of_thread (fun hflag => ?_) fun ht => ?_
    · rw [mIsSending_of_disconnect hmoves hslot]
      exact hflag
    · rw [hnew] at ht
      exact hold.trans (DoSendPC.unwritten_of_afterDisconnect ht)
  | addPackets job hin =>
    refine hs.of_thread (fun hflag => ?_) fun ht => ?_
    · rw [ServerMemory.session_updateSession_self hslot]
      exact hflag
    · rw [hnew] at ht
      cases ht

/-- **One step.**  The right to send is kept if it is held where a batch is taken, and not taken
away from another thread. -/
theorem Exclusive.step (hs : s.Exclusive dropped slot) (hslot : 0 ≤ slot) {a : SessionStep κ}
    (ha : s.RightHeld dropped slot a) (h : s.step slot a = some s') :
    s'.Exclusive dropped slot := by
  cases a with
  | send k packet =>
    obtain ⟨hidle, h⟩ := Option.ite_none_right_eq_some.1 h
    obtain rfl := Option.some.inj h
    exact hs.of_thread id fun ht => by split at ht <;> cases ht
  | disconnect k =>
    obtain ⟨hidle, h⟩ := Option.ite_none_right_eq_some.1 h
    obtain rfl := Option.some.inj h
    exact hs.of_thread id fun ht => by cases ht
  | deliver =>
    obtain ⟨-, h⟩ := Option.ite_none_right_eq_some.1 h
    obtain rfl := Option.some.inj h
    exact hs
  | execute k =>
    obtain ⟨-, h⟩ := Option.ite_none_right_eq_some.1 h
    obtain rfl := Option.some.inj h
    exact hs.of_thread id fun ht => by cases ht
  | run k input =>
    have hguard := ha (by rw [h]; rfl)
    obtain ⟨⟨memory, t⟩, hstep, h⟩ := Option.bind_eq_some_iff.1 h
    obtain rfl := Option.some.inj h
    have hmoves := threadMoves_of_step hstep
    generalize ht : s.thread k = t₀ at hmoves hguard
    cases hmoves with
    | push hin =>
      refine hs.of_thread (fun hflag => ?_) fun hnew => by cases hnew
      rw [ServerMemory.session_updateSession_self hslot]
      exact hflag
    | alreadySet hin hsending | set hin hsending =>
      refine hs.of_thread (fun hflag => ?_) fun hnew => by cases hnew
      rw [ServerMemory.session_updateSession_self hslot]
      rfl
    | doSend hmoves =>
      refine hs.doSend hslot ht hmoves (fun hpc => ?_) fun hpc => ?_
      · subst hpc
        exact hguard
      · rcases hpc with rfl | ⟨failed, rfl⟩
        · exact hguard
        · exact hguard
    | @disconnect pc pc' m' hmoves =>
      refine hs.of_thread (fun hflag => ?_) fun hnew => ?_
      · rw [mIsSending_of_disconnect hmoves hslot]
        exact hflag
      · cases pc' <;> cases hnew
  | rearm k ok =>
    simp only [SessionThreads.step] at h
    split at h
    · obtain ⟨-, h⟩ := Option.ite_none_left_eq_some.1 h
      obtain rfl := Option.some.inj h
      exact hs.of_thread id fun hnew => by split at hnew <;> cases hnew
    · obtain ⟨-, h⟩ := Option.ite_none_left_eq_some.1 h
      obtain rfl := Option.some.inj h
      exact hs.of_thread id fun hnew => by cases hnew
    · cases h

/-- A step after which the right to send is exclusive has not broken it. -/
lemma rightHeld_of_exclusive (hslot : 0 ≤ slot) {a : SessionStep κ}
    (h : s.step slot a = some s') (hs' : s'.Exclusive dropped slot) :
    s.RightHeld dropped slot a := by
  cases a <;> try trivial
  rename_i k input
  intro _
  obtain ⟨⟨memory, t⟩, hstep, h⟩ := Option.bind_eq_some_iff.1 h
  obtain rfl := Option.some.inj h
  have hmoves := threadMoves_of_step hstep
  generalize ht : s.thread k = t₀ at hmoves
  have hothers : ∀ k', k' ≠ k → (s.thread k').unwritten dropped = true →
      (Function.update s.thread k t k').unwritten dropped = true := by
    intro k' hne hk'
    rwa [Function.update_of_ne hne]
  -- a thread that has cleared the flag has left nobody with a batch
  have hcleared : (memory.session slot).mIsSending = false →
      t.unwritten dropped = (s.thread k).unwritten dropped →
        ∀ k', (s.thread k').unwritten dropped = false := by
    intro hflag hsame k'
    by_contra hk'
    refine Bool.false_ne_true (hflag.symm.trans (hs'.1 k' ?_))
    change (Function.update s.thread k t k').unwritten dropped = true
    rw [Function.update_apply]
    split
    · rename_i heq
      exact hsame.trans (heq ▸ Bool.eq_true_of_not_eq_false hk')
    · exact Bool.eq_true_of_not_eq_false hk'
  cases hmoves with
  | @doSend inSend pc pc' m' hmoves =>
    cases hmoves with
    | swapEmpty hin hpackets => exact fun hne => absurd hpackets hne
    | swap hin hpackets =>
      intro _
      have hself : (Function.update s.thread k
          (SessionThread.doSend inSend (.checkFD (s.memory.session slot).mPackets))
            k).unwritten dropped = true := by
        rw [Function.update_self]
        rfl
      have hflag := hs'.1 k hself
      refine ⟨?_, fun k' hk' => ?_⟩
      · change ((s.memory.updateSession slot ServerMemory.takePackets).session slot).mIsSending =
          true at hflag
        rw [ServerMemory.session_updateSession_self hslot] at hflag
        exact hflag
      · by_contra hne
        exact hne (hs'.2 k' k (hothers k' hne hk') hself)
    | clear hin | giveUp hin =>
      refine hcleared ?_ (by rw [SessionThread.unwritten_afterDoSend, ht]; rfl)
      rw [ServerMemory.session_updateSession_self hslot]
      rfl
    | _ => trivial
  | _ => trivial

end SessionThreads

open SessionThreads

/-- **When the right to send is exclusive.**  In every run of any number of threads that call
`Send` on a session or execute its send job, `mIsSending` is set while a thread has an unwritten
batch, and no two threads have one, exactly if no thread clears the flag while it or another one
has an unwritten batch, and none takes a batch without the flag or beside another one; whether or
not a batch counts with which a thread is on its way out. -/
theorem sendRight_exclusive_iff {κ : Type} [DecidableEq κ] (memory : ServerMemory) (index : ℕ)
    (dropped : Bool) (as : List (SessionStep κ)) :
    (machine κ index).Always (Exclusive dropped index) (start κ memory) as ↔
      (machine κ index).Along (RightHeld dropped index) (start κ memory) as := by
  have hstart : (start κ memory).Exclusive dropped index :=
    ⟨fun _ h => absurd h Bool.false_ne_true, fun _ _ h => absurd h Bool.false_ne_true⟩
  constructor
  · refine StepMachine.along_of_always (I := fun _ => True) (fun _ _ _ _ _ => trivial)
      (fun s a s' _ h hs' => rightHeld_of_exclusive (Int.natCast_nonneg _) h hs')
      (fun s a hstuck => ?_) trivial
    cases a <;> try trivial
    rename_i k input
    intro hsome
    rw [show s.step index (.run k input) = none from hstuck] at hsome
    cases hsome
  · exact StepMachine.always_of_along (I := Exclusive dropped index)
      (fun _ _ _ hs ha h => hs.step (Int.natCast_nonneg _) ha h) (fun _ hs => hs) hstart

/-- One session, with the ID 0 and the descriptor 7. -/
def oneSession : ServerMemory where
  group := (SessionGroup.construct (fun _ => Session.zeroMemory) 1).stamp 0 0 7
  sUniqueNumber := 1
  mListenFD := 3
  openFDs := [7, 3]
  epoll := EpollSet.empty
  callbacks := []

/-- A `Send` arms the send job; while it is executed and has found the queue empty, a second
`Send` takes a batch; the send job clears the flag, and a third `Send` takes a batch, too. -/
theorem sendRight_lost_by_sendJob :
    ¬ (machine (Fin 3) 0).Always (Exclusive false 0) (start (Fin 3) oneSession)
      [.send 0 ⟨100, 1⟩, .run 0 .run, .run 0 .run, .run 0 .run, .run 0 .run, .run 0 .run,
        .run 0 (.writev (.accepted 1 .EAGAIN)), .run 0 .run, .rearm 0 true, .deliver,
        .execute 1, .run 1 .run, .send 0 ⟨200, 1⟩, .run 0 .run, .run 0 .run, .run 0 .run,
        .run 1 .run, .send 2 ⟨300, 1⟩, .run 2 .run, .run 2 .run, .run 2 .run] := by
  obtain ⟨s, hrun, hfirst, hsecond⟩ : ∃ s ∈ (machine (Fin 3) 0).exec (start (Fin 3) oneSession)
      [.send 0 ⟨100, 1⟩, .run 0 .run, .run 0 .run, .run 0 .run, .run 0 .run, .run 0 .run,
        .run 0 (.writev (.accepted 1 .EAGAIN)), .run 0 .run, .rearm 0 true, .deliver,
        .execute 1, .run 1 .run, .send 0 ⟨200, 1⟩, .run 0 .run, .run 0 .run, .run 0 .run,
        .run 1 .run, .send 2 ⟨300, 1⟩, .run 2 .run, .run 2 .run, .run 2 .run],
      (s.thread 0).unwritten false = true ∧ (s.thread 2).unwritten false = true := by
    decide +kernel
  intro halways
  exact absurd ((halways _ s (List.prefix_refl _) hrun).2 0 2 hfirst hsecond) (by decide)

end CoreServer
