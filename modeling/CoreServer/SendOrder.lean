import CoreServer.SendOwner

/-!
# The order of the bytes of concurrent sends

Any number of threads send on one session, and `writev` accepts all that it is offered.  Then
what the socket has accepted, the batch that the holder of `mIsSending` has taken, and the queue
are together what has been sent, in the order in which the packets came into the queue.
-/

namespace CoreServer

/-- The packets that a thread in `DoSend` has taken from the queue and not yet written. -/
def SendPC.batch : SendPC → List IoVec
  | doSend _ (.checkFD sendPackets) | doSend _ (.writevArgs sendPackets)
  | doSend _ (.writev sendPackets _) => sendPackets
  | _ => []

/-- The kernel accepts all the bytes of `sendPackets`, or the call is interrupted. -/
def WritevResult.Whole (sendPackets : List IoVec) : WritevResult → Prop
  | accepted count _ => count = (sendPackets.map IoVec.iov_len).sum
  | failed errno => errno = .EINTR

instance (sendPackets : List IoVec) : ∀ w : WritevResult, Decidable (w.Whole sendPackets)
  | .accepted _ _ => inferInstanceAs (Decidable (_ = _))
  | .failed _ => inferInstanceAs (Decidable (_ = _))

namespace SendRun

/-- The total does not wrap round if it is an `Int32`. -/
lemma totalSendBytes_eq_sum {sendPackets : List IoVec}
    (h : (sendPackets.map IoVec.iov_len).sum < 2 ^ 31) :
    totalSendBytes sendPackets = (sendPackets.map IoVec.iov_len).sum := by
  rw [totalSendBytes_eq]
  exact Int.bmod_eq_of_le (by omega) (by omega)

end SendRun

/-- The count of a whole `writev` is the total, as Linux does not transfer so many bytes at once
that the total wraps round. -/
lemma ServerMemory.toInt32_of_whole {m : ServerMemory} {fd : SocketFD} {sendPackets : List IoVec}
    {count : ℕ} {errno : Errno}
    (hpossible : m.WritevPossible fd sendPackets (.accepted count errno))
    (hwhole : (WritevResult.accepted count errno).Whole sendPackets) :
    toInt32 count = count ∧ SendRun.totalSendBytes sendPackets = count := by
  obtain rfl : count = _ := hwhole
  obtain ⟨-, -, -, hmax⟩ := hpossible
  rw [sMAX_RW_COUNT] at hmax
  exact ⟨Int.bmod_eq_of_le (by omega) (by omega), SendRun.totalSendBytes_eq_sum (by omega)⟩

/-- After a whole `writev` the batch is done with; after an interrupted one it is offered
again. -/
lemma DoSendPC.afterWritev_of_whole {m : ServerMemory} {fd : SocketFD} {sendPackets : List IoVec}
    {w : WritevResult} (hpossible : m.WritevPossible fd sendPackets w)
    (hwhole : w.Whole sendPackets) :
    (afterWritev sendPackets w = clear ∧ w.count = (sendPackets.map IoVec.iov_len).sum) ∨
      (afterWritev sendPackets w = checkFD sendPackets ∧ w.count = 0) := by
  cases w with
  | accepted count errno =>
    obtain ⟨hresult, htotal⟩ := ServerMemory.toInt32_of_whole hpossible hwhole
    refine Or.inl ⟨?_, hwhole⟩
    simp only [afterWritev, WritevResult.value, hresult, htotal]
    rw [if_neg (by omega), if_pos trivial]
  | failed errno =>
    obtain rfl : errno = _ := hwhole
    exact Or.inr ⟨rfl, rfl⟩

/-- What the application has asked to send on a session, in the order in which the calls came
into `mPacketMutex`, and what the socket of the session has accepted. -/
structure SendLog (β : Type) where
  sent : List β
  wrote : List β
deriving DecidableEq

namespace SendLog

variable {β : Type}

/-- The log of a session on which nothing has been sent. -/
def empty : SendLog β := ⟨[], []⟩

/-- The log of the session in the slot `i` after the step of a thread that stands at `pc`. -/
def record (mem : ℤ → β) (i : ℤ) (log : SendLog β) : SendPC → SendInput → SendLog β
  | .push slot packet, _ =>
    if slot = i then { log with sent := log.sent ++ packet.bytes mem } else log
  | .doSend slot (.writev sendPackets _), .writev w =>
    if slot = i then
      { log with wrote := log.wrote ++ (SendRun.bytesOf mem sendPackets).take w.count }
    else log
  | _, _ => log

variable {mem : ℤ → β} {i : ℤ} {log : SendLog β}

/-- Nothing is recorded of a thread that has no pointer to the session. -/
lemma record_of_slot_ne {pc : SendPC} {input : SendInput} (h : pc.slot ≠ some i) :
    record mem i log pc input = log := by
  unfold record
  split
  · exact if_neg fun heq => h (congrArg some heq)
  · exact if_neg fun heq => h (congrArg some heq)
  · rfl

end SendLog

namespace ServerMemory

variable {β : Type} {m m' : ServerMemory} {pc pc' : SendPC}

/-- How a step of a thread that sends changes the batch of the holder of `mIsSending`, the queue,
and the log of the session in the slot `i`. -/
inductive StreamChange (mem : ℤ → β) (i : ℤ) (t t' : Session) (log log' : SendLog β) :
    SendPC → SendPC → Prop
  | queues {pc pc' : SendPC} (packets : List IoVec)
      (hholds : pc'.holds = some i ↔ pc.holds = some i)
      (hbatch : pc.holds = some i → pc'.batch = pc.batch)
      (hpackets : t'.mPackets = t.mPackets ++ packets) (hwrote : log'.wrote = log.wrote)
      (hsent : log'.sent = log.sent ++ SendRun.bytesOf mem packets) :
    StreamChange mem i t t' log log' pc pc'
  | gets (hsending : t.mIsSending = false) (hpackets : t'.mPackets = t.mPackets)
      (hlog : log' = log) : StreamChange mem i t t' log log' (.testAndSet i) (.doSend i .swap)
  | takes {pc' : SendPC} (hholds : pc'.holds = some i) (hbatch : pc'.batch = t.mPackets)
      (hpackets : t'.mPackets = []) (hlog : log' = log) :
    StreamChange mem i t t' log log' (.doSend i .swap) pc'
  | writes {pc pc' : SendPC} (hholds : pc.holds = some i) (hholds' : pc'.holds = some i)
      (hbatch : pc'.batch = []) (hpackets : t'.mPackets = t.mPackets)
      (hwrote : log'.wrote = log.wrote ++ SendRun.bytesOf mem pc.batch)
      (hsent : log'.sent = log.sent) : StreamChange mem i t t' log log' pc pc'
  | clears (hpackets : t'.mPackets = t.mPackets) (hlog : log' = log) :
    StreamChange mem i t t' log log' (.doSend i .clear) .idle

/-- A step after which the holders, their batches, the queue and the log are the same. -/
lemma StreamChange.same {mem : ℤ → β} {i : ℤ} {t t' : Session} {log log' : SendLog β}
    {pc pc' : SendPC} (hholds : pc'.holds = some i ↔ pc.holds = some i)
    (hbatch : pc.holds = some i → pc'.batch = pc.batch) (hpackets : t'.mPackets = t.mPackets)
    (hlog : log' = log) : StreamChange mem i t t' log log' pc pc' :=
  .queues [] hholds hbatch (by rw [hpackets, List.append_nil]) (by rw [hlog])
    (by rw [hlog, SendRun.bytesOf_nil, List.append_nil])

/-- A step without a pointer to the session. -/
lemma StreamChange.of_slot_ne {mem : ℤ → β} {log : SendLog β} {input : SendInput}
    (h : SendMoves m pc m' pc') {i : ℤ} (hi : 0 ≤ i) (hslot : pc.slot ≠ some i) :
    StreamChange mem i (m.session i) (m'.session i) log (log.record mem i pc input) pc pc' := by
  rw [h.session_of_slot_ne hi hslot, SendLog.record_of_slot_ne hslot]
  have hold : pc.holds ≠ some i := fun h => hslot (SendPC.slot_of_holds h)
  refine .same ⟨fun hnew => ?_, fun h => absurd h hold⟩ (fun h => absurd h hold) rfl rfl
  rcases h.of_slot_ne hslot with hslot' | ⟨packet, rfl⟩
  · exact absurd (SendPC.slot_of_holds hnew) hslot'
  · cases hnew

/-- A step in `DoSend` of an open session that the thread is not about to close, and whose
batch it is not about to cut. -/
lemma DoSendMoves.streamChange {mem : ℤ → β} {log : SendLog β} {i : ℤ} {pc : DoSendPC}
    {pc' : Option DoSendPC} {input : SendInput} (h : DoSendMoves m i pc m' pc')
    (hopen : (m.session i).mSessionFD ≠ sINVALID_SOCKET_FD)
    (hcloses : (SendPC.doSend i pc).closes ≠ some i) (hcuts : (SendPC.doSend i pc).cuts ≠ some i)
    (hdisconnect : ∀ dpc failed, pc ≠ .disconnect dpc failed)
    (hwritev : ∀ sendPackets fd, pc = .writev sendPackets fd →
      ∃ w, input = .writev w ∧ w.Whole sendPackets ∧ m.WritevPossible fd sendPackets w ∧
        pc' = some (DoSendPC.afterWritev sendPackets w)) :
    StreamChange mem i (m.session i) (m'.session i) log (log.record mem i (.doSend i pc) input)
      (.doSend i pc) (pc'.elim .idle fun pc' => .doSend i pc') := by
  cases h with
  | swapEmpty hin hpackets =>
    rw [session_updateSession_self hin.1]
    exact .takes rfl hpackets.symm rfl rfl
  | swap hin hpackets =>
    rw [session_updateSession_self hin.1]
    exact .takes rfl rfl rfl rfl
  | fdInvalid hfd => exact absurd hfd hopen
  | fdValid hfd => exact .same Iff.rfl (fun _ => rfl) rfl rfl
  | writevArgs => exact .same Iff.rfl (fun _ => rfl) rfl rfl
  | @writev sendPackets fd w' hw' =>
    obtain ⟨w, rfl, hwhole, hw, hpc'⟩ := hwritev sendPackets fd rfl
    rw [hpc']
    rcases DoSendPC.afterWritev_of_whole hw hwhole with ⟨heq, hcount⟩ | ⟨heq, hcount⟩
    · rw [heq]
      refine .writes rfl rfl rfl rfl ?_ ?_
      · simp only [SendLog.record, if_true, hcount, SendPC.batch]
        rw [List.take_of_length_le (SendRun.length_bytesOf mem sendPackets).le]
      · simp only [SendLog.record, if_true]
    · rw [heq]
      refine .same Iff.rfl (fun _ => rfl) rfl ?_
      simp only [SendLog.record, if_true, hcount, List.take_zero, List.append_nil]
  | clear hin =>
    rw [session_updateSession_self hin.1]
    exact .clears rfl rfl
  | giveUp hin => exact absurd rfl hcloses
  | disconnect hmoves | disconnected hmoves => exact absurd rfl (hdisconnect _ _)
  | addPackets job hin => exact absurd rfl hcuts

/-- A thread that is about to close a session was so before, has found it closed, or comes from
`writev`. -/
lemma SendMoves.closes_cases (h : SendMoves m pc m' pc') {i : ℤ} (hpc' : pc'.closes = some i) :
    pc.closes = some i ∨ (m.session i).mSessionFD = sINVALID_SOCKET_FD ∨
      ∃ sendPackets fd, pc = .doSend i (.writev sendPackets fd) := by
  have hslot := SendPC.slot_of_closes hpc'
  cases h with
  | doSend hmoves =>
    obtain rfl := Option.some.inj hslot
    generalize hpc : (some _ : Option DoSendPC) = opc at hmoves
    cases hmoves with
    | fdInvalid hfd => exact Or.inr (Or.inl hfd)
    | writev w hw => exact Or.inr (Or.inr ⟨_, _, rfl⟩)
    | giveUp hin => exact Or.inl rfl
    | disconnect hmoves =>
      obtain rfl := Option.some.inj hpc
      cases hmoves <;> cases hpc'
    | disconnected hmoves =>
      rcases DoSendPC.afterDisconnect_cases hpc.symm with rfl | ⟨sendPackets, rfl⟩ <;> cases hpc'
    | clear hin | addPackets job hin => cases hpc
    | swapEmpty hin hpackets | swap hin hpackets | fdValid hfd | writevArgs =>
      obtain rfl := Option.some.inj hpc
      cases hpc'
  | _ => cases hpc'

/-- **How a step of a thread that sends changes the stream of an open session.** -/
theorem SendMoves.streamChange {mem : ℤ → β} {log : SendLog β} {i : ℤ} {input : SendInput}
    (h : SendMoves m pc m' pc') (hi : 0 ≤ i)
    (hopen : (m.session i).mSessionFD ≠ sINVALID_SOCKET_FD) (hcloses : pc.closes ≠ some i)
    (hcuts : pc.cuts ≠ some i) (hdisconnect : ∀ dpc failed, pc ≠ .doSend i (.disconnect dpc failed))
    (hwritev : ∀ sendPackets fd, pc = .doSend i (.writev sendPackets fd) →
      ∃ w, input = .writev w ∧ w.Whole sendPackets ∧ m.WritevPossible fd sendPackets w ∧
        pc' = .doSend i (DoSendPC.afterWritev sendPackets w)) :
    StreamChange mem i (m.session i) (m'.session i) log (log.record mem i pc input) pc pc' := by
  by_cases hslot : pc.slot = some i
  · cases pc with
    | idle => cases hslot
    | getSession sessionID packet => cases hslot
    | push slot packet =>
      obtain rfl := Option.some.inj hslot
      cases h with
      | push hin =>
        rw [session_updateSession_self hi]
        refine .queues [packet] ⟨fun h => (by cases h), fun h => (by cases h)⟩
          (fun h => by cases h) rfl ?_ ?_
        · simp only [SendLog.record, if_true]
        · simp [SendLog.record, SendRun.bytesOf]
    | testAndSet slot =>
      obtain rfl := Option.some.inj hslot
      cases h with
      | alreadySet hin hsending =>
        rw [session_updateSession_self hi]
        exact .same ⟨fun h => (by cases h), fun h => (by cases h)⟩ (fun h => by cases h) rfl rfl
      | set hin hsending =>
        rw [session_updateSession_self hi]
        exact .gets hsending rfl rfl
    | doSend slot dpc =>
      obtain rfl := Option.some.inj hslot
      obtain ⟨dpc', hmoves, rfl⟩ := h.of_doSend
      refine hmoves.streamChange hopen hcloses hcuts
        (fun dpc failed heq => hdisconnect dpc failed (congrArg _ heq)) fun sendPackets fd hpc => ?_
      obtain ⟨w, hinput, hwhole, hw, hnext⟩ := hwritev sendPackets fd (congrArg _ hpc)
      refine ⟨w, hinput, hwhole, hw, ?_⟩
      cases dpc' with
      | none => cases hnext
      | some dpc' => exact congrArg some (SendPC.doSend.inj hnext).2
    | disconnect slot dpc =>
      obtain rfl := Option.some.inj hslot
      have hkept : (m'.session slot).mPackets = (m.session slot).mPackets ∧ pc'.holds = none := by
        cases h with
        | disconnect hmoves | disconnected hmoves =>
          refine ⟨?_, rfl⟩
          rcases hmoves.session hi with heq | ⟨-, -, heq⟩ <;> rw [heq]
          rfl
      obtain ⟨hpackets, hholds⟩ := hkept
      exact .same (by rw [hholds]; exact ⟨fun h => (by cases h), fun h => (by cases h)⟩)
        (fun h => by cases h) hpackets rfl
  · exact .of_slot_ne h hi hslot

end ServerMemory

namespace ServerRun

variable {n : ℕ} {κ β : Type} {s s' : ServerRun n κ} {mem : ℤ → β} {i : ℤ} {log : SendLog β}

/-- The log of the session in the slot `i` after a step. -/
def record (mem : ℤ → β) (i : ℤ) (s : ServerRun n κ) (a : RunStep n κ) (log : SendLog β) :
    SendLog β :=
  match a with
  | .sender k input => log.record mem i (s.sender k) input
  | _ => log

/-- `writev` accepts all that it is offered of the session in the slot `i`. -/
def WritesWhole (i : ℤ) (s : ServerRun n κ) : RunStep n κ → Prop
  | .sender k (.writev w) => ∀ q ∈ (s.sender k).offers, q.1 = i → w.Whole q.2
  | _ => True

instance (i : ℤ) (s : ServerRun n κ) : ∀ a : RunStep n κ, Decidable (s.WritesWhole i a)
  | .sender _ (.writev _) => inferInstanceAs (Decidable (∀ _ ∈ _, _))
  | .sender _ .run => inferInstanceAs (Decidable True)
  | .pool _ | .job _ _ | .start _ | .send _ _ _ | .disconnect _ _ =>
    inferInstanceAs (Decidable True)

/-- `batch` is what the holder of `mIsSending` has still to write; if nobody holds the flag it
is empty. -/
structure Batch (s : ServerRun n κ) (i : ℤ) (batch : List IoVec) : Prop where
  held : ∀ k, (s.sender k).holds = some i → (s.sender k).batch = batch
  nobody : (∀ k, (s.sender k).holds ≠ some i) → batch = []

/-- At most one thread is in `DoSend` with `mIsSending` set, and what has been written, the batch
of that thread and the queue are what has been sent. -/
structure InOrder (mem : ℤ → β) (i : ℤ) (s : ServerRun n κ) (log : SendLog β) : Prop where
  unique : ∀ k k', (s.sender k).holds = some i → (s.sender k').holds = some i → k = k'
  stream : ∃ batch, s.Batch i batch ∧ log.wrote ++ SendRun.bytesOf mem batch ++
    SendRun.bytesOf mem (s.session i).mPackets = log.sent
  /-- It is the socket of the session that is written to. -/
  socket : ∀ k sendPackets fd, s.sender k = .doSend i (.writev sendPackets fd) →
    fd = (s.session i).mSessionFD

/-- The invariant. -/
structure Ordered (mem : ℤ → β) (i : ℤ) (s : ServerRun n κ) (log : SendLog β) : Prop where
  swapped : s.Swapped
  fresh : ¬ s.Added i → log = .empty
  not_closing : s.Added i → (s.session i).mSessionFD ≠ sINVALID_SOCKET_FD → ¬ s.Closing i
  owned : s.Added i → (s.session i).mSessionFD ≠ sINVALID_SOCKET_FD → s.Owned i
  inOrder : s.Added i → (s.session i).mSessionFD ≠ sINVALID_SOCKET_FD → s.InOrder mem i log

lemma ordered_start {memory : ℕ → Session} {maxSessions : ℕ} {uniqueNumber : BitVec 64}
    {listenFD : SocketFD} :
    (start n κ memory maxSessions uniqueNumber listenFD).Ordered mem i .empty := by
  have hnone : ¬ (start n κ memory maxSessions uniqueNumber listenFD).Added i := by
    rintro ⟨id, hid, -⟩
    cases hid
  exact ⟨swapped_start, fun _ => rfl, fun hi => absurd hi hnone, fun hi => absurd hi hnone,
    fun hi => absurd hi hnone⟩

lemma Batch.frame {batch : List IoVec} (h : s.Batch i batch)
    (hholds : ∀ k, (s'.sender k).holds = some i ↔ (s.sender k).holds = some i)
    (hbatch : ∀ k, (s.sender k).holds = some i → (s'.sender k).batch = (s.sender k).batch) :
    s'.Batch i batch where
  held k hk := (hbatch k ((hholds k).1 hk)).trans (h.held k ((hholds k).1 hk))
  nobody hnone := h.nobody fun k hk => hnone k ((hholds k).2 hk)

/-- The batch of a thread that holds the flag alone. -/
lemma Batch.of_holds {k : κ} (hk : (s.sender k).holds = some i)
    (hunique : ∀ k', (s.sender k').holds = some i → k' = k) : s.Batch i (s.sender k).batch where
  held k' hk' := by rw [hunique k' hk']
  nobody hnone := absurd hk (hnone k)

lemma Batch.of_nobody (h : ∀ k, (s.sender k).holds ≠ some i) : s.Batch i [] where
  held k hk := absurd hk (h k)
  nobody _ := rfl

variable [DecidableEq κ] {a : RunStep n κ}

/-- **A step of a thread that sends keeps the stream.** -/
theorem InOrder.stream_step {k : κ} {pc : SendPC} {log' : SendLog β} (h : s.SendMove s' k pc)
    (howned : s.Owned i) (horder : s.InOrder mem i log)
    (hchange : ServerMemory.StreamChange mem i (s.session i) (s'.session i) log log'
      (s.sender k) pc) :
    ∃ batch, s'.Batch i batch ∧ log'.wrote ++ SendRun.bytesOf mem batch ++
      SendRun.bytesOf mem (s'.session i).mPackets = log'.sent := by
  obtain ⟨batch, hbatch, heq⟩ := horder.stream
  -- if the thread holds the flag, nobody else does afterwards
  have honly : (s.sender k).holds = some i → ∀ k', (s'.sender k').holds = some i → k' = k := by
    intro hk k' hk'
    by_contra hne
    exact hne (howned.unique k' k (h.sender_of_ne hne ▸ hk') hk)
  generalize hpc : s.sender k = pc₀ at hchange honly
  cases hchange with
  | queues packets hholds hkept hpackets hwrote hsent =>
    refine ⟨batch, hbatch.frame ?_ ?_, ?_⟩
    · exact h.forall_sender (p := fun pc pc' => pc'.holds = some i ↔ pc.holds = some i)
        (hpc ▸ hholds) fun _ => Iff.rfl
    · exact h.forall_sender (p := fun pc pc' => pc.holds = some i → pc'.batch = pc.batch)
        (hpc ▸ hkept) fun _ _ => rfl
    · rw [hpackets, hwrote, hsent, SendRun.bytesOf_append, ← heq, List.append_assoc,
        List.append_assoc, List.append_assoc]
  | gets hsending hpackets hlog =>
    -- the flag was clear, so nobody held it
    have hnobody : ∀ k', (s.sender k').holds ≠ some i := fun k' hk' =>
      Bool.false_ne_true (hsending.symm.trans (howned.sending.2 ⟨k', hk'⟩))
    obtain rfl := hbatch.nobody hnobody
    refine ⟨[], ⟨fun k' hk' => ?_, fun _ => rfl⟩, by rw [hpackets, hlog, heq]⟩
    rcases eq_or_ne k' k with rfl | hne
    · rw [h.sender_self]
      rfl
    · exact absurd (h.sender_of_ne hne ▸ hk') (hnobody k')
  | takes hholds hnew hpackets hlog =>
    have hold : (s.sender k).batch = batch := hbatch.held k (by rw [hpc]; rfl)
    obtain rfl : batch = [] := by rw [← hold, hpc]; rfl
    refine ⟨_, Batch.of_holds (k := k) (by rw [h.sender_self, hholds]) (honly rfl), ?_⟩
    rw [h.sender_self, hnew, hpackets, hlog, ← heq, SendRun.bytesOf_nil, List.append_nil,
      List.append_nil]
  | writes hholds hholds' hnew hpackets hwrote hsent =>
    obtain rfl : pc₀.batch = batch := hpc ▸ hbatch.held k (hpc ▸ hholds)
    refine ⟨_, Batch.of_holds (k := k) (by rw [h.sender_self, hholds']) (honly hholds), ?_⟩
    rw [h.sender_self, hnew, hpackets, hwrote, hsent, ← heq, SendRun.bytesOf_nil, List.append_nil]
  | clears hpackets hlog =>
    have hold : (s.sender k).batch = batch := hbatch.held k (by rw [hpc]; rfl)
    obtain rfl : batch = [] := by rw [← hold, hpc]; rfl
    refine ⟨[], Batch.of_nobody fun k' hk' => ?_, by rw [hpackets, hlog, heq]⟩
    obtain rfl := honly rfl k' hk'
    rw [h.sender_self] at hk'
    cases hk'

/-- A thread takes the socket for `writev` from the session. -/
lemma SendMove.socket {k : κ} {pc : SendPC} (h : s.SendMove s' k pc) {sendPackets : List IoVec}
    {fd : SocketFD} (hpc : pc = .doSend i (.writev sendPackets fd)) :
    fd = (s.session i).mSessionFD ∧ s'.session i = s.session i := by
  have hmoves := h.moves
  rw [hpc] at hmoves
  generalize s.sender k = pc₀ at hmoves
  rw [session, session]
  generalize s'.memory = m' at hmoves
  cases hmoves with
  | doSend hmoves =>
    generalize hnext : (some _ : Option DoSendPC) = opc at hmoves
    cases hmoves with
    | writevArgs =>
      obtain ⟨-, rfl⟩ := DoSendPC.writev.inj (Option.some.inj hnext)
      exact ⟨rfl, rfl⟩
    | writev w hw =>
      rcases DoSendPC.afterWritev_cases _ w with ⟨failed, heq⟩ | ⟨-, -, heq⟩ | heq |
        ⟨-, -, heq⟩ <;>
      · rw [heq] at hnext
        cases hnext
    | disconnected hmoves =>
      rcases DoSendPC.afterDisconnect_cases hnext.symm with heq | ⟨sendPackets, heq⟩ <;> cases heq
    | clear hin | addPackets job hin => cases hnext
    | swapEmpty hin hpackets | swap hin hpackets | fdInvalid hfd | fdValid hfd => cases hnext
    | giveUp hin => cases hnext
    | disconnect hmoves => cases hnext

omit [DecidableEq κ] in
/-- Nothing is recorded of a slot in which no session has been constructed. -/
lemma Life.record_eq (hs : s.Life) (hi : ¬ s.Added i) : s.record mem i a log = log := by
  unfold record
  split
  · exact SendLog.record_of_slot_ne fun hslot => hi (hs.sending _ i hslot)
  · rfl

omit [DecidableEq κ] in
/-- The outcome of a `writev` that accepts all that it is offered of the session. -/
lemma WritesWhole.outcome {k : κ} {pc : SendPC} {input : SendInput}
    (ha : s.WritesWhole i (.sender k input)) (hwritev : s.AnswersWritev k input pc)
    {sendPackets : List IoVec} {fd : SocketFD}
    (hpc : s.sender k = .doSend i (.writev sendPackets fd)) :
    ∃ w, input = .writev w ∧ w.Whole sendPackets ∧ s.memory.WritevPossible fd sendPackets w ∧
      pc = .doSend i (DoSendPC.afterWritev sendPackets w) := by
  obtain ⟨w, rfl, hpossible, hnext⟩ := hwritev i sendPackets fd hpc
  exact ⟨w, rfl, ha (i, sendPackets) (by rw [hpc]; rfl) rfl, hpossible, hnext⟩

/-- Nobody is about to close an open session. -/
lemma RunMoves.not_closing (h : s.RunMoves s' a) (ha : s.WritesWhole i a)
    (hopen : (s.session i).mSessionFD ≠ sINVALID_SOCKET_FD) (hclosing : ¬ s.Closing i) :
    ¬ s'.Closing i := by
  rintro ⟨k', hk'⟩
  have hcall : ∀ {k : κ} {pc : SendPC}, s.CallMove s' k pc → pc.closes ≠ some i → False := by
    intro k pc h hpc
    rcases eq_or_ne k' k with rfl | hne
    · exact hpc (h.sender_self ▸ hk')
    · exact hclosing ⟨k', h.sender_of_ne hne ▸ hk'⟩
  cases h with
  | quietPool h | quietStart h => exact hclosing ⟨k', h.sender_eq ▸ hk'⟩
  | send hadded h | disconnect hadded h => exact hcall h fun hpc => by cases hpc
  | job h => exact hclosing ⟨k', h.sender_eq ▸ hk'⟩
  | @sender k input pc h hwritev =>
    rcases eq_or_ne k' k with rfl | hne
    · rw [h.sender_self] at hk'
      rcases h.moves.closes_cases hk' with hold | hfd | ⟨sendPackets, fd, hpc⟩
      · exact hclosing ⟨k', hold⟩
      · exact hopen hfd
      · obtain ⟨w, -, hwhole, hpossible, rfl⟩ := ha.outcome hwritev hpc
        rcases DoSendPC.afterWritev_of_whole hpossible hwhole with ⟨heq, -⟩ | ⟨heq, -⟩ <;>
        · rw [heq] at hk'
          cases hk'
    · exact hclosing ⟨k', h.sender_of_ne hne ▸ hk'⟩

omit [DecidableEq κ] in
/-- A step that changes neither what the threads hold nor the queue. -/
lemma InOrder.stream_frame (horder : s.InOrder mem i log)
    (hholds : ∀ k, (s'.sender k).holds = some i ↔ (s.sender k).holds = some i)
    (hbatch : ∀ k, (s.sender k).holds = some i → (s'.sender k).batch = (s.sender k).batch)
    (hpackets : (s'.session i).mPackets = (s.session i).mPackets) :
    ∃ batch, s'.Batch i batch ∧ log.wrote ++ SendRun.bytesOf mem batch ++
      SendRun.bytesOf mem (s'.session i).mPackets = log.sent := by
  obtain ⟨batch, hheld, heq⟩ := horder.stream
  exact ⟨batch, hheld.frame hholds hbatch, by rw [hpackets, heq]⟩

/-- **One step keeps the stream of an open session.** -/
theorem InOrder.run_step (hs : s.Life) (h : s.RunMoves s' a) (ha : s.WritesWhole i a)
    (hi : s.Added i) (hswapped : s.Swapped)
    (hopen : (s.session i).mSessionFD ≠ sINVALID_SOCKET_FD) (hclosing : ¬ s.Closing i)
    (howned : s.Owned i) (horder : s.InOrder mem i log) :
    ∃ batch, s'.Batch i batch ∧ (s.record mem i a log).wrote ++ SendRun.bytesOf mem batch ++
      SendRun.bytesOf mem (s'.session i).mPackets = (s.record mem i a log).sent := by
  have hcall : ∀ {k : κ} {pc : SendPC}, s.CallMove s' k pc → pc.holds = none →
      ∃ batch, s'.Batch i batch ∧ log.wrote ++ SendRun.bytesOf mem batch ++
        SendRun.bytesOf mem (s'.session i).mPackets = log.sent := by
    intro k pc h hpc
    refine horder.stream_frame ?_ ?_ (by rw [h.session_eq])
    · exact h.forall_sender (p := fun pc pc' => pc'.holds = some i ↔ pc.holds = some i)
        (by rw [hpc]; exact Iff.rfl) fun _ => Iff.rfl
    · exact h.forall_sender (p := fun pc pc' => pc.holds = some i → pc'.batch = pc.batch)
        (fun hk => by cases hk) fun _ _ => rfl
  cases h with
  | quietPool h | quietStart h =>
    exact horder.stream_frame (fun k => by rw [h.sender_eq]) (fun k _ => by rw [h.sender_eq])
      (by rw [h.session_eq])
  | send hadded h | disconnect hadded h => exact hcall h rfl
  | job h =>
    exact horder.stream_frame (fun k => by rw [h.sender_eq]) (fun k _ => by rw [h.sender_eq])
      (h.sendMembers hs hi).2.1
  | @sender k input pc h hwritev =>
    refine horder.stream_step h howned (h.moves.streamChange hi.nonneg hopen ?_ ?_ ?_ ?_)
    · exact fun hpc => hclosing ⟨k, hpc⟩
    · exact howned.nobodyCuts k
    · -- behind its swap `Disconnect` has closed the session
      intro dpc failed hpc
      by_cases hdpc : dpc = .swap
      · exact hclosing ⟨k, by rw [hpc, hdpc]; rfl⟩
      · exact hopen (hswapped (.inr k) i dpc (by rw [disconnecting, hpc]; rfl) hdpc)
    · exact fun sendPackets fd => ha.outcome hwritev

/-- A thread that is about to call `writev` on an open session has its socket. -/
lemma InOrder.socket_step (hs : s.Life) (h : s.RunMoves s' a) (hi : s.Added i)
    (hopen' : (s'.session i).mSessionFD ≠ sINVALID_SOCKET_FD) (horder : s.InOrder mem i log)
    {k : κ} {sendPackets : List IoVec} {fd : SocketFD}
    (hk : s'.sender k = .doSend i (.writev sendPackets fd)) :
    fd = (s'.session i).mSessionFD := by
  rw [(h.mSessionFD_cases hs hi).resolve_right hopen']
  have hcall : ∀ {k' : κ} {pc : SendPC}, s.CallMove s' k' pc →
      pc ≠ .doSend i (.writev sendPackets fd) → fd = (s.session i).mSessionFD := by
    intro k' pc h hpc
    rcases eq_or_ne k k' with rfl | hne
    · exact absurd (h.sender_self ▸ hk) hpc
    · exact horder.socket k sendPackets fd (h.sender_of_ne hne ▸ hk)
  cases h with
  | quietPool h | quietStart h => exact horder.socket k sendPackets fd (h.sender_eq ▸ hk)
  | send hadded h | disconnect hadded h => exact hcall h fun hpc => by cases hpc
  | job h => exact horder.socket k sendPackets fd (h.sender_eq ▸ hk)
  | @sender k' input pc h =>
    rcases eq_or_ne k k' with rfl | hne
    · exact (h.socket (h.sender_self ▸ hk)).1
    · exact horder.socket k sendPackets fd (h.sender_of_ne hne ▸ hk)

omit [DecidableEq κ] in
/-- Nothing has been sent on a session that has just been constructed. -/
lemma InOrder.of_construct (hsender : s'.sender = s.sender) (hs : s.Life) (hi : ¬ s.Added i)
    {clientFD : SocketFD} {id : SessionID}
    (hsession : s'.session i = (s.session i).construct id clientFD) : s'.InOrder mem i .empty := by
  have hnobody : ∀ k, (s'.sender k).slot ≠ some i := fun k hk =>
    hi (hs.sending k i (hsender ▸ hk))
  refine ⟨fun k k' hk _ => absurd (SendPC.slot_of_holds hk) (hnobody k), ⟨[], ?_, ?_⟩, ?_⟩
  · exact Batch.of_nobody fun k hk => hnobody k (SendPC.slot_of_holds hk)
  · rw [hsession]
    rfl
  · exact fun k sendPackets fd hk => absurd (by rw [hk]; rfl) (hnobody k)

/-- **One step keeps the invariant.** -/
theorem Ordered.step (hs : s.Life) (hordered : s.Ordered mem i log) (ha : s.WritesWhole i a)
    (h : s.RunMoves s' a) : s'.Ordered mem i (s.record mem i a log) := by
  have hopen : s.Added i → (s'.session i).mSessionFD ≠ sINVALID_SOCKET_FD →
      (s.session i).mSessionFD ≠ sINVALID_SOCKET_FD := fun hold hopen' hfd =>
    hopen' (h.mSessionFD hs hold hfd)
  have hclosing : s'.Added i → (s'.session i).mSessionFD ≠ sINVALID_SOCKET_FD →
      ¬ s'.Closing i := by
    intro hi hopen'
    by_cases hold : s.Added i
    · exact h.not_closing ha (hopen hold hopen') (hordered.not_closing hold (hopen hold hopen'))
    · obtain ⟨hsender, -⟩ := h.of_new_added hs hold hi
      rintro ⟨k, hk⟩
      exact hold (hs.sending k i (SendPC.slot_of_closes (hsender ▸ hk)))
  have howned : s'.Added i → (s'.session i).mSessionFD ≠ sINVALID_SOCKET_FD → s'.Owned i := by
    intro hi hopen'
    by_cases hold : s.Added i
    · have howned := (hordered.owned hold (hopen hold hopen')).step hs h hold
        (hordered.not_closing hold (hopen hold hopen')) hordered.swapped (hopen hold hopen') ?_
      · exact howned.resolve_right (hclosing hi hopen')
      · rintro k sendPackets fd count errno rfl hpc hpossible
        obtain ⟨hresult, htotal⟩ := ServerMemory.toInt32_of_whole hpossible
          (ha (i, sendPackets) (by rw [hpc]; rfl) rfl)
        rw [hresult, htotal]
    · obtain ⟨hsender, clientFD, id, hsession⟩ := h.of_new_added hs hold hi
      exact .of_construct hs hsender hold hsession
  refine ⟨hordered.swapped.step hs h, fun hnew => ?_, hclosing, howned, fun hi hopen' => ?_⟩
  · have hold : ¬ s.Added i := fun hi => hnew (hi.of_subset h.subset)
    rw [hs.record_eq hold, hordered.fresh hold]
  · by_cases hold : s.Added i
    · have horder := hordered.inOrder hold (hopen hold hopen')
      exact ⟨(howned hi hopen').unique,
        horder.run_step hs h ha hold hordered.swapped (hopen hold hopen')
          (hordered.not_closing hold (hopen hold hopen'))
          (hordered.owned hold (hopen hold hopen')),
        fun k sendPackets fd hk => horder.socket_step hs h hold hopen' hk⟩
    · obtain ⟨hsender, clientFD, id, hsession⟩ := h.of_new_added hs hold hi
      rw [hs.record_eq hold, hordered.fresh hold]
      exact .of_construct hsender hs hold hsession

/-- As long as the session in the slot `i` is connected, its sends are in order. -/
def SendsInOrder (mem : ℤ → β) (i : ℤ) (p : ServerRun n κ × SendLog β) : Prop :=
  p.1.Added i → (p.1.session i).mSessionFD ≠ sINVALID_SOCKET_FD → p.1.InOrder mem i p.2

end ServerRun

/-- **Concurrent sends are in order.**  For any number of threads that send on a session, in every
run in which `writev` accepts all that it is offered of this session: while the session is
connected, at most one thread is in `DoSend` with `mIsSending` set, and what the socket has
accepted, the batch of that thread, and the queue are the buffers of all `Send` calls in the
order in which they came into `mPacketMutex`. -/
theorem server_sendsInOrder {n : ℕ} {κ β : Type} [DecidableEq κ] (mem : ℤ → β)
    (memory : ℕ → Session) {maxSessions : ℕ} (hmax : maxSessions < 65536)
    (uniqueNumber : BitVec 64) (listenFD : SocketFD) (i : ℤ) {as : List (RunStep n κ)}
    (has : (ServerRun.machine n κ).Along (ServerRun.WritesWhole i)
      (ServerRun.start n κ memory maxSessions uniqueNumber listenFD) as) :
    ((ServerRun.machine n κ).withHistory (ServerRun.record mem i)).Always
      (ServerRun.SendsInOrder mem i)
      (ServerRun.start n κ memory maxSessions uniqueNumber listenFD, .empty) as :=
  ServerRun.always_withHistory_of_moves (fun hs hordered ha h => hordered.step hs ha h)
    (fun hordered => hordered.inOrder) hmax ServerRun.ordered_start has

/-- Two threads send on one connection.  The first one is interrupted in `writev`; the second one
leaves a packet in the queue meanwhile, and sends it together with its next one. -/
def ServerRun.sendBehind : List (RunStep 2 (Fin 2)) :=
  ServerRun.connect ++ [.send 0 0 ⟨100, 2⟩, .sender 0 .run, .sender 0 .run, .sender 0 .run,
    .sender 0 .run, .send 1 0 ⟨200, 1⟩, .sender 1 .run, .sender 1 .run, .sender 1 .run,
    .sender 0 .run, .sender 0 .run, .sender 0 (.writev (.failed .EINTR)), .sender 0 .run,
    .sender 0 .run, .sender 0 (.writev (.accepted 2 .EINTR)), .sender 0 .run,
    .send 1 0 ⟨300, 1⟩, .sender 1 .run, .sender 1 .run, .sender 1 .run, .sender 1 .run,
    .sender 1 .run, .sender 1 .run, .sender 1 (.writev (.accepted 2 .EINTR)), .sender 1 .run]

/-- The packets of two threads, one of which leaves a packet to the other, are in order. -/
theorem server_sendsInOrder_sendBehind :
    ((ServerRun.machine 2 (Fin 2)).withHistory (ServerRun.record addressMemory 0)).Always
      (ServerRun.SendsInOrder addressMemory 0)
      (ServerRun.start 2 (Fin 2) (fun _ => Session.zeroMemory) 2 0 3, .empty)
      ServerRun.sendBehind :=
  server_sendsInOrder addressMemory _ (by decide) 0 3 0 (by decide +kernel)

end CoreServer
