import CoreServer.SendOwner

/-!
# Output that nobody sends

A thread that finds `mIsSending` set leaves its packet to the one that holds it.  The packet is
`Served` as long as the flag is set, or another thread has still to try to get it.  The holder
does not look at the queue again when it clears the flag, and nobody ever clears the flag after
a partial write; `LeavesNothing` says when a step does neither on an open session.
-/

namespace CoreServer

/-- The session on which a thread executes `Session::Send` or `DoSend`. -/
def SendPC.sends : SendPC → Option ℤ
  | push i _ | testAndSet i | doSend i _ => some i
  | _ => none

/-- The thread whose `writev` the kernel accepts, and the number of bytes. -/
def RunStep.accepted {n : ℕ} {κ : Type} : RunStep n κ → Option (κ × ℕ)
  | sender k (.writev (.accepted count _)) => some (k, count)
  | _ => none

namespace SendPC

variable {pc : SendPC} {i : ℤ}

lemma sends_of_holds (h : pc.holds = some i) : pc.sends = some i := by
  unfold holds at h
  split at h
  all_goals first | exact h | cases h

lemma sends_of_closes (h : pc.closes = some i) : pc.sends = some i := by
  unfold closes at h
  split at h
  all_goals first | exact h | cases h

lemma sends_of_tries (h : pc.tries = some i) : pc.sends = some i := by
  unfold tries at h
  split at h
  all_goals first | exact h | cases h

end SendPC

namespace ServerMemory

variable {m m' : ServerMemory} {pc pc' : SendPC}

/-- A thread that tries to get `mIsSending` gets it, or finds it set. -/
lemma SendMoves.of_tries (h : SendMoves m pc m' pc') {i : ℤ} (hpc : pc.tries = some i) :
    pc'.tries = some i ∨ (m'.session i).mIsSending = true := by
  unfold SendPC.tries at hpc
  split at hpc
  · obtain rfl := Option.some.inj hpc
    cases h with
    | push hin => exact Or.inl rfl
  · obtain rfl := Option.some.inj hpc
    cases h with
    | alreadySet hin hsending | set hin hsending =>
      right
      rw [session_updateSession_self hin.1]
      rfl
  · cases hpc

end ServerMemory

namespace ServerRun

variable {n : ℕ} {κ : Type} {s s' : ServerRun n κ}

/-- If `mIsSending` is clear, the queue is empty, or a thread has still to try to get the
flag. -/
def Served (s : ServerRun n κ) (i : ℤ) : Prop :=
  (s.session i).mIsSending = false → (s.session i).mPackets = [] ∨
    ∃ k, (s.sender k).tries = some i

/-- No output of an open session is left behind in the step: `writev` accepts all that it is
offered, and `DoSend` clears `mIsSending` at its end only when the queue is empty or another
thread has still to try to get the flag. -/
def LeavesNothing (s : ServerRun n κ) (a : RunStep n κ) : Prop :=
  (∀ p ∈ a.accepted, ∀ q ∈ (s.sender p.1).offers,
    (s.session q.1).mSessionFD ≠ sINVALID_SOCKET_FD →
      toInt32 p.2 = SendRun.totalSendBytes q.2) ∧
  (∀ k, a.thread = some (.inr k) → ∀ i ∈ (s.sender k).clears,
    (s.session i).mSessionFD ≠ sINVALID_SOCKET_FD →
      (s.session i).mPackets = [] ∨ ∃ k', (s.sender k').tries = some i)

instance [DecidableEq κ] [Fintype κ] (s : ServerRun n κ) (a : RunStep n κ) :
    Decidable (s.LeavesNothing a) :=
  inferInstanceAs (Decidable (_ ∧ _))

/-- The invariant: on an open session that nobody is about to close, the flag has an owner, and
the queue is served. -/
structure Attended (s : ServerRun n κ) : Prop where
  swapped : s.Swapped
  open_session : ∀ i, s.Added i → (s.session i).mSessionFD ≠ sINVALID_SOCKET_FD →
    s.Closing i ∨ s.Owned i ∧ s.Served i

lemma attended_start {memory : ℕ → Session} {maxSessions : ℕ} {uniqueNumber : BitVec 64}
    {listenFD : SocketFD} : (start n κ memory maxSessions uniqueNumber listenFD).Attended where
  swapped := swapped_start
  open_session i hi := by
    obtain ⟨id, hid, -⟩ := hi
    exact absurd hid List.not_mem_nil

/-- The queue of a session that has just been constructed is empty. -/
lemma Served.of_construct {i : ℤ} {id : SessionID} {clientFD : SocketFD}
    (hsession : s'.session i = (s.session i).construct id clientFD) : s'.Served i := by
  intro _
  rw [hsession]
  exact Or.inl rfl

/-- A step at which no thread gives up trying. -/
lemma Served.frame {i : ℤ} (h : s.Served i)
    (htries : ∀ k, (s.sender k).tries = some i → (s'.sender k).tries = some i)
    (hsending : (s'.session i).mIsSending = (s.session i).mIsSending)
    (hpackets : (s'.session i).mPackets = (s.session i).mPackets) : s'.Served i := by
  intro hfalse
  rw [hpackets]
  exact (h (hsending ▸ hfalse)).imp_right (Exists.imp htries)

variable [DecidableEq κ] {a : RunStep n κ}

/-- The queue of a session gets a packet from the `Send` that is about to put it there. -/
lemma SendMove.mPackets_eq_nil {k : κ} {pc : SendPC} (h : s.SendMove s' k pc) {i : ℤ} (hi : 0 ≤ i)
    (hpush : ∀ packet, s.sender k ≠ .push i packet) (hpackets : (s.session i).mPackets = []) :
    (s'.session i).mPackets = [] := by
  have hchange := h.moves.session hi
  rw [session] at hpackets ⊢
  generalize s'.memory.session i = t at hchange ⊢
  generalize s.sender k = spc at hchange hpush
  cases hchange with
  | pushPacket packet => exact absurd rfl (hpush packet)
  | takePackets => rfl
  | takeFD hpc => exact hpackets
  | testAndSet => exact hpackets
  | clear hpc => exact hpackets
  | same => exact hpackets
  | setSendJob sendPackets result job => exact hpackets

/-- **A step of a thread that sends on an open session** leaves no packet without a thread that
will send it. -/
theorem Served.send_step {k : κ} {pc : SendPC} (h : s.SendMove s' k pc) {i : ℤ} (hi : 0 ≤ i)
    (hserved : s.Served i) (hclosing : ¬ s.Closing i)
    (hclear : s.sender k = .doSend i .clear →
      (s.session i).mPackets = [] ∨ ∃ k', (s.sender k').tries = some i) : s'.Served i := by
  intro hfalse
  by_cases hpush : ∃ packet, s.sender k = .push i packet
  · -- the thread that has queued a packet tries next
    obtain ⟨packet, hpush⟩ := hpush
    have hmoves := h.moves
    rw [hpush] at hmoves
    have htries := hmoves.of_tries rfl
    refine Or.inr ⟨k, ?_⟩
    rw [h.sender_self]
    exact htries.resolve_right fun hset => Bool.false_ne_true (hfalse.symm.trans hset)
  · have hkept : (∃ k', (s.sender k').tries = some i) → ∃ k', (s'.sender k').tries = some i := by
      rintro ⟨k', hk'⟩
      refine ⟨k', ?_⟩
      rcases eq_or_ne k' k with rfl | hne
      · rw [h.sender_self]
        exact (h.moves.of_tries hk').resolve_right fun hset =>
          Bool.false_ne_true (hfalse.symm.trans hset)
      · rw [h.sender_of_ne hne, hk']
    have hempty : (s.session i).mPackets = [] → (s'.session i).mPackets = [] :=
      h.mPackets_eq_nil hi fun packet hpc => hpush ⟨packet, hpc⟩
    rcases h.mIsSending hi with heq | ⟨htrue, -⟩ | ⟨-, hpc | ⟨failed, hpc⟩⟩
    · exact (hserved (heq ▸ hfalse)).imp hempty hkept
    · exact absurd (hfalse.symm.trans htrue) Bool.false_ne_true
    · exact (hclear hpc).imp hempty hkept
    · exact absurd ⟨k, by rw [hpc]; rfl⟩ hclosing

/-- **One step.** -/
theorem Served.step (hs : s.Life) (h : s.RunMoves s' a) (ha : s.LeavesNothing a) {i : ℤ}
    (hi : s.Added i) (hserved : s.Served i) (hclosing : ¬ s.Closing i)
    (hopen : (s.session i).mSessionFD ≠ sINVALID_SOCKET_FD) : s'.Served i := by
  have hcall : ∀ {k : κ} {pc : SendPC}, s.CallMove s' k pc → s'.Served i := by
    intro k pc h
    refine hserved.frame ?_ (by rw [h.session_eq]) (by rw [h.session_eq])
    exact h.forall_sender (p := fun pc pc' => pc.tries = some i → pc'.tries = some i)
      (fun htries => by cases htries) fun _ => id
  cases h with
  | quietPool h | quietStart h =>
    refine hserved.frame (fun k hk => ?_) (by rw [h.session_eq]) (by rw [h.session_eq])
    rw [h.sender_eq, hk]
  | send hadded h | disconnect hadded h => exact hcall h
  | job h =>
    obtain ⟨hsending, hpackets, -⟩ := h.sendMembers hs hi
    refine hserved.frame (fun k hk => ?_) hsending hpackets
    rw [h.sender_eq, hk]
  | @sender k input pc h =>
    refine hserved.send_step h hi.nonneg hclosing fun hpc => ?_
    exact ha.2 k rfl i (by rw [hpc]; rfl) hopen

/-- **One step keeps the invariant.** -/
theorem Attended.step (hs : s.Life) (hattended : s.Attended) (ha : s.LeavesNothing a)
    (h : s.RunMoves s' a) : s'.Attended where
  swapped := hattended.swapped.step hs h
  open_session i hi hopen' := by
    by_cases hold : s.Added i
    · have hopen : (s.session i).mSessionFD ≠ sINVALID_SOCKET_FD := fun hfd =>
        hopen' (h.mSessionFD hs hold hfd)
      by_cases hclosing : s.Closing i
      · exact Or.inl ((h.closing hold.nonneg hclosing).resolve_right hopen')
      · obtain ⟨howned, hserved⟩ :=
          (hattended.open_session i hold hopen).resolve_left hclosing
        have hserved' := hserved.step hs h ha hold hclosing hopen
        have howned' := howned.step hs h hold hclosing hattended.swapped hopen
          fun k sendPackets fd count errno heq hpc _ =>
            ha.1 (k, count) (by rw [heq]; rfl) (i, sendPackets) (by rw [hpc]; rfl) hopen
        exact howned'.symm.imp_right fun howned' => ⟨howned', hserved'⟩
    · obtain ⟨hsender, clientFD, id, hsession⟩ := h.of_new_added hs hold hi
      exact Or.inr ⟨.of_construct hs hsender hold hsession, .of_construct hsession⟩

/-- An open session on which nobody executes `Send` or `DoSend` has no output left. -/
def NothingStranded (s : ServerRun n κ) : Prop :=
  ∀ i, s.Added i → (s.session i).mSessionFD ≠ sINVALID_SOCKET_FD →
    (∀ k, (s.sender k).sends ≠ some i) →
      (s.session i).mPackets = [] ∧ (s.session i).mSendJob.mSendPackets = [] ∧
        (s.session i).mIsSending = false

omit [DecidableEq κ] in
lemma Attended.nothingStranded (hattended : s.Attended) : s.NothingStranded := by
  intro i hi hopen hnobody
  rcases hattended.open_session i hi hopen with ⟨k, hk⟩ | ⟨howned, hserved⟩
  · exact absurd (SendPC.sends_of_closes hk) (hnobody k)
  · have hsending : (s.session i).mIsSending = false := by
      rw [← Bool.not_eq_true, howned.sending]
      rintro ⟨k, hk⟩
      exact hnobody k (SendPC.sends_of_holds hk)
    refine ⟨(hserved hsending).resolve_right ?_, howned.nothingLeft, hsending⟩
    rintro ⟨k, hk⟩
    exact hnobody k (SendPC.sends_of_tries hk)

end ServerRun

/-- **When no output is stranded.**  In every run none of whose steps leaves output behind, an
open session on which no thread executes `Send` or `DoSend` has nothing left to send. -/
theorem server_nothingStranded {n : ℕ} {κ : Type} [DecidableEq κ] (memory : ℕ → Session)
    {maxSessions : ℕ} (hmax : maxSessions < 65536) (uniqueNumber : BitVec 64)
    (listenFD : SocketFD) {as : List (RunStep n κ)}
    (has : (ServerRun.machine n κ).Along ServerRun.LeavesNothing
      (ServerRun.start n κ memory maxSessions uniqueNumber listenFD) as) :
    (ServerRun.machine n κ).Always ServerRun.NothingStranded
      (ServerRun.start n κ memory maxSessions uniqueNumber listenFD) as :=
  ServerRun.always_of_moves (fun hs hattended ha h => hattended.step hs ha h)
    (fun _ hattended => hattended.nothingStranded) hmax ServerRun.attended_start has

/-- Two threads send on one connection.  The second one queues its packet when the first one has
already taken the queue, and gets the flag when the first one has cleared it. -/
def ServerRun.sendInTurn : List (RunStep 2 (Fin 2)) :=
  ServerRun.connect ++ [.send 0 0 ⟨100, 2⟩, .sender 0 .run, .sender 0 .run, .sender 0 .run,
    .sender 0 .run, .send 1 0 ⟨200, 1⟩, .sender 1 .run, .sender 1 .run, .sender 0 .run,
    .sender 0 .run, .sender 0 (.writev (.accepted 2 .EAGAIN)), .sender 0 .run, .sender 1 .run,
    .sender 1 .run, .sender 1 .run, .sender 1 .run,
    .sender 1 (.writev (.accepted 1 .EAGAIN)), .sender 1 .run]

/-- The packets of two threads that take turns are all sent. -/
theorem server_nothingStranded_sendInTurn :
    (ServerRun.machine 2 (Fin 2)).Always ServerRun.NothingStranded
      (ServerRun.start 2 (Fin 2) (fun _ => Session.zeroMemory) 2 0 3) ServerRun.sendInTurn :=
  server_nothingStranded _ (by decide) 0 3 (by decide +kernel)

/-- The kernel accepts one of the two bytes of a packet. -/
def ServerRun.partialWrite : List (RunStep 2 Unit) :=
  ServerRun.connect ++ [.send () 0 ⟨100, 2⟩, .sender () .run, .sender () .run, .sender () .run,
    .sender () .run, .sender () .run, .sender () .run,
    .sender () (.writev (.accepted 1 .EAGAIN)), .sender () .run]

/-- After a partial write the rest of the packet stays in the send job, `mIsSending` stays set,
and nobody comes back for it. -/
theorem server_strands_after_partial_write :
    ¬ (ServerRun.machine 2 Unit).Always ServerRun.NothingStranded
      (ServerRun.start 2 Unit (fun _ => Session.zeroMemory) 2 0 3) ServerRun.partialWrite := by
  obtain ⟨s, hrun, ⟨hadded, hopen, hsender⟩, hsending⟩ : ∃ s ∈
      (ServerRun.machine 2 Unit).exec
        (ServerRun.start 2 Unit (fun _ => Session.zeroMemory) 2 0 3) ServerRun.partialWrite,
      (s.Added 0 ∧ (s.session 0).mSessionFD ≠ sINVALID_SOCKET_FD ∧
        ∀ k, (s.sender k).sends ≠ some 0) ∧ (s.session 0).mIsSending = true := by
    decide +kernel
  intro halways
  have hclear := (halways _ s (List.prefix_refl _) hrun 0 hadded hopen hsender).2.2
  exact Bool.false_ne_true (hclear.symm.trans hsending)

end CoreServer
