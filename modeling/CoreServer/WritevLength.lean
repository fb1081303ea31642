import CoreServer.SendCopy

/-!
# The number of packets in a `writev`

`DoSend` hands the whole of `mPackets` to `writev`, with one entry for each packet.  The kernel
takes at most `IOV_MAX` entries, and fails with `EINVAL` otherwise.  The queue grows without a
bound while a thread holds the right to send.
-/

namespace CoreServer

/-- The number of entries that Linux takes at most in one `writev`. -/
def IOV_MAX : ℕ := 1024

namespace SessionThreads

variable {κ : Type} {s s' : SessionThreads κ} {slot : ℤ}

/-- A `writev` is given at least one entry and at most `IOV_MAX`. -/
def LegalWritev (s : SessionThreads κ) : SessionStep κ → Prop
  | .run k (.writev _) => ∀ sendPackets ∈ (s.thread k).offering,
      1 ≤ sendPackets.length ∧ sendPackets.length ≤ IOV_MAX
  | _ => True

/-- A `DoSend` that takes the packets of the queue finds at most `IOV_MAX` of them. -/
def FewQueued (slot : ℤ) (s : SessionThreads κ) : SessionStep κ → Prop
  | .run k .run => (∃ inSend, s.thread k = .doSend inSend .swap) →
      (s.session slot).mPackets.length ≤ IOV_MAX
  | _ => True

instance (slot : ℤ) (s : SessionThreads κ) : ∀ a, Decidable (s.FewQueued slot a)
  | .run _ .run => inferInstanceAs (Decidable (_ → _))
  | .run _ (.writev _) | .send _ _ | .disconnect _ => isTrue trivial
  | .deliver | .execute _ | .rearm _ _ => isTrue trivial

/-- What a thread is going to offer to `writev` has a legal number of entries. -/
def LegalBatches (s : SessionThreads κ) : Prop :=
  ∀ k, ∀ sendPackets ∈ (s.thread k).batch, 1 ≤ sendPackets.length ∧ sendPackets.length ≤ IOV_MAX

lemma LegalBatches.legalWritev (hs : s.LegalBatches) (a : SessionStep κ) : s.LegalWritev a := by
  unfold LegalWritev
  split
  · exact fun sendPackets hk => hs _ sendPackets (SessionThread.batch_of_offering hk)
  · trivial

variable [DecidableEq κ]

/-- A step of one thread, after which its batch is legal. -/
lemma LegalBatches.of_thread (hs : s.LegalBatches) {k : κ} {t : SessionThread}
    (hthread : s'.thread = Function.update s.thread k t)
    (ht : ∀ sendPackets ∈ t.batch, 1 ≤ sendPackets.length ∧ sendPackets.length ≤ IOV_MAX) :
    s'.LegalBatches := by
  intro k' sendPackets hk'
  rw [hthread, Function.update_apply] at hk'
  split at hk'
  · exact ht sendPackets hk'
  · exact hs k' sendPackets hk'

/-- A thread that has no batch after its step. -/
lemma LegalBatches.of_none (hs : s.LegalBatches) {k : κ} {t : SessionThread}
    (hthread : s'.thread = Function.update s.thread k t) (ht : t.batch = none) :
    s'.LegalBatches :=
  hs.of_thread hthread fun _ hbatch => by
    rw [ht] at hbatch
    cases hbatch

/-- **One step.**  A batch is what its `DoSend` has found in the queue. -/
theorem LegalBatches.step (hs : s.LegalBatches) {a : SessionStep κ} (ha : s.FewQueued slot a)
    (h : s.step slot a = some s') : s'.LegalBatches := by
  cases a with
  | send k packet =>
    obtain ⟨-, h⟩ := Option.ite_none_right_eq_some.1 h
    obtain rfl := Option.some.inj h
    exact hs.of_none rfl (by split <;> rfl)
  | disconnect k =>
    obtain ⟨-, h⟩ := Option.ite_none_right_eq_some.1 h
    obtain rfl := Option.some.inj h
    exact hs.of_none rfl rfl
  | deliver =>
    obtain ⟨-, h⟩ := Option.ite_none_right_eq_some.1 h
    obtain rfl := Option.some.inj h
    exact hs
  | execute k =>
    obtain ⟨-, h⟩ := Option.ite_none_right_eq_some.1 h
    obtain rfl := Option.some.inj h
    exact hs.of_none rfl rfl
  | rearm k ok =>
    simp only [SessionThreads.step] at h
    split at h
    · obtain ⟨-, h⟩ := Option.ite_none_left_eq_some.1 h
      obtain rfl := Option.some.inj h
      exact hs.of_none rfl (by split <;> rfl)
    · obtain ⟨-, h⟩ := Option.ite_none_left_eq_some.1 h
      obtain rfl := Option.some.inj h
      exact hs.of_none rfl rfl
    · cases h
  | run k input =>
    obtain ⟨⟨memory, t⟩, hthread, h⟩ := Option.bind_eq_some_iff.1 h
    obtain rfl := Option.some.inj h
    have hmoves := threadMoves_of_step hthread
    have hold := hs k
    generalize ht : s.thread k = t₀ at hmoves hold hthread
    cases hmoves with
    | push hin | alreadySet hin hsending | set hin hsending => exact hs.of_none rfl rfl
    | @disconnect pc pc' m' hmoves => exact hs.of_none rfl (by cases pc' <;> rfl)
    | @doSend inSend pc pc' m' hmoves =>
      by_cases hswap : pc = .swap
      · subst hswap
        cases hmoves with
        | swapEmpty hin hpackets => exact hs.of_none rfl rfl
        | swap hin hpackets =>
          -- the swap is no step that the kernel answers
          obtain rfl : input = .run := by
            cases input with
            | run => rfl
            | writev w => cases hthread
          refine hs.of_thread rfl fun sendPackets hbatch => ?_
          obtain rfl := Option.some.inj hbatch
          exact ⟨List.length_pos_of_ne_nil hpackets, ha ⟨inSend, ht⟩⟩
      · rcases SendMemory.batch_of_doSend inSend hmoves hswap with hbatch | hbatch
        · exact hs.of_none rfl hbatch
        · refine hs.of_thread rfl fun sendPackets hnew => hold sendPackets ?_
          rw [hbatch] at hnew
          exact hnew

end SessionThreads

open SessionThreads

/-- **When every `writev` is legal.**  In every run of any number of threads that call `Send` on a
session or execute its send job, every `writev` is given at least one entry and at most `IOV_MAX`,
if no `DoSend` finds more than `IOV_MAX` packets in the queue. -/
theorem send_legalWritev {κ : Type} [DecidableEq κ] (memory : ServerMemory) (index : ℕ)
    {as : List (SessionStep κ)}
    (h : (machine κ index).Along (FewQueued index) (start κ memory) as) :
    (machine κ index).Along LegalWritev (start κ memory) as := by
  refine StepMachine.along_of_along (I := LegalBatches) (G := FewQueued index)
    (fun s a s' hs ha hstep => hs.step ha hstep) (fun s a hs _ => hs.legalWritev a) ?_ h
  intro k sendPackets hk
  cases hk

/-- Two packets are queued while the first `Send` is on its way to `DoSend`, and are written with
its own. -/
theorem send_legalWritev_three :
    (machine Bool 0).Along LegalWritev (start Bool oneSession)
      [.send false ⟨100, 1⟩, .run false .run, .run false .run, .send true ⟨200, 1⟩,
        .run true .run, .run true .run, .send true ⟨300, 1⟩, .run true .run, .run true .run,
        .run false .run, .run false .run, .run false .run,
        .run false (.writev (.accepted 3 .EAGAIN))] :=
  send_legalWritev oneSession 0 (by decide +kernel)

namespace SessionThreads

/-- The thread `false` has the right to send and has not taken the queue, in which there are `n`
packets. -/
structure Piled (s : SessionThreads Bool) (n : ℕ) : Prop where
  inTable : s.memory.InTable 0
  sending : (s.session 0).mIsSending = true
  socket : (s.session 0).mSessionFD ≠ sINVALID_SOCKET_FD
  packets : (s.session 0).mPackets.length = n
  sender : s.thread false = .doSend true .swap
  idle : s.thread true = .idle

/-- The steps of a `Send` by the thread `true`. -/
def sendBehind : List (SessionStep Bool) := [.send true ⟨200, 1⟩, .run true .run, .run true .run]

lemma step_run {κ : Type} [DecidableEq κ] {s : SessionThreads κ} {slot : ℤ} {k : κ}
    {t t' : SessionThread} {input : SendInput} {m : ServerMemory} (hk : s.thread k = t)
    (h : s.memory.threadStep slot t input = some (m, t')) :
    s.step slot (.run k input) = some { s.goto k t' with memory := m } := by
  simp only [step, hk, h]
  rfl

/-- A `Send` that finds the flag set leaves its packet in the queue. -/
lemma Piled.sendBehind {s : SessionThreads Bool} {n : ℕ} (h : s.Piled n) :
    ∃ s', (machine Bool 0).exec s sendBehind = some s' ∧ s'.Piled (n + 1) := by
  have hpush : s.memory.threadStep 0 (.push ⟨200, 1⟩) .run =
      some (s.memory.updateSession 0 (ServerMemory.pushPacket ⟨200, 1⟩), .testAndSet) := by
    have hmodify := ServerMemory.modifySession_iff (f := ServerMemory.pushPacket ⟨200, 1⟩).2
      ⟨h.inTable, rfl⟩
    simp only [ServerMemory.threadStep]
    exact congrArg (Option.bind · _) hmodify
  obtain ⟨m, hm⟩ : ∃ m, m = s.memory.updateSession 0 (ServerMemory.pushPacket ⟨200, 1⟩) := ⟨_, rfl⟩
  have hsession : m.session 0 = ServerMemory.pushPacket ⟨200, 1⟩ (s.session 0) := by
    rw [hm, ServerMemory.session_updateSession_self le_rfl]
  have hin : m.InTable 0 := hm ▸ h.inTable
  have htest : m.threadStep 0 .testAndSet .run =
      some (m.updateSession 0 fun s => s.setSendState true, .idle) := by
    have hmodify := ServerMemory.modifySession_iff (f := fun s => s.setSendState true).2 ⟨hin, rfl⟩
    simp only [ServerMemory.threadStep, ServerMemory.slot_iff.2 ⟨hin, rfl⟩, hmodify]
    rw [Option.bind_eq_bind, Option.bind_some, Option.bind_eq_bind, Option.bind_some, hsession]
    simp only [ServerMemory.pushPacket, h.sending, if_true]
    rfl
  have h₁ : (machine Bool 0).step s (.send true ⟨200, 1⟩) = some (s.goto true (.push ⟨200, 1⟩)) :=
    if_pos h.idle
  have h₂ : (machine Bool 0).step (s.goto true (.push ⟨200, 1⟩)) (.run true .run) =
      some { (s.goto true (.push ⟨200, 1⟩)).goto true .testAndSet with memory := m } :=
    step_run (t := .push ⟨200, 1⟩) (by simp [goto]) (hm ▸ hpush)
  have h₃ : (machine Bool 0).step
      { (s.goto true (.push ⟨200, 1⟩)).goto true .testAndSet with memory := m }
      (.run true .run) = some _ :=
    step_run (t := .testAndSet) (by simp [goto]) htest
  refine ⟨_, (StepMachine.exec_cons_of_step h₁).trans ((StepMachine.exec_cons_of_step h₂).trans
    (StepMachine.exec_cons_of_step h₃)), ?_⟩
  refine ⟨hin, ?_, ?_, ?_, ?_, ?_⟩
  all_goals
    dsimp only [session, goto]
  · rw [ServerMemory.session_updateSession_self le_rfl]
    rfl
  · rw [ServerMemory.session_updateSession_self le_rfl, hsession]
    exact h.socket
  · rw [ServerMemory.session_updateSession_self le_rfl, hsession]
    simp [Session.setSendState, ServerMemory.pushPacket, h.packets]
  · simp [h.sender]
  · simp

lemma Piled.pile {s : SessionThreads Bool} {n : ℕ} (h : s.Piled n) (k : ℕ) :
    ∃ s', (machine Bool 0).exec s (List.replicate k SessionThreads.sendBehind).flatten =
      some s' ∧ s'.Piled (n + k) := by
  induction k generalizing s n with
  | zero => exact ⟨s, rfl, h⟩
  | succ k ih =>
    obtain ⟨s₁, hexec₁, h₁⟩ := h.sendBehind
    obtain ⟨s₂, hexec₂, h₂⟩ := ih h₁
    refine ⟨s₂, ?_, Nat.add_right_comm n 1 k ▸ h₂⟩
    rw [List.replicate_succ, List.flatten_cons, StepMachine.exec_append hexec₁, hexec₂]

/-- The steps in which the thread `false` takes the queue and comes to `writev`. -/
def takeQueue : List (SessionStep Bool) := [.run false .run, .run false .run, .run false .run]

/-- Everything that has been queued is offered to one `writev`. -/
lemma Piled.takeQueue {s : SessionThreads Bool} {n : ℕ} (h : s.Piled n) (hn : 0 < n) :
    ∃ s', (machine Bool 0).exec s takeQueue = some s' ∧
      ∃ sendPackets ∈ (s'.thread false).offering, sendPackets.length = n := by
  obtain ⟨m, hm⟩ : ∃ m, m = s.memory.updateSession 0 ServerMemory.takePackets := ⟨_, rfl⟩
  obtain ⟨packets, hpackets⟩ : ∃ packets, packets = (s.session 0).mPackets := ⟨_, rfl⟩
  have hlen : packets.length = n := hpackets ▸ h.packets
  have hne : packets ≠ [] := List.ne_nil_of_length_pos (by omega)
  have hin : m.InTable 0 := hm ▸ h.inTable
  have hfd : (m.session 0).mSessionFD = (s.session 0).mSessionFD := by
    rw [hm, ServerMemory.session_updateSession_self le_rfl]
    rfl
  have hslot : s.memory.group.slot 0 = some (s.session 0) :=
    ServerMemory.slot_iff.2 ⟨h.inTable, rfl⟩
  have hslot' : m.group.slot 0 = some (m.session 0) := ServerMemory.slot_iff.2 ⟨hin, rfl⟩
  have hswap : s.memory.threadStep 0 (.doSend true .swap) .run =
      some (m, .doSend true (.checkFD packets)) := by
    have hmodify : s.memory.modifySession 0 (fun s => { s with mPackets := [] }) = some m :=
      ServerMemory.modifySession_iff.2 ⟨h.inTable, hm⟩
    simp only [ServerMemory.threadStep, ServerMemory.doSendStep, hslot, hmodify,
      Option.bind_eq_bind, Option.bind_some, Option.pure_def, ← hpackets, if_neg hne]
    rfl
  have hcheck : m.threadStep 0 (.doSend true (.checkFD packets)) .run =
      some (m, .doSend true (.writevArgs packets)) := by
    simp only [ServerMemory.threadStep, ServerMemory.doSendStep, hslot', Option.bind_eq_bind,
      Option.bind_some, Option.pure_def, hfd, if_neg h.socket]
    rfl
  have hargs : m.threadStep 0 (.doSend true (.writevArgs packets)) .run =
      some (m, .doSend true (.writev packets (m.session 0).mSessionFD)) := by
    simp only [ServerMemory.threadStep, ServerMemory.doSendStep, hslot', Option.bind_eq_bind,
      Option.bind_some, Option.pure_def]
    rfl
  have h₁ : (machine Bool 0).step s (.run false .run) = some _ := step_run h.sender hswap
  have h₂ : (machine Bool 0).step _ (.run false .run) = some _ :=
    step_run (s := { s.goto false (.doSend true (.checkFD packets)) with memory := m })
      (t := .doSend true (.checkFD packets)) (by simp [goto]) hcheck
  have h₃ : (machine Bool 0).step _ (.run false .run) = some _ :=
    step_run (s := { (s.goto false (.doSend true (.checkFD packets))).goto false
        (.doSend true (.writevArgs packets)) with memory := m })
      (t := .doSend true (.writevArgs packets)) (by simp [goto]) hargs
  refine ⟨_, (StepMachine.exec_cons_of_step h₁).trans ((StepMachine.exec_cons_of_step h₂).trans
    (StepMachine.exec_cons_of_step h₃)), packets, ?_, hlen⟩
  simp [goto, SessionThread.offering]

end SessionThreads

/-- A thread stands before `DoSend`, and another one queues `IOV_MAX` packets behind its own: all
of them are offered to one `writev`, which fails with `EINVAL`. -/
theorem send_offers_too_many :
    ¬ (machine Bool 0).Along LegalWritev (start Bool oneSession)
      ([.send false ⟨100, 1⟩, .run false .run, .run false .run] ++
        ((List.replicate IOV_MAX sendBehind).flatten ++
          (takeQueue ++ [.run false (.writev (.failed (.other 22)))]))) := by
  obtain ⟨s₁, h₁, hs₁⟩ : ∃ s ∈ (machine Bool 0).exec (start Bool oneSession)
      [.send false ⟨100, 1⟩, .run false .run, .run false .run], s.Piled 1 := by
    obtain ⟨s, hexec, h⟩ : ∃ s ∈ (machine Bool 0).exec (start Bool oneSession)
        [.send false ⟨100, 1⟩, .run false .run, .run false .run], s.memory.InTable 0 ∧
          (s.session 0).mIsSending = true ∧ (s.session 0).mSessionFD ≠ sINVALID_SOCKET_FD ∧
          (s.session 0).mPackets.length = 1 ∧ s.thread false = .doSend true .swap ∧
          s.thread true = .idle := by
      decide +kernel
    exact ⟨s, hexec, h.1, h.2.1, h.2.2.1, h.2.2.2.1, h.2.2.2.2.1, h.2.2.2.2.2⟩
  obtain ⟨s₂, h₂, hs₂⟩ := hs₁.pile IOV_MAX
  obtain ⟨s₃, h₃, sendPackets, hoffering, hlen⟩ := hs₂.takeQueue (by omega)
  rw [StepMachine.along_append h₁, StepMachine.along_append h₂, StepMachine.along_append h₃]
  rintro ⟨-, -, -, hlegal, -⟩
  have hle := (hlegal sendPackets hoffering).2
  omega

end CoreServer
