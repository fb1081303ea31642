import CoreServer.SendRight

/-!
# What `Send` makes of its buffer

The threads on one session together with the memory in which their buffers are.  Everything may
be overwritten but the buffers of the calls of `Send` that have not returned.  `Send` puts the
address of its buffer in `mPackets`, and may return before the packet has been written: the
bytes are read when the thread that has the right to send calls `writev`.
-/

namespace CoreServer

/-- The packet points at the address. -/
def IoVec.Covers (v : IoVec) (a : ℤ) : Prop := v.iov_base ≤ a ∧ a < v.iov_base + v.iov_len

instance (v : IoVec) (a : ℤ) : Decidable (v.Covers a) := inferInstanceAs (Decidable (_ ∧ _))

lemma IoVec.bytes_update {mem : ℤ → Byte} {v : IoVec} {a : ℤ} {b : Byte} (h : ¬ v.Covers a) :
    v.bytes (Function.update mem a b) = v.bytes mem := by
  rw [bytes_eq_map, bytes_eq_map]
  refine List.map_congr_left fun i hi => Function.update_of_ne ?_ ..
  have hlt := List.mem_range.1 hi
  rintro rfl
  exact h ⟨by omega, by omega⟩

/-- The threads on the session, the memory, and the buffers of the calls of `Send` that have not
returned. -/
structure SendMemory (κ : Type) where
  threads : SessionThreads κ
  mem : ℤ → Byte
  calls : List (κ × IoVec)

/-- A step on the session, or a byte that is written to the memory. -/
inductive MemoryStep (κ : Type) where
  | session (a : SessionStep κ)
  | write (address : ℤ) (byte : Byte)
deriving DecidableEq, Repr

/-- The call that a step starts. -/
def SessionStep.called {κ : Type} : SessionStep κ → List (κ × IoVec)
  | send k packet => [(k, packet)]
  | _ => []

/-- The packets that a thread in `DoSend` is still going to offer to `writev`. -/
def DoSendPC.batch : DoSendPC → Option (List IoVec)
  | .checkFD sendPackets | .writevArgs sendPackets | .writev sendPackets _ => some sendPackets
  | _ => none

/-- The packets that a thread is still going to offer to `writev`. -/
def SessionThread.batch : SessionThread → Option (List IoVec)
  | .doSend _ pc => pc.batch
  | _ => none

/-- The packets that a thread is about to offer to `writev`. -/
def SessionThread.offering : SessionThread → Option (List IoVec)
  | .doSend _ (.writev sendPackets _) => some sendPackets
  | _ => none

lemma SessionThread.batch_of_offering {t : SessionThread} {sendPackets : List IoVec}
    (h : sendPackets ∈ t.offering) : sendPackets ∈ t.batch := by
  unfold offering at h
  split at h
  · exact h
  · cases h

/-- The contents that the buffers had when `Send` was called: of the calls that have not put
their packet in the queue, of the packets in the queue, and of the batches. -/
structure CallContents (κ : Type) where
  calling : κ → List Byte
  queued : List (List Byte)
  batch : κ → List (List Byte)

/-- Nothing is recorded. -/
def CallContents.empty (κ : Type) : CallContents κ := ⟨fun _ => [], [], fun _ => []⟩

namespace SendMemory

variable {κ : Type} [DecidableEq κ]

/-- One step. -/
def step (slot : ℤ) (s : SendMemory κ) : MemoryStep κ → Option (SendMemory κ)
  | .session a => do
    let threads ← s.threads.step slot a
    return { s with
      threads := threads
      calls := (a.called ++ s.calls).filter fun c => threads.thread c.1 ≠ .idle }
  | .write a b =>
    if ∀ c ∈ s.calls, ¬ c.2.Covers a then some { s with mem := Function.update s.mem a b }
    else none

/-- The machine of the threads on the session in a slot and of their memory. -/
def machine (κ : Type) [DecidableEq κ] (slot : ℤ) : StepMachine (SendMemory κ) (MemoryStep κ) :=
  ⟨step slot⟩

omit [DecidableEq κ] in
/-- No thread is on the session. -/
def start (κ : Type) (memory : ServerMemory) (mem : ℤ → Byte) : SendMemory κ where
  threads := SessionThreads.start κ memory
  mem := mem
  calls := []

/-- The contents of a buffer are recorded when `Send` is called, and go with the packet. -/
def record (s : SendMemory κ) : MemoryStep κ → CallContents κ → CallContents κ
  | .session (.send k packet), h =>
    { h with calling := Function.update h.calling k (packet.bytes s.mem) }
  | .session (.run k _), h =>
    match s.threads.thread k with
    | .push _ => { h with queued := h.queued ++ [h.calling k] }
    | .doSend _ .swap => { h with queued := [], batch := Function.update h.batch k h.queued }
    | _ => h
  | _, h => h

omit [DecidableEq κ] in
/-- The bytes that a thread offers to `writev` are those that the buffers had when `Send` was
called. -/
def OffersCalled (s : SendMemory κ × CallContents κ) : MemoryStep κ → Prop
  | .session (.run k (.writev _)) => ∀ sendPackets ∈ (s.1.threads.thread k).offering,
      sendPackets.map (IoVec.bytes s.1.mem) = s.2.batch k
  | _ => True

instance (s : SendMemory κ × CallContents κ) : ∀ a, Decidable (OffersCalled s a)
  | .session (.run _ (.writev _)) => inferInstanceAs (Decidable (∀ _ ∈ _, _))
  | .session (.run _ .run) | .session (.send _ _) | .session (.disconnect _) => isTrue trivial
  | .session .deliver | .session (.execute _) | .session (.rearm _ _) => isTrue trivial
  | .write _ _ => isTrue trivial

omit [DecidableEq κ] in
/-- No byte of a packet that is still to be written is changed. -/
def KeepsUnwritten (slot : ℤ) (s : SendMemory κ) : MemoryStep κ → Prop
  | .write a b => s.mem a = b ∨ (∀ v ∈ (s.threads.session slot).mPackets, ¬ v.Covers a) ∧
      ∀ k, ∀ sendPackets ∈ (s.threads.thread k).batch, ∀ v ∈ sendPackets, ¬ v.Covers a
  | .session _ => True

instance [Fintype κ] (slot : ℤ) (s : SendMemory κ) : ∀ a, Decidable (s.KeepsUnwritten slot a)
  | .write _ _ => inferInstanceAs (Decidable (_ ∨ (∀ _ ∈ _, _) ∧ ∀ _, ∀ _ ∈ _, ∀ _ ∈ _, _))
  | .session _ => isTrue trivial

/-! ## The contents of the packets -/

omit [DecidableEq κ] in
/-- Every packet that is still to be written has the contents that it had when `Send` was
called. -/
structure Kept (slot : ℤ) (s : SendMemory κ) (h : CallContents κ) : Prop where
  calling : ∀ k packet, s.threads.thread k = .push packet →
    packet.bytes s.mem = h.calling k ∧ (k, packet) ∈ s.calls
  queued : (s.threads.session slot).mPackets.map (IoVec.bytes s.mem) = h.queued
  batch : ∀ k, ∀ sendPackets ∈ (s.threads.thread k).batch,
    sendPackets.map (IoVec.bytes s.mem) = h.batch k

variable {slot : ℤ} {s : SendMemory κ} {h : CallContents κ}

omit [DecidableEq κ] in
lemma kept_start {memory : ServerMemory} {mem : ℤ → Byte}
    (hnew : (memory.session slot).mPackets = []) :
    (start κ memory mem).Kept slot (CallContents.empty κ) where
  calling k packet hk := by cases hk
  queued := by
    change (memory.session slot).mPackets.map _ = _
    rw [hnew]
    rfl
  batch k sendPackets hk := by cases hk

/-- A step of one thread, after which its packet, its batch and the queue have the contents that
are recorded. -/
lemma Kept.of_thread (hs : s.Kept slot h) {threads : SessionThreads κ} {calls : List (κ × IoVec)}
    {h' : CallContents κ} {k : κ} {t : SessionThread}
    (hthread : threads.thread = Function.update s.threads.thread k t)
    (hcalls : ∀ c ∈ s.calls, threads.thread c.1 ≠ .idle → c ∈ calls)
    (hcalling : ∀ k', k' ≠ k → h'.calling k' = h.calling k')
    (hbatch : ∀ k', k' ≠ k → h'.batch k' = h.batch k')
    (hpush : ∀ packet, t = .push packet →
      packet.bytes s.mem = h'.calling k ∧ (k, packet) ∈ calls)
    (hnew : ∀ sendPackets ∈ t.batch, sendPackets.map (IoVec.bytes s.mem) = h'.batch k)
    (hqueued : (threads.session slot).mPackets.map (IoVec.bytes s.mem) = h'.queued) :
    (⟨threads, s.mem, calls⟩ : SendMemory κ).Kept slot h' where
  calling k' packet hk' := by
    by_cases heq : k' = k
    · subst heq
      refine hpush packet ?_
      rwa [hthread, Function.update_self] at hk'
    · have hidle : threads.thread k' ≠ .idle := by
        rw [hk']
        simp
      rw [hthread, Function.update_of_ne heq] at hk'
      obtain ⟨hbytes, hmem⟩ := hs.calling k' packet hk'
      exact ⟨hbytes.trans (hcalling k' heq).symm, hcalls _ hmem hidle⟩
  queued := hqueued
  batch k' sendPackets hk' := by
    simp only [hthread] at hk'
    by_cases heq : k' = k
    · subst heq
      rw [Function.update_self] at hk'
      exact hnew sendPackets hk'
    · rw [Function.update_of_ne heq] at hk'
      exact (hs.batch k' sendPackets hk').trans (hbatch k' heq).symm

omit [DecidableEq κ] in
/-- Only the swap of `DoSend` takes packets from the queue. -/
lemma mPackets_of_doSend {m m' : ServerMemory} {pc : DoSendPC} {pc' : Option DoSendPC}
    (h : ServerMemory.DoSendMoves m slot pc m' pc') (hpc : pc ≠ .swap) (hslot : 0 ≤ slot) :
    (m'.session slot).mPackets = (m.session slot).mPackets := by
  cases h with
  | swapEmpty | swap => exact absurd rfl hpc
  | fdInvalid | fdValid | writevArgs | writev => rfl
  | clear hin | giveUp hin | addPackets job hin =>
    rw [ServerMemory.session_updateSession_self hslot]
    rfl
  | disconnect hmoves | disconnected hmoves =>
    rcases hmoves.session hslot with heq | ⟨-, -, heq⟩
    · rw [heq]
    · rw [heq]
      rfl

omit [DecidableEq κ] in
/-- A thread in `DoSend` keeps its batch, or is done with it. -/
lemma batch_of_doSend {m m' : ServerMemory} (inSend : Bool) {pc : DoSendPC}
    {pc' : Option DoSendPC} (h : ServerMemory.DoSendMoves m slot pc m' pc') (hpc : pc ≠ .swap) :
    (SessionThread.afterDoSend inSend pc pc').batch = none ∨
      (SessionThread.afterDoSend inSend pc pc').batch = pc.batch := by
  cases h with
  | swapEmpty | swap => exact absurd rfl hpc
  | fdValid | writevArgs => exact Or.inr rfl
  | @writev sendPackets fd w =>
    change (DoSendPC.afterWritev sendPackets w).batch = none ∨
      (DoSendPC.afterWritev sendPackets w).batch = some sendPackets
    rcases DoSendPC.afterWritev_cases sendPackets w with ⟨failed, heq⟩ | ⟨-, -, heq⟩ | heq |
      ⟨-, -, heq⟩
    · exact Or.inl (heq ▸ rfl)
    · exact Or.inr (heq ▸ rfl)
    · exact Or.inl (heq ▸ rfl)
    · exact Or.inl (heq ▸ rfl)
  | fdInvalid | giveUp | disconnect => exact Or.inl rfl
  | clear | addPackets =>
    simp only [SessionThread.afterDoSend]
    first | exact Or.inl rfl | (split <;> exact Or.inl rfl)
  | @disconnected dpc failed =>
    refine Or.inl ?_
    cases failed with
    | none =>
      simp only [SessionThread.afterDoSend, DoSendPC.afterDisconnect]
      split <;> rfl
    | some sendPackets =>
      simp only [DoSendPC.afterDisconnect]
      split <;> rfl

omit [DecidableEq κ] in
/-- A call that has not returned stays among the calls. -/
lemma mem_calls {threads : SessionThreads κ} {calls new : List (κ × IoVec)} {c : κ × IoVec}
    (hc : c ∈ calls) (hidle : threads.thread c.1 ≠ .idle) :
    c ∈ (new ++ calls).filter fun c => threads.thread c.1 ≠ .idle :=
  List.mem_filter.2 ⟨List.mem_append_right _ hc, by simpa using hidle⟩

/-- A step of a thread on the session. -/
lemma Kept.run (hs : s.Kept slot h) (hslot : 0 ≤ slot) {k : κ} {input : SendInput}
    {threads : SessionThreads κ} {calls : List (κ × IoVec)}
    (hstep : s.threads.step slot (.run k input) = some threads)
    (hcalls : ∀ c ∈ s.calls, threads.thread c.1 ≠ .idle → c ∈ calls) :
    (⟨threads, s.mem, calls⟩ : SendMemory κ).Kept slot (s.record (.session (.run k input)) h) := by
  obtain ⟨⟨memory, t⟩, hthread, hstep⟩ := Option.bind_eq_some_iff.1 hstep
  obtain rfl := Option.some.inj hstep
  have hmoves := threadMoves_of_step hthread
  have hold := hs.batch k
  have hcalling := hs.calling k
  generalize ht : s.threads.thread k = t₀ at hmoves hold hcalling
  cases hmoves with
  | @push packet hin =>
    simp only [record, ht]
    refine hs.of_thread rfl hcalls (fun _ _ => rfl) (fun _ _ => rfl) (fun _ hpush => by cases hpush)
      (fun _ hnew => by cases hnew) ?_
    change ((s.threads.memory.updateSession slot (ServerMemory.pushPacket packet)).session
      slot).mPackets.map _ = _
    rw [ServerMemory.session_updateSession_self hslot, ServerMemory.pushPacket, List.map_append,
      ← (hcalling packet rfl).1]
    exact congrArg (· ++ _) hs.queued
  | alreadySet hin hsending | set hin hsending =>
    simp only [record, ht]
    refine hs.of_thread rfl hcalls (fun _ _ => rfl) (fun _ _ => rfl) (fun _ hpush => by cases hpush)
      (fun _ hnew => by cases hnew) ?_
    change ((s.threads.memory.updateSession slot _).session slot).mPackets.map _ = _
    rw [ServerMemory.session_updateSession_self hslot]
    exact hs.queued
  | @disconnect dpc dpc' m' hmoves =>
    simp only [record, ht]
    refine hs.of_thread rfl hcalls (fun _ _ => rfl) (fun _ _ => rfl) (fun _ hpush => ?_)
      (fun _ hnew => ?_) ?_
    · cases dpc' <;> cases hpush
    · cases dpc' <;> cases hnew
    · have hsame : (memory.session slot).mPackets = (s.threads.session slot).mPackets := by
        rcases hmoves.session hslot with heq | ⟨-, -, heq⟩
        · rw [heq]
        · rw [heq]
          rfl
      exact hsame ▸ hs.queued
  | @doSend inSend pc pc' m' hmoves =>
    have hpush : ∀ packet, SessionThread.afterDoSend inSend pc pc' ≠ .push packet := by
      intro packet
      cases pc' with
      | some pc' => simp [SessionThread.afterDoSend]
      | none =>
        simp only [SessionThread.afterDoSend]
        split
        · simp
        · split <;> simp
    by_cases hswap : pc = .swap
    · -- the queue becomes the batch of the thread
      subst hswap
      simp only [record, ht]
      have hempty : ((s.threads.memory.updateSession slot ServerMemory.takePackets).session
          slot).mPackets = [] := by
        rw [ServerMemory.session_updateSession_self hslot]
        rfl
      cases hmoves with
      | swapEmpty hin hpackets =>
        refine hs.of_thread rfl hcalls (fun _ _ => rfl) (fun k' hne => ?_)
          (fun packet hnew => absurd hnew (hpush packet)) (fun _ hnew => by cases hnew) ?_
        · exact Function.update_of_ne hne ..
        · exact congrArg (List.map _) hempty
      | swap hin hpackets =>
        refine hs.of_thread rfl hcalls (fun _ _ => rfl) (fun k' hne => ?_)
          (fun packet hnew => absurd hnew (hpush packet)) (fun sendPackets hnew => ?_) ?_
        · exact Function.update_of_ne hne ..
        · obtain rfl := Option.some.inj hnew
          change _ = Function.update h.batch k h.queued k
          rw [Function.update_self]
          exact hs.queued
        · exact congrArg (List.map _) hempty
    · have hrecord : s.record (.session (.run k input)) h = h := by
        simp only [record, ht]
        cases pc <;> first | rfl | exact absurd rfl hswap
      rw [hrecord]
      refine hs.of_thread rfl hcalls (fun _ _ => rfl) (fun _ _ => rfl)
        (fun packet hnew => absurd hnew (hpush packet)) (fun sendPackets hnew => ?_) ?_
      · rcases batch_of_doSend inSend hmoves hswap with hbatch | hbatch
        · rw [hbatch] at hnew
          cases hnew
        · rw [hbatch] at hnew
          exact hold sendPackets hnew
      · change (memory.session slot).mPackets.map _ = _
        rw [mPackets_of_doSend hmoves hswap hslot]
        exact hs.queued

/-- **One step.**  Only a byte that is written to a packet changes its contents. -/
theorem Kept.step (hs : s.Kept slot h) (hslot : 0 ≤ slot) {a : MemoryStep κ} {s' : SendMemory κ}
    (ha : s.KeepsUnwritten slot a) (hstep : s.step slot a = some s') :
    s'.Kept slot (s.record a h) := by
  cases a with
  | write a b =>
    obtain ⟨hfree, hstep⟩ := Option.ite_none_right_eq_some.1 hstep
    obtain rfl := Option.some.inj hstep
    rcases ha with rfl | ⟨hqueue, hbatches⟩
    · rw [Function.update_eq_self]
      exact hs
    · -- the byte belongs to no packet that is still to be written
      refine ⟨fun k packet hk => ?_, ?_, fun k sendPackets hk => ?_⟩
      · obtain ⟨hbytes, hmem⟩ := hs.calling k packet hk
        exact ⟨(IoVec.bytes_update (hfree _ hmem)).trans hbytes, hmem⟩
      · exact (List.map_congr_left fun v hv => IoVec.bytes_update (hqueue v hv)).trans hs.queued
      · exact (List.map_congr_left fun v hv =>
          IoVec.bytes_update (hbatches k sendPackets hk v hv)).trans (hs.batch k sendPackets hk)
  | session a =>
    obtain ⟨threads, hthreads, hstep⟩ := Option.bind_eq_some_iff.1 hstep
    obtain rfl := Option.some.inj hstep
    have hcalls : ∀ c ∈ s.calls, threads.thread c.1 ≠ .idle →
        c ∈ (a.called ++ s.calls).filter fun c => threads.thread c.1 ≠ .idle :=
      fun c hc hidle => mem_calls hc hidle
    cases a with
    | send k packet =>
      -- the contents are recorded, and the call is among those that have not returned
      obtain ⟨hidle, hthreads⟩ := Option.ite_none_right_eq_some.1 hthreads
      obtain rfl := Option.some.inj hthreads
      refine hs.of_thread rfl hcalls (fun k' hne => Function.update_of_ne hne ..)
        (fun _ _ => rfl) (fun packet' hpush => ?_) (fun _ hnew => ?_) hs.queued
      · split at hpush
        · cases hpush
        · rename_i hvalid
          obtain rfl := SessionThread.push.inj hpush
          refine ⟨?_, List.mem_filter.2 ⟨?_, ?_⟩⟩
          · change _ = Function.update h.calling k _ k
            rw [Function.update_self]
          · exact List.mem_append_left _ List.mem_cons_self
          · refine decide_eq_true ?_
            change Function.update s.threads.thread k _ k ≠ _
            rw [Function.update_self, if_neg hvalid]
            simp
      · split at hnew <;> cases hnew
    | disconnect k =>
      obtain ⟨-, hthreads⟩ := Option.ite_none_right_eq_some.1 hthreads
      obtain rfl := Option.some.inj hthreads
      exact hs.of_thread rfl hcalls (fun _ _ => rfl) (fun _ _ => rfl)
        (fun _ hpush => by cases hpush) (fun _ hnew => by cases hnew) hs.queued
    | deliver =>
      obtain ⟨-, hthreads⟩ := Option.ite_none_right_eq_some.1 hthreads
      obtain rfl := Option.some.inj hthreads
      refine ⟨fun k packet hk => ?_, hs.queued, hs.batch⟩
      obtain ⟨hbytes, hmem⟩ := hs.calling k packet hk
      exact ⟨hbytes, hcalls _ hmem (by rw [hk]; simp)⟩
    | execute k =>
      obtain ⟨-, hthreads⟩ := Option.ite_none_right_eq_some.1 hthreads
      obtain rfl := Option.some.inj hthreads
      exact hs.of_thread rfl hcalls (fun _ _ => rfl) (fun _ _ => rfl)
        (fun _ hpush => by cases hpush) (fun _ hnew => by cases hnew) hs.queued
    | run k input => exact hs.run hslot hthreads hcalls
    | rearm k ok =>
      simp only [SessionThreads.step] at hthreads
      split at hthreads
      · obtain ⟨-, hthreads⟩ := Option.ite_none_left_eq_some.1 hthreads
        obtain rfl := Option.some.inj hthreads
        refine hs.of_thread rfl hcalls (fun _ _ => rfl) (fun _ _ => rfl)
          (fun _ hpush => ?_) (fun _ hnew => ?_) hs.queued
        · split at hpush <;> cases hpush
        · split at hnew <;> cases hnew
      · obtain ⟨-, hthreads⟩ := Option.ite_none_left_eq_some.1 hthreads
        obtain rfl := Option.some.inj hthreads
        exact hs.of_thread rfl hcalls (fun _ _ => rfl) (fun _ _ => rfl)
          (fun _ hpush => by cases hpush) (fun _ hnew => by cases hnew) hs.queued
      · cases hthreads

omit [DecidableEq κ] in
/-- What is offered is what is kept. -/
lemma Kept.offersCalled (hs : s.Kept slot h) (a : MemoryStep κ) : OffersCalled (s, h) a := by
  unfold OffersCalled
  split
  · exact fun sendPackets hk => hs.batch _ sendPackets (SessionThread.batch_of_offering hk)
  · trivial

end SendMemory

open SendMemory

/-- **When `Send` has copied its buffer.**  In every run of any number of threads on a new
session, in which a buffer may be overwritten when its `Send` has returned, the bytes offered to
`writev` are those of the buffers at the calls if no byte is changed of a packet that is in the
queue or in the batch of a thread that has not called `writev` for the last time. -/
theorem send_offersCalled {κ : Type} [DecidableEq κ] {memory : ServerMemory} {index : ℕ}
    (hnew : (memory.session index).mPackets = []) (mem : ℤ → Byte) {as : List (MemoryStep κ)}
    (h : (machine κ index).Along (KeepsUnwritten index) (start κ memory mem) as) :
    ((machine κ index).withHistory record).Along OffersCalled
      (start κ memory mem, CallContents.empty κ) as := by
  refine StepMachine.along_of_along (I := fun s => s.1.Kept index s.2)
    (G := fun s a => s.1.KeepsUnwritten index a) (fun s a s' hs ha hstep => ?_)
    (fun s a hs _ => hs.offersCalled a) (kept_start hnew) (StepMachine.along_withHistory.2 h)
  obtain ⟨hstep, hrecord⟩ := StepMachine.withHistory_step_eq_some.1 hstep
  exact hrecord ▸ hs.step (Int.natCast_nonneg _) ha hstep

/-- Two senders, of which the first one overwrites its buffer when all has been written. -/
theorem send_offersCalled_after_writev :
    ((machine (Fin 2) 0).withHistory record).Along OffersCalled
      (start (Fin 2) oneSession fun _ => 0, CallContents.empty (Fin 2))
      [.session (.send 0 ⟨100, 2⟩), .session (.run 0 .run), .session (.send 1 ⟨200, 1⟩),
        .session (.run 1 .run), .session (.run 0 .run), .session (.run 1 .run),
        .session (.run 0 .run), .session (.run 0 .run), .session (.run 0 .run),
        .session (.run 0 (.writev (.accepted 3 .EAGAIN))), .session (.run 0 .run),
        .session (.rearm 0 true), .write 100 7] := by
  have hnew : (oneSession.session (0 : ℕ)).mPackets = [] := by decide +kernel
  exact send_offersCalled hnew _ (by decide +kernel)

/-- Two senders, of which the first one returns, since the second one has the right to send, and
overwrites its buffer before the second one calls `writev`. -/
theorem send_offers_overwritten :
    ¬ ((machine (Fin 2) 0).withHistory record).Along OffersCalled
      (start (Fin 2) oneSession fun _ => 0, CallContents.empty (Fin 2))
      [.session (.send 0 ⟨100, 2⟩), .session (.run 0 .run), .session (.send 1 ⟨200, 1⟩),
        .session (.run 1 .run), .session (.run 1 .run), .session (.run 0 .run), .write 100 7,
        .session (.run 1 .run), .session (.run 1 .run), .session (.run 1 .run),
        .session (.run 1 (.writev (.accepted 3 .EAGAIN)))] := by
  decide +kernel

end CoreServer
