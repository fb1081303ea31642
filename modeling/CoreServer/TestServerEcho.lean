import CoreServer.SendOwner
import CoreServer.TestServerRun

/-!
# Every client gets back what it has sent

The running `TestServer`, with any number of workers and clients: what is written to a connection
is always a beginning of what has been received from it.  In `OnRecv` a worker has the session for
itself, because the receive job is in one place at a time, nobody else sends, and the socket stays
the one of the connection until this worker closes it; so the steps of the other workers leave
alone what is kept about the session, and its own steps are those of one `Send` of one block.
-/

namespace CoreServer

open RecvJob CircularBuffer

/-! ## The receive job of a session -/

namespace RecvRun

variable {r r' : RecvRun}

/-- The block that the receive job has for `OnRecv`, when its buffer lies at `address`. -/
def block (address : ℤ) (r : RecvRun) : Block where
  consumed := r.consumed
  received := r.received
  packet := ⟨address + r.job.mRecvBuffer.mFront, r.job.mRecvBuffer.used⟩

/-- Where nothing is left to read, nothing is left. -/
def AllTaken (r : RecvRun) : Prop := EchoRun.Drained r.pc → r.consumed = r.received

/-- A step of a receive job whose `OnRecv` returns its `inputSize`. -/
lemma AllTaken.step (hall : r.AllTaken) (hr : r.Stream) {a : Input}
    (ha : ∀ inputSize, a = .onRecv inputSize →
      r.job.mRecvBuffer.getDirectReadSize = some inputSize) (h : r.step a = some r') :
    r'.AllTaken ∧ r'.Stream ∧ ((∀ inputSize, a ≠ .onRecv inputSize) → r'.consumed = r.consumed) ∧
      (∀ inputSize, a = .onRecv inputSize → r'.consumed = r.received) := by
  by_cases hquiet : EchoRun.Quiet a
  · obtain ⟨-, hreceived, hconsumed, hdrained⟩ := EchoRun.quiet_step hquiet h
    have hin : r.OnRecvInRange a := by
      cases a with
      | onRecv inputSize => exact hquiet.elim
      | _ => trivial
    refine ⟨fun hpc => ?_, hr.step hin h, fun _ => hconsumed, ?_⟩
    · rw [hconsumed, hreceived]
      rcases hdrained hpc with hpc | ⟨n, hn, hused⟩
      · exact hall hpc
      · rw [hr.valid.getUsedSize] at hused
        have hzero := hr.used_eq
        have heq := Option.some.inj hused
        exact hr.isPrefix.eq_of_length_le (by omega)
    · rintro inputSize rfl
      exact hquiet.elim
  · cases a with
    | onRecv inputSize =>
      obtain ⟨-, -, hstream, -, hreceived, hconsumed⟩ := hr.onRecv_all (ha _ rfl) h
      exact ⟨fun _ => hconsumed.trans hreceived.symm, hstream, fun hne => absurd rfl (hne _),
        fun _ _ => hconsumed⟩
    | recv result =>
      obtain ⟨hpc, hconsumed⟩ := EchoRun.recv_step h
      have hin : r.OnRecvInRange (.recv result) := trivial
      exact ⟨fun hdrained => absurd hdrained hpc, hr.step hin h, fun _ => hconsumed, by simp⟩
    | execute | socketFD | noData | epollCtl | disconnected => exact absurd trivial hquiet

end RecvRun

/-! ## The memory -/

namespace TestServerRun

variable {n : ℕ} {l : Layout} {s s' : TestServerRun n} {i : ℤ} {r r' : RecvRun}

/-- A cell of the receive buffer of the session in the slot `i`. -/
lemma mem_address (s : TestServerRun n) (i : ℤ) {k : ℤ} (hk : 0 ≤ k) (hlt : k < BUFFER_SIZE) :
    s.mem l (l.address i + k) =
      (s.run.session i).mRecvJob.mRecvBuffer.mBuffer k.toNat := by
  have hle := l.le_size
  have hsize : (l.size : ℤ) ≠ 0 := by
    have := BUFFER_SIZE_eq
    omega
  have hoffset : l.address i + k - l.base = k + l.size * i := by
    rw [Layout.address, mul_comm (l.size : ℤ)]
    ring
  have hslot : (k + l.size * i) / l.size = i := by
    rw [Int.add_mul_ediv_left _ _ hsize, Int.ediv_eq_zero_of_lt hk (by omega), zero_add]
  have hcell : (k + l.size * i) % l.size = k := by
    rw [Int.add_mul_emod_self_left, Int.emod_eq_of_lt hk (by omega)]
  rw [mem, hoffset, hslot, hcell]

/-- The packet of `OnRecv` points at everything that has been received and not been taken. -/
lemma block_valid (hi : 0 ≤ i) (hjob : (s.run.session i).mRecvJob = r.job) (hr : r.Stream)
    (hpos : 0 < r.job.mRecvBuffer.used) : (r.block (l.address i)).Valid (s.mem l) where
  base_pos := by
    have hbase := l.base_pos
    have hfront := hr.valid.front_nonneg
    have hslots : 0 ≤ i * (l.size : ℤ) := Int.mul_nonneg hi (Int.natCast_nonneg _)
    simp only [RecvRun.block, Layout.address]
    omega
  len_pos := hpos
  len_lt := by
    have hlt := hr.valid.used_lt
    have hsize := BUFFER_SIZE_eq
    simp only [RecvRun.block]
    omega
  received_eq := by
    have hfront := hr.valid.front_nonneg
    have hrear := hr.valid.rear_lt
    have hle := hr.front_le
    have hused : r.job.mRecvBuffer.used =
        (r.job.mRecvBuffer.mRear - r.job.mRecvBuffer.mFront).toNat := by simp [used, hle]
    have hbytes : IoVec.bytes (s.mem l) (r.block (l.address i)).packet =
        r.job.mRecvBuffer.content := by
      rw [content, Circular.ring_eq_slice (by omega), IoVec.bytes_eq_map, Circular.slice]
      refine List.map_congr_left fun k hk => ?_
      have hlt : k < r.job.mRecvBuffer.used := List.mem_range.1 hk
      change s.mem l (l.address i + r.job.mRecvBuffer.mFront + k) = _
      rw [add_assoc, mem_address s i (by omega) (by omega), hjob]
      congr 1
      omega
    rw [hbytes, hr.content_eq]
    exact List.prefix_append_drop hr.isPrefix |>.symm

/-! ## The invariant -/

/-- The worker that takes a step in its job or in `Send`. -/
def worker : RunStep n (Fin n) → Option (Fin n)
  | .job w _ | .sender w _ | .send w _ _ | .disconnect w _ => some w
  | .pool _ | .start _ => none

/-- What has been written to the connection of a session is what its sending comes to: while a
worker is in the `Send` of its `OnRecv`, that of this `Send`, and otherwise that of a session that
rests. -/
structure Echoes (l : Layout) (s : TestServerRun n) (i : ℤ) (r : RecvRun) (written : List Byte) :
    Prop where
  outside : (∀ w usedSize, s.run.job w = .recv i (.onRecv usedSize) → s.sent w = false) →
    (s.run.session i).Rests written r.consumed
  inside : ∀ w usedSize, s.run.job w = .recv i (.onRecv usedSize) → s.sent w = true →
    (r.block (l.address i)).Sends i (s.run.session i) written (s.run.sender w)

/-- The session in the slot `i`: its receive job `r` has received what has arrived, and the
session echoes it. -/
structure Served (l : Layout) (s : TestServerRun n) (h : Traffic n) (received : ℤ → List Byte)
    (i : ℤ) (r : RecvRun) : Prop where
  serves : s.run.Serves i r
  stream : r.Stream
  allTaken : r.AllTaken
  received_eq : r.received = received i
  echoes : s.run.Added i →
    s.Echoes l i r (h.written (h.connections.ofID (s.run.session i).mSessionID))

/-- The invariant. -/
structure Inv (l : Layout) (s : TestServerRun n) (h : Traffic n) (received : ℤ → List Byte) :
    Prop where
  arrived : s.run.Arrived h.arrivals received
  ended : s.run.JobEnded
  /-- Only a worker in `OnRecv` has called `Send`. -/
  sent : ∀ w, s.sent w = true → ∃ i usedSize, s.run.job w = .recv i (.onRecv usedSize)
  sender : ∀ w, s.run.sender w ≠ .idle → s.sent w = true
  /-- A worker before `recv` has read the socket that the session still has. -/
  reader : ∀ w i fd, s.run.job w = .recv i (.recv fd) → (s.run.session i).mSessionFD = fd
  /-- Nothing has been written to a connection that has no session. -/
  unwritten : ∀ c, (∀ id ∈ s.run.added, h.connections.ofID id ≠ c) → h.written c = []
  served : ∀ i, 0 ≤ i → ∃ r, s.Served l h received i r

variable {h : Traffic n} {received : ℤ → List Byte} {a : RunStep n (Fin n)} {w : Fin n}
  {usedSize : ℤ}

lemma Inv.life (hI : s.Inv l h received) : s.run.Life := hI.arrived.life

/-! ### Workers in `OnRecv` -/

/-- The arguments of the `OnRecv` that a worker is in. -/
lemma Served.onRecvArgs_eq (hS : s.Served l h received i r)
    (hw : s.run.job w = .recv i (.onRecv usedSize)) :
    s.onRecvArgs l w = some ⟨(s.run.session i).mSessionID,
      (r.block (l.address i)).packet.iov_base, (r.block (l.address i)).packet.iov_len⟩ := by
  have hsize : (s.run.session i).mRecvJob.mRecvBuffer.getDirectReadSize =
      some (r.job.mRecvBuffer.used : ℤ) := by
    rw [hS.serves.holds.job_eq, hS.stream.valid.getDirectReadSize, hS.stream.directRead_eq]
  simp only [onRecvArgs, hw, hsize, Option.bind_eq_bind, Option.bind_some, Option.pure_def]
  rw [hS.serves.holds.job_eq]
  rfl

/-- A worker that has the arguments of an `OnRecv` is in it. -/
lemma onRecv_of_args {args : OnRecvArgs} (hargs : args ∈ s.onRecvArgs l w) :
    ∃ i usedSize, s.run.job w = .recv i (.onRecv usedSize) := by
  unfold onRecvArgs at hargs
  split at hargs
  · exact ⟨_, _, ‹_›⟩
  · cases hargs

/-- In `OnRecv` the packet of the block is in the memory. -/
lemma Served.block_valid (hS : s.Served l h received i r) (hi : 0 ≤ i)
    (hw : s.run.job w = .recv i (.onRecv usedSize)) :
    (r.block (l.address i)).Valid (s.mem l) := by
  obtain ⟨hused, hpos, -⟩ := (hS.serves.runs w _ hw).given usedSize rfl
  rw [hS.stream.valid.getUsedSize, Option.some.injEq] at hused
  exact TestServerRun.block_valid hi hS.serves.holds.job_eq hS.stream (by omega)

/-- A worker in `Send` is in the `OnRecv` of a session, for which it sends the block. -/
lemma Inv.sends (hI : s.Inv l h received) (hw : s.run.sender w ≠ .idle) :
    ∃ i usedSize r, s.run.Added i ∧ s.run.job w = .recv i (.onRecv usedSize) ∧
      s.Served l h received i r ∧ (r.block (l.address i)).Sends i (s.run.session i)
        (h.written (h.connections.ofID (s.run.session i).mSessionID)) (s.run.sender w) := by
  have hsent := hI.sender w hw
  obtain ⟨i, usedSize, hjob⟩ := hI.sent w hsent
  have hi := hI.life.running w i _ hjob
  obtain ⟨r, hS⟩ := hI.served i hi.nonneg
  exact ⟨i, usedSize, r, hi, hjob, hS, (hS.echoes hi).inside w usedSize hjob hsent⟩

/-- The session that a worker in `Send` has a pointer to is the one of its receive job. -/
lemma Inv.slot_eq (hI : s.Inv l h received) {pc : RecvPC} (hjob : s.run.job w = .recv i pc)
    {j : ℤ} (hslot : (s.run.sender w).slot = some j) : j = i := by
  obtain ⟨k, usedSize, r, -, hk, -, hsends⟩ :=
    hI.sends (w := w) fun hidle => by rw [hidle] at hslot; cases hslot
  obtain ⟨rfl, -⟩ := JobPC.recv.inj (hjob.symm.trans hk)
  generalize s.run.sender w = spc at hslot hsends
  cases spc with
  | idle | getSession => cases hslot
  | disconnect => exact hsends.elim
  | push slot packet => exact (Option.some.inj hslot).symm.trans hsends.1.1
  | testAndSet slot => exact (Option.some.inj hslot).symm.trans hsends.1.1
  | doSend slot pc => exact (Option.some.inj hslot).symm.trans hsends.1

/-- A worker that takes a step of `Send` is in it. -/
lemma busy_of_step {input : SendInput} {t : ServerRun n (Fin n)}
    (hstep : s.run.step (.sender w input) = some t) : s.run.sender w ≠ .idle := by
  intro hidle
  obtain ⟨_, hsend, -⟩ := Option.bind_eq_some_iff.1 hstep
  rw [hidle] at hsend
  cases hsend

/-! ### What the steps of the other workers leave alone -/

/-- A session is changed by the worker that runs its receive job. -/
lemma Inv.session_eq (hI : s.Inv l h received) (hmoves : s.run.RunMoves s'.run a)
    (hi : s.run.Added i) (hnot : ∀ w, worker a = some w → ∀ pc, s.run.job w ≠ .recv i pc) :
    s'.run.session i = s.run.session i := by
  cases hmoves with
  | quietPool hmove | quietStart hmove => exact hmove.session_eq i
  | send hadded hmove | disconnect hadded hmove => exact hmove.session_eq i
  | @sender k input pc hmove hwritev =>
    refine hmove.moves.session_of_slot_ne hi.nonneg fun hslot => ?_
    obtain ⟨j, usedSize, -, -, hjob, -⟩ :=
      hI.sends (w := k) fun hidle => by rw [hidle] at hslot; cases hslot
    obtain rfl := hI.slot_eq hjob hslot
    exact hnot k rfl _ hjob
  | @job k input next hmove =>
    have hchange := hmove.moves.session hi.nonneg
    have hk := hnot k rfl
    have hreserved := hI.life.reserved k
    rw [ServerRun.session, ServerRun.session]
    generalize s'.run.memory.session i = t at hchange ⊢
    generalize s.run.job k = pc at hchange hk hreserved
    cases hchange with
    | same => rfl
    | construct clientFD sessionID => exact absurd hi (hreserved i rfl)
    | setRecvBuffer b => exact absurd rfl (hk _)
    | setReceiveState hpc => exact absurd rfl (hk _)
    | takeFD hpc =>
      rcases JobPC.disconnecting_eq_some.1 hpc with rfl | rfl <;> exact absurd rfl (hk _)

/-- The other workers come to no `OnRecv` of the session, and leave none. -/
lemma onRecv_iff (hmoves : s.run.RunMoves s'.run a)
    (hnot : ∀ w, worker a = some w → ∀ pc, s.run.job w ≠ .recv i pc) (w : Fin n) (usedSize : ℤ) :
    s'.run.job w = .recv i (.onRecv usedSize) ↔ s.run.job w = .recv i (.onRecv usedSize) := by
  cases hmoves with
  | quietPool hmove | quietStart hmove =>
    rcases hmove.job_eq w with heq | ⟨j, -, hnone, heq⟩
    · rw [heq]
    · rw [heq, hnone]
      cases j <;> simp [ServerJob.execute]
  | send hadded hmove | disconnect hadded hmove => rw [ServerRun.job, hmove.server_eq]
  | sender hmove hwritev => rw [hmove.job_eq]
  | @job k input next hmove =>
    rcases eq_or_ne w k with rfl | hne
    · refine iff_of_false (fun hw => ?_) (hnot w rfl _)
      obtain ⟨pc, hold⟩ := hmove.recv_of_recv hw
      exact hnot w rfl pc hold
    · rw [hmove.job_of_ne hne]

/-- A step of a worker leaves the `OnRecv` of the others alone. -/
lemma thread_eq (hmoves : s.run.RunMoves s'.run a) (hsent : s'.sent = s.sentAfter a)
    (hw : worker a ≠ some w) : s'.sent w = s.sent w ∧ s'.run.sender w = s.run.sender w := by
  have hne : ∀ {k : Fin n}, worker a = some k → w ≠ k := by
    rintro k hk rfl
    exact hw hk
  rw [hsent]
  cases hmoves with
  | quietPool hmove | quietStart hmove => exact ⟨rfl, by rw [hmove.sender_eq]⟩
  | send hadded hmove =>
    exact ⟨Function.update_of_ne (hne rfl) .., hmove.sender_of_ne (hne rfl)⟩
  | disconnect hadded hmove => exact ⟨rfl, hmove.sender_of_ne (hne rfl)⟩
  | sender hmove hwritev => exact ⟨rfl, hmove.sender_of_ne (hne rfl)⟩
  | @job k input next hmove =>
    refine ⟨?_, by rw [hmove.sender_eq]⟩
    cases input with
    | onRecv readSize => exact Function.update_of_ne (hne rfl) ..
    | _ => rfl

/-! ### What is written -/

/-- A `writev` that takes bytes writes them to the connection of the session. -/
lemma Inv.ofFD_of_writes (hI : s.Inv l h received) {k : Fin n} {sendPackets : List IoVec}
    {fd : SocketFD} {count : ℕ} (hwrites : s.run.writes a = some ⟨k, sendPackets, fd, count⟩) :
    ∃ i usedSize errno, s.run.Added i ∧ s.run.job k = .recv i (.onRecv usedSize) ∧
      s.run.sender k = .doSend i (.writev sendPackets fd) ∧
      a = .sender k (.writev (.accepted count errno)) ∧
      h.connections.ofFD fd = h.connections.ofID (s.run.session i).mSessionID := by
  unfold ServerRun.writes at hwrites
  split at hwrites
  · split at hwrites
    · rename_i hsender
      cases hwrites
      obtain ⟨i, usedSize, r, hi, hjob, -, hsends⟩ :=
        hI.sends (w := k) fun hidle => by rw [hidle] at hsender; cases hsender
      rw [hsender] at hsends
      obtain ⟨rfl, -, ⟨hfd, hopen⟩, -⟩ := hsends
      exact ⟨_, usedSize, _, hi, hjob, hsender, rfl, hI.arrived.owns.socket _ fd ⟨hi, hfd, hopen⟩⟩
    · cases hwrites
  · cases hwrites

/-- The steps that write nothing to a connection. -/
lemma written_of_ne {c : Option ℕ} (hc : ∀ w ∈ s.run.writes a, h.connections.ofFD w.fd ≠ c) :
    (s.record l a h).written c = h.written c := by
  cases hwrites : s.run.writes a with
  | none => simp only [record, hwrites]
  | some p =>
    simp only [record, hwrites]
    exact Function.update_of_ne (hc p hwrites).symm ..

/-- Other workers write nothing to the connection of a session. -/
lemma Inv.written_other (hI : s.Inv l h received) (hi : s.run.Added i)
    (hnot : ∀ w, worker a = some w → ∀ pc, s.run.job w ≠ .recv i pc) :
    (s.record l a h).written (h.connections.ofID (s.run.session i).mSessionID) =
      h.written (h.connections.ofID (s.run.session i).mSessionID) := by
  refine written_of_ne fun w hw heq => ?_
  obtain ⟨j, usedSize, errno, hj, hjob, -, rfl, hofFD⟩ := hI.ofFD_of_writes hw
  have hsame := hI.arrived.owns.injective _ (hI.life.mSessionID_mem hj).1 _
    (hI.life.mSessionID_mem hi).1 (hofFD.symm.trans heq)
  obtain rfl : j = i := by
    rw [← (hI.life.mSessionID_mem hj).2, ← (hI.life.mSessionID_mem hi).2, hsame]
  exact hnot w.thread rfl _ hjob

/-- What the worker in `Send` writes goes to the connection of the session. -/
lemma Inv.written_own (hI : s.Inv l h received) {input : SendInput}
    (hjob : s.run.job w = .recv i (.onRecv usedSize)) :
    (s.record l (.sender w input) h).written (h.connections.ofID (s.run.session i).mSessionID) =
      h.written (h.connections.ofID (s.run.session i).mSessionID) ++
        SendPC.takes (s.mem l) (s.run.sender w) input := by
  cases hwrites : s.run.writes (.sender w input) with
  | none =>
    have htakes : SendPC.takes (s.mem l) (s.run.sender w) input = [] := by
      unfold SendPC.takes
      split
      · rename_i hsender
        simp [ServerRun.writes, hsender] at hwrites
      · rfl
    simp only [record, hwrites, htakes, List.append_nil]
  | some p =>
    obtain ⟨k, sendPackets, fd, count⟩ := p
    obtain ⟨j, usedSize', errno, hj, hjob', hsender, heq, hofFD⟩ := hI.ofFD_of_writes hwrites
    obtain ⟨rfl, rfl⟩ := RunStep.sender.inj heq
    obtain ⟨rfl, -⟩ := JobPC.recv.inj (hjob.symm.trans hjob')
    simp only [record, hwrites, hofFD, Function.update_self, hsender, SendPC.takes]

/-! ### What the receive job does -/

/-- A step in which `OnRecv` of the session does not return. -/
lemma seeRecv_of_not_onRecv (hnot : ∀ w usedSize readSize,
    s.run.job w = .recv i (.onRecv usedSize) → a ≠ .job w (.onRecv readSize)) :
    s.run.seeRecv i a = [] ∨
      ∃ b, s.run.seeRecv i a = [b] ∧ ∀ readSize, b ≠ .onRecv readSize := by
  have hsees := s.run.seesRecv i a
  generalize s.run.seeRecv i a = bs at hsees
  cases hsees with
  | nothing => exact Or.inl rfl
  | onRecv hw => exact absurd rfl (hnot _ _ _ hw)
  | received hw => exact Or.inr ⟨_, rfl, by simp⟩
  | other hbytes hnot => exact Or.inr ⟨_, rfl, hnot⟩

/-- A step that `TestServer` can take is one of the receive job, whose `OnRecv` takes everything. -/
lemma Served.recv_step (hS : s.Served l h received i r) (hI : s.Inv l h received) (hi : 0 ≤ i)
    (ha : s.Allows l a) (hstep : s.run.step a = some s'.run) :
    ∃ r', s'.run.Serves i r' ∧ r'.Stream ∧ r'.AllTaken ∧
      r'.received = received i ++ (s.run.seeRecv i a).flatMap Input.bytes ∧
      ((∀ w usedSize readSize, s.run.job w = .recv i (.onRecv usedSize) →
        a ≠ .job w (.onRecv readSize)) → r'.consumed = r.consumed) ∧
      (∀ w usedSize readSize, s.run.job w = .recv i (.onRecv usedSize) →
        a = .job w (.onRecv readSize) → r'.consumed = r.received) ∧
      (s.run.seeRecv i a = [] → r' = r) := by
  obtain ⟨r', hexec, -, -, hr'⟩ :=
    (ServerRun.simulates_recv hi).simulates ⟨hI.life, hI.ended, hS.serves⟩ hstep
  have hreceived := RecvRun.received_of_exec hexec
  rw [hS.received_eq] at hreceived
  refine ⟨r', hr', ?_⟩
  by_cases hnot : ∀ w usedSize readSize, s.run.job w = .recv i (.onRecv usedSize) →
      a ≠ .job w (.onRecv readSize)
  · have hthird : ∀ w usedSize readSize, s.run.job w = .recv i (.onRecv usedSize) →
        a = .job w (.onRecv readSize) → r'.consumed = r.received :=
      fun w usedSize readSize hw heq => absurd heq (hnot w usedSize readSize hw)
    rcases seeRecv_of_not_onRecv hnot with hnil | ⟨b, hone, hb⟩
    · rw [hnil] at hexec
      obtain rfl : r = r' := Option.some.inj hexec
      exact ⟨hS.stream, hS.allTaken, hreceived, fun _ => rfl, hthird, fun _ => rfl⟩
    · rw [hone] at hexec
      obtain ⟨r₁, hfirst, hnil⟩ := StepMachine.exec_cons_eq_some.1 hexec
      obtain rfl : r₁ = r' := Option.some.inj hnil
      obtain ⟨hall, hstream, hconsumed, -⟩ :=
        hS.allTaken.step hS.stream (fun readSize heq => absurd heq (hb readSize)) hfirst
      exact ⟨hstream, hall, hreceived, fun _ => hconsumed hb, hthird,
        fun hnil => by simp [hone] at hnil⟩
  · simp only [not_forall, not_not] at hnot
    obtain ⟨w, usedSize, readSize, hw, rfl⟩ := hnot
    have hone : s.run.seeRecv i (.job w (.onRecv readSize)) = [.onRecv readSize] := by
      simp [ServerRun.seeRecv, hw, ServerMemory.seeRecv]
    rw [hone] at hexec
    obtain ⟨r₁, hfirst, hnil⟩ := StepMachine.exec_cons_eq_some.1 hexec
    obtain rfl : r₁ = r' := Option.some.inj hnil
    obtain ⟨-, args, hargs, rfl⟩ := ha
    rw [hS.onRecvArgs_eq hw] at hargs
    obtain rfl := Option.some.inj hargs
    obtain ⟨hall, hstream, -, hconsumed⟩ := hS.allTaken.step hS.stream (a := .onRecv _)
      (fun readSize heq => by
        rw [← Input.onRecv.inj heq, hS.stream.valid.getDirectReadSize, hS.stream.directRead_eq]
        rfl) hfirst
    exact ⟨hstream, hall, hreceived, fun hne => absurd rfl (hne w usedSize _ hw),
      fun _ _ _ _ _ => hconsumed _ rfl, fun hnil => by simp [hone] at hnil⟩

/-! ### The steps of a session -/

/-- Steps of other workers. -/
lemma Served.other_step (hS : s.Served l h received i r) (hI : s.Inv l h received)
    (hi : s.run.Added i) (hstep : s.run.step a = some s'.run) (hsent : s'.sent = s.sentAfter a)
    (hnot : ∀ w, worker a = some w → ∀ pc, s.run.job w ≠ .recv i pc)
    (hserves : s'.run.Serves i r') (hconsumed : r'.consumed = r.consumed)
    (hreceived : r'.received = r.received) :
    s'.Echoes l i r' ((s.record l a h).written
      ((s.record l a h).connections.ofID (s'.run.session i).mSessionID)) := by
  have hmoves := ServerRun.runMoves_of_step hI.life.inv.steady hstep
  have hsession := hI.session_eq hmoves hi hnot
  have hofID : (s.record l a h).connections.ofID (s'.run.session i).mSessionID =
      h.connections.ofID (s.run.session i).mSessionID := hI.life.ofID_session hstep hi
  have hjob : r'.job = r.job := by
    rw [← hserves.holds.job_eq, ← hS.serves.holds.job_eq]
    exact congrArg Session.mRecvJob hsession
  have hblock : r'.block (l.address i) = r.block (l.address i) := by
    rw [RecvRun.block, RecvRun.block, hjob, hconsumed, hreceived]
  have hecho := hS.echoes hi
  have hthread : ∀ {w usedSize}, s.run.job w = .recv i (.onRecv usedSize) →
      s'.sent w = s.sent w ∧ s'.run.sender w = s.run.sender w := fun hw =>
    thread_eq hmoves hsent fun heq => hnot _ heq _ hw
  rw [hofID, hI.written_other hi hnot]
  refine ⟨fun hout => ?_, fun w usedSize hw hcalled => ?_⟩
  · rw [hsession, hconsumed]
    refine hecho.outside fun w usedSize hw => ?_
    rw [← (hthread hw).1]
    exact hout w usedSize ((onRecv_iff hmoves hnot w usedSize).2 hw)
  · have hold := (onRecv_iff hmoves hnot w usedSize).1 hw
    rw [hsession, hblock, (hthread hold).2]
    exact hecho.inside w usedSize hold ((hthread hold).1.symm.trans hcalled)

/-- `OnRecv` calls `Send`. -/
lemma Served.send_step (hS : s.Served l h received i r) (hI : s.Inv l h received)
    (hi : s.run.Added i) {sessionID : SessionID} {packet : IoVec}
    (ha : s.Allows l (.send w sessionID packet))
    (hstep : s.run.step (.send w sessionID packet) = some s'.run)
    (hsent : s'.sent = s.sentAfter (.send w sessionID packet))
    {pc : RecvPC} (hw : s.run.job w = .recv i pc) :
    s'.Echoes l i r ((s.record l (.send w sessionID packet) h).written
      ((s.record l (.send w sessionID packet) h).connections.ofID
        (s'.run.session i).mSessionID)) := by
  obtain ⟨hidle, args, hargs, rfl, rfl⟩ := ha
  obtain ⟨j, usedSize, hj⟩ := onRecv_of_args hargs
  obtain ⟨rfl, rfl⟩ := JobPC.recv.inj (hw.symm.trans hj)
  rw [hS.onRecvArgs_eq hw] at hargs
  obtain rfl := Option.some.inj hargs
  have hmoves := ServerRun.runMoves_of_step hI.life.inv.steady hstep
  obtain _ | _ | _ | ⟨-, hmove⟩ := hmoves
  have hjob : s'.run.job = s.run.job := by rw [ServerRun.job, hmove.server_eq]
  have hofID := hI.life.ofID_session hstep hi (c := h.connections)
  have hlen := (hS.block_valid hi.nonneg hw).len_lt
  refine ⟨fun hout => ?_, fun w' usedSize' hw' hcalled => ?_⟩
  · have hfalse := hout w usedSize (by rw [hjob]; exact hw)
    rw [hsent] at hfalse
    simp [sentAfter] at hfalse
  · rw [hjob] at hw'
    obtain rfl := hS.serves.unique _ _ _ _ hw' hw
    have hrests := (hS.echoes hi).outside fun w usedSize' hw'' => by
      obtain rfl := hS.serves.unique _ _ _ _ hw'' hw
      exact hidle
    rw [hmove.sender_self, hmove.session_eq i]
    rw [hmove.session_eq i] at hofID
    refine ⟨⟨rfl, ?_⟩, ?_⟩
    · refine congrArg (IoVec.mk _) ?_
      simp only [toSize, RecvRun.block] at hlen ⊢
      omega
    · exact (congrArg h.written hofID).symm ▸ hrests

/-- A step of `Send`. -/
lemma Served.sender_step (hS : s.Served l h received i r) (hI : s.Inv l h received)
    (hi : s.run.Added i) {input : SendInput}
    (hstep : s.run.step (.sender w input) = some s'.run)
    (hsent : s'.sent = s.sentAfter (.sender w input)) {pc : RecvPC}
    (hw : s.run.job w = .recv i pc) :
    s'.Echoes l i r ((s.record l (.sender w input) h).written
      ((s.record l (.sender w input) h).connections.ofID (s'.run.session i).mSessionID)) := by
  obtain ⟨⟨memory, spc⟩, hsend, hrun⟩ := Option.bind_eq_some_iff.1 hstep
  have hcalled := hI.sender w (busy_of_step hstep)
  obtain ⟨j, usedSize, hj⟩ := hI.sent w hcalled
  obtain ⟨rfl, rfl⟩ := JobPC.recv.inj (hw.symm.trans hj)
  have hid := (hI.life.mSessionID_mem hi).2
  have hnext := ((hS.echoes hi).inside w usedSize hw hcalled).step
    (hS.block_valid hi.nonneg hw) hi.nonneg hid hsend
  have hofID : (s.record l (.sender w input) h).connections.ofID (s'.run.session i).mSessionID =
      h.connections.ofID (s.run.session i).mSessionID := hI.life.ofID_session hstep hi
  rw [hofID, hI.written_own hw]
  have hrun := Option.some.inj hrun
  have hjob : s'.run.job = s.run.job := by rw [← hrun]
  refine ⟨fun hout => ?_, fun w' usedSize' hw' _ => ?_⟩
  · have hfalse := hout w usedSize (by rw [hjob]; exact hw)
    rw [hsent] at hfalse
    exact absurd hcalled (by simp [← hfalse, sentAfter])
  · rw [hjob] at hw'
    obtain rfl := hS.serves.unique _ _ _ _ hw' hw
    rw [← hrun]
    simpa only [Function.update_self] using hnext

/-- In a step of its receive job a session keeps its packets and `mIsSending`, and its socket or
takes it. -/
lemma rests_of_job {input : JobInput} (hlife : s.run.Life) (hi : s.run.Added i)
    (hstep : s.run.step (.job w input) = some s'.run) {written given : List Byte}
    (hrests : (s.run.session i).Rests written given) :
    (s'.run.session i).Rests written given := by
  obtain ⟨next, -, hmove⟩ := ServerRun.jobMove_of_step hlife.inv.steady hstep
  have hchange := hmove.moves.session hi.nonneg
  have hreserved := hlife.reserved w
  change ServerMemory.JobChange (s.run.session i) i _ (s'.run.session i) at hchange
  generalize s'.run.session i = t at hchange ⊢
  generalize s.run.job w = pc at hchange hreserved
  cases hchange with
  | same => exact hrests
  | construct clientFD sessionID => exact absurd hi (hreserved i rfl)
  | setRecvBuffer b | setReceiveState hpc => exact hrests.congr rfl rfl (Or.inl rfl)
  | takeFD hpc => exact hrests.congr rfl rfl (Or.inr rfl)

/-- After a step of its receive job nobody is in the `Send` of the session. -/
lemma Served.echoes_of_job (hS : s.Served l h received i r) (hlife : s.run.Life)
    (hi : s.run.Added i) {input : JobInput}
    (hstep : s.run.step (.job w input) = some s'.run) {pc : RecvPC}
    (hw : s.run.job w = .recv i pc) (hcalled : s'.sent w = false)
    (hrests : (s.run.session i).Rests
      (h.written (h.connections.ofID (s.run.session i).mSessionID)) r'.consumed) :
    s'.Echoes l i r' ((s.record l (.job w input) h).written
      ((s.record l (.job w input) h).connections.ofID (s'.run.session i).mSessionID)) := by
  obtain ⟨next, -, hmove⟩ := ServerRun.jobMove_of_step hlife.inv.steady hstep
  have hofID : (s.record l (.job w input) h).connections.ofID (s'.run.session i).mSessionID =
      h.connections.ofID (s.run.session i).mSessionID := hlife.ofID_session hstep hi
  rw [hofID]
  refine ⟨fun _ => rests_of_job hlife hi hstep hrests, fun w' usedSize hw' hcalled' => ?_⟩
  obtain ⟨pc', hold⟩ := hmove.recv_of_recv hw'
  obtain rfl := hS.serves.unique _ _ _ _ hold hw
  rw [hcalled] at hcalled'
  cases hcalled'

/-- A step of the receive job. -/
lemma Served.job_step (hS : s.Served l h received i r) (hI : s.Inv l h received)
    (hi : s.run.Added i) {input : JobInput} (ha : s.Allows l (.job w input))
    (hstep : s.run.step (.job w input) = some s'.run)
    (hsent : s'.sent = s.sentAfter (.job w input)) {pc : RecvPC}
    (hw : s.run.job w = .recv i pc)
    (hkeeps : (∀ usedSize, pc ≠ .onRecv usedSize) → r'.consumed = r.consumed)
    (htakes : ∀ readSize, input = .onRecv readSize → r'.consumed = r.received) :
    s'.Echoes l i r' ((s.record l (.job w input) h).written
      ((s.record l (.job w input) h).connections.ofID (s'.run.session i).mSessionID)) := by
  obtain ⟨next, hjob, -⟩ := ServerRun.jobMove_of_step hI.life.inv.steady hstep
  rw [hw] at hjob
  have hecho := hS.echoes hi
  by_cases hpc : ∃ usedSize, pc = .onRecv usedSize
  · obtain ⟨usedSize, rfl⟩ := hpc
    cases input with
    | onRecv readSize =>
      obtain ⟨⟨hcalled, hidle⟩, -⟩ := ha
      have hsends := hecho.inside w usedSize hw hcalled
      rw [hidle] at hsends
      refine hS.echoes_of_job hI.life hi hstep hw (by simp [hsent, sentAfter]) ?_
      rw [htakes readSize rfl]
      exact hsends
    | _ => cases hjob
  · have hnot : ∀ usedSize, pc ≠ .onRecv usedSize := fun usedSize heq => hpc ⟨usedSize, heq⟩
    have hidle : s.sent w = false := by
      by_contra hcalled
      obtain ⟨j, usedSize, hj⟩ := hI.sent w (Bool.not_eq_false _ ▸ hcalled)
      obtain ⟨-, rfl⟩ := JobPC.recv.inj (hw.symm.trans hj)
      exact hnot usedSize rfl
    refine hS.echoes_of_job hI.life hi hstep hw ?_ ?_
    · rw [hsent]
      cases input with
      | onRecv readSize => exact Function.update_self ..
      | _ => exact hidle
    · rw [hkeeps hnot]
      refine hecho.outside fun w' usedSize hw' => ?_
      obtain rfl := hS.serves.unique _ _ _ _ hw' hw
      exact hidle

/-- To a session that has just been constructed nothing has been written. -/
lemma Served.new_step (hS : s.Served l h received i r) (hI : s.Inv l h received)
    (hold : ¬ s.run.Added i) (hnew : s'.run.Added i) (hstep : s.run.step a = some s'.run)
    (hconsumed : r'.consumed = r.consumed) :
    s'.Echoes l i r' ((s.record l a h).written
      ((s.record l a h).connections.ofID (s'.run.session i).mSessionID)) := by
  have hmoves := ServerRun.runMoves_of_step hI.life.inv.steady hstep
  have hconstructs := (hmoves.added_cases hI.life.toRooted hnew).resolve_left hold
  have hlife' : s'.run.Life := hI.life.step hstep
  obtain ⟨hmem, hindex⟩ := hlife'.mSessionID_mem hnew
  -- the connection of the new session is none of the others
  have hwritten : (s.record l a h).written
      ((s.record l a h).connections.ofID (s'.run.session i).mSessionID) = [] := by
    rcases hI.arrived.owns.named_cases hI.life hstep hmem with
      ⟨hmem, -⟩ | ⟨-, c, -, hofID, -, hnone⟩
    · exact absurd ⟨_, hmem, hindex⟩ hold
    · change (s.record l a h).written ((s.run.arrive a h.arrivals).connections.ofID _) = []
      rw [hofID, written_of_ne fun w hw heq => ?_]
      · exact hI.unwritten (some c) hnone
      · obtain ⟨j, -, -, hj, -, -, -, hofFD⟩ := hI.ofFD_of_writes hw
        exact hnone _ (hI.life.mSessionID_mem hj).1 (hofFD.symm.trans heq)
  have hempty : r'.consumed = [] := by
    have hprefix := hS.stream.isPrefix
    rw [hS.received_eq, hI.arrived.nothing i hold] at hprefix
    rw [hconsumed]
    exact List.prefix_nil.1 hprefix
  rw [hwritten]
  unfold ServerRun.constructs JobPC.constructs at hconstructs
  split at hconstructs
  · split at hconstructs
    · rename_i w input pc clientFD index id hpc
      obtain ⟨rfl, -⟩ := Prod.mk.inj (Option.some.inj hconstructs)
      obtain _ | _ | hmove := hmoves
      obtain ⟨-, -, hsession⟩ := hmove.construct_eq hI.life.toRooted hpc
      refine ⟨fun _ => ?_, fun w' usedSize hw' => ?_⟩
      · rw [hsession, hempty]
        exact ⟨List.prefix_rfl, fun _ => rfl, fun _ _ => rfl, by rintro ⟨⟩⟩
      · obtain ⟨pc', hw'⟩ := hmove.recv_of_recv hw'
        exact absurd (hI.life.running w' _ pc' hw') hold
    · cases hconstructs
  · cases hconstructs

/-- **One step, for the session in one slot.** -/
lemma Inv.served_step (hI : s.Inv l h received) (ha : s.Allows l a)
    (hstep : s.run.step a = some s'.run) (hsent : s'.sent = s.sentAfter a) (hi : 0 ≤ i) :
    ∃ r', s'.Served l (s.record l a h)
      (fun i => received i ++ (s.run.seeRecv i a).flatMap Input.bytes) i r' := by
  obtain ⟨r, hS⟩ := hI.served i hi
  obtain ⟨r', hserves, hstream, hall, hreceived, hkeeps, htakes, hsame⟩ :=
    hS.recv_step hI hi ha hstep
  refine ⟨r', hserves, hstream, hall, hreceived, fun hnew => ?_⟩
  by_cases hown : ∃ w pc, worker a = some w ∧ s.run.job w = .recv i pc
  · obtain ⟨w, pc, hworker, hw⟩ := hown
    have hadded := hI.life.running w i pc hw
    cases a with
    | pool | start => cases hworker
    | disconnect => exact ha.elim
    | send k sessionID packet =>
      obtain rfl := Option.some.inj hworker
      obtain rfl := hsame rfl
      exact hS.send_step hI hadded ha hstep hsent hw
    | sender k input =>
      obtain rfl := Option.some.inj hworker
      obtain rfl := hsame rfl
      exact hS.sender_step hI hadded hstep hsent hw
    | job k input =>
      obtain rfl := Option.some.inj hworker
      refine hS.job_step hI hadded ha hstep hsent hw (fun hpc => hkeeps ?_) ?_
      · rintro w' usedSize readSize hw' heq
        obtain ⟨rfl, rfl⟩ := RunStep.job.inj heq
        exact hpc usedSize (JobPC.recv.inj (hw.symm.trans hw')).2
      · rintro readSize rfl
        obtain ⟨-, args, hargs, -⟩ := id ha
        obtain ⟨j, usedSize, hj⟩ := onRecv_of_args hargs
        obtain ⟨rfl, rfl⟩ := JobPC.recv.inj (hw.symm.trans hj)
        exact htakes k usedSize readSize hw rfl
  · have hnot : ∀ w, worker a = some w → ∀ pc, s.run.job w ≠ .recv i pc :=
      fun w hworker pc hw => hown ⟨w, pc, hworker, hw⟩
    have hconsumed : r'.consumed = r.consumed := hkeeps fun w usedSize readSize hw heq =>
      hnot w (by rw [heq]; rfl) _ hw
    by_cases hold : s.run.Added i
    · have hnone : (s.run.seeRecv i a).flatMap Input.bytes = [] := by
        have hsees := s.run.seesRecv i a
        generalize s.run.seeRecv i a = bs at hsees
        cases hsees with
        | nothing | onRecv => rfl
        | received hw => exact absurd hw (hnot _ rfl _)
        | other hbytes => rw [List.flatMap_singleton, hbytes]
      refine hS.other_step hI hold hstep hsent hnot hserves hconsumed ?_
      rw [hreceived, hnone, List.append_nil, hS.received_eq]
    · exact hS.new_step hI hold hnew hstep hconsumed

/-! ### The other parts of the invariant -/

/-- `accept` returns no negative descriptor. -/
lemma nonneg_of_reuses (hstep : s.run.step a = some s'.run) {fd : SocketFD}
    (hfd : .fd fd ∈ s.run.reuses a) : 0 ≤ fd := by
  unfold ServerRun.reuses at hfd
  split at hfd
  · split at hfd
    · rename_i hpc
      obtain rfl := SendTarget.fd.inj (List.mem_singleton.1 hfd)
      obtain ⟨next, hjob⟩ := ServerRun.jobStep_of_step hstep
      rw [hpc] at hjob
      exact (Option.ite_none_right_eq_some.1 hjob).1.1
    · simp at hfd
    · cases hfd
  · cases hfd

/-- `accept` never returns the descriptor with which a worker stands before `recv`: it is still the
socket of the session. -/
lemma Inv.keepsReaders (hI : s.Inv l h received) (hstep : s.run.step a = some s'.run) :
    s.run.KeepsReaders a := by
  rintro t ht w hread
  unfold JobPC.readTarget at hread
  split at hread
  · rename_i i fd hw
    obtain rfl := Option.some.inj hread
    have hvalid : fd ≠ sINVALID_SOCKET_FD := by
      rintro rfl
      exact absurd (nonneg_of_reuses hstep ht) (by decide)
    have hholds : s.run.Holds (.inl i) fd :=
      ⟨hI.life.running w i _ hw, hI.reader w i fd hw, hvalid⟩
    exact ServerRun.notMem_openFDs_of_reuses hstep ht (hI.arrived.owns.held.mem hholds)
  · cases hread

/-- A worker outside of `OnRecv` takes no step of `Send`. -/
lemma Inv.job_of_worker (hI : s.Inv l h received) (ha : s.Allows l a)
    (hstep : s.run.step a = some s'.run) (hworker : worker a = some w)
    {pc : RecvPC} (hw : s.run.job w = .recv i pc) (hpc : ∀ usedSize, pc ≠ .onRecv usedSize) :
    ∃ input, a = .job w input := by
  cases a with
  | pool | start => cases hworker
  | disconnect => exact ha.elim
  | job k input => exact ⟨input, by rw [Option.some.inj hworker]⟩
  | send k sessionID packet =>
    obtain rfl := Option.some.inj hworker
    obtain ⟨-, args, hargs, -⟩ := ha
    obtain ⟨j, usedSize, hj⟩ := onRecv_of_args hargs
    exact absurd (JobPC.recv.inj (hw.symm.trans hj)).2 (hpc usedSize)
  | sender k input =>
    obtain rfl := Option.some.inj hworker
    obtain ⟨j, usedSize, hj⟩ := hI.sent k (hI.sender k (busy_of_step hstep))
    exact absurd (JobPC.recv.inj (hw.symm.trans hj)).2 (hpc usedSize)

/-- A worker before `recv` has read the socket that the session still has. -/
lemma Inv.reader_step (hI : s.Inv l h received) (ha : s.Allows l a)
    (hstep : s.run.step a = some s'.run) {fd : SocketFD}
    (hw : s'.run.job w = .recv i (.recv fd)) : (s'.run.session i).mSessionFD = fd := by
  have hsame : s.run.job w = .recv i (.recv fd) → (∀ input, a ≠ .job w input) →
      (s'.run.session i).mSessionFD = fd := fun hold hne => by
    have hadded := hI.life.running w i _ hold
    obtain ⟨r, hS⟩ := hI.served i hadded.nonneg
    rw [hI.session_eq (ServerRun.runMoves_of_step hI.life.inv.steady hstep) hadded]
    · exact hI.reader w i fd hold
    · intro k hk pc hkw
      obtain rfl := hS.serves.unique _ _ _ _ hkw hold
      obtain ⟨input, heq⟩ := hI.job_of_worker ha hstep hk hold (by simp)
      exact hne input heq
  cases ServerRun.runMoves_of_step hI.life.inv.steady hstep with
  | quietPool hmove | quietStart hmove =>
    rcases hmove.job_eq w with heq | ⟨j, -, -, heq⟩
    · exact hsame (heq ▸ hw) (by simp)
    · rw [heq] at hw
      cases j <;> cases hw
  | send hadded hmove | disconnect hadded hmove =>
    exact hsame (by rwa [ServerRun.job, hmove.server_eq] at hw) (by simp)
  | sender hmove => exact hsame (hmove.job_eq ▸ hw) (by simp)
  | @job k input next hmove =>
    rcases eq_or_ne w k with rfl | hne
    · obtain ⟨pc, hold⟩ := hmove.recv_of_recv hw
      have hmoves := hmove.moves
      rw [hmove.job_self] at hw
      rw [hold] at hmoves
      rw [ServerRun.session]
      generalize s'.run.memory = m' at hmoves ⊢
      cases hmoves with
      | recv hmoves =>
        cases hmoves with
        | recvArgs => exact RecvPC.recv.inj (JobPC.recv.inj hw).2
        | _ => cases hw
    · exact hsame (by rwa [hmove.job_of_ne hne] at hw) (by simp [hne.symm])

/-- Only a worker in `OnRecv` has called `Send`. -/
lemma Inv.sent_step (hI : s.Inv l h received) (ha : s.Allows l a)
    (hstep : s.run.step a = some s'.run) (hsent : s'.sent = s.sentAfter a)
    (hw : s'.sent w = true) : ∃ i usedSize, s'.run.job w = .recv i (.onRecv usedSize) := by
  have hsame : s.sent w = true → (∀ input, a ≠ .job w input) →
      ∃ i usedSize, s'.run.job w = .recv i (.onRecv usedSize) := fun hold hne => by
    obtain ⟨i, usedSize, hjob⟩ := hI.sent w hold
    refine ⟨i, usedSize, ?_⟩
    cases ServerRun.runMoves_of_step hI.life.inv.steady hstep with
    | quietPool hmove | quietStart hmove =>
      rcases hmove.job_eq w with heq | ⟨j, -, hnone, -⟩
      · rw [heq, hjob]
      · rw [hjob] at hnone
        cases hnone
    | send hadded hmove | disconnect hadded hmove => rw [ServerRun.job, hmove.server_eq]; exact hjob
    | sender hmove => rw [hmove.job_eq, hjob]
    | @job k input next hmove =>
      rw [hmove.job_of_ne fun heq => hne input (by rw [heq]), hjob]
  rw [hsent] at hw
  cases a with
  | pool | start | sender | disconnect => exact hsame hw (by simp)
  | send k sessionID packet =>
    rcases eq_or_ne w k with rfl | hne
    · obtain ⟨-, args, hargs, -⟩ := ha
      obtain ⟨i, usedSize, hjob⟩ := onRecv_of_args hargs
      obtain _ | _ | _ | ⟨-, hmove⟩ := ServerRun.runMoves_of_step hI.life.inv.steady hstep
      exact ⟨i, usedSize, by rwa [ServerRun.job, hmove.server_eq]⟩
    · exact hsame ((Function.update_of_ne hne ..).symm.trans hw) (by simp)
  | job k input =>
    rcases eq_or_ne w k with rfl | hne
    · obtain ⟨next, hjob, -⟩ := ServerRun.jobMove_of_step hI.life.inv.steady hstep
      cases input with
      | onRecv readSize => simp [sentAfter] at hw
      | _ =>
        obtain ⟨i, usedSize, hold⟩ := hI.sent w hw
        rw [hold] at hjob
        cases hjob
    · refine hsame ?_ (by simp [hne.symm])
      cases input with
      | onRecv readSize => exact (Function.update_of_ne hne ..).symm.trans hw
      | _ => exact hw

/-- A worker in `Send` has called it. -/
lemma Inv.sender_step (hI : s.Inv l h received) (ha : s.Allows l a)
    (hstep : s.run.step a = some s'.run) (hsent : s'.sent = s.sentAfter a)
    (hw : s'.run.sender w ≠ .idle) : s'.sent w = true := by
  rw [hsent]
  by_cases hworker : worker a = some w
  · cases a with
    | pool | start => cases hworker
    | disconnect => exact ha.elim
    | send k sessionID packet =>
      obtain rfl := Option.some.inj hworker
      exact Function.update_self ..
    | sender k input =>
      obtain rfl := Option.some.inj hworker
      exact hI.sender k (busy_of_step hstep)
    | job k input =>
      obtain rfl := Option.some.inj hworker
      obtain ⟨next, -, hmove⟩ := ServerRun.jobMove_of_step hI.life.inv.steady hstep
      rw [hmove.sender_eq] at hw
      cases input with
      | onRecv readSize => exact absurd ha.1.2 hw
      | _ => exact hI.sender k hw
  · obtain ⟨hsame, hsender⟩ :=
      thread_eq (ServerRun.runMoves_of_step hI.life.inv.steady hstep) hsent hworker
    rw [← hsent, hsame]
    exact hI.sender w (hsender ▸ hw)

/-- Nothing has been written to a connection that has no session. -/
lemma Inv.unwritten_step (hI : s.Inv l h received) (hstep : s.run.step a = some s'.run)
    {c : Option ℕ} (hc : ∀ id ∈ s'.run.added, (s.record l a h).connections.ofID id ≠ c) :
    (s.record l a h).written c = [] := by
  have hold : ∀ id ∈ s.run.added, h.connections.ofID id ≠ c := fun id hid =>
    ne_of_eq_of_ne (hI.life.ofID_track hstep hid).symm
      (hc id ((ServerRun.runMoves_of_step hI.life.inv.steady hstep).subset hid))
  rw [written_of_ne fun w hw heq => ?_]
  · exact hI.unwritten c hold
  · obtain ⟨j, -, -, hj, -, -, -, hofFD⟩ := hI.ofFD_of_writes hw
    exact hold _ (hI.life.mSessionID_mem hj).1 (hofFD.symm.trans heq)

/-- **One step.** -/
theorem Inv.step (hI : s.Inv l h received) (hstep : s.step l a = some s') :
    ∃ received', s'.Inv l (s.record l a h) received' := by
  obtain ⟨ha, hstep, hsent⟩ := step_eq_some.1 hstep
  refine ⟨fun i => received i ++ (s.run.seeRecv i a).flatMap Input.bytes, ?_⟩
  exact {
    arrived := hI.arrived.step (hI.keepsReaders hstep) hstep
    ended := hI.ended.step hI.life (ServerRun.runMoves_of_step hI.life.inv.steady hstep)
    sent w := hI.sent_step ha hstep hsent
    sender w := hI.sender_step ha hstep hsent
    reader w i fd := hI.reader_step ha hstep
    unwritten c := hI.unwritten_step hstep
    served i hi := hI.served_step ha hstep hsent hi }

/-- When the server starts. -/
lemma inv_start {memory : ℕ → Session} {maxSessions : ℕ} (hmax : maxSessions < 65536)
    {uniqueNumber : BitVec 64} {listenFD : SocketFD} (hlisten : listenFD ≠ sINVALID_SOCKET_FD)
    (hvalid : ∀ i, (memory i).mRecvJob.mRecvBuffer.Valid)
    (hempty : ∀ i, (memory i).mRecvJob.mRecvBuffer.mFront =
      (memory i).mRecvJob.mRecvBuffer.mRear) :
    (start n memory maxSessions uniqueNumber listenFD).Inv l (Traffic.none n) fun _ => [] where
  arrived := ServerRun.arrived_start memory hmax uniqueNumber hlisten
  ended := ServerRun.ended_start.toJobEnded
  sent w hw := by cases hw
  sender w hw := absurd rfl hw
  reader w i fd hw := by cases hw
  unwritten _ _ := rfl
  served i hi := by
    refine ⟨_, ServerRun.serves_start memory maxSessions uniqueNumber listenFD i,
      RecvRun.stream_startWith (hvalid _) (hempty _), ?_, rfl, ?_⟩
    · exact fun _ => rfl
    · rintro ⟨id, hid, -⟩
      cases hid

/-! ### Whole runs -/

/-- Every state of a run. -/
lemma inv_of_exec {memory : ℕ → Session} {maxSessions : ℕ} (hmax : maxSessions < 65536)
    {uniqueNumber : BitVec 64} {listenFD : SocketFD} (hlisten : listenFD ≠ sINVALID_SOCKET_FD)
    (hvalid : ∀ i, (memory i).mRecvJob.mRecvBuffer.Valid)
    (hempty : ∀ i, (memory i).mRecvJob.mRecvBuffer.mFront =
      (memory i).mRecvJob.mRecvBuffer.mRear) {as : List (RunStep n (Fin n))}
    (hrun : ((machine l n).withHistory (record l)).exec
      (start n memory maxSessions uniqueNumber listenFD, Traffic.none n) as = some (s, h)) :
    ∃ received, s.Inv l h received :=
  StepMachine.exec_invariant (M := (machine l n).withHistory (record l))
    (I := fun p => ∃ received, p.1.Inv l p.2 received)
    (fun p a p' ⟨received, hI⟩ hstep => by
      obtain ⟨hstep, heq⟩ := StepMachine.withHistory_step_eq_some.1 hstep
      rw [heq]
      exact hI.step hstep)
    ⟨_, inv_start hmax hlisten hvalid hempty⟩ hrun

/-- What has been written for a session is a beginning of what it has received. -/
lemma Served.isPrefix (hS : s.Served l h received i r) (hi : s.run.Added i) :
    h.written (h.connections.ofID (s.run.session i).mSessionID) <+: received i := by
  have hecho := hS.echoes hi
  rw [← hS.received_eq]
  by_cases hout : ∀ w usedSize, s.run.job w = .recv i (.onRecv usedSize) → s.sent w = false
  · exact (hecho.outside hout).isPrefix.trans hS.stream.isPrefix
  · simp only [not_forall, Bool.not_eq_false] at hout
    obtain ⟨w, usedSize, hw, hsent⟩ := hout
    exact (hecho.inside w usedSize hw hsent).isPrefix (hS.block_valid hi.nonneg hw)

/-- Between two rounds everything has been written. -/
lemma Served.written_eq (hS : s.Served l h received i r) (hi : s.run.Added i) (hawaits : s.Awaits i)
    (hidle : (s.run.session i).mIsSending = false)
    (hopen : (s.run.session i).mSessionFD ≠ sINVALID_SOCKET_FD) :
    h.written (h.connections.ofID (s.run.session i).mSessionID) = received i := by
  have hnot : ∀ w pc, s.run.job w ≠ .recv i pc := fun w pc hw =>
    hawaits.2 w (by rw [hw]; rfl)
  have hpc : r.pc = .idle := (hS.serves.rests hnot).resolve_right fun hpc =>
    hawaits.1.ne' (hS.serves.ended hpc).2.1
  have hrests := (hS.echoes hi).outside fun w usedSize hw => absurd hw (hnot w _)
  rw [hrests.echoed hidle hopen, hS.allTaken (by rw [hpc]; trivial), hS.received_eq]

end TestServerRun

/-- **Every client gets back what it has sent.**  In every run of `TestServer` on slots whose
receive buffers are empty at first, with any number of workers and at most as many clients as there
are slots, however `recv` and `writev` cut the streams up and whichever errors they return: what has
been written to a connection is the beginning of what has been received from that connection.  It is
all of it while the receive job of its session waits for more, as long as no write has been partial
and the socket has not been closed. -/
theorem testServer_echoes_everyClient (l : Layout) {n : ℕ} {memory : ℕ → Session}
    {maxSessions : ℕ} (hmax : maxSessions < 65536) (uniqueNumber : BitVec 64)
    {listenFD : SocketFD} (hlisten : listenFD ≠ sINVALID_SOCKET_FD)
    (hvalid : ∀ i, (memory i).mRecvJob.mRecvBuffer.Valid)
    (hempty : ∀ i, (memory i).mRecvJob.mRecvBuffer.mFront =
      (memory i).mRecvJob.mRecvBuffer.mRear)
    {as : List (RunStep n (Fin n))} {s : TestServerRun n} {h : Traffic n}
    (hrun : ((TestServerRun.machine l n).withHistory (TestServerRun.record l)).exec
      (TestServerRun.start n memory maxSessions uniqueNumber listenFD, Traffic.none n) as =
        some (s, h)) :
    (∀ c, h.written c <+: h.arrivals.arrived c) ∧
      ∀ id ∈ s.run.added, s.Awaits (getIndex id) →
        (s.run.session (getIndex id)).mIsSending = false →
        (s.run.session (getIndex id)).mSessionFD ≠ sINVALID_SOCKET_FD →
        h.written (h.connections.ofID id) = h.arrivals.arrived (h.connections.ofID id) := by
  obtain ⟨received, hI⟩ := TestServerRun.inv_of_exec hmax hlisten hvalid hempty hrun
  have hsession : ∀ id ∈ s.run.added, (s.run.session (getIndex id)).mSessionID = id :=
    hI.life.added_id
  refine ⟨fun c => ?_, fun id hid hawaits hidle hopen => ?_⟩
  · by_cases hc : ∃ id ∈ s.run.added, h.connections.ofID id = c
    · obtain ⟨id, hid, rfl⟩ := hc
      obtain ⟨r, hS⟩ := hI.served (getIndex id) (getIndex_nonneg id)
      rw [hI.arrived.arrived id hid]
      nth_rewrite 1 [← hsession id hid]
      exact hS.isPrefix ⟨id, hid, rfl⟩
    · rw [hI.unwritten c fun id hid heq => hc ⟨id, hid, heq⟩]
      exact List.nil_prefix
  · obtain ⟨r, hS⟩ := hI.served (getIndex id) (getIndex_nonneg id)
    rw [hI.arrived.arrived id hid]
    nth_rewrite 1 [← hsession id hid]
    exact hS.written_eq ⟨id, hid, rfl⟩ hawaits hidle hopen

/-- Sessions of a megabyte each. -/
def Layout.megabytes : Layout := ⟨4096, 2 ^ 20, by decide, by decide⟩

/-- A client sends two bytes, which `OnRecv` sends back. -/
def TestServerRun.echoOne : List (RunStep 2 (Fin 2)) :=
  ServerRun.receive ++ [.job 1 (.recv (.received [65, 66])), .job 1 .run, .job 1 .run,
    .job 1 (.recv (.failed .EAGAIN)), .job 1 .run, .send 1 0 ⟨4096, 2⟩] ++
  List.replicate 6 (.sender 1 .run) ++ [.sender 1 (.writev (.accepted 2 .EINTR)),
    .sender 1 .run, .job 1 (.onRecv 2), .job 1 .run, .job 1 (.epollCtl true)]

/-- The client has got back its two bytes. -/
theorem testServer_echoes_everyClient_oneClient : ∃ p : TestServerRun 2 × Traffic 2,
    ((TestServerRun.machine .megabytes 2).withHistory (TestServerRun.record .megabytes)).exec
      (TestServerRun.start 2 (fun _ => Session.zeroMemory) 2 0 3, Traffic.none 2)
      TestServerRun.echoOne = some p ∧
      p.2.arrivals.arrived (some 0) = [65, 66] ∧ p.2.written (some 0) = [65, 66] :=
  StepMachine.exists_exec_and
    (fun p => p.2.arrivals.arrived (some 0) = [65, 66] ∧ p.2.connections.ofID 0 = some 0 ∧
      0 ∈ p.1.run.added ∧ p.1.Awaits (getIndex 0) ∧
      (p.1.run.session (getIndex 0)).mIsSending = false ∧
      (p.1.run.session (getIndex 0)).mSessionFD ≠ sINVALID_SOCKET_FD) (by decide +kernel)
    fun p hrun ⟨harrived, hofID, hid, hawaits, hidle, hopen⟩ => by
      have hwritten := (testServer_echoes_everyClient .megabytes (by decide) 0 (by decide)
        (fun _ => CircularBuffer.valid_reset RecvBuffer.zeroMemory) (fun _ => rfl) hrun).2 0 hid
        hawaits hidle hopen
      rw [hofID] at hwritten
      exact ⟨harrived, hwritten.trans harrived⟩

end CoreServer
