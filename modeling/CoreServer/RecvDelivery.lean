import CoreServer.RecvJob

/-!
# What reaches the application before a close

`Execute` puts what `recv` returns in the buffer, and only `Complete` calls `OnRecv`.  The
machine of `RecvJob` is run with a record of the stream that `OnRecv` has been given, so that
the bytes of an `Execute` that returns false can be compared with it.
-/

namespace CoreServer

/-- What a receive job has done for the application. -/
structure Delivery where
  /-- What had been consumed before the last `OnRecv`, and the block that it was given. -/
  given : List Byte
  /-- `recv` has returned bytes since `Execute` was called. -/
  inCall : Bool

namespace RecvRun

open CircularBuffer RecvJob

/-- How a step of the job changes the record. -/
def record (r : RecvRun) : Input → Delivery → Delivery
  | .execute, d => { d with inCall := false }
  | .recv (.received _), d => { d with inCall := true }
  | .onRecv _, d => { d with given := r.consumed ++ (inputBlock r.job.mRecvBuffer).getD [] }
  | _, d => d

/-- The machine of one receive job, with the record. -/
def deliveries : StepMachine (RecvRun × Delivery) Input := machine.withHistory record

/-- No bytes have been given to the application. -/
def noDelivery : Delivery := ⟨[], false⟩

/-- However the job goes on after `recv` has returned 0, what the application has been given
is all that `recv` had returned before. -/
def DeliversBeforeClose (s : RecvRun × Delivery) : Prop :=
  ∀ bs s', deliveries.exec s (.recv .closed :: bs) = some s' → s'.2.given = s.1.received

/-- In which places of the code everything received has been given to the application: outside
`Execute` and `Complete`, and in `Execute` as long as it has received nothing. -/
def GivenUpTo (s : RecvRun × Delivery) : Prop :=
  match s.1.pc with
  | .checkFD | .recv => s.2.given = s.1.received ↔ s.2.inCall = false
  | .idle | .rearm | .rearmFailed => s.2.given = s.1.received
  | .deliver | .disconnect | .finished => True

/-- The invariant. -/
structure DeliveryInv (s : RecvRun × Delivery) : Prop where
  stream : s.1.Stream
  consumed_prefix : s.1.consumed <+: s.2.given
  given_prefix : s.2.given <+: s.1.received
  givenUpTo : GivenUpTo s

/-- A registered receive job with the buffer `b`. -/
def startWith (b : RecvBuffer) : RecvRun := ⟨.idle, ⟨b⟩, [], [], 0⟩

lemma stream_startWith {b : RecvBuffer} (hb : b.Valid) (hempty : b.mFront = b.mRear) :
    (startWith b).Stream where
  valid := hb
  front_le := hempty.le
  isPrefix := List.prefix_refl _
  content_eq := List.length_eq_zero_iff.1 (by simp [startWith, used, hempty])

lemma deliveryInv_startWith {b : RecvBuffer} (hb : b.Valid) (hempty : b.mFront = b.mRear) :
    DeliveryInv (startWith b, noDelivery) where
  stream := stream_startWith hb hempty
  consumed_prefix := List.prefix_refl _
  given_prefix := List.prefix_refl _
  givenUpTo := rfl

variable {s s' : RecvRun × Delivery}

/-- A step after which nothing new has been received, consumed or given. -/
lemma DeliveryInv.of_eq (hs : DeliveryInv s) (hstream : s'.1.Stream)
    (hreceived : s'.1.received = s.1.received) (hconsumed : s'.1.consumed = s.1.consumed)
    (hgiven : s'.2.given = s.2.given) (hupTo : GivenUpTo s') : DeliveryInv s' where
  stream := hstream
  consumed_prefix := by
    rw [hconsumed, hgiven]
    exact hs.consumed_prefix
  given_prefix := by
    rw [hreceived, hgiven]
    exact hs.given_prefix
  givenUpTo := hupTo

/-- A buffer from which nothing is left to read has given everything to the application. -/
lemma DeliveryInv.given_of_used (hs : DeliveryInv s) (hused : s.1.job.mRecvBuffer.used = 0) :
    s.2.given = s.1.received := by
  have hlen := hs.stream.used_eq
  have hle := hs.consumed_prefix.length_le
  exact hs.given_prefix.eq_of_length_le (by omega)

/-- Each `OnRecv` is given everything that the application has not consumed. -/
lemma DeliveryInv.onRecv (hs : DeliveryInv s) :
    s.1.consumed ++ (inputBlock s.1.job.mRecvBuffer).getD [] = s.1.received := by
  rw [inputBlock_eq hs.stream.valid hs.stream.front_le, hs.stream.content_eq, Option.getD_some]
  exact List.prefix_append_drop hs.stream.isPrefix |>.symm

section Steps

variable {r r' : RecvRun} {d : Delivery}

/-- `mSessionFD` is tested, in `Execute` or in `Complete`. -/
lemma DeliveryInv.socketFD (hs : DeliveryInv (r, d)) (hstream : r'.Stream) {valid : Bool}
    (h : r.step (.socketFD valid) = some r') : DeliveryInv (r', d) := by
  have hupTo := hs.givenUpTo
  simp only [RecvRun.step] at h
  split at h
  · rename_i hpc
    obtain rfl := Option.some.inj h
    rw [GivenUpTo, hpc] at hupTo
    refine hs.of_eq hstream rfl rfl rfl ?_
    cases valid
    · trivial
    · exact hupTo
  · obtain rfl := Option.some.inj h
    refine hs.of_eq hstream rfl rfl rfl ?_
    cases valid <;> trivial
  · cases h

/-- `recv` returns bytes: they are in the buffer, and the application does not have them. -/
lemma DeliveryInv.received (hs : DeliveryInv (r, d)) (hstream : r'.Stream) {bytes : List Byte}
    (h : r.step (.recv (.received bytes)) = some r') :
    DeliveryInv (r', { d with inCall := true }) := by
  obtain ⟨-, h⟩ := Option.ite_none_right_eq_some.1 h
  obtain ⟨b, hb, h⟩ := Option.bind_eq_some_iff.1 h
  obtain rfl := Option.some.inj h
  have hpos := (receive_eq_some hs.stream.valid hb).1
  have hle : d.given.length ≤ r.received.length := hs.given_prefix.length_le
  refine ⟨hstream, hs.consumed_prefix, hs.given_prefix.trans (List.prefix_append _ _), ?_⟩
  refine iff_of_false (fun heq => ?_) (by simp)
  have hlen := congrArg List.length heq
  simp only [List.length_append] at hlen
  omega

/-- `recv` returns 0 or fails. -/
lemma DeliveryInv.recv_nothing (hs : DeliveryInv (r, d)) (hstream : r'.Stream)
    {result : RecvResult} (h : r.step (.recv result) = some r')
    (hresult : ∀ bytes, result ≠ .received bytes) : DeliveryInv (r', d) := by
  have hupTo := hs.givenUpTo
  obtain ⟨hpc, h⟩ := Option.ite_none_right_eq_some.1 h
  rw [GivenUpTo, hpc] at hupTo
  cases result with
  | received bytes => exact absurd rfl (hresult bytes)
  | closed =>
    obtain rfl := Option.some.inj h
    exact hs.of_eq hstream rfl rfl rfl trivial
  | failed errno =>
    cases errno with
    | EINTR =>
      obtain rfl := Option.some.inj h
      exact hs.of_eq hstream rfl rfl rfl hupTo
    | EAGAIN | EPIPE | ECONNRESET | other =>
      obtain rfl := Option.some.inj h
      exact hs.of_eq hstream rfl rfl rfl trivial

/-- `OnRecv` is called. -/
lemma DeliveryInv.onRecvStep (hs : DeliveryInv (r, d)) (hstream : r'.Stream) {readSize : ℤ}
    (h : r.step (.onRecv readSize) = some r') :
    DeliveryInv (r', record r (.onRecv readSize) d) := by
  have hgiven : r.consumed ++ (inputBlock r.job.mRecvBuffer).getD [] = r.received := hs.onRecv
  obtain ⟨-, h⟩ := Option.ite_none_right_eq_some.1 h
  obtain ⟨usedSize, -, h⟩ := Option.bind_eq_some_iff.1 h
  obtain ⟨hpos, h⟩ := Option.ite_none_right_eq_some.1 h
  obtain ⟨block, -, h⟩ := Option.bind_eq_some_iff.1 h
  obtain ⟨b, -, h⟩ := Option.bind_eq_some_iff.1 h
  obtain rfl := Option.some.inj h
  refine ⟨hstream, ?_, ?_, hgiven⟩
  · simp only [record, hgiven]
    exact hstream.isPrefix
  · simp only [record, hgiven]
    exact List.prefix_refl _

/-- `Complete` finds nothing to read. -/
lemma DeliveryInv.noData (hs : DeliveryInv (r, d)) (hstream : r'.Stream)
    (h : r.step .noData = some r') : DeliveryInv (r', d) := by
  obtain ⟨-, h⟩ := Option.ite_none_right_eq_some.1 h
  obtain ⟨usedSize, hused, h⟩ := Option.bind_eq_some_iff.1 h
  obtain ⟨hpos, h⟩ := Option.ite_none_left_eq_some.1 h
  obtain rfl := Option.some.inj h
  have hr : r.Stream := hs.stream
  rw [hr.valid.getUsedSize, Option.some.injEq] at hused
  have hempty : r.job.mRecvBuffer.used = 0 := by omega
  exact hs.of_eq hstream rfl rfl rfl (hs.given_of_used hempty)

end Steps

/-- **One step keeps the invariant.** -/
theorem DeliveryInv.step (hs : DeliveryInv s) {a : Input} (ha : s.1.OnRecvInRange a)
    (h : deliveries.step s a = some s') : DeliveryInv s' := by
  obtain ⟨hstep, hrecord⟩ := StepMachine.withHistory_step_eq_some.1 h
  have hstream : s'.1.Stream := hs.stream.step ha hstep
  have hupTo := hs.givenUpTo
  obtain ⟨r, d⟩ := s
  obtain ⟨r', d'⟩ := s'
  simp only at hrecord hstream hupTo
  change r.step a = some r' at hstep
  subst hrecord
  cases a with
  | execute =>
    obtain ⟨hpc, hr⟩ := Option.ite_none_right_eq_some.1 hstep
    obtain rfl := Option.some.inj hr
    rw [GivenUpTo, hpc] at hupTo
    exact hs.of_eq hstream rfl rfl rfl (iff_of_true hupTo rfl)
  | socketFD valid => exact hs.socketFD hstream hstep
  | recv result =>
    cases result with
    | received bytes => exact hs.received hstream hstep
    | closed | failed => exact hs.recv_nothing hstream hstep nofun
  | onRecv readSize => exact hs.onRecvStep hstream hstep
  | noData => exact hs.noData hstream hstep
  | epollCtl ok =>
    obtain ⟨hpc, hr⟩ := Option.ite_none_right_eq_some.1 hstep
    obtain rfl := Option.some.inj hr
    rw [GivenUpTo, hpc] at hupTo
    refine hs.of_eq hstream rfl rfl rfl ?_
    cases ok <;> exact hupTo
  | disconnected =>
    obtain ⟨-, hr⟩ := Option.ite_none_right_eq_some.1 hstep
    obtain rfl := Option.some.inj hr
    exact hs.of_eq hstream rfl rfl rfl trivial

/-- After `recv` has returned 0, nothing is received or given any more. -/
lemma given_of_closed {as : List Input} (hpc : s.1.pc = .disconnect ∨ s.1.pc = .finished)
    (h : deliveries.exec s as = some s') : s'.2.given = s.2.given := by
  induction as generalizing s with
  | nil =>
    obtain rfl : s = s' := Option.some.inj h
    rfl
  | cons a as ih =>
    obtain ⟨⟨r', d'⟩, hfirst, hrest⟩ := StepMachine.exec_cons_eq_some.1 h
    obtain ⟨hstep, rfl⟩ := StepMachine.withHistory_step_eq_some.1 hfirst
    obtain ⟨r, d⟩ := s
    simp only at hstep hpc
    cases a with
    | disconnected =>
      obtain ⟨-, hr⟩ := Option.ite_none_right_eq_some.1 hstep
      obtain rfl := Option.some.inj hr
      exact (ih (Or.inr rfl) hrest :)
    | execute => rcases hpc with hpc | hpc <;> simp [machine, RecvRun.step, hpc] at hstep
    | socketFD valid => rcases hpc with hpc | hpc <;> simp [machine, RecvRun.step, hpc] at hstep
    | recv result => rcases hpc with hpc | hpc <;> simp [machine, RecvRun.step, hpc] at hstep
    | onRecv readSize => rcases hpc with hpc | hpc <;> simp [machine, RecvRun.step, hpc] at hstep
    | noData => rcases hpc with hpc | hpc <;> simp [machine, RecvRun.step, hpc] at hstep
    | epollCtl ok => rcases hpc with hpc | hpc <;> simp [machine, RecvRun.step, hpc] at hstep

/-- The close delivers nothing by itself. -/
lemma deliversBeforeClose_iff (hpc : s.1.pc = .recv) :
    DeliversBeforeClose s ↔ s.2.given = s.1.received := by
  obtain ⟨t, hclose, hgiven, hdone⟩ : ∃ t, deliveries.step s (.recv .closed) = some t ∧
      t.2.given = s.2.given ∧ t.1.pc = .disconnect :=
    ⟨({ s.1 with pc := .disconnect }, s.2),
      StepMachine.withHistory_step_eq_some.2
        ⟨by simp [machine, RecvRun.step, hpc], rfl⟩, rfl, rfl⟩
  refine ⟨fun h => ?_, fun hall bs s' h => ?_⟩
  · rw [← hgiven]
    exact h [] t (StepMachine.exec_cons_of_step hclose)
  · rw [StepMachine.exec_cons_of_step hclose] at h
    rw [given_of_closed (Or.inl hdone) h, hgiven, hall]

end RecvRun

/-- **When what came before a close is delivered.**  Whatever `recv` has returned before, in
whatever rounds, all of it has been given to `OnRecv` before `Disconnect` is called for the
close exactly when the `Execute` that sees the close has received nothing itself. -/
theorem recvJob_deliversBeforeClose_iff {b : RecvBuffer} (hb : b.Valid)
    (hempty : b.mFront = b.mRear) {as : List RecvJob.Input} {s : RecvRun × Delivery}
    (hrun : RecvRun.deliveries.exec (RecvRun.startWith b, RecvRun.noDelivery) as = some s)
    (hin : RecvRun.machine.Along RecvRun.OnRecvInRange (RecvRun.startWith b) as)
    (hpc : s.1.pc = .recv) : RecvRun.DeliversBeforeClose s ↔ s.2.inCall = false := by
  have hs : RecvRun.DeliveryInv s := StepMachine.exec_invariant_along
    (fun _ _ _ hs ha h => hs.step ha h) (RecvRun.deliveryInv_startWith hb hempty)
    (StepMachine.along_withHistory.2 hin) hrun
  have hupTo := hs.givenUpTo
  rw [RecvRun.GivenUpTo, hpc] at hupTo
  rw [RecvRun.deliversBeforeClose_iff hpc]
  exact hupTo

/-- A round that receives a byte and gives it to the application, and a round that finds the
connection closed. -/
theorem recvJob_deliversBeforeClose_two_rounds : ∃ s,
    RecvRun.deliveries.exec (RecvRun.startWith RecvBuffer.zeroMemory, RecvRun.noDelivery)
      [.execute, .socketFD true, .recv (.received [65]), .socketFD true,
        .recv (.failed .EAGAIN), .onRecv 0, .epollCtl true, .execute, .socketFD true] = some s ∧
      s.1.received = [65] ∧ RecvRun.DeliversBeforeClose s :=
  StepMachine.exists_exec_and
    (fun s => s.1.received = [65] ∧ s.1.pc = .recv ∧ s.2.inCall = false)
    (by decide +kernel) fun _ hrun ⟨hreceived, hpc, hcall⟩ =>
      ⟨hreceived, (recvJob_deliversBeforeClose_iff
        (CircularBuffer.valid_reset RecvBuffer.zeroMemory) rfl hrun (by decide +kernel) hpc).2
        hcall⟩

/-- A byte that arrives together with the close is never given to the application. -/
theorem recvJob_loses_last_bytes : ∃ s,
    RecvRun.deliveries.exec (RecvRun.startWith RecvBuffer.zeroMemory, RecvRun.noDelivery)
      [.execute, .socketFD true, .recv (.received [65]), .socketFD true] = some s ∧
      (s.1.pc = .recv ∧ s.1.job.mRecvBuffer.getDirectWriteSize ≠ some 0) ∧
      ¬ RecvRun.DeliversBeforeClose s := by
  refine StepMachine.exists_exec_and (fun s => (s.1.pc = .recv ∧
    s.1.job.mRecvBuffer.getDirectWriteSize ≠ some 0) ∧ s.2.given ≠ s.1.received)
    (by decide +kernel) fun s _ ⟨hclose, hgiven⟩ => ⟨hclose, ?_⟩
  rwa [RecvRun.deliversBeforeClose_iff hclose.1]

end CoreServer
