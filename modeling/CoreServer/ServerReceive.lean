import CoreServer.Lib.Simulation
import CoreServer.ReceiveEnd
import CoreServer.RecvDelivery

/-!
# The receive job in the server

`RecvRun` is the program of one receive job by itself: an event takes it, the kernel and the
application answer it.  In the server any worker may run it, and between two of its steps the
other workers, `Start` and the threads that send take theirs.  Here the run of the server is seen
from one session: the steps that its receive job takes, whichever worker takes them, are a run of
`RecvRun`, with the buffer of the session.  What is true of every run of one receive job is so of
every session of a running server.

What the application has of the stream of a session is read off its callbacks (`Reading`).
-/

namespace CoreServer

/-! ## What the application has of a stream -/

/-- What the application has of the stream of a session: the block that it has been given by
`OnRecv` and has not answered yet, and what it has taken before. -/
structure Reading where
  block : List Byte
  taken : List Byte
deriving DecidableEq

/-- `OnRecv` gives a block, and takes as many bytes of it as it returns. -/
def Reading.after (d : Reading) : Callback → Reading
  | .onRecv _ buffer => { d with block := buffer }
  | .onRecvReturned _ readSize => ⟨[], d.taken ++ d.block.take readSize.toNat⟩
  | .onConnected _ | .onDisconnected _ => d

/-- What the application has after the callbacks `cs` of the stream of the sessions of which `p`
holds. -/
def readingOf (p : SessionID → Bool) (cs : List Callback) : Reading :=
  (cs.filter fun c => p c.sessionID).foldl Reading.after ⟨[], []⟩

/-- What the application has of the stream of the session in the slot `i`. -/
def slotReading (i : ℤ) : List Callback → Reading := readingOf fun id => getIndex id = i

/-- What the application has of the stream of the session `id`. -/
def reading (id : SessionID) : List Callback → Reading := readingOf fun id' => id' = id

lemma readingOf_append_singleton (p : SessionID → Bool) (cs : List Callback) (c : Callback) :
    readingOf p (cs ++ [c]) =
      if p c.sessionID then (readingOf p cs).after c else readingOf p cs := by
  rw [readingOf, List.filter_append, List.foldl_append, ← readingOf]
  cases hp : p c.sessionID <;> simp [hp]

lemma slotReading_append_singleton (i : ℤ) (cs : List Callback) (c : Callback) :
    slotReading i (cs ++ [c]) =
      if getIndex c.sessionID = i then (slotReading i cs).after c else slotReading i cs := by
  simp only [slotReading, readingOf_append_singleton, decide_eq_true_eq]

/-! ## The steps of a receive job -/

namespace RecvRun

variable {r : RecvRun}

lemma step_checkFD (hpc : r.pc = .checkFD) (valid : Bool) :
    r.step (.socketFD valid) = some { r with pc := if valid then .recv else .disconnect } := by
  rw [step, hpc]

lemma step_rearmFailed (hpc : r.pc = .rearmFailed) (valid : Bool) :
    r.step (.socketFD valid) = some { r with pc := if valid then .finished else .disconnect } := by
  rw [step, hpc]

lemma step_received (hpc : r.pc = .recv) {bytes : List Byte} {b : RecvBuffer}
    (hb : receive r.job.mRecvBuffer bytes = some b) :
    r.step (.recv (.received bytes)) =
      some { r with pc := .checkFD, job := ⟨b⟩, received := r.received ++ bytes } := by
  rw [step, if_pos hpc]
  simp only [hb]
  rfl

lemma step_noData (hpc : r.pc = .deliver) {usedSize : ℤ}
    (hused : r.job.mRecvBuffer.getUsedSize = some usedSize) (hpos : ¬ usedSize > 0) :
    r.step .noData = some { r with pc := .rearm } := by
  rw [step, if_pos hpc, hused]
  exact if_neg hpos

lemma step_onRecv (hpc : r.pc = .deliver) {usedSize readSize : ℤ} {block : List Byte}
    {b : RecvBuffer} (hused : r.job.mRecvBuffer.getUsedSize = some usedSize) (hpos : 0 < usedSize)
    (hblock : inputBlock r.job.mRecvBuffer = some block)
    (hb : consume r.job.mRecvBuffer usedSize readSize = some b) :
    ∃ r', r.step (.onRecv readSize) = some r' ∧ r'.pc = .rearm ∧ r'.job = ⟨b⟩ ∧
      r'.consumed = r.consumed ++ block.take readSize.toNat := by
  simp only [step, if_pos hpc, hused, Option.bind_eq_bind, Option.bind_some, if_pos hpos, hblock,
    hb]
  exact ⟨_, rfl, rfl, rfl, rfl⟩

end RecvRun

/-- Where a receive job stands that a worker runs, for the program of one receive job. -/
def RecvPC.toPC : RecvPC → RecvJob.PC
  | checkFD => .checkFD
  | recvArgs | recv _ => .recv
  | setReceiveState | disconnect _ => .disconnect
  | usedSize | onRecv _ => .deliver
  | epollModArgs | epollMod _ => .rearm
  | isValidSocket => .rearmFailed
  | setReceiveStateAfterMod | disconnectAfterMod _ => .disconnect

namespace ServerMemory

/-- `Disconnect` returns in the step of a thread that stands at `pc`. -/
def disconnectReturns (m : ServerMemory) (slot : ℤ) (pc : DisconnectPC) : Bool :=
  match m.disconnectStep slot pc with
  | some (_, none) => true
  | _ => false

/-- What a step of the receive job of the session in a slot is for the program of the job: the
answer of the kernel, of the application or of the session, if the step asks for one. -/
def seeRecv (m : ServerMemory) (slot : ℤ) : RecvPC → JobInput → List RecvJob.Input
  | .checkFD, _ | .isValidSocket, _ =>
    [.socketFD ((m.session slot).mSessionFD ≠ sINVALID_SOCKET_FD)]
  | .recv _, .recv result => [.recv result]
  | .usedSize, _ =>
    if (m.session slot).mRecvJob.mRecvBuffer.getUsedSize.any (0 < ·) then [] else [.noData]
  | .onRecv _, .onRecv readSize => [.onRecv readSize]
  | .epollMod _, .epollCtl ok => [.epollCtl ok]
  | .disconnect pc, _ | .disconnectAfterMod pc, _ =>
    if m.disconnectReturns slot pc then [.disconnected] else []
  | _, _ => []

/-- The receive job `r` has the buffer of the session in the slot `i`, and has consumed what the
application has taken. -/
structure HoldsJob (m : ServerMemory) (i : ℤ) (r : RecvRun) : Prop where
  job_eq : (m.session i).mRecvJob = r.job
  taken_eq : (slotReading i m.callbacks).taken = r.consumed

/-- The receive job `r` stands where the worker does that runs the one of the session in the slot
`i`. -/
structure RunsJob (m : ServerMemory) (i : ℤ) (pc : RecvPC) (r : RecvRun) : Prop
    extends m.HoldsJob i r where
  pc_eq : r.pc = pc.toPC
  /-- In `OnRecv` the application has the block at the front of the buffer. -/
  given : ∀ usedSize, pc = .onRecv usedSize → r.job.mRecvBuffer.getUsedSize = some usedSize ∧
    0 < usedSize ∧ RecvRun.inputBlock r.job.mRecvBuffer = some (slotReading i m.callbacks).block

/-- A worker leaves the receive job: it is registered again, or it is not. -/
structure LeavesJob (m : ServerMemory) (i : ℤ) (pc : RecvPC) (r : RecvRun) : Prop
    extends m.HoldsJob i r where
  resting : r.pc = .idle ∨ r.pc = .finished
  finished : r.pc = .finished → pc.beforeMod = false ∨ ∃ dpc, pc = .disconnect dpc

/-- After a step from `pc` in the receive job of the session in the slot `i`, which for the
program of the job is the steps `bs`, the program is where the worker is. -/
def StepsTo (m : ServerMemory) (i : ℤ) (pc : RecvPC) (next : Next) (r : RecvRun)
    (bs : List RecvJob.Input) : Prop :=
  ∃ r', RecvRun.machine.exec r bs = some r' ∧
    ((∃ pc', next.pc = .recv i pc' ∧ m.RunsJob i pc' r') ∨
      (next.pc = .none ∧ m.LeavesJob i pc r'))

variable {m m' : ServerMemory} {i : ℤ} {pc pc' : RecvPC} {r r' : RecvRun} {next : Next}

/-- The worker goes on in the job, and the program does not see it. -/
lemma StepsTo.unseen (hr : m.HoldsJob i r) (hnext : next.pc = .recv i pc') (hpc : r.pc = pc'.toPC)
    (hnot : ∀ usedSize, pc' ≠ .onRecv usedSize) : m.StepsTo i pc next r [] :=
  ⟨r, rfl, Or.inl ⟨pc', hnext, hr, hpc, fun u hu => absurd hu (hnot u)⟩⟩

/-- The worker goes on in the job, as the program does. -/
lemma StepsTo.goto {b : RecvJob.Input} (hstep : r.step b = some r') (hr : m.HoldsJob i r')
    (hnext : next.pc = .recv i pc') (hpc : r'.pc = pc'.toPC)
    (hnot : ∀ usedSize, pc' ≠ .onRecv usedSize) : m.StepsTo i pc next r [b] :=
  ⟨r', StepMachine.exec_cons_of_step hstep,
    Or.inl ⟨pc', hnext, hr, hpc, fun u hu => absurd hu (hnot u)⟩⟩

/-- The worker leaves the job, as the program does. -/
lemma StepsTo.leave {b : RecvJob.Input} (hstep : r.step b = some r') (hr : m.HoldsJob i r')
    (hnext : next.pc = .none) (hpc : r'.pc = .idle ∨ r'.pc = .finished)
    (hfinished : r'.pc = .finished → pc.beforeMod = false ∨ ∃ dpc, pc = .disconnect dpc) :
    m.StepsTo i pc next r [b] :=
  ⟨r', StepMachine.exec_cons_of_step hstep, Or.inr ⟨hnext, hr, hpc, hfinished⟩⟩

/-- A step that leaves the receive job of the session alone and reports at most a
disconnection. -/
lemma HoldsJob.frame (hr : m.HoldsJob i r)
    (hjob : (m'.session i).mRecvJob = (m.session i).mRecvJob)
    (hcalls : m'.callbacks = m.callbacks ∨
      ∃ id, m'.callbacks = m.callbacks ++ [.onDisconnected id]) : m'.HoldsJob i r where
  job_eq := hjob.trans hr.job_eq
  taken_eq := by
    rw [← hr.taken_eq]
    rcases hcalls with heq | ⟨id, heq⟩
    · rw [heq]
    · rw [heq, slotReading_append_singleton]
      split <;> rfl

/-- `Disconnect` leaves the receive job alone. -/
lemma HoldsJob.disconnect (hr : m.HoldsJob i r) (hi : 0 ≤ i) {slot : ℤ} {dpc : DisconnectPC}
    {dpc' : Option DisconnectPC} (h : DisconnectMoves m slot dpc m' dpc') : m'.HoldsJob i r := by
  refine hr.frame ?_ ?_
  · rcases h.session hi with heq | ⟨-, -, heq⟩ <;> rw [heq]
    rfl
  · rcases h.calls with heq | ⟨-, -, heq⟩
    · exact Or.inl heq
    · exact Or.inr ⟨_, heq⟩

/-- The receive job has another buffer. -/
lemma HoldsJob.setRecvBuffer (hr : m.HoldsJob i r) (hi : 0 ≤ i) (b : RecvBuffer) :
    (m.updateSession i (setRecvBuffer b)).HoldsJob i { r with job := ⟨b⟩ } where
  job_eq := by rw [session_updateSession_self hi]; rfl
  taken_eq := hr.taken_eq

/-- `SetReceiveState` leaves the receive job alone. -/
lemma HoldsJob.setReceiveState (hr : m.HoldsJob i r) (hi : 0 ≤ i) (state : Bool) :
    (m.updateSession i fun s => s.setReceiveState state).HoldsJob i r :=
  hr.frame (by rw [session_updateSession_self hi]; rfl) (Or.inl rfl)

/-- A step in which the job of the worker is answered like the program. -/
lemma RunsJob.goto (hr : m.RunsJob i pc r) {p : RecvJob.PC} {b : RecvJob.Input}
    (hstep : r.step b = some { r with pc := p }) (hnext : next.pc = .recv i pc')
    (hp : p = pc'.toPC) (hnot : ∀ usedSize, pc' ≠ .onRecv usedSize) :
    m.StepsTo i pc next r [b] :=
  .goto hstep ⟨hr.job_eq, hr.taken_eq⟩ hnext hp hnot

/-- A step of `Disconnect`, which ends it or does not. -/
lemma RunsJob.disconnectStep (hr : m.RunsJob i pc r) (hi : 0 ≤ i) {dpc : DisconnectPC}
    {dpc' : Option DisconnectPC} (hpc : r.pc = .disconnect)
    (hstep : m.disconnectStep i dpc = some (m', dpc'))
    (hgoes : ∀ dpc₁, dpc' = some dpc₁ → ∃ pc', next.pc = .recv i pc' ∧ pc'.toPC = .disconnect)
    (hends : dpc' = none → next.pc = .none)
    (hpc' : pc.beforeMod = false ∨ ∃ dpc, pc = .disconnect dpc) :
    m'.StepsTo i pc next r (if m.disconnectReturns i dpc then [.disconnected] else []) := by
  have hholds := hr.toHoldsJob.disconnect hi (disconnectMoves_of_step hstep)
  rw [disconnectReturns, hstep]
  cases dpc' with
  | some dpc₁ =>
    obtain ⟨pc', hnext, hto⟩ := hgoes dpc₁ rfl
    refine .unseen hholds hnext (hpc.trans hto.symm) ?_
    rintro usedSize rfl
    cases hto
  | none =>
    have hstep : r.step .disconnected = some { r with pc := .finished } := if_pos hpc
    exact .leave hstep ⟨hholds.job_eq, hholds.taken_eq⟩ (hends rfl) (Or.inr rfl) fun _ => hpc'

/-- `Execute` reads the descriptor. -/
lemma RunsJob.step_checkFD (hr : m.RunsJob i .checkFD r) :
    m.StepsTo i .checkFD (.goto (.recv i
      (if (m.session i).mSessionFD = sINVALID_SOCKET_FD then .setReceiveState else .recvArgs))) r
      [.socketFD ((m.session i).mSessionFD ≠ sINVALID_SOCKET_FD)] := by
  have hstep := RecvRun.step_checkFD hr.pc_eq
  by_cases hfd : (m.session i).mSessionFD = sINVALID_SOCKET_FD
  · rw [if_pos hfd, decide_eq_false (not_not.2 hfd)]
    exact hr.goto (hstep false) rfl rfl nofun
  · rw [if_neg hfd, decide_eq_true hfd]
    exact hr.goto (hstep true) rfl rfl nofun

/-- `Complete` reads the descriptor behind a failed `epoll_ctl`. -/
lemma RunsJob.step_isValidSocket (hr : m.RunsJob i .isValidSocket r) :
    m.StepsTo i .isValidSocket (if (m.session i).mSessionFD ≠ sINVALID_SOCKET_FD
      then .completeReturns else .goto (.recv i .setReceiveStateAfterMod)) r
      [.socketFD ((m.session i).mSessionFD ≠ sINVALID_SOCKET_FD)] := by
  have hstep := RecvRun.step_rearmFailed hr.pc_eq
  by_cases hfd : (m.session i).mSessionFD = sINVALID_SOCKET_FD
  · rw [if_neg (not_not.2 hfd), decide_eq_false (not_not.2 hfd)]
    exact hr.goto (hstep false) rfl rfl nofun
  · rw [if_pos hfd, decide_eq_true hfd]
    exact .leave (hstep true) ⟨hr.job_eq, hr.taken_eq⟩ rfl (Or.inr rfl) fun _ => Or.inl rfl

/-- `recv` returns bytes. -/
lemma RunsJob.step_received {fd : SocketFD} (hr : m.RunsJob i (.recv fd) r) (hi : 0 ≤ i)
    {bytes : List Byte} {b : RecvBuffer}
    (hb : RecvRun.receive (m.session i).mRecvJob.mRecvBuffer bytes = some b) :
    (m.updateSession i (ServerMemory.setRecvBuffer b)).StepsTo i (.recv fd)
      (.goto (.recv i .checkFD)) r [.recv (.received bytes)] := by
  have hholds := hr.toHoldsJob.setRecvBuffer hi b
  rw [hr.job_eq] at hb
  exact .goto (RecvRun.step_received hr.pc_eq hb) ⟨hholds.job_eq, hholds.taken_eq⟩ rfl rfl nofun

/-- `Complete` calls `OnRecv`. -/
lemma RunsJob.step_usedSize (hr : m.RunsJob i .usedSize r)
    (hid : getIndex (m.session i).mSessionID = i) {usedSize : ℤ} {block : List Byte}
    (hused : (m.session i).mRecvJob.mRecvBuffer.getUsedSize = some usedSize) (hpos : usedSize > 0)
    (hblock : RecvRun.inputBlock (m.session i).mRecvJob.mRecvBuffer = some block) :
    (m.call (.onRecv (m.session i).mSessionID block)).StepsTo i .usedSize
      (.goto (.recv i (.onRecv usedSize))) r [] := by
  have hreading : slotReading i (m.callbacks ++ [.onRecv (m.session i).mSessionID block]) =
      { slotReading i m.callbacks with block := block } := by
    rw [slotReading_append_singleton]
    exact if_pos hid
  rw [hr.job_eq] at hused hblock
  refine ⟨r, rfl, Or.inl ⟨.onRecv usedSize, rfl, ⟨hr.job_eq, ?_⟩, hr.pc_eq, fun u hu => ?_⟩⟩
  · rw [callbacks_call, hreading]
    exact hr.taken_eq
  · obtain rfl := RecvPC.onRecv.inj hu
    exact ⟨hused, hpos, by rw [callbacks_call, hreading, hblock]⟩

/-- `OnRecv` returns. -/
lemma RunsJob.step_onRecv {usedSize : ℤ} (hr : m.RunsJob i (.onRecv usedSize) r) (hi : 0 ≤ i)
    (hid : getIndex (m.session i).mSessionID = i) {readSize : ℤ} {b : RecvBuffer}
    (hb : RecvRun.consume (m.session i).mRecvJob.mRecvBuffer usedSize readSize = some b) :
    ((m.updateSession i (ServerMemory.setRecvBuffer b)).call
      (.onRecvReturned (m.session i).mSessionID readSize)).StepsTo i (.onRecv usedSize)
      (.goto (.recv i .epollModArgs)) r [.onRecv readSize] := by
  obtain ⟨hused, hpos, hblock⟩ := hr.given usedSize rfl
  have hholds := hr.toHoldsJob.setRecvBuffer hi b
  rw [hr.job_eq] at hb
  obtain ⟨r', hstep, hpc, hjob, hconsumed⟩ := RecvRun.step_onRecv hr.pc_eq hused hpos hblock hb
  refine .goto hstep ⟨?_, ?_⟩ rfl hpc nofun
  · rw [session_call, hjob]
    exact hholds.job_eq
  · rw [callbacks_call, callbacks_updateSession, slotReading_append_singleton, hconsumed,
      ← hr.taken_eq]
    exact congrArg Reading.taken (if_pos hid)

/-- **One step of the receive job in the server is what the program of the job does.** -/
theorem RunsJob.step (hr : m.RunsJob i pc r) (hi : 0 ≤ i)
    (hid : getIndex (m.session i).mSessionID = i) {input : JobInput}
    (h : m.recvStep i pc input = some (m', next)) :
    m'.StepsTo i pc next r (m.seeRecv i pc input) := by
  have hpc := hr.pc_eq
  unfold recvStep at h
  split at h
  · obtain ⟨-, h⟩ := slot_bind_eq_some.1 h
    obtain ⟨rfl, rfl⟩ := Prod.mk.inj (Option.some.inj h)
    exact hr.step_checkFD
  · obtain ⟨-, h⟩ := slot_bind_eq_some.1 h
    obtain ⟨rfl, rfl⟩ := Prod.mk.inj (Option.some.inj h)
    exact .unseen hr.toHoldsJob rfl hpc nofun
  · obtain ⟨-, h⟩ := Option.ite_none_right_eq_some.1 h
    obtain ⟨-, h⟩ := slot_bind_eq_some.1 h
    obtain ⟨b, hb, h⟩ := Option.bind_eq_some_iff.1 h
    obtain ⟨-, h⟩ := modifySession_bind_eq_some.1 h
    obtain ⟨rfl, rfl⟩ := Prod.mk.inj (Option.some.inj h)
    exact hr.step_received hi hb
  · obtain ⟨-, h⟩ := Option.ite_none_right_eq_some.1 h
    obtain ⟨rfl, rfl⟩ := Prod.mk.inj (Option.some.inj h)
    exact hr.goto (if_pos hpc) rfl rfl nofun
  -- the errors of `recv`
  · obtain ⟨rfl, rfl⟩ := Prod.mk.inj (Option.some.inj h)
    exact hr.goto (if_pos hpc) rfl rfl nofun
  · obtain ⟨rfl, rfl⟩ := Prod.mk.inj (Option.some.inj h)
    exact hr.goto (if_pos hpc) rfl rfl nofun
  · obtain ⟨rfl, rfl⟩ := Prod.mk.inj (Option.some.inj h)
    exact hr.goto (if_pos hpc) rfl rfl nofun
  · obtain ⟨rfl, rfl⟩ := Prod.mk.inj (Option.some.inj h)
    exact hr.goto (if_pos hpc) rfl rfl nofun
  · obtain ⟨rfl, rfl⟩ := Prod.mk.inj (Option.some.inj h)
    exact hr.goto (if_pos hpc) rfl rfl nofun
  · obtain ⟨-, h⟩ := modifySession_bind_eq_some.1 h
    obtain ⟨rfl, rfl⟩ := Prod.mk.inj (Option.some.inj h)
    exact .unseen (hr.toHoldsJob.setReceiveState hi false) rfl hpc nofun
  · obtain ⟨⟨m₁, dpc'⟩, hstep, h⟩ := Option.bind_eq_some_iff.1 h
    cases dpc' with
    | none =>
      obtain ⟨rfl, rfl⟩ := Prod.mk.inj (Option.some.inj h)
      exact hr.disconnectStep hi hpc hstep nofun (fun _ => rfl) (Or.inr ⟨_, rfl⟩)
    | some dpc' =>
      obtain ⟨rfl, rfl⟩ := Prod.mk.inj (Option.some.inj h)
      exact hr.disconnectStep hi hpc hstep (fun _ _ => ⟨_, rfl, rfl⟩) nofun (Or.inr ⟨_, rfl⟩)
  · obtain ⟨-, h⟩ := slot_bind_eq_some.1 h
    obtain ⟨usedSize, hused, h⟩ := Option.bind_eq_some_iff.1 h
    rw [seeRecv, hused, Option.any_some]
    split at h
    · rename_i hpos
      obtain ⟨block, hblock, h⟩ := Option.bind_eq_some_iff.1 h
      obtain ⟨rfl, rfl⟩ := Prod.mk.inj (Option.some.inj h)
      rw [decide_eq_true hpos, if_pos rfl]
      exact hr.step_usedSize hid hused hpos hblock
    · rename_i hpos
      obtain ⟨rfl, rfl⟩ := Prod.mk.inj (Option.some.inj h)
      rw [hr.job_eq] at hused
      rw [decide_eq_false hpos, if_neg Bool.false_ne_true]
      exact hr.goto (RecvRun.step_noData hpc hused hpos) rfl rfl nofun
  · obtain ⟨-, h⟩ := slot_bind_eq_some.1 h
    obtain ⟨b, hb, h⟩ := Option.bind_eq_some_iff.1 h
    obtain ⟨-, h⟩ := modifySession_bind_eq_some.1 h
    obtain ⟨rfl, rfl⟩ := Prod.mk.inj (Option.some.inj h)
    exact hr.step_onRecv hi hid hb
  · obtain ⟨-, h⟩ := slot_bind_eq_some.1 h
    obtain ⟨rfl, rfl⟩ := Prod.mk.inj (Option.some.inj h)
    exact .unseen hr.toHoldsJob rfl hpc nofun
  · rename_i fd ok
    obtain ⟨m₁, hmod, h⟩ := Option.bind_eq_some_iff.1 h
    obtain ⟨rfl, rfl⟩ := Prod.mk.inj (Option.some.inj h)
    cases ok with
    | false =>
      obtain rfl := Option.some.inj hmod
      exact hr.goto (if_pos hpc) rfl rfl nofun
    | true =>
      obtain ⟨epoll, hepoll, hmod⟩ := Option.bind_eq_some_iff.1 hmod
      obtain rfl := Option.some.inj hmod
      have hstep : r.step (.epollCtl true) = some { r with pc := .idle } := if_pos hpc
      exact .leave hstep ⟨hr.job_eq, hr.taken_eq⟩ rfl (Or.inl rfl) nofun
  · obtain ⟨-, h⟩ := slot_bind_eq_some.1 h
    obtain ⟨rfl, rfl⟩ := Prod.mk.inj (Option.some.inj h)
    exact hr.step_isValidSocket
  · obtain ⟨-, h⟩ := modifySession_bind_eq_some.1 h
    obtain ⟨rfl, rfl⟩ := Prod.mk.inj (Option.some.inj h)
    exact .unseen (hr.toHoldsJob.setReceiveState hi false) rfl hpc nofun
  · obtain ⟨⟨m₁, dpc'⟩, hstep, h⟩ := Option.bind_eq_some_iff.1 h
    cases dpc' with
    | none =>
      obtain ⟨rfl, rfl⟩ := Prod.mk.inj (Option.some.inj h)
      exact hr.disconnectStep hi hpc hstep nofun (fun _ => rfl) (Or.inl rfl)
    | some dpc' =>
      obtain ⟨rfl, rfl⟩ := Prod.mk.inj (Option.some.inj h)
      exact hr.disconnectStep hi hpc hstep (fun _ _ => ⟨_, rfl, rfl⟩) nofun (Or.inl rfl)
  · cases h

end ServerMemory

/-! ## The server seen from one session -/

namespace ServerRun

variable {n : ℕ} {κ : Type}

/-- What a step of the server is for the program of the receive job of the session in the slot
`i`: a worker takes the job from the queue, or a worker that runs it takes a step. -/
def seeRecv (i : ℤ) (s : ServerRun n κ) : RunStep n κ → List RecvJob.Input
  | .pool (.pop _) =>
    if s.server.pool.mJobQueue.head? = some (.recv i) then [.execute] else []
  | .job w input =>
    match s.job w with
    | .recv slot pc => if slot = i then s.memory.seeRecv i pc input else []
    | _ => []
  | _ => []

/-- The receive job `r` is the one of the session in the slot `i`. -/
structure Serves (i : ℤ) (s : ServerRun n κ) (r : RecvRun) : Prop where
  holds : s.memory.HoldsJob i r
  runs : ∀ w pc, s.job w = .recv i pc → s.memory.RunsJob i pc r
  unique : ∀ w w' pc pc', s.job w = .recv i pc → s.job w' = .recv i pc' → w = w'
  rests : (∀ w pc, s.job w ≠ .recv i pc) → r.pc = .idle ∨ r.pc = .finished
  /-- A job object that has been lost is nowhere, and is not about to be registered. -/
  ended : r.pc = .finished → s.Added i ∧ s.places (.recv i) = 0 ∧
    ∀ w id, (s.job w).registering = some id → getIndex id ≠ i

variable {s s' : ServerRun n κ} {i : ℤ} {r : RecvRun}

lemma serves_start (memory : ℕ → Session) (maxSessions : ℕ) (uniqueNumber : BitVec 64)
    (listenFD : SocketFD) (i : ℤ) :
    (start n κ memory maxSessions uniqueNumber listenFD).Serves i
      (RecvRun.startWith (memory i.toNat).mRecvJob.mRecvBuffer) where
  holds := ⟨rfl, rfl⟩
  runs w pc h := by cases h
  unique w w' pc pc' h := by cases h
  rests _ := Or.inl rfl
  ended h := by cases h

/-- A job object that waits in the queue is run by nobody. -/
lemma not_running_of_queued (hs : s.Life) (he : s.JobEnded)
    (hmem : .recv i ∈ s.server.pool.mJobQueue) (w : Fin n) (pc : RecvPC) :
    s.job w ≠ .recv i pc := by
  intro hw
  have hle := hs.places_le (.recv i)
  cases hpc : pc.beforeMod with
  | false =>
    -- it has been lost
    exact (places_pos_of_mem hmem).ne' (he.lost w i pc hw hpc)
  | true =>
    -- it is in the hands of the worker
    have hhand : ServerJob.recv i ∈ (s.job w).hand := by
      rw [hw, JobPC.hand, if_pos hpc]
      exact List.mem_singleton_self _
    have hqueue := List.count_pos_iff.2 hmem
    have hheld : 0 < ∑ t, (s.server.inHands t).count (.recv i) :=
      Finset.sum_pos' (fun _ _ => Nat.zero_le _)
        ⟨.inl w, Finset.mem_univ _, List.count_pos_iff.2 (List.mem_append_right _ hhand)⟩
    rw [places_eq, Server.held] at hle
    omega

/-- A step that leaves the receive job and the callbacks of the session alone. -/
lemma Serves.frame (hr : s.Serves i r)
    (hjob : (s'.session i).mRecvJob = (s.session i).mRecvJob)
    (hreading : slotReading i s'.memory.callbacks = slotReading i s.memory.callbacks)
    (hworkers : ∀ w pc, s'.job w = .recv i pc ↔ s.job w = .recv i pc)
    (hended : r.pc = .finished → s'.Added i ∧ s'.places (.recv i) = 0 ∧
      ∀ w id, (s'.job w).registering = some id → getIndex id ≠ i) : s'.Serves i r := by
  have hholds : s'.memory.HoldsJob i r :=
    ⟨hjob.trans hr.holds.job_eq, by rw [hreading]; exact hr.holds.taken_eq⟩
  refine ⟨hholds, fun w pc hw => ?_, fun w w' pc pc' hw hw' => ?_, fun hnone => ?_, hended⟩
  · have hold := hr.runs w pc ((hworkers w pc).1 hw)
    exact ⟨hholds, hold.pc_eq, by rw [hreading]; exact hold.given⟩
  · exact hr.unique w w' pc pc' ((hworkers w pc).1 hw) ((hworkers w' pc').1 hw')
  · exact hr.rests fun w pc hw => hnone w pc ((hworkers w pc).2 hw)

/-! ### Steps that do not touch the receive job -/

/-- The receive job of the session is nowhere after a step of a thread that moves no job
object. -/
lemma Serves.ended_of_eq (hr : s.Serves i r) (hadded : s'.added = s.added)
    (hplaces : s'.places (.recv i) ≤ s.places (.recv i))
    (hregistering : ∀ w id, (s'.job w).registering = some id → (s.job w).registering = some id)
    (hfinished : r.pc = .finished) : s'.Added i ∧ s'.places (.recv i) = 0 ∧
      ∀ w id, (s'.job w).registering = some id → getIndex id ≠ i := by
  obtain ⟨hi, hzero, hnot⟩ := hr.ended hfinished
  refine ⟨by rw [Added, hadded]; exact hi, by omega, fun w id hw => ?_⟩
  exact hnot w id (hregistering w id hw)

/-- A step of the pool or of `Start` at which no worker takes the job of the session. -/
lemma Serves.quiet (hr : s.Serves i r) (h : s.Quiet s')
    (hworkers : ∀ w pc, s'.job w = .recv i pc ↔ s.job w = .recv i pc) : s'.Serves i r := by
  refine hr.frame (by rw [h.session_eq]) (by rw [h.callbacks_eq]) hworkers ?_
  exact hr.ended_of_eq h.added_eq (h.places_recv i).le fun w id hw =>
    h.job_congr (fun j => (execute_cases j).2.2.1) w ▸ hw

lemma Serves.call [DecidableEq κ] (hr : s.Serves i r) {k : κ} {pc : SendPC}
    (h : s.CallMove s' k pc) : s'.Serves i r := by
  have hjob : s'.job = s.job := by rw [job, h.server_eq]
  refine hr.frame (by rw [h.session_eq]) (by rw [memory, h.server_eq])
    (fun w pc => by rw [hjob]) ?_
  exact hr.ended_of_eq h.added_eq (by rw [places, h.server_eq]) fun w id hw => by rwa [← hjob]

/-- A thread that sends leaves the receive job alone. -/
lemma SendMove.mRecvJob {k : κ} {pc : SendPC} [DecidableEq κ] (h : s.SendMove s' k pc)
    (hi : 0 ≤ i) : (s'.session i).mRecvJob = (s.session i).mRecvJob := by
  have hchange := h.moves.session hi
  rw [session, session]
  generalize s'.memory.session i = t at hchange ⊢
  generalize s.sender k = spc at hchange
  cases hchange <;> rfl

lemma Serves.send [DecidableEq κ] (hr : s.Serves i r) (hi : 0 ≤ i) {k : κ} {pc : SendPC}
    (h : s.SendMove s' k pc) : s'.Serves i r := by
  refine hr.frame (h.mRecvJob hi) ?_ (fun w pc => by rw [h.job_eq]) ?_
  · rcases h.moves.calls with heq | ⟨slot, -, heq⟩
    · rw [heq]
    · rw [heq, slotReading_append_singleton]
      split <;> rfl
  · exact hr.ended_of_eq h.added_eq (h.places_le _) fun w id hw => by rwa [← h.job_eq]

section JobMove

variable {w : Fin n} {next : Next}

/-- A worker that does not run the receive job leaves it alone. -/
lemma JobMove.mRecvJob (h : s.JobMove s' w next) (hi : 0 ≤ i)
    (hnot : ∀ pc, s.job w ≠ .recv i pc) : (s'.session i).mRecvJob = (s.session i).mRecvJob := by
  have hchange := h.moves.session hi
  rw [session, session]
  generalize s'.memory.session i = t at hchange ⊢
  generalize s.job w = pc at hchange hnot
  cases hchange with
  | setRecvBuffer b => exact absurd rfl (hnot _)
  | same => rfl
  | construct clientFD sessionID => rfl
  | setReceiveState hpc => rfl
  | takeFD hpc => rfl

/-- A worker that does not run the receive job gives the application nothing of the stream. -/
lemma JobMove.slotReading_eq (hs : s.Life) (h : s.JobMove s' w next)
    (hnot : ∀ pc, s.job w ≠ .recv i pc) :
    slotReading i s'.memory.callbacks = slotReading i s.memory.callbacks := by
  obtain ⟨cs, hcalls, heq⟩ := h.moves.calls
  have hslot : ∀ slot pc, s.job w = .recv slot pc →
      getIndex (s.session slot).mSessionID ≠ i := fun slot pc hpc hslot => by
    obtain rfl := (hs.mSessionID_mem (hs.running w slot pc hpc)).2.symm.trans hslot
    exact hnot pc hpc
  rw [heq]
  generalize s.job w = pc at hcalls hslot
  cases hcalls with
  | none => rw [List.append_nil]
  | onConnected sessionID =>
    rw [slotReading_append_singleton]
    split <;> rfl
  | onRecv block hused hpos =>
    rw [slotReading_append_singleton]
    exact if_neg (hslot _ _ rfl)
  | onRecvReturned readSize =>
    rw [slotReading_append_singleton]
    exact if_neg (hslot _ _ rfl)
  | onDisconnected hpc =>
    rw [slotReading_append_singleton]
    split <;> rfl

/-- Another worker keeps the receive job, or has it no less than before. -/
lemma JobMove.recv_iff (h : s.JobMove s' w next) (hnot : ∀ pc, s.job w ≠ .recv i pc) (w' : Fin n)
    (pc : RecvPC) : s'.job w' = .recv i pc ↔ s.job w' = .recv i pc := by
  rcases eq_or_ne w' w with rfl | hne
  · refine iff_of_false (fun hw => ?_) (hnot pc)
    obtain ⟨pc', hold⟩ := h.recv_of_recv hw
    exact hnot pc' hold
  · rw [h.job_of_ne hne]

/-- The session that comes to be registered is not one that has been added before. -/
lemma JobMove.registering_ne (hs : s.Life) (h : s.JobMove s' w next) (hi : s.Added i)
    (hnot : ∀ w id, (s.job w).registering = some id → getIndex id ≠ i) {w' : Fin n}
    {id : SessionID} (hw' : (s'.job w').registering = some id) : getIndex id ≠ i := by
  rcases eq_or_ne w' w with rfl | hne
  · rw [h.job_self] at hw'
    cases h.moves.acceptNext.1 with
    | alloc hadds hreserved hnone hpool =>
      rw [JobPC.connecting_of_registering hw'] at hnone
      cases hnone
    | reserved hadds hreserved hnone =>
      rw [JobPC.connecting_of_registering hw'] at hnone
      cases hnone
    | construct hpc hnone hid =>
      obtain rfl := Option.some.inj (hid.symm.trans hw')
      obtain ⟨-, rfl, hunused, -⟩ := h.of_construct hs hpc
      rintro rfl
      exact hunused hi
    | connecting hadds hnone hconnecting hregistering =>
      rcases hregistering with heq | heq
      · rw [heq] at hw'
        cases hw'
      · exact hnot w' id (heq ▸ hw')
  · exact hnot w' id (h.job_of_ne hne ▸ hw')

/-- A receive job that is nowhere stays nowhere. -/
lemma Serves.ended_job (hs : s.Life) (hr : s.Serves i r) (h : s.JobMove s' w next)
    (hfinished : r.pc = .finished) : s'.Added i ∧ s'.places (.recv i) = 0 ∧
      ∀ w id, (s'.job w).registering = some id → getIndex id ≠ i := by
  obtain ⟨hi, hzero, hnot⟩ := hr.ended hfinished
  refine ⟨hi.of_subset h.subset, h.places_of_not_registers (fun hregisters => ?_) hzero,
    fun w' id hw' => h.registering_ne hs hi hnot hw'⟩
  obtain ⟨id, hid, heq⟩ := hs.registering_of_registers hregisters
  exact hnot w id hid heq

/-- A step of a worker that does not run the receive job. -/
lemma Serves.other_job (hs : s.Life) (hr : s.Serves i r) (hi : 0 ≤ i) (h : s.JobMove s' w next)
    (hnot : ∀ pc, s.job w ≠ .recv i pc) : s'.Serves i r :=
  hr.frame (h.mRecvJob hi hnot) (h.slotReading_eq hs hnot) (h.recv_iff hnot)
    fun hfinished => hr.ended_job hs h hfinished

/-- A step of the worker that runs the receive job. -/
lemma Serves.own_job (hs : s.Life) (he : s.JobEnded) (hr : s.Serves i r)
    (h : s.JobMove s' w next) {pc : RecvPC} (hw : s.job w = .recv i pc) {bs : List RecvJob.Input}
    (hstep : s'.memory.StepsTo i pc next r bs) :
    ∃ r', RecvRun.machine.exec r bs = some r' ∧ s'.Serves i r' := by
  obtain ⟨r', hexec, hgoes | hleaves⟩ := hstep
  all_goals
    refine ⟨r', hexec, ?_⟩
    have honly : ∀ w' pc', s'.job w' = .recv i pc' → w' = w := fun w' pc' hw' =>
      have ⟨_, hold⟩ := h.recv_of_recv hw'
      hr.unique w' w _ _ hold hw
    have hunique : ∀ w₁ w₂ pc₁ pc₂, s'.job w₁ = .recv i pc₁ → s'.job w₂ = .recv i pc₂ → w₁ = w₂ :=
      fun w₁ w₂ pc₁ pc₂ h₁ h₂ => (honly w₁ pc₁ h₁).trans (honly w₂ pc₂ h₂).symm
  · obtain ⟨pc', hnext, hruns⟩ := hgoes
    have hself : s'.job w = .recv i pc' := h.job_self.trans hnext
    refine ⟨hruns.toHoldsJob, fun w' pc₁ hw' => ?_, hunique, fun hnone => ?_, fun hfinished => ?_⟩
    · obtain rfl := honly w' pc₁ hw'
      obtain ⟨-, rfl⟩ := JobPC.recv.inj (hself.symm.trans hw')
      exact hruns
    · exact absurd hself (hnone w pc')
    · rw [hruns.pc_eq] at hfinished
      cases pc' <;> cases hfinished
  · obtain ⟨hnext, hleaves⟩ := hleaves
    have hself : s'.job w = .none := h.job_self.trans hnext
    refine ⟨hleaves.toHoldsJob, fun w' pc₁ hw' => ?_, hunique, fun _ => hleaves.resting,
      fun hfinished => ⟨(hs.running w i pc hw).of_subset h.subset, ?_, fun w' id hw' => ?_⟩⟩
    · obtain rfl := honly w' pc₁ hw'
      rw [hself] at hw'
      cases hw'
    · -- the worker drops the job object, or has lost it before
      rcases hleaves.finished hfinished with hlost | ⟨dpc, rfl⟩
      · exact h.places_of_not_registers (hs.registers_ne_of_running hw) (he.lost w i pc hw hlost)
      · have hmoves := h.moves
        rw [hw] at hmoves
        rcases hmoves.of_disconnect with ⟨dpc', hgoes⟩ | ⟨hhand, hshrinks⟩
        · rw [hgoes] at hnext
          cases hnext
        · refine h.places_eq_zero hs ?_ hhand (hshrinks.armed_le _)
          rw [hw]
          exact List.mem_singleton_self _
    · rcases eq_or_ne w' w with rfl | hne
      · rw [hself] at hw'
        cases hw'
      · rw [h.job_of_ne hne] at hw'
        rintro rfl
        exact hs.quiet w' id hw' w pc hw

end JobMove

/-! ### The simulation -/

/-- What a step of the pool does to the workers: one of them takes the first job object of the
queue, or all stay where they are. -/
lemma pool_job_eq [DecidableEq κ] (hs : s.server.Steady)
    {a : WorkerThreadPool.Step n Unit ServerJob} (h : s.step (.pool a) = some s') :
    (∃ w j jobs, a = .pop w ∧ s.server.pool.mJobQueue = j :: jobs ∧ s.job w = .none ∧
      s'.job = Function.update s.job w j.execute) ∨
      ((∀ w, a = .pop w → s.server.pool.mJobQueue = []) ∧ s'.job = s.job) := by
  obtain ⟨server, hstep, h⟩ := Option.bind_eq_some_iff.1 h
  obtain rfl := Option.some.inj h
  obtain ⟨-, hstep⟩ := Option.ite_none_right_eq_some.1 hstep
  obtain ⟨pool, hpool, hstep⟩ := Option.bind_eq_some_iff.1 hstep
  obtain rfl := Option.some.inj hstep
  cases WorkerThreadPool.moves_of_step hpool with
  | @popJob w j jobs hpc hqueue =>
    refine Or.inl ⟨w, j, jobs, rfl, hqueue, hs.running w (by rw [hpc]; rfl), ?_⟩
    simp only [job, WorkerThreadPool.goto_worker_self, Server.begin]
  | @popNone w hpc hqueue =>
    refine Or.inr ⟨fun _ _ => hqueue, ?_⟩
    simp only [job, WorkerThreadPool.goto_worker_self, Server.begin]
  | _ => exact Or.inr ⟨by rintro _ ⟨⟩, rfl⟩

/-- A step of `Start` leaves the workers where they are. -/
lemma start_job_eq [DecidableEq κ] {ok : Bool} (h : s.step (.start ok) = some s') :
    s'.job = s.job := by
  obtain ⟨server, hstep, h⟩ := Option.bind_eq_some_iff.1 h
  obtain rfl := Option.some.inj h
  exact (Server.startMoves_of_step hstep).job_eq

/-- A worker takes the job object of the session from the queue. -/
lemma Serves.popped (hs : s.Life) (he : s.JobEnded) (hr : s.Serves i r) (h : s.Quiet s')
    (hmem : .recv i ∈ s.server.pool.mJobQueue) {w : Fin n}
    (hjob : s'.job = Function.update s.job w (ServerJob.recv i).execute) :
    ∃ r', RecvRun.machine.exec r [.execute] = some r' ∧ s'.Serves i r' := by
  have hnone := not_running_of_queued hs he hmem
  have hidle : r.pc = .idle := (hr.rests hnone).resolve_right fun hfinished =>
    (places_pos_of_mem hmem).ne' (hr.ended hfinished).2.1
  have hstep : r.step .execute = some { r with pc := .checkFD } := if_pos hidle
  have hholds : s'.memory.HoldsJob i { r with pc := .checkFD } := by
    refine ⟨?_, ?_⟩
    · rw [← hr.holds.job_eq]
      exact congrArg Session.mRecvJob (h.session_eq i)
    · rw [h.callbacks_eq]
      exact hr.holds.taken_eq
  have hself : s'.job w = .recv i .checkFD := by rw [hjob, Function.update_self]; rfl
  have honly : ∀ w' pc, s'.job w' = .recv i pc → w' = w := fun w' pc hw' => by
    by_contra hne
    rw [hjob, Function.update_of_ne hne] at hw'
    exact hnone w' pc hw'
  refine ⟨_, StepMachine.exec_cons_of_step hstep, hholds, fun w' pc hw' => ?_,
    fun w₁ w₂ pc₁ pc₂ h₁ h₂ => (honly w₁ pc₁ h₁).trans (honly w₂ pc₂ h₂).symm,
    fun hnot => absurd hself (hnot w _), nofun⟩
  obtain rfl := honly w' pc hw'
  obtain ⟨-, rfl⟩ := JobPC.recv.inj (hself.symm.trans hw')
  exact ⟨hholds, rfl, nofun⟩

/-- A step of the pool. -/
lemma Serves.pool [DecidableEq κ] (hs : s.Life) (he : s.JobEnded) (hr : s.Serves i r)
    {a : WorkerThreadPool.Step n Unit ServerJob} (h : s.step (.pool a) = some s') :
    ∃ r', RecvRun.machine.exec r (s.seeRecv i (.pool a)) = some r' ∧ s'.Serves i r' := by
  obtain ⟨hquiet⟩ | _ := runMoves_of_step hs.inv.steady h
  rcases pool_job_eq hs.inv.steady h with ⟨w, j, jobs, rfl, hqueue, hnone, hjob⟩ | ⟨hempty, hjob⟩
  · rw [seeRecv, hqueue, List.head?_cons]
    by_cases hj : j = .recv i
    · subst hj
      rw [if_pos rfl]
      exact hr.popped hs he hquiet (hqueue ▸ List.mem_cons_self) hjob
    · rw [if_neg (by simpa using hj)]
      refine ⟨r, rfl, hr.quiet hquiet fun w' pc => ?_⟩
      rcases eq_or_ne w' w with rfl | hne
      · rw [hjob, Function.update_self, hnone]
        refine iff_of_false (fun heq => ?_) nofun
        exact hj ((execute_cases j).2.2.2.2 i pc heq)
      · rw [hjob, Function.update_of_ne hne]
  · have hsee : s.seeRecv i (.pool a) = [] := by
      cases a with
      | pop w =>
        rw [seeRecv, hempty w rfl]
        exact if_neg nofun
      | _ => rfl
    rw [hsee]
    exact ⟨r, rfl, hr.quiet hquiet fun w pc => by rw [hjob]⟩

/-- A step of a job is a move of the job that its worker runs. -/
lemma jobMove_of_step [DecidableEq κ] (hs : s.server.Steady) {w : Fin n} {input : JobInput}
    (h : s.step (.job w input) = some s') :
    ∃ next, s.memory.jobStep (s.job w) input = some (s'.memory, next) ∧ s.JobMove s' w next := by
  obtain ⟨server, hstep, h⟩ := Option.bind_eq_some_iff.1 h
  obtain rfl := Option.some.inj h
  obtain ⟨hadd, next, hjob, hfollows⟩ := Server.jobStep_of_step hstep
  have hmoves := ServerMemory.jobMoves_of_step hjob
  exact ⟨next, hjob, hmoves, hfollows.job_eq, hfollows.held hadd,
    hmoves.bound (hs.id_ok w) hs.max_lt, rfl, rfl⟩

/-- A step of a worker. -/
lemma Serves.job [DecidableEq κ] (hs : s.Life) (he : s.JobEnded) (hr : s.Serves i r) (hi : 0 ≤ i)
    {w : Fin n} {input : JobInput} (h : s.step (.job w input) = some s') :
    ∃ r', RecvRun.machine.exec r (s.seeRecv i (.job w input)) = some r' ∧ s'.Serves i r' := by
  obtain ⟨next, hjob, hmove⟩ := jobMove_of_step hs.inv.steady h
  by_cases hrun : ∃ pc, s.job w = .recv i pc
  · obtain ⟨pc, hw⟩ := hrun
    rw [hw] at hjob
    have hid := (hs.mSessionID_mem (hs.running w i pc hw)).2
    simp only [seeRecv, hw, if_true]
    exact hr.own_job hs he hmove hw ((hr.runs w pc hw).step hi hid hjob)
  · have hsee : s.seeRecv i (.job w input) = [] := by
      rw [seeRecv]
      split
      · rename_i slot pc hw
        exact if_neg fun heq => hrun ⟨pc, by rw [hw, heq]⟩
      · rfl
    rw [hsee]
    exact ⟨r, rfl, hr.other_job hs hi hmove fun pc hw => hrun ⟨pc, hw⟩⟩

/-- **The program of one receive job simulates the server.** -/
theorem simulates_recv [DecidableEq κ] (hi : 0 ≤ i) :
    RecvRun.machine.Simulates (machine n κ)
      (fun s r => s.Life ∧ s.JobEnded ∧ s.Serves i r) (seeRecv i) where
  simulates := by
    rintro s r a s' ⟨hs, he, hr⟩ h
    have hmoves := runMoves_of_step hs.inv.steady h
    have hlife : s'.Life := hs.step h
    have hended : s'.JobEnded := he.step hs hmoves
    suffices hstep : ∃ r', RecvRun.machine.exec r (s.seeRecv i a) = some r' ∧ s'.Serves i r' from
      hstep.imp fun _ h => ⟨h.1, hlife, hended, h.2⟩
    cases hmoves with
    | quietPool hquiet => exact hr.pool hs he h
    | job hmove => exact hr.job hs he hi h
    | quietStart hquiet =>
      exact ⟨r, rfl, hr.quiet hquiet fun w pc => by rw [start_job_eq h]⟩
    | send hadded hcall | disconnect hadded hcall => exact ⟨r, rfl, hr.call hcall⟩
    | sender hsend => exact ⟨r, rfl, hr.send hi hsend⟩

end ServerRun

/-- **Every session receives as if it were alone.**  However the threads of a started server
interleave, whatever the kernel answers, and whenever the other threads send or disconnect, the
steps that the receive job of a session takes, on whichever workers, are a run of the program of
one receive job: it is never run twice at a time, the buffer of the session is the one that this
run leaves, and the application has taken of the stream what this run has consumed. -/
theorem server_runs_recvJob {n : ℕ} {κ : Type} [DecidableEq κ] (memory : ℕ → Session)
    {maxSessions : ℕ} (hmax : maxSessions < 65536) (uniqueNumber : BitVec 64)
    (listenFD : SocketFD) {as : List (RunStep n κ)} {s : ServerRun n κ}
    (hrun : (ServerRun.machine n κ).exec
      (ServerRun.start n κ memory maxSessions uniqueNumber listenFD) as = some s)
    {i : ℤ} (hi : 0 ≤ i) : ∃ r,
      RecvRun.machine.exec (RecvRun.startWith (memory i.toNat).mRecvJob.mRecvBuffer)
        ((ServerRun.machine n κ).seen (ServerRun.seeRecv i)
          (ServerRun.start n κ memory maxSessions uniqueNumber listenFD) as) = some r ∧
        s.Serves i r := by
  obtain ⟨r, hexec, -, -, hr⟩ := (ServerRun.simulates_recv hi).exec
    ⟨ServerRun.life_start hmax, ServerRun.ended_start.toJobEnded,
      ServerRun.serves_start memory maxSessions uniqueNumber listenFD i⟩ hrun
  exact ⟨r, hexec, hr⟩

/-- A server whose receive job has received a byte, given it to the application, and reported the
disconnection that began meanwhile. -/
theorem server_runs_recvJob_closeInOnRecv : ∃ s,
    (ServerRun.machine 2 Unit).exec
      (ServerRun.start 2 Unit (fun _ => Session.zeroMemory) 2 0 3) ServerRun.closeInOnRecv =
        some s ∧
      (ServerRun.machine 2 Unit).seen (ServerRun.seeRecv 0)
        (ServerRun.start 2 Unit (fun _ => Session.zeroMemory) 2 0 3) ServerRun.closeInOnRecv =
        [.execute, .socketFD true, .recv (.received [65]), .socketFD true,
          .recv (.failed .EAGAIN), .onRecv 1, .epollCtl false, .socketFD false, .disconnected] ∧
      ∃ r, s.Serves 0 r :=
  StepMachine.exists_exec_and (fun _ => (ServerRun.machine 2 Unit).seen (ServerRun.seeRecv 0)
      (ServerRun.start 2 Unit (fun _ => Session.zeroMemory) 2 0 3) ServerRun.closeInOnRecv =
        [.execute, .socketFD true, .recv (.received [65]), .socketFD true,
          .recv (.failed .EAGAIN), .onRecv 1, .epollCtl false, .socketFD false, .disconnected])
    (by decide +kernel) fun s hrun hseen => ⟨hseen,
      (server_runs_recvJob _ (by decide) 0 3 hrun le_rfl).imp fun _ h => h.2⟩

end CoreServer
