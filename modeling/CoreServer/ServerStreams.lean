import CoreServer.SendTarget
import CoreServer.ServerReceive

/-!
# The streams of a running server

What `recv` returns for a session comes to the application in order, whichever workers have
received it, as long as `OnRecv` takes no more than it is given.  What `recv` returns for a session
comes from its connection, unless the number of its descriptor is used again while a worker stands
before `recv` with it.
-/

namespace CoreServer

/-- The bytes that `recv` has returned. -/
def RecvJob.Input.bytes : RecvJob.Input → List Byte
  | .recv (.received bytes) => bytes
  | _ => []

lemma RecvJob.Input.bytes_eq_nil_or (b : RecvJob.Input) :
    b.bytes = [] ∨ ∃ bytes, b = .recv (.received bytes) := by
  unfold RecvJob.Input.bytes
  split
  · exact Or.inr ⟨_, rfl⟩
  · exact Or.inl rfl

/-- A step of a receive job receives the bytes that it is answered. -/
lemma RecvRun.received_of_step {r r' : RecvRun} {b : RecvJob.Input} (h : r.step b = some r') :
    r'.received = r.received ++ b.bytes := by
  rcases b.bytes_eq_nil_or with hnone | ⟨bytes, rfl⟩
  · rw [hnone, List.append_nil]
    rcases step_cases h with ⟨-, hreceived, -⟩ | ⟨bytes, b', rfl, -, rfl⟩ |
      ⟨readSize, usedSize, block, b', rfl, -, -, -, -, rfl⟩
    · exact hreceived
    · obtain rfl : bytes = [] := hnone
      exact List.append_nil _
    · rfl
  · obtain ⟨-, h⟩ := Option.ite_none_right_eq_some.1 h
    obtain ⟨b', -, h⟩ := Option.bind_eq_some_iff.1 h
    obtain rfl := Option.some.inj h
    rfl

/-- A run of a receive job receives the bytes that its `recv` calls return. -/
lemma RecvRun.received_of_exec {r r' : RecvRun} {bs : List RecvJob.Input}
    (h : machine.exec r bs = some r') :
    r'.received = r.received ++ bs.flatMap RecvJob.Input.bytes := by
  induction bs generalizing r with
  | nil =>
    obtain rfl : r = r' := Option.some.inj h
    exact (List.append_nil _).symm
  | cons b bs ih =>
    obtain ⟨r₁, hstep, hrest⟩ := StepMachine.exec_cons_eq_some.1 h
    rw [ih hrest, received_of_step hstep, List.flatMap_cons, List.append_assoc]

/-- The slot of the session for which a worker is in `OnRecv`. -/
def JobPC.inOnRecv : JobPC → Option ℤ
  | recv slot (.onRecv _) => some slot
  | _ => Option.none

namespace ServerRun

variable {n : ℕ} {κ : Type}

/-- The bytes that `recv` has returned for the session in the slot `i`. -/
def received [DecidableEq κ] (i : ℤ) (s : ServerRun n κ) (as : List (RunStep n κ)) : List Byte :=
  ((machine n κ).seen (seeRecv i) s as).flatMap RecvJob.Input.bytes

/-- The count that `OnRecv` returns is between 0 and the size that it was given. -/
def OnRecvInRange (s : ServerRun n κ) : RunStep n κ → Prop
  | .job w (.onRecv readSize) => ∀ slot ∈ (s.job w).inOnRecv, 0 ≤ readSize ∧
      ∀ inputSize ∈ (s.session slot).mRecvJob.mRecvBuffer.getDirectReadSize, readSize ≤ inputSize
  | _ => True

instance (s : ServerRun n κ) (a : RunStep n κ) : Decidable (s.OnRecvInRange a) :=
  match a with
  | .job w (.onRecv _) => inferInstanceAs (Decidable (∀ slot ∈ (s.job w).inOnRecv, _ ∧ _))
  | .job _ .run | .job _ (.epollWait _) | .job _ (.accept _) | .job _ (.onAccepeted _)
  | .job _ (.epollCtl _) | .job _ (.recv _) => .isTrue trivial
  | .pool _ | .start _ | .send _ _ _ | .disconnect _ _ | .sender _ _ => .isTrue trivial

/-- The application has the stream `received` of a session in order: it has taken a beginning of
it, the rest is in the buffer, and in `OnRecv` it is given all of the rest. -/
structure ReadsInOrder (s : ServerRun n κ) (id : SessionID) (received : List Byte) : Prop where
  taken : (reading id s.memory.callbacks).taken <+: received
  rest : (s.session (getIndex id)).mRecvJob.mRecvBuffer.content =
    received.drop (reading id s.memory.callbacks).taken.length
  given : ∀ w usedSize, s.job w = .recv (getIndex id) (.onRecv usedSize) →
    (reading id s.memory.callbacks).taken ++ (reading id s.memory.callbacks).block = received ∧
      (reading id s.memory.callbacks).block.length = usedSize

/-! ## The order of a stream -/

/-- What a step of the server is for the program of the receive job of the session in the slot
`i`: `OnRecv` returns and `recv` returns bytes where they do in the server. -/
inductive SeesRecv (s : ServerRun n κ) (i : ℤ) : RunStep n κ → List RecvJob.Input → Prop
  | nothing {a : RunStep n κ} : SeesRecv s i a []
  | onRecv {w : Fin n} {usedSize readSize : ℤ} (hw : s.job w = .recv i (.onRecv usedSize)) :
    SeesRecv s i (.job w (.onRecv readSize)) [.onRecv readSize]
  | received {w : Fin n} {fd : SocketFD} {bytes : List Byte} (hw : s.job w = .recv i (.recv fd)) :
    SeesRecv s i (.job w (.recv (.received bytes))) [.recv (.received bytes)]
  | other {a : RunStep n κ} {b : RecvJob.Input} (hbytes : b.bytes = [])
    (hnot : ∀ readSize, b ≠ .onRecv readSize) : SeesRecv s i a [b]

variable {s : ServerRun n κ} {i : ℤ} {r : RecvRun} {a : RunStep n κ}

lemma seesRecv (s : ServerRun n κ) (i : ℤ) (a : RunStep n κ) : s.SeesRecv i a (s.seeRecv i a) := by
  unfold seeRecv
  split
  · split
    · exact .other rfl nofun
    · exact .nothing
  · rename_i w input
    split
    · rename_i slot pc hw
      split
      · rename_i heq
        subst heq
        unfold ServerMemory.seeRecv
        split
        · exact .other rfl nofun
        · exact .other rfl nofun
        · rename_i fd result
          cases result with
          | received bytes => exact .received hw
          | closed => exact .other rfl nofun
          | failed errno => exact .other rfl nofun
        · split
          · exact .nothing
          · exact .other rfl nofun
        · exact .onRecv hw
        · exact .other rfl nofun
        · split
          · exact .other rfl nofun
          · exact .nothing
        · split
          · exact .other rfl nofun
          · exact .nothing
        · exact .nothing
      · exact .nothing
    · exact .nothing
  · exact .nothing

/-- Where the application takes no more than it is given in the server, the program of the receive
job does not either. -/
lemma Serves.onRecvInRange (hr : s.Serves i r) (ha : s.OnRecvInRange a) :
    RecvRun.machine.Along RecvRun.OnRecvInRange r (s.seeRecv i a) := by
  have hsees := s.seesRecv i a
  generalize s.seeRecv i a = bs at hsees
  cases hsees with
  | nothing => trivial
  | received hw => exact ⟨trivial, fun _ _ => trivial⟩
  | onRecv hw =>
    obtain ⟨hnonneg, hsize⟩ := ha i (by rw [hw]; rfl)
    rw [session, hr.holds.job_eq] at hsize
    exact ⟨⟨hnonneg, hsize⟩, fun _ _ => trivial⟩
  | @other a b hbytes hnot =>
    refine ⟨?_, fun _ _ => trivial⟩
    cases b with
    | onRecv readSize => exact absurd rfl (hnot readSize)
    | _ => trivial

/-- The callbacks of a session are those of its slot. -/
lemma Life.reading_eq (hs : s.Life) {id : SessionID} (hid : id ∈ s.added) :
    reading id s.memory.callbacks = slotReading (getIndex id) s.memory.callbacks := by
  have hsame : ∀ c ∈ s.memory.callbacks, c.sessionID = id ↔ getIndex c.sessionID = getIndex id := by
    intro c hc
    refine ⟨congrArg getIndex, fun heq => ?_⟩
    rw [← hs.added_id _ (hs.called c hc), heq, hs.added_id id hid]
  rw [reading, slotReading, readingOf, readingOf]
  congr 1
  exact List.filter_congr fun c hc => decide_eq_decide.2 (hsame c hc)

/-- The application has the stream of a receive job whose buffer keeps it. -/
lemma Serves.readsInOrder (hs : s.Life) {id : SessionID} (hid : id ∈ s.added)
    (hr : s.Serves (getIndex id) r) (hstream : r.Stream) : s.ReadsInOrder id r.received := by
  have htaken : (reading id s.memory.callbacks).taken = r.consumed := by
    rw [hs.reading_eq hid]
    exact hr.holds.taken_eq
  refine ⟨htaken ▸ hstream.isPrefix, ?_, fun w usedSize hw => ?_⟩
  · rw [session, hr.holds.job_eq, htaken]
    exact hstream.content_eq
  · obtain ⟨hused, -, hblock⟩ := (hr.runs w _ hw).given usedSize rfl
    rw [← hs.reading_eq hid, RecvRun.inputBlock_eq hstream.valid hstream.front_le,
      Option.some.injEq] at hblock
    rw [hstream.valid.getUsedSize, Option.some.injEq] at hused
    refine ⟨?_, ?_⟩
    · rw [htaken, ← hblock, hstream.content_eq]
      exact (List.prefix_append_drop hstream.isPrefix).symm
    · rw [← hblock, CircularBuffer.length_content, hused]

variable [DecidableEq κ]

/-- The receive job of a session in a run all of whose `OnRecv` counts are in range. -/
lemma exists_stream {memory : ℕ → Session} {maxSessions : ℕ} (hmax : maxSessions < 65536)
    {uniqueNumber : BitVec 64} {listenFD : SocketFD} {as : List (RunStep n κ)}
    (hrun : (machine n κ).exec (start n κ memory maxSessions uniqueNumber listenFD) as = some s)
    (hin : (machine n κ).Along OnRecvInRange
      (start n κ memory maxSessions uniqueNumber listenFD) as) (hi : 0 ≤ i)
    (hvalid : (memory i.toNat).mRecvJob.mRecvBuffer.Valid)
    (hempty : (memory i.toNat).mRecvJob.mRecvBuffer.mFront =
      (memory i.toNat).mRecvJob.mRecvBuffer.mRear) :
    ∃ r : RecvRun, s.Life ∧ s.Serves i r ∧ r.Stream ∧
      r.received = received i (start n κ memory maxSessions uniqueNumber listenFD) as := by
  have hstart := serves_start (n := n) (κ := κ) memory maxSessions uniqueNumber listenFD i
  obtain ⟨r, hexec, hs, -, hr⟩ := (simulates_recv hi).exec
    ⟨life_start hmax, ended_start.toJobEnded, hstart⟩ hrun
  have halong := (simulates_recv hi).along (fun s r a hs ha => hs.2.2.onRecvInRange ha)
    ⟨life_start hmax, ended_start.toJobEnded, hstart⟩ hin
  refine ⟨r, hs, hr, ?_, RecvRun.received_of_exec hexec⟩
  exact StepMachine.exec_invariant_along (M := RecvRun.machine)
    (fun _ _ _ hs ha h => hs.step ha h) (RecvRun.stream_startWith hvalid hempty) halong hexec

/-- The first client sends a byte, which the application takes. -/
def takeFirst : List (RunStep 2 Unit) :=
  receive ++ [.job 1 (.recv (.received [65])), .job 1 .run, .job 1 .run,
    .job 1 (.recv (.failed .EAGAIN)), .job 1 .run, .job 1 (.onRecv 1), .job 1 .run,
    .job 1 (.epollCtl true)]

end ServerRun

/-- **Streams come in order.**  In every run of a started server in which `OnRecv` takes no more
than it is given, and for every session whose buffer is empty at first: whichever workers receive
for it, the application has taken a beginning of what `recv` has returned, the rest is in the
buffer, and `OnRecv` is always given all of the rest.  No byte is lost, doubled or swapped. -/
theorem server_streams_inOrder {n : ℕ} {κ : Type} [DecidableEq κ] (memory : ℕ → Session)
    {maxSessions : ℕ} (hmax : maxSessions < 65536) (uniqueNumber : BitVec 64)
    (listenFD : SocketFD) {as : List (RunStep n κ)} {s : ServerRun n κ}
    (hrun : (ServerRun.machine n κ).exec
      (ServerRun.start n κ memory maxSessions uniqueNumber listenFD) as = some s)
    (hin : (ServerRun.machine n κ).Along ServerRun.OnRecvInRange
      (ServerRun.start n κ memory maxSessions uniqueNumber listenFD) as)
    {id : SessionID} (hid : id ∈ s.added)
    (hvalid : (memory (getIndex id).toNat).mRecvJob.mRecvBuffer.Valid)
    (hempty : (memory (getIndex id).toNat).mRecvJob.mRecvBuffer.mFront =
      (memory (getIndex id).toNat).mRecvJob.mRecvBuffer.mRear) :
    s.ReadsInOrder id (ServerRun.received (getIndex id)
      (ServerRun.start n κ memory maxSessions uniqueNumber listenFD) as) := by
  obtain ⟨r, hs, hr, hstream, heq⟩ := ServerRun.exists_stream hmax hrun hin (getIndex_nonneg id)
    hvalid hempty
  rw [← heq]
  exact hr.readsInOrder hs hid hstream

/-- The application has taken the byte that the first client has sent. -/
theorem server_streams_inOrder_takeFirst : ∃ s,
    (ServerRun.machine 2 Unit).exec
      (ServerRun.start 2 Unit (fun _ => Session.zeroMemory) 2 0 3) ServerRun.takeFirst = some s ∧
      (reading 0 s.memory.callbacks).taken = [65] ∧
      s.ReadsInOrder 0 (ServerRun.received 0
        (ServerRun.start 2 Unit (fun _ => Session.zeroMemory) 2 0 3) ServerRun.takeFirst) :=
  StepMachine.exists_exec_and (fun s => (0 : SessionID) ∈ s.added ∧
      (reading 0 s.memory.callbacks).taken = [65]) (by decide +kernel)
    fun s hrun ⟨hid, htaken⟩ => ⟨htaken,
      server_streams_inOrder _ (by decide) 0 3 hrun (by decide +kernel) hid
        (CircularBuffer.valid_reset RecvBuffer.zeroMemory) rfl⟩

/-! ## The connections that a session receives from -/

/-- The connections, and what `recv` has returned from each: from the one of a descriptor that has
not been accepted, `none`. -/
structure Arrivals (κ : Type) where
  connections : Connections κ
  arrived : Option ℕ → List Byte

/-- The descriptor with which a worker stands before `recv`. -/
def JobPC.readTarget : JobPC → Option SendTarget
  | recv _ (.recv fd) => some (.fd fd)
  | _ => Option.none

/-- Nothing has been accepted or received. -/
def Arrivals.none (κ : Type) : Arrivals κ := ⟨Connections.none κ, fun _ => []⟩

namespace ServerRun

variable {n : ℕ} {κ : Type}

/-- The slot, the descriptor and the bytes of a `recv` that returns bytes. -/
def receives (s : ServerRun n κ) : RunStep n κ → Option (ℤ × SocketFD × List Byte)
  | .job w (.recv (.received bytes)) =>
    match s.job w with
    | .recv slot (.recv fd) => some (slot, fd, bytes)
    | _ => none
  | _ => none

/-- What `recv` returns arrives from the connection of the descriptor. -/
def arrive [DecidableEq κ] (s : ServerRun n κ) (a : RunStep n κ) (h : Arrivals κ) : Arrivals κ where
  connections := s.track a h.connections
  arrived :=
    match s.receives a with
    | some (_, fd, bytes) =>
      let c := h.connections.ofFD fd
      Function.update h.arrived c (h.arrived c ++ bytes)
    | none => h.arrived

/-- No `accept` returns the number of a descriptor with which a worker stands before `recv`. -/
def KeepsReaders (s : ServerRun n κ) (a : RunStep n κ) : Prop :=
  ∀ t ∈ s.reuses a, ∀ w, (s.job w).readTarget ≠ some t

instance (s : ServerRun n κ) (a : RunStep n κ) : Decidable (s.KeepsReaders a) :=
  inferInstanceAs (Decidable (∀ t ∈ s.reuses a, _))

/-- Every session receives from its own connection, which no other session has. -/
structure Owns (s : ServerRun n κ) (h : Arrivals κ) : Prop where
  held : s.Held
  invalid : sINVALID_SOCKET_FD ∉ s.memory.openFDs
  socket : ∀ i fd, s.Holds (.inl i) fd →
    h.connections.ofFD fd = h.connections.ofID (s.session i).mSessionID
  reader : ∀ w i fd, s.job w = .recv i (.recv fd) → fd ≠ sINVALID_SOCKET_FD →
    h.connections.ofFD fd = h.connections.ofID (s.session i).mSessionID
  named : ∀ id ∈ s.added, ∃ c < h.connections.accepted, h.connections.ofID id = some c
  injective : ∀ id ∈ s.added, ∀ id' ∈ s.added,
    h.connections.ofID id = h.connections.ofID id' → id = id'
  /-- A connection that has no session yet has sent nothing. -/
  pending : ∀ w pc fd, s.job w = .accept pc → (s.job w).holdsFD = some fd →
    ∃ c < h.connections.accepted, h.connections.ofFD fd = some c ∧ h.arrived (some c) = [] ∧
      ∀ id ∈ s.added, h.connections.ofID id ≠ some c
  fresh : ∀ c, h.connections.accepted ≤ c → h.arrived (some c) = []

lemma owns_start {memory : ℕ → Session} {maxSessions : ℕ} {uniqueNumber : BitVec 64}
    {listenFD : SocketFD} (hlisten : listenFD ≠ sINVALID_SOCKET_FD) :
    (start n κ memory maxSessions uniqueNumber listenFD).Owns (Arrivals.none κ) where
  held := held_start
  invalid hmem := hlisten (List.mem_singleton.1 hmem).symm
  socket _ _ _ := rfl
  reader _ _ _ _ _ := rfl
  named _ hid := by cases hid
  injective _ hid := by cases hid
  pending _ _ _ h := by cases h
  fresh _ _ := rfl

variable {s s' : ServerRun n κ} {a : RunStep n κ} {h : Arrivals κ}

/-! ### What a step leaves alone -/

/-- One worker at a time is in `AcceptJob`. -/
lemma Life.accept_unique (hs : s.Life) {w w' : Fin n} {pc pc' : AcceptPC}
    (hw : s.job w = .accept pc) (hw' : s.job w' = .accept pc') : w = w' := by
  have hhand : ∀ {w pc}, s.job w = .accept pc → ServerJob.accept ∈ (s.job w).hand := fun hw => by
    rw [hw]
    exact List.mem_singleton_self _
  exact hs.inv.worker_unique (hhand hw) (hhand hw')

/-- A session that has been added is not constructed again. -/
lemma Life.constructs_ne (hs : s.Life) {i : ℤ} (hi : s.Added i) (fd : SocketFD) :
    s.constructs a ≠ some (i, fd) := by
  intro hnew
  unfold constructs JobPC.constructs at hnew
  split at hnew
  · split at hnew
    · rename_i hpc
      obtain ⟨rfl, -⟩ := Prod.mk.inj (Option.some.inj hnew)
      exact hs.reserved _ _ (by rw [hpc]; rfl) hi
    · cases hnew
  · cases hnew

/-- A `recv` that returns bytes is one of a worker that stands before it, with an open
descriptor. -/
lemma receives_eq_some [DecidableEq κ] (hstep : s.step a = some s') {slot : ℤ} {fd : SocketFD}
    {bytes : List Byte} (hreceives : s.receives a = some (slot, fd, bytes)) :
    ∃ w, a = .job w (.recv (.received bytes)) ∧ s.job w = .recv slot (.recv fd) ∧
      fd ∈ s.memory.openFDs := by
  unfold receives at hreceives
  split at hreceives
  · rename_i w bytes'
    split at hreceives
    · rename_i hpc
      simp only [Option.some.injEq, Prod.mk.injEq] at hreceives
      obtain ⟨rfl, rfl, rfl⟩ := hreceives
      obtain ⟨next, hjob⟩ := jobStep_of_step hstep
      rw [hpc] at hjob
      exact ⟨w, rfl, hpc, (Option.ite_none_right_eq_some.1 hjob).1⟩
    · cases hreceives
  · cases hreceives

variable [DecidableEq κ]

/-- The connection of an ID that has been added is not recorded again. -/
lemma Life.ofID_track (hs : s.Life) (hstep : s.step a = some s') {c : Connections κ}
    {id : SessionID} (hid : id ∈ s.added) : (s.track a c).ofID id = c.ofID id := by
  refine (ServerRun.ofID_track id).resolve_right fun hmem => ?_
  obtain ⟨fd, hnew⟩ := (runMoves_of_step hs.inv.steady hstep).constructs_of_reuses hs.toRooted hmem
  exact hs.constructs_ne ⟨id, hid, rfl⟩ fd hnew

/-- The connection of a session that has been added is not recorded again. -/
lemma Life.ofID_session (hs : s.Life) (hstep : s.step a = some s') {c : Connections κ} {i : ℤ}
    (hi : s.Added i) :
    (s.track a c).ofID (s'.session i).mSessionID = c.ofID (s.session i).mSessionID := by
  have hsame := ((runMoves_of_step hs.inv.steady hstep).mSessionID_cases hi.nonneg).resolve_right
    fun hmem =>
      have ⟨fd, hnew⟩ := slot_mem_reuses.1 hmem
      hs.constructs_ne hi fd hnew
  rw [hsame, hs.ofID_track hstep (hs.mSessionID_mem hi).1]

omit [DecidableEq κ] in
/-- Connections are counted. -/
lemma accepted_le_track [DecidableEq κ] (c : Connections κ) :
    c.accepted ≤ (s.track a c).accepted := by
  unfold track
  split
  · split
    · exact Nat.le_succ _
    · exact le_rfl
    · exact le_rfl
  · exact le_rfl
  · split <;> exact le_rfl
  · exact le_rfl

/-- A client is accepted where the label says so. -/
lemma input_of_accepted (hs : s.server.Steady) {w : Fin n} {input : JobInput} {fd : SocketFD}
    (hstep : s.step (.job w input) = some s') (hw : s.job w = .accept .accept)
    (hw' : s'.job w = .accept (.onAccepeted fd)) : input = .accept (.accepted fd) := by
  obtain ⟨next, hjob, hmove⟩ := jobMove_of_step hs hstep
  rw [hmove.job_self] at hw'
  rw [hw] at hjob
  cases input with
  | accept result =>
    cases result with
    | accepted clientFD =>
      obtain ⟨-, hjob⟩ := Option.ite_none_right_eq_some.1 hjob
      obtain ⟨-, rfl⟩ := Prod.mk.inj (Option.some.inj hjob)
      cases hw'
      rfl
    | failed errno =>
      cases errno <;>
      · obtain ⟨-, rfl⟩ := Prod.mk.inj (Option.some.inj hjob)
        cases hw'
  | _ => cases hjob

/-- A worker in `AcceptJob` holds the descriptor that it held, or the one that it accepts. -/
lemma accept_holds (hs : s.server.Steady) (hstep : s.step a = some s') {w : Fin n}
    {pc : AcceptPC} {fd : SocketFD} (hw : s'.job w = .accept pc)
    (hfd : (s'.job w).holdsFD = some fd) :
    (∃ pc, s.job w = .accept pc ∧ (s.job w).holdsFD = some fd) ∨
      (a = .job w (.accept (.accepted fd)) ∧ s.job w = .accept .accept) := by
  have hquiet : s.Quiet s' → ∃ pc, s.job w = .accept pc ∧ (s.job w).holdsFD = some fd := by
    intro h
    rcases h.job_eq w with heq | ⟨j, -, -, heq⟩
    · exact ⟨pc, heq ▸ hw, heq ▸ hfd⟩
    · rw [heq] at hfd
      cases j <;> cases hfd
  cases runMoves_of_step hs hstep with
  | quietPool h | quietStart h => exact Or.inl (hquiet h)
  | send hadded h | disconnect hadded h =>
    rw [job, h.server_eq] at hw hfd
    exact Or.inl ⟨pc, hw, hfd⟩
  | sender h =>
    rw [h.job_eq] at hw hfd
    exact Or.inl ⟨pc, hw, hfd⟩
  | @job w₁ input next h =>
    rcases eq_or_ne w w₁ with rfl | hne
    · have hw' := hw
      have hmoves := h.moves
      rw [h.job_self] at hw hfd
      generalize hpc : s.job w = pc₀ at hmoves
      generalize s'.memory = m' at hmoves
      cases hmoves with
      | poll hmoves =>
        rcases hmoves.next_pc with heq | ⟨pc', heq⟩ <;>
        · rw [heq] at hw
          cases hw
      | recv hmoves =>
        rcases hmoves.next_pc with heq | ⟨pc', heq⟩ <;>
        · rw [heq] at hw
          cases hw
      | complete => cases hw
      | accept hmoves =>
        cases hmoves with
        | accepted hnonneg hnew =>
          obtain rfl := Option.some.inj hfd
          refine Or.inr ⟨?_, rfl⟩
          rw [input_of_accepted hs hstep hpc (hw'.trans hw.symm)]
        | wanted | refused | number => exact Or.inl ⟨_, rfl, hfd⟩
        | allocNone hpool | alloc hpool => exact Or.inl ⟨_, rfl, hfd⟩
        | construct hin | getSession hin hid => cases hfd
        | registered hopen hadd => cases hfd
        | rearmed hmod => cases hfd
        | interrupted | noClient | close | notRegistered | onConnected | notRearmed => cases hfd
    · rw [h.job_of_ne hne] at hw hfd
      exact Or.inl ⟨pc, hw, hfd⟩

/-- The descriptor that is accepted is the one of a new connection. -/
lemma track_accepted {w : Fin n} (hw : s.job w = .accept .accept) (fd : SocketFD)
    (c : Connections κ) :
    (s.track (.job w (.accept (.accepted fd))) c).ofFD fd = some c.accepted ∧
      (s.track (.job w (.accept (.accepted fd))) c).accepted = c.accepted + 1 ∧
      s.receives (.job w (.accept (.accepted fd))) = none := by
  refine ⟨?_, ?_, rfl⟩ <;> simp [track, hw]

/-- A session that a step adds has the connection that `AcceptJob` holds. -/
lemma Life.new_id (hs : s.Life) (hstep : s.step a = some s') {id : SessionID}
    (hid : id ∈ s'.added) : id ∈ s.added ∨ ∃ w clientFD,
      s.job w = .accept (.construct clientFD (getIndex id) id) ∧ (s'.job w).holdsFD = none ∧
        ∀ c : Connections κ, (s.track a c).ofID id = c.ofFD clientFD := by
  cases runMoves_of_step hs.inv.steady hstep with
  | quietPool hmove | quietStart hmove => exact Or.inl (hmove.added_eq ▸ hid)
  | send hadded hmove | disconnect hadded hmove => exact Or.inl (hmove.added_eq ▸ hid)
  | sender hmove => exact Or.inl (hmove.added_eq ▸ hid)
  | @job w input next hmove =>
    rcases hmove.added_cases hs with heq | ⟨clientFD, index, id', hpc, heq, rfl, -⟩
    · exact Or.inl (heq ▸ hid)
    · rw [heq, List.mem_append, List.mem_singleton] at hid
      refine hid.imp_right ?_
      rintro rfl
      refine ⟨w, clientFD, hpc, ?_, fun c => by simp [track, hpc]⟩
      have hmoves := hmove.moves
      rw [hmove.job_self]
      rw [hpc] at hmoves
      generalize s'.memory = m' at hmoves
      cases hmoves with
      | accept hmoves =>
        cases hmoves with
        | construct hin => rfl

/-! ### The invariant -/

/-- Nothing arrives from a connection that has no session. -/
lemma Owns.arrived_eq (hs : s.Life) (ho : s.Owns h) (hstep : s.step a = some s') {c : Option ℕ}
    (hc : ∀ id ∈ s.added, h.connections.ofID id ≠ c) :
    (s.arrive a h).arrived c = h.arrived c := by
  cases hreceives : s.receives a with
  | none => simp only [arrive, hreceives]
  | some p =>
    obtain ⟨slot, fd, bytes⟩ := p
    obtain ⟨w, rfl, hw, hopen⟩ := receives_eq_some hstep hreceives
    have hreader := ho.reader w slot fd hw fun heq => ho.invalid (heq ▸ hopen)
    have hid := (hs.mSessionID_mem (hs.running w slot _ hw)).1
    simp only [arrive, hreceives]
    refine Function.update_of_ne ?_ ..
    rw [hreader]
    exact (hc _ hid).symm

/-- What arrives from the connection of a session is received for the session. -/
lemma Owns.arrived_append (hs : s.Life) (ho : s.Owns h) (hstep : s.step a = some s')
    {id : SessionID} (hid : id ∈ s.added) :
    (s.arrive a h).arrived (h.connections.ofID id) = h.arrived (h.connections.ofID id) ++
      (s.seeRecv (getIndex id) a).flatMap RecvJob.Input.bytes := by
  have hsees := s.seesRecv (getIndex id) a
  generalize hbs : s.seeRecv (getIndex id) a = bs at hsees
  cases hreceives : s.receives a with
  | none =>
    have hnone : bs.flatMap RecvJob.Input.bytes = [] := by
      cases hsees with
      | nothing | onRecv hw => rfl
      | received hw => simp [receives, hw] at hreceives
      | other hbytes hnot => rw [List.flatMap_singleton, hbytes]
    simp only [arrive, hreceives, hnone, List.append_nil]
  | some p =>
    obtain ⟨slot, fd, bytes⟩ := p
    obtain ⟨w, rfl, hw, hopen⟩ := receives_eq_some hstep hreceives
    have hreader := ho.reader w slot fd hw fun heq => ho.invalid (heq ▸ hopen)
    obtain ⟨hslot, hindex⟩ := hs.mSessionID_mem (hs.running w slot _ hw)
    simp only [arrive, hreceives]
    rw [hreader, ← hbs]
    by_cases hsame : slot = getIndex id
    · subst hsame
      rw [session, hs.added_id id hid, Function.update_self]
      simp [seeRecv, hw, ServerMemory.seeRecv, RecvJob.Input.bytes]
    · have hne : h.connections.ofID id ≠ h.connections.ofID (s.session slot).mSessionID := by
        intro heq
        rw [ho.injective _ hid _ hslot heq] at hsame
        exact hsame hindex.symm
      rw [Function.update_of_ne hne]
      simp [seeRecv, hw, hsame]

/-- A descriptor that is held or read from is not accepted again. -/
lemma Owns.ofFD_held (ho : s.Owns h) (hstep : s.step a = some s') {x : ℤ ⊕ (Fin n ⊕ κ)}
    {fd : SocketFD} (hfd : s.Holds x fd) :
    (s.arrive a h).connections.ofFD fd = h.connections.ofFD fd :=
  (ofFD_track fd).resolve_right fun hmem => notMem_openFDs_of_reuses hstep hmem (ho.held.mem hfd)

lemma Owns.socket_step (hs : s.Life) (ho : s.Owns h) (hstep : s.step a = some s') {i : ℤ}
    {fd : SocketFD} (hfd : s'.Holds (.inl i) fd) :
    (s.arrive a h).connections.ofFD fd =
      (s.arrive a h).connections.ofID (s'.session i).mSessionID := by
  have hmoves := runMoves_of_step hs.inv.steady hstep
  rcases hmoves.holds_session hs.toRooted hfd with hold | hnew
  · rw [ho.ofFD_held hstep hold, ho.socket i fd hold]
    exact (hs.ofID_session hstep hold.1).symm
  · obtain ⟨-, -, hofFD, hofID⟩ := hmoves.constructed hs.toRooted hnew
    exact (congrFun hofFD fd).trans hofID.symm

/-- A worker comes to `recv` with the socket of the session. -/
lemma Owns.reader_step (hs : s.Life) (ho : s.Owns h) (ha : s.KeepsReaders a)
    (hstep : s.step a = some s') {w : Fin n} {i : ℤ} {fd : SocketFD}
    (hw : s'.job w = .recv i (.recv fd)) (hvalid : fd ≠ sINVALID_SOCKET_FD) :
    (s.arrive a h).connections.ofFD fd =
      (s.arrive a h).connections.ofID (s'.session i).mSessionID := by
  have hsame : s.job w = .recv i (.recv fd) → (s.arrive a h).connections.ofFD fd =
      (s.arrive a h).connections.ofID (s'.session i).mSessionID := fun hold => by
    refine ((ofFD_track fd).resolve_right fun hmem =>
      ha _ hmem w (by rw [hold]; rfl)).trans ?_
    rw [ho.reader w i fd hold hvalid]
    exact (hs.ofID_session hstep (hs.running w i _ hold)).symm
  cases runMoves_of_step hs.inv.steady hstep with
  | quietPool hmove | quietStart hmove =>
    rcases hmove.job_eq w with heq | ⟨j, -, -, heq⟩
    · exact hsame (heq ▸ hw)
    · rw [heq] at hw
      cases j <;> cases hw
  | send hadded hmove | disconnect hadded hmove => exact hsame (by rwa [job, hmove.server_eq] at hw)
  | sender hmove => exact hsame (hmove.job_eq ▸ hw)
  | @job w₁ input next hmove =>
    rcases eq_or_ne w w₁ with rfl | hne
    · obtain ⟨pc, hold⟩ := hmove.recv_of_recv hw
      have hi := hs.running w i pc hold
      have hmoves := hmove.moves
      rw [hmove.job_self] at hw
      rw [hold] at hmoves
      generalize s'.memory = m' at hmoves
      cases hmoves with
      | recv hmoves =>
        cases hmoves with
        | recvArgs =>
          obtain ⟨-, hfd⟩ := JobPC.recv.inj hw
          have hholds : s.Holds (.inl i) fd := ⟨hi, RecvPC.recv.inj hfd, hvalid⟩
          rw [ho.ofFD_held hstep hholds, ho.socket i fd hholds]
          exact (hs.ofID_session hstep hi).symm
        | _ => cases hw
    · exact hsame (by rwa [hmove.job_of_ne hne] at hw)

/-- A connection that `AcceptJob` holds is the one of no session. -/
lemma Owns.pending_step (hs : s.Life) (ho : s.Owns h) (hstep : s.step a = some s') {w : Fin n}
    {pc : AcceptPC} {fd : SocketFD} (hw : s'.job w = .accept pc)
    (hfd : (s'.job w).holdsFD = some fd) :
    ∃ c < (s.arrive a h).connections.accepted, (s.arrive a h).connections.ofFD fd = some c ∧
      (s.arrive a h).arrived (some c) = [] ∧
      ∀ id ∈ s'.added, (s.arrive a h).connections.ofID id ≠ some c := by
  rcases accept_holds hs.inv.steady hstep hw hfd with ⟨pc', hold, hfd'⟩ | ⟨rfl, hold⟩
  · obtain ⟨c, hlt, hofFD, harrived, hnot⟩ := ho.pending w pc' fd hold hfd'
    have hholds : s.Holds (.inr (.inl w)) fd := hfd'
    refine ⟨c, hlt.trans_le (accepted_le_track _), (ho.ofFD_held hstep hholds).trans hofFD, ?_,
      fun id hid => ?_⟩
    · rw [ho.arrived_eq hs hstep hnot, harrived]
    · rcases hs.new_id hstep hid with hid | ⟨w', clientFD, hpc, hgone, -⟩
      · exact ne_of_eq_of_ne (hs.ofID_track hstep hid) (hnot id hid)
      · -- the one worker in `AcceptJob` has put the connection that it held into a session
        obtain rfl := hs.accept_unique hold hpc
        rw [hgone] at hfd
        cases hfd
  · obtain ⟨hofFD, haccepted, hreceives⟩ := track_accepted hold fd h.connections
    refine ⟨h.connections.accepted, by simp only [arrive, haccepted]; omega, hofFD, ?_,
      fun id hid => ?_⟩
    · simp only [arrive, hreceives]
      exact ho.fresh _ le_rfl
    · rcases hs.new_id hstep hid with hid | ⟨w', clientFD, hpc, -, -⟩
      · obtain ⟨c, hlt, hofID⟩ := ho.named id hid
        refine ne_of_eq_of_ne (hs.ofID_track hstep hid) ?_
        rw [hofID]
        simp only [ne_eq, Option.some.injEq]
        omega
      · obtain rfl := hs.accept_unique hold hpc
        rw [hold] at hpc
        cases hpc

/-- The connection of a session is the one that `AcceptJob` has held. -/
lemma Owns.named_cases (hs : s.Life) (ho : s.Owns h) (hstep : s.step a = some s')
    {id : SessionID} (hid : id ∈ s'.added) :
    (id ∈ s.added ∧ (s.arrive a h).connections.ofID id = h.connections.ofID id) ∨
      (¬ s.Added (getIndex id) ∧ ∃ c < h.connections.accepted,
        (s.arrive a h).connections.ofID id = some c ∧ h.arrived (some c) = [] ∧
          ∀ id ∈ s.added, h.connections.ofID id ≠ some c) := by
  rcases hs.new_id hstep hid with hid | ⟨w, clientFD, hpc, -, hofID⟩
  · exact Or.inl ⟨hid, hs.ofID_track hstep hid⟩
  · obtain ⟨c, hlt, hofFD, harrived, hnot⟩ := ho.pending w _ clientFD hpc (by rw [hpc]; rfl)
    exact Or.inr ⟨hs.reserved w _ (by rw [hpc]; rfl), c, hlt, (hofID _).trans hofFD, harrived,
      hnot⟩

/-- **One step.** -/
theorem Owns.step (hs : s.Life) (ho : s.Owns h) (ha : s.KeepsReaders a)
    (hstep : s.step a = some s') : s'.Owns (s.arrive a h) := by
  have hmoves := runMoves_of_step hs.inv.steady hstep
  refine ⟨ho.held.step hs.toRooted hmoves, fun hinvalid => ?_,
    fun i fd => ho.socket_step hs hstep, fun w i fd => ho.reader_step hs ha hstep,
    fun id hid => ?_, fun id hid id' hid' heq => ?_, fun w pc fd => ho.pending_step hs hstep,
    fun c hc => ?_⟩
  · rcases hmoves.openFDs_subset hinvalid with hmem | hnonneg
    · exact ho.invalid hmem
    · exact absurd hnonneg (by decide)
  · have hle : h.connections.accepted ≤ (s.arrive a h).connections.accepted := accepted_le_track _
    rcases ho.named_cases hs hstep hid with ⟨hold, heq⟩ | ⟨-, c, hlt, hofID, -⟩
    · obtain ⟨c, hlt, hofID⟩ := ho.named id hold
      exact ⟨c, hlt.trans_le hle, heq.trans hofID⟩
    · exact ⟨c, hlt.trans_le hle, hofID⟩
  · rcases ho.named_cases hs hstep hid with ⟨hold, hofID⟩ | ⟨hnew, c, -, hofID, -, hnot⟩ <;>
    rcases ho.named_cases hs hstep hid' with ⟨hold', hofID'⟩ | ⟨hnew', c', -, hofID', -, hnot'⟩
    · exact ho.injective id hold id' hold' (hofID.symm.trans (heq.trans hofID'))
    · exact absurd (hofID.symm.trans (heq.trans hofID')) (hnot' id hold)
    · exact absurd (hofID'.symm.trans (heq.symm.trans hofID)) (hnot id' hold')
    · -- a step adds one session
      have hfrom : ∀ {id}, id ∈ s'.added → ¬ s.Added (getIndex id) → ∃ w clientFD,
          s.job w = .accept (.construct clientFD (getIndex id) id) := fun hid hnew =>
        have ⟨w, clientFD, hpc, _⟩ := (hs.new_id hstep hid).resolve_left
          fun hold => hnew ⟨_, hold, rfl⟩
        ⟨w, clientFD, hpc⟩
      obtain ⟨w, clientFD, hpc⟩ := hfrom hid hnew
      obtain ⟨w', clientFD', hpc'⟩ := hfrom hid' hnew'
      obtain rfl := hs.accept_unique hpc hpc'
      exact (AcceptPC.construct.inj (JobPC.accept.inj (hpc.symm.trans hpc'))).2.2
  · have hle : h.connections.accepted ≤ (s.arrive a h).connections.accepted := accepted_le_track _
    rw [ho.arrived_eq hs hstep fun id hid heq => ?_]
    · exact ho.fresh c (hle.trans hc)
    · obtain ⟨c', hlt, hofID⟩ := ho.named id hid
      obtain rfl := Option.some.inj (hofID.symm.trans heq)
      omega

/-! ### Whole runs -/

omit [DecidableEq κ] in
/-- Nothing is received for a session before it has been added. -/
lemma Life.seeRecv_bytes (hs : s.Life) {i : ℤ} (hi : ¬ s.Added i) :
    (s.seeRecv i a).flatMap RecvJob.Input.bytes = [] := by
  have hsees := s.seesRecv i a
  generalize s.seeRecv i a = bs at hsees
  cases hsees with
  | nothing | onRecv hw => rfl
  | received hw => exact absurd (hs.running _ _ _ hw) hi
  | other hbytes hnot => rw [List.flatMap_singleton, hbytes]

/-- What has arrived from the connection of each session has been received for it. -/
structure Arrived (s : ServerRun n κ) (h : Arrivals κ) (received : ℤ → List Byte) : Prop where
  life : s.Life
  owns : s.Owns h
  arrived : ∀ id ∈ s.added, h.arrived (h.connections.ofID id) = received (getIndex id)
  nothing : ∀ i, ¬ s.Added i → received i = []

omit [DecidableEq κ] in
lemma arrived_start (memory : ℕ → Session) {maxSessions : ℕ} (hmax : maxSessions < 65536)
    (uniqueNumber : BitVec 64) {listenFD : SocketFD} (hlisten : listenFD ≠ sINVALID_SOCKET_FD) :
    (start n κ memory maxSessions uniqueNumber listenFD).Arrived (Arrivals.none κ) fun _ => [] where
  life := life_start hmax
  owns := owns_start hlisten
  arrived id hid := by cases hid
  nothing _ _ := rfl

/-- **One step.** -/
theorem Arrived.step {received : ℤ → List Byte} (hr : s.Arrived h received)
    (ha : s.KeepsReaders a) (hstep : s.step a = some s') :
    s'.Arrived (s.arrive a h) fun i =>
      received i ++ (s.seeRecv i a).flatMap RecvJob.Input.bytes where
  life := hr.life.step hstep
  owns := hr.owns.step hr.life ha hstep
  arrived id hid := by
    rcases hr.owns.named_cases hr.life hstep hid with
      ⟨hold, hofID⟩ | ⟨hnew, c, -, hofID, harrived, hnot⟩
    · rw [hofID, hr.owns.arrived_append hr.life hstep hold, hr.arrived id hold]
    · rw [hofID, hr.owns.arrived_eq hr.life hstep hnot, harrived, hr.nothing _ hnew,
        hr.life.seeRecv_bytes hnew, List.append_nil]
  nothing i hi := by
    have hold : ¬ s.Added i := fun ⟨id, hid, hindex⟩ =>
      hi ⟨id, (runMoves_of_step hr.life.inv.steady hstep).subset hid, hindex⟩
    rw [hr.nothing i hold, hr.life.seeRecv_bytes hold, List.append_nil]

/-- A run from a state in which nothing has arrived. -/
theorem Arrived.exec {s₀ t : ServerRun n κ} {h₀ h' : Arrivals κ} {as : List (RunStep n κ)}
    (hstart : s₀.Arrived h₀ fun _ => []) (hkeeps : (machine n κ).Along KeepsReaders s₀ as)
    (hrun : ((machine n κ).withHistory arrive).exec (s₀, h₀) as = some (t, h')) :
    t.Arrived h' fun i => received i s₀ as := by
  induction as using List.reverseRecOn generalizing t h' with
  | nil =>
    obtain ⟨rfl, rfl⟩ := Prod.mk.inj (Option.some.inj hrun)
    exact hstart
  | append_singleton as a ih =>
    obtain ⟨⟨s, h⟩, hfirst, hlast⟩ := StepMachine.exec_append_eq_some.1 hrun
    obtain ⟨⟨t', h''⟩, hstep, hnil⟩ := StepMachine.exec_cons_eq_some.1 hlast
    obtain ⟨rfl, rfl⟩ := Prod.mk.inj (Option.some.inj hnil)
    obtain ⟨hstep, rfl⟩ := StepMachine.withHistory_step_eq_some.1 hstep
    have hexec := StepMachine.exec_of_withHistory hfirst
    obtain ⟨hbefore, hkeeps, -⟩ := (StepMachine.along_append hexec [a]).1 hkeeps
    have hnext := (ih hbefore hfirst).step hkeeps hstep
    have hreceived : ∀ i, received i s₀ (as ++ [a]) =
        received i s₀ as ++ (s.seeRecv i a).flatMap RecvJob.Input.bytes := fun i => by
      rw [received, StepMachine.seen_append hexec, StepMachine.seen_cons_of_step hstep,
        StepMachine.seen, List.append_nil, List.flatMap_append, received]
    simpa only [hreceived] using hnext

/-- The first worker comes back to `epoll_wait` and fetches an event of the descriptor, whose job
the second worker takes. -/
def fetchNext (fd : SocketFD) : List (RunStep 2 Unit) :=
  [.job 0 .run, .job 0 .run, .pool (.addPush (.inl 0)), .pool (.addTest (.inl 0)), .job 0 .run,
    .job 0 .run, .pool (.loop 0), .pool (.pop 0), .job 0 (.epollWait (.events [fd])), .job 0 .run,
    .pool (.addPush (.inl 0)), .pool (.addTest (.inl 0)), .pool (.loop 1), .pool (.pop 1)]

/-- The first client closes its connection, and a second one gets the number of the descriptor and
sends two bytes, of which the application takes one. -/
def takeSecond : List (RunStep 2 Unit) :=
  takeFirst ++ fetchNext 7 ++ [.job 1 .run, .job 1 .run, .job 1 (.recv .closed), .job 1 .run,
    .job 1 .run, .job 1 .run, .job 1 .run, .job 1 .run, .job 1 .run, .job 1 .run] ++
  fetchNext 3 ++ [.job 1 (.accept (.accepted 7)), .job 1 (.onAccepeted true), .job 1 .run,
    .job 1 .run, .job 1 .run, .job 1 .run, .job 1 (.epollCtl true), .job 1 .run,
    .job 1 (.accept (.failed .EAGAIN)), .job 1 (.epollCtl true)] ++
  fetchNext 7 ++ [.job 1 .run, .job 1 .run, .job 1 (.recv (.received [66, 67])), .job 1 .run,
    .job 1 .run, .job 1 (.recv (.failed .EAGAIN)), .job 1 .run, .job 1 (.onRecv 1)]

end ServerRun

/-- **Every session has the stream of its own connection.**  In every run of a started server in
which `OnRecv` takes no more than it is given, and in which no `accept` returns the number of a
descriptor with which a worker still stands before `recv`: for every session whose buffer is empty
at first, the application has taken a beginning of what has arrived from the connection whose
`accept` has produced the ID, the rest is in the buffer, and `OnRecv` is always given all of it. -/
theorem server_streams_own {n : ℕ} {κ : Type} [DecidableEq κ] (memory : ℕ → Session)
    {maxSessions : ℕ} (hmax : maxSessions < 65536) (uniqueNumber : BitVec 64)
    {listenFD : SocketFD} (hlisten : listenFD ≠ sINVALID_SOCKET_FD)
    {as : List (RunStep n κ)} {s : ServerRun n κ} {h : Arrivals κ}
    (hrun : ((ServerRun.machine n κ).withHistory ServerRun.arrive).exec
      (ServerRun.start n κ memory maxSessions uniqueNumber listenFD, Arrivals.none κ) as =
        some (s, h))
    (hin : (ServerRun.machine n κ).Along ServerRun.OnRecvInRange
      (ServerRun.start n κ memory maxSessions uniqueNumber listenFD) as)
    (hkeeps : (ServerRun.machine n κ).Along ServerRun.KeepsReaders
      (ServerRun.start n κ memory maxSessions uniqueNumber listenFD) as)
    {id : SessionID} (hid : id ∈ s.added)
    (hvalid : (memory (getIndex id).toNat).mRecvJob.mRecvBuffer.Valid)
    (hempty : (memory (getIndex id).toNat).mRecvJob.mRecvBuffer.mFront =
      (memory (getIndex id).toNat).mRecvJob.mRecvBuffer.mRear) :
    s.ReadsInOrder id (h.arrived (h.connections.ofID id)) := by
  obtain ⟨r, hs, hr, hstream, heq⟩ := ServerRun.exists_stream hmax
    (StepMachine.exec_of_withHistory hrun) hin (getIndex_nonneg id) hvalid hempty
  have hstart := ServerRun.arrived_start (n := n) (κ := κ) memory hmax uniqueNumber hlisten
  rw [(hstart.exec hkeeps hrun).arrived id hid, ← heq]
  exact hr.readsInOrder hs hid hstream

/-- The second client has the number of the descriptor of the first one, and its own stream. -/
theorem server_streams_own_second : ∃ p : ServerRun 2 Unit × Arrivals Unit,
    ((ServerRun.machine 2 Unit).withHistory ServerRun.arrive).exec
      (ServerRun.start 2 Unit (fun _ => Session.zeroMemory) 2 0 3, Arrivals.none Unit)
      ServerRun.takeSecond = some p ∧
      p.2.arrived (some 0) = [65] ∧ p.2.arrived (some 1) = [66, 67] ∧
      p.1.ReadsInOrder (packID 1 1) (p.2.arrived (p.2.connections.ofID (packID 1 1))) :=
  StepMachine.exists_exec_and (fun p => packID 1 1 ∈ p.1.added ∧ p.2.arrived (some 0) = [65] ∧
      p.2.arrived (some 1) = [66, 67]) (by decide +kernel)
    fun _ hrun ⟨hid, hfirst, hsecond⟩ => ⟨hfirst, hsecond,
      server_streams_own _ (by decide) 0 (by decide) hrun (by decide +kernel) (by decide +kernel)
        hid (CircularBuffer.valid_reset RecvBuffer.zeroMemory) rfl⟩

end CoreServer
