import CoreServer.ServerRun

/-!
# The life of a session

No slot of the table is used twice in a server whose sessions are not deleted.  `Life` says
so: a session that `AddSession` has constructed keeps its ID and its slot, and nothing but
the registration that `AcceptJob` makes next gives the application, a worker or a thread that
sends anything to do with a slot.
-/

namespace CoreServer

/-- The ID with which the application is called. -/
def Callback.sessionID : Callback → SessionID
  | onConnected sessionID | onRecv sessionID _ | onRecvReturned sessionID _
  | onDisconnected sessionID => sessionID

/-- The slot in which `AcceptJob` has still to construct a session. -/
def JobPC.reserved : JobPC → Option ℤ
  | accept (.number _ index) | accept (.construct _ index _) => some index
  | _ => Option.none

/-- The session whose receive job `AcceptJob` has still to register. -/
def JobPC.registering : JobPC → Option SessionID
  | accept (.getSession _ clientSession) | accept (.epollAdd _ clientSession _) =>
    some clientSession
  | _ => Option.none

/-- The session for which `AcceptJob` has still to call `OnConnected`. -/
def JobPC.connecting : JobPC → Option SessionID
  | accept (.onConnected clientSession) => some clientSession
  | pc => pc.registering

/-- The pointer to the session that `AcceptJob` registers is the one to its slot. -/
def JobPC.PointerOk : JobPC → Prop
  | accept (.epollAdd _ clientSession session) => session = getIndex clientSession
  | _ => True

lemma JobPC.newSlot_of_reserved {pc : JobPC} {i : ℤ} (h : pc.reserved = some i) (hi : 0 ≤ i) :
    pc.newSlot = some i := by
  unfold reserved at h
  split at h
  · obtain rfl := Option.some.inj h
    exact if_pos hi
  · obtain rfl := Option.some.inj h
    exact if_pos hi
  · cases h

lemma JobPC.newSlot_of_registering {pc : JobPC} {id : SessionID} (h : pc.registering = some id)
    (hok : pc.PointerOk) : pc.newSlot = some (getIndex id) := by
  unfold registering at h
  split at h
  · obtain rfl := Option.some.inj h
    rfl
  · obtain rfl := Option.some.inj h
    exact congrArg some hok
  · cases h

lemma JobPC.connecting_of_registering {pc : JobPC} {id : SessionID}
    (h : pc.registering = some id) : pc.connecting = some id := by
  unfold registering at h
  split at h
  · exact h
  · exact h
  · cases h

lemma JobPC.accept_mem_hand_of_connecting {pc : JobPC} {id : SessionID}
    (h : pc.connecting = some id) : .accept ∈ pc.hand := by
  cases pc with
  | accept pc => exact List.mem_singleton_self _
  | none => cases h
  | poll pc => cases h
  | recv slot pc => cases h
  | complete => cases h

namespace ServerMemory

variable {m m' : ServerMemory} {pc : JobPC} {next : Next}

/-- A worker stays in its job, or leaves it. -/
lemma RecvMoves.next_pc {slot : ℤ} {pc : RecvPC} (h : RecvMoves m slot pc m' next) :
    next.pc = .none ∨ ∃ pc', next.pc = .recv slot pc' := by
  cases h <;> first | exact Or.inr ⟨_, rfl⟩ | exact Or.inl rfl

lemma PollMoves.next_pc {pc : PollPC} (h : PollMoves m pc m' next) :
    next.pc = .complete ∨ ∃ pc', next.pc = .poll pc' := by
  cases h <;> first | exact Or.inr ⟨_, rfl⟩ | exact Or.inl rfl

/-- A worker comes into a `RecvJob` only from its own. -/
lemma JobMoves.of_next_recv (h : JobMoves m pc m' next) {i : ℤ} {rpc : RecvPC}
    (hnext : next.pc = .recv i rpc) : ∃ rpc', pc = .recv i rpc' := by
  cases h with
  | poll hmoves =>
    rcases hmoves.next_pc with heq | ⟨pc', heq⟩ <;>
    · rw [heq] at hnext
      cases hnext
  | accept hmoves => cases hmoves <;> cases hnext
  | recv hmoves =>
    rcases hmoves.next_pc with heq | ⟨pc', heq⟩
    · rw [heq] at hnext
      cases hnext
    · rw [heq] at hnext
      obtain ⟨rfl, -⟩ := JobPC.recv.inj hnext
      exact ⟨_, rfl⟩
  | complete => cases hnext

/-- Where `AcceptJob` goes on: a slot is reserved from the free indices, and a session that
has been constructed is registered and reported. -/
inductive AcceptNext (m m' : ServerMemory) : JobPC → JobPC → Prop
  | alloc {pc pc' : JobPC} {i : ℤ} (hadds : pc.adds = []) (hreserved : pc'.reserved = some i)
      (hnone : pc'.connecting = none)
      (hi : i = sINVALID_ID ∨ m.group.mSessionIndexPool = i :: m'.group.mSessionIndexPool) :
    AcceptNext m m' pc pc'
  | reserved {pc pc' : JobPC} (hadds : pc.adds = []) (hreserved : pc'.reserved = pc.reserved)
      (hnone : pc'.connecting = none) : AcceptNext m m' pc pc'
  | construct {pc pc' : JobPC} {clientFD : SocketFD} {index : ℤ} {id : SessionID}
      (hpc : pc = .accept (.construct clientFD index id)) (hnone : pc'.reserved = none)
      (hid : pc'.registering = some id) : AcceptNext m m' pc pc'
  | connecting {pc pc' : JobPC} (hadds : pc.adds = []) (hnone : pc'.reserved = none)
      (hconnecting : pc'.connecting = none ∨ pc'.connecting = pc.connecting)
      (hregistering : pc'.registering = none ∨ pc'.registering = pc.registering) :
    AcceptNext m m' pc pc'

lemma JobMoves.acceptNext (h : JobMoves m pc m' next) :
    AcceptNext m m' pc next.pc ∧ next.pc.PointerOk := by
  cases h with
  | poll hmoves =>
    rcases hmoves.next_pc with heq | ⟨pc', heq⟩ <;>
    · rw [heq]
      exact ⟨.connecting rfl rfl (Or.inl rfl) (Or.inl rfl), trivial⟩
  | recv hmoves =>
    rcases hmoves.next_pc with heq | ⟨pc', heq⟩ <;>
    · rw [heq]
      exact ⟨.connecting rfl rfl (Or.inl rfl) (Or.inl rfl), trivial⟩
  | complete => exact ⟨.connecting rfl rfl (Or.inl rfl) (Or.inl rfl), trivial⟩
  | accept hmoves =>
    cases hmoves with
    | alloc hpool => exact ⟨.alloc rfl rfl rfl (Or.inr hpool), trivial⟩
    | allocNone hpool => exact ⟨.alloc rfl rfl rfl (Or.inl rfl), trivial⟩
    | number => exact ⟨.reserved rfl rfl rfl, trivial⟩
    | construct hin => exact ⟨.construct rfl rfl rfl, trivial⟩
    | getSession hin hid => exact ⟨.connecting rfl rfl (Or.inr rfl) (Or.inr rfl), rfl⟩
    | registered hopen hadd => exact ⟨.connecting rfl rfl (Or.inr rfl) (Or.inl rfl), trivial⟩
    | notRegistered => exact ⟨.connecting rfl rfl (Or.inr rfl) (Or.inl rfl), trivial⟩
    | accepted hnonneg hnew => exact ⟨.connecting rfl rfl (Or.inl rfl) (Or.inl rfl), trivial⟩
    | interrupted | noClient | wanted | refused | close | onConnected | notRearmed =>
      exact ⟨.connecting rfl rfl (Or.inl rfl) (Or.inl rfl), trivial⟩
    | rearmed hmod => exact ⟨.connecting rfl rfl (Or.inl rfl) (Or.inl rfl), trivial⟩

/-- The ID of a session changes only when a session is constructed. -/
lemma JobMoves.mSessionID (h : JobMoves m pc m' next) {i : ℤ} (hi : 0 ≤ i) :
    (m'.session i).mSessionID = (m.session i).mSessionID ∨
      ∃ clientFD id, pc = .accept (.construct clientFD i id) ∧
        m'.session i = (m.session i).construct id clientFD := by
  have hchange := h.session hi
  generalize m'.session i = t at hchange ⊢
  cases hchange with
  | construct clientFD id => exact Or.inr ⟨clientFD, id, rfl, rfl⟩
  | same => exact Or.inl rfl
  | setRecvBuffer b => exact Or.inl rfl
  | setReceiveState hpc => exact Or.inl rfl
  | takeFD hpc => exact Or.inl rfl

lemma SendMoves.mSessionID {pc pc' : SendPC} (h : SendMoves m pc m' pc') {i : ℤ} (hi : 0 ≤ i) :
    (m'.session i).mSessionID = (m.session i).mSessionID := by
  have hchange := h.session hi
  generalize m'.session i = t at hchange ⊢
  cases hchange <;> rfl

/-- A thread has a pointer to a session that it has found by its ID. -/
lemma SendMoves.slot {pc pc' : SendPC} (h : SendMoves m pc m' pc') {i : ℤ}
    (hi : pc'.slot = some i) :
    pc.slot = some i ∨ ∃ id packet, pc = .getSession id packet ∧ i = getIndex id := by
  cases h with
  | found hin hid hlen => exact Or.inr ⟨_, _, rfl, (Option.some.inj hi).symm⟩
  | notFound => cases hi
  | push hin => exact Or.inl hi
  | alreadySet hin hsending => cases hi
  | set hin hsending => exact Or.inl hi
  | doSend hmoves => exact Or.inl hi
  | done hmoves => cases hi
  | disconnect hmoves => exact Or.inl hi
  | disconnected hmoves => cases hi

lemma SendMoves.not_getSession {pc pc' : SendPC} (h : SendMoves m pc m' pc') {id : SessionID}
    {packet : IoVec} : pc' ≠ .getSession id packet := by
  cases h <;> exact fun h => by cases h

end ServerMemory

namespace ServerRun

variable {n : ℕ} {κ : Type} {s s' : ServerRun n κ}

/-- Nobody has anything to do with a slot in which no session has been constructed. -/
structure Rooted (s : ServerRun n κ) : Prop where
  steady : s.server.Steady
  named : ∀ i, s.Added i →
    (s.session i).mSessionID ∈ s.added ∧ getIndex (s.session i).mSessionID = i
  placed : ∀ i, 0 < s.places (.recv i) → s.Added i
  running : ∀ w i pc, s.job w = .recv i pc → s.Added i
  sending : ∀ k i, (s.sender k).slot = some i → s.Added i
  lookedUp : ∀ k id packet, s.sender k = .getSession id packet → id ∈ s.added
  connecting : ∀ w id, (s.job w).connecting = some id → id ∈ s.added
  pointer : ∀ w, (s.job w).PointerOk

/-- The invariant. -/
structure Life (s : ServerRun n κ) : Prop extends s.Rooted where
  inv : s.server.Inv
  added_id : ∀ id ∈ s.added, (s.session (getIndex id)).mSessionID = id
  added_used : ∀ id ∈ s.added, getIndex id ∉ s.memory.group.mSessionIndexPool
  reserved : ∀ w i, (s.job w).reserved = some i → ¬ s.Added i
  called : ∀ c ∈ s.memory.callbacks, c.sessionID ∈ s.added
  /-- A session whose receive job is not registered yet is not received for. -/
  quiet : ∀ w id, (s.job w).registering = some id → ∀ w' pc, s.job w' ≠ .recv (getIndex id) pc

lemma Added.nonneg {i : ℤ} (h : s.Added i) : 0 ≤ i := by
  obtain ⟨id, -, rfl⟩ := h
  exact getIndex_nonneg id

lemma Life.mSessionID_mem (hs : s.Life) {i : ℤ} (h : s.Added i) :
    (s.session i).mSessionID ∈ s.added ∧ getIndex (s.session i).mSessionID = i := hs.named i h

lemma Life.places_le (hs : s.Life) (j : ServerJob) : s.places j ≤ 1 := hs.inv.places_le j

lemma Life.new_fresh (hs : s.Life) (w : Fin n) (i : ℤ) (h : (s.job w).newSlot = some i) :
    s.places (.recv i) = 0 ∧ i ∉ s.memory.group.mSessionIndexPool := hs.inv.new_fresh w i h

/-- A session that is being registered is nowhere yet. -/
lemma Life.registering_places (hs : s.Life) {w : Fin n} {id : SessionID}
    (h : (s.job w).registering = some id) : s.places (.recv (getIndex id)) = 0 :=
  (hs.inv.new_fresh w _ (JobPC.newSlot_of_registering h (hs.pointer w))).1

/-- The receive job that a step registers is the one of the session that is registered. -/
lemma Rooted.registering_of_registers (hs : s.Rooted) {w : Fin n} {i : ℤ}
    (h : (s.job w).registers = some (.recv i)) :
    ∃ id, (s.job w).registering = some id ∧ getIndex id = i := by
  have hpointer := hs.pointer w
  generalize s.job w = pc at h hpointer
  unfold JobPC.registers at h
  split at h
  · obtain rfl := ServerJob.recv.inj (Option.some.inj h)
    exact ⟨_, rfl, hpointer.symm⟩
  · cases h

/-- There is one `AcceptJob`. -/
lemma Life.connecting_unique (hs : s.Life) {w w' : Fin n} {id id' : SessionID}
    (h : (s.job w).connecting = some id) (h' : (s.job w').connecting = some id') : w = w' :=
  hs.inv.worker_unique (JobPC.accept_mem_hand_of_connecting h)
    (JobPC.accept_mem_hand_of_connecting h')

lemma rooted_start {memory : ℕ → Session} {maxSessions : ℕ} (hmax : maxSessions < 65536)
    {uniqueNumber : BitVec 64} {listenFD : SocketFD} :
    (start n κ memory maxSessions uniqueNumber listenFD).Rooted where
  steady := (Server.inv_start hmax).steady
  named i h := by
    obtain ⟨id, hid, -⟩ := h
    cases hid
  placed i h := by
    have hzero : (start n κ memory maxSessions uniqueNumber listenFD).places (.recv i) = 0 := by
      rw [places_eq]
      simp [start, Server.held_start]
      rfl
    omega
  running w i pc h := by cases h
  sending k i h := by cases h
  lookedUp k id packet h := by cases h
  connecting w id h := by cases h
  pointer w := trivial

lemma life_start {memory : ℕ → Session} {maxSessions : ℕ} (hmax : maxSessions < 65536)
    {uniqueNumber : BitVec 64} {listenFD : SocketFD} :
    (start n κ memory maxSessions uniqueNumber listenFD).Life where
  toRooted := rooted_start hmax
  inv := Server.inv_start hmax
  added_id id hid := absurd hid List.not_mem_nil
  added_used id hid := absurd hid List.not_mem_nil
  reserved w i h := by cases h
  called c hc := absurd hc List.not_mem_nil
  quiet w id h := by cases h

/-! ## One step -/

lemma Added.of_subset {i : ℤ} (h : s.Added i) (hsub : s.added ⊆ s'.added) : s'.Added i := by
  obtain ⟨id, hid, heq⟩ := h
  exact ⟨id, hsub hid, heq⟩

lemma Quiet.added_iff (h : s.Quiet s') (i : ℤ) : s'.Added i ↔ s.Added i := by
  rw [Added, h.added_eq, Added]

/-- What a worker that begins to execute a job object does at first. -/
lemma execute_cases (j : ServerJob) :
    j.execute.reserved = none ∧ j.execute.connecting = none ∧ j.execute.registering = none ∧
      j.execute.PointerOk ∧ ∀ i pc, j.execute = .recv i pc → j = .recv i := by
  cases j with
  | poll => exact ⟨rfl, rfl, rfl, trivial, fun i pc h => by cases h⟩
  | accept => exact ⟨rfl, rfl, rfl, trivial, fun i pc h => by cases h⟩
  | recv slot =>
    refine ⟨rfl, rfl, rfl, trivial, fun i pc h => ?_⟩
    rw [(JobPC.recv.inj h).1]

/-- A job object in the queue is somewhere. -/
lemma places_pos_of_mem {j : ServerJob} (h : j ∈ s.server.pool.mJobQueue) : 0 < s.places j := by
  have hpos := List.count_pos_iff.2 h
  rw [places_eq, Server.held]
  omega

lemma Rooted.quiet_step (hs : s.Rooted) (h : s.Quiet s') (hsteady : s'.server.Steady) :
    s'.Rooted := by
  refine ⟨hsteady, fun i hi => ?_, fun i hi => ?_, fun w i pc hw => ?_, fun k i hk => ?_,
    fun k id packet hk => ?_, fun w id hw => ?_, fun w => ?_⟩
  · rw [session, ServerMemory.session_of_group_eq h.group_eq, h.added_eq]
    exact hs.named i ((h.added_iff i).1 hi)
  · rw [h.added_iff]
    exact hs.placed i (h.places_recv i ▸ hi)
  · rw [h.added_iff]
    rcases h.job_eq w with heq | ⟨j, hj, -, heq⟩
    · exact hs.running w i pc (heq ▸ hw)
    · obtain rfl := (execute_cases j).2.2.2.2 i pc (heq ▸ hw)
      exact hs.placed i (places_pos_of_mem hj)
  · rw [h.added_iff]
    exact hs.sending k i (h.sender_eq ▸ hk)
  · rw [h.added_eq]
    exact hs.lookedUp k id packet (h.sender_eq ▸ hk)
  · rw [h.added_eq]
    exact hs.connecting w id (h.job_congr (fun j => (execute_cases j).2.1) w ▸ hw)
  · rcases h.job_eq w with heq | ⟨j, -, -, heq⟩
    · exact heq ▸ hs.pointer w
    · exact heq ▸ (execute_cases j).2.2.2.1

lemma Life.quiet_step (hs : s.Life) (h : s.Quiet s') (hinv : s'.server.Inv) : s'.Life := by
  have hsession : ∀ i, s'.session i = s.session i :=
    ServerMemory.session_of_group_eq h.group_eq
  refine ⟨hs.toRooted.quiet_step h hinv.steady, hinv, fun id hid => ?_, fun id hid => ?_,
    fun w i hw => ?_, fun c hc => ?_, fun w id hw w' pc hw' => ?_⟩
  · rw [hsession]
    exact hs.added_id id (h.added_eq ▸ hid)
  · rw [h.group_eq]
    exact hs.added_used id (h.added_eq ▸ hid)
  · rw [h.added_iff]
    exact hs.reserved w i (h.job_congr (fun j => (execute_cases j).1) w ▸ hw)
  · rw [h.added_eq]
    exact hs.called c (h.callbacks_eq ▸ hc)
  · have hold : (s.job w).registering = some id :=
      h.job_congr (fun j => (execute_cases j).2.2.1) w ▸ hw
    rcases h.job_eq w' with heq | ⟨j, hj, -, heq⟩
    · exact hs.quiet w id hold w' pc (heq ▸ hw')
    · obtain rfl := (execute_cases j).2.2.2.2 _ pc (heq ▸ hw')
      exact (places_pos_of_mem hj).ne' (hs.registering_places hold)

/-- A session is constructed in the slot of its ID. -/
lemma JobMove.construct_eq (hs : s.Rooted) {w : Fin n} {next : Next} (h : s.JobMove s' w next)
    {clientFD : SocketFD} {index : ℤ} {id : SessionID}
    (hpc : s.job w = .accept (.construct clientFD index id)) :
    s'.added = s.added ++ [id] ∧ getIndex id = index ∧
      s'.session index = (s.session index).construct id clientFD := by
  have hmoves := h.moves
  have hadded := h.added_eq
  have hid : (s.job w).IDOk := hs.steady.id_ok w
  have hmax : s.memory.group.mMaxSession < 65536 := hs.steady.max_lt
  rw [hpc] at hmoves hadded hid
  cases hmoves with
  | accept hmoves =>
    generalize hm' : s'.memory = m' at hmoves
    cases hmoves with
    | construct hin =>
      have hlt : index < 65536 := hin.2.trans (by omega)
      refine ⟨hadded, hid hin.1 hlt, ?_⟩
      rw [session, hm', ServerMemory.session_updateSession_self hin.1]

/-- If sessions are not deleted, the slot was not in use. -/
lemma JobMove.of_construct (hs : s.Life) {w : Fin n} {next : Next} (h : s.JobMove s' w next)
    {clientFD : SocketFD} {index : ℤ} {id : SessionID}
    (hpc : s.job w = .accept (.construct clientFD index id)) :
    s'.added = s.added ++ [id] ∧ getIndex id = index ∧ ¬ s.Added index ∧
      s'.session index = (s.session index).construct id clientFD ∧
      index ∉ s'.memory.group.mSessionIndexPool := by
  obtain ⟨hadded, hid, hsession⟩ := h.construct_eq hs.toRooted hpc
  have hnonneg : 0 ≤ index := hid ▸ getIndex_nonneg id
  refine ⟨hadded, hid, hs.reserved w index (by rw [hpc]; rfl), hsession, fun hmem => ?_⟩
  have hfresh := (hs.new_fresh w index (by rw [hpc]; exact if_pos hnonneg)).2
  exact hfresh (h.bound.indices.subset hmem)

/-- A worker that constructs a session stands before its construction. -/
lemma JobPC.adds_eq_nil_or (pc : JobPC) : pc.adds = [] ∨
    ∃ clientFD index id, pc = .accept (.construct clientFD index id) := by
  unfold JobPC.adds
  split
  · exact Or.inr ⟨_, _, _, rfl⟩
  · exact Or.inl rfl

/-- A step adds no session, or the one that it constructs. -/
lemma JobMove.added_cases (hs : s.Life) {w : Fin n} {next : Next} (h : s.JobMove s' w next) :
    s'.added = s.added ∨ ∃ clientFD index id, s.job w = .accept (.construct clientFD index id) ∧
      s'.added = s.added ++ [id] ∧ getIndex id = index ∧ ¬ s.Added index ∧
      s'.session index = (s.session index).construct id clientFD ∧
      index ∉ s'.memory.group.mSessionIndexPool := by
  rcases JobPC.adds_eq_nil_or (s.job w) with hnone | ⟨clientFD, index, id, hpc⟩
  · exact Or.inl (by rw [h.added_eq, hnone, List.append_nil])
  · exact Or.inr ⟨clientFD, index, id, hpc, h.of_construct hs hpc⟩

lemma JobMove.subset {w : Fin n} {next : Next} (h : s.JobMove s' w next) : s.added ⊆ s'.added := by
  rw [h.added_eq]
  exact List.subset_append_left _ _

lemma JobMove.added_of_adds {w : Fin n} {next : Next} (h : s.JobMove s' w next)
    (hadds : (s.job w).adds = []) : s'.added = s.added := by
  rw [h.added_eq, hadds, List.append_nil]

/-- A session keeps its ID. -/
lemma JobMove.mSessionID (hs : s.Life) {w : Fin n} {next : Next} (h : s.JobMove s' w next) {i : ℤ}
    (hi : s.Added i) : (s'.session i).mSessionID = (s.session i).mSessionID := by
  rcases h.moves.mSessionID hi.nonneg with heq | ⟨clientFD, id, hpc, -⟩
  · exact heq
  · exact absurd hi (hs.reserved w i (by rw [hpc]; rfl))

/-- A worker that comes to a `RecvJob` has been there before. -/
lemma JobMove.recv_of_recv {w w' : Fin n} {next : Next} (h : s.JobMove s' w next) {i : ℤ}
    {pc : RecvPC} (hw : s'.job w' = .recv i pc) : ∃ pc', s.job w' = .recv i pc' := by
  rcases eq_or_ne w' w with rfl | hne
  · exact h.moves.of_next_recv (h.job_self ▸ hw)
  · exact ⟨pc, h.job_of_ne hne ▸ hw⟩

/-- The application is called with the ID of a session that has been added. -/
lemma JobMove.called (hs : s.Life) {w : Fin n} {next : Next} (h : s.JobMove s' w next)
    {c : Callback} (hc : c ∈ s'.memory.callbacks) : c.sessionID ∈ s.added := by
  obtain ⟨cs, hcalls, heq⟩ := h.moves.calls
  rw [heq, List.mem_append] at hc
  have hrunning := hs.running w
  have hconnecting := hs.connecting w
  generalize s.job w = pc at hcalls hrunning hconnecting
  rcases hc with hc | hc
  · exact hs.called c hc
  · cases hcalls with
    | none => exact absurd hc List.not_mem_nil
    | onConnected sessionID =>
      rw [List.mem_singleton.1 hc]
      exact hconnecting sessionID rfl
    | onRecv block hused hpos =>
      rw [List.mem_singleton.1 hc]
      exact (hs.mSessionID_mem (hrunning _ _ rfl)).1
    | onRecvReturned readSize =>
      rw [List.mem_singleton.1 hc]
      exact (hs.mSessionID_mem (hrunning _ _ rfl)).1
    | onDisconnected hpc =>
      rw [List.mem_singleton.1 hc]
      rcases JobPC.disconnecting_eq_some.1 hpc with hpc | hpc
      · exact (hs.mSessionID_mem (hrunning _ _ hpc)).1
      · exact (hs.mSessionID_mem (hrunning _ _ hpc)).1

/-- The ID in the slot of a session is the one with which it has been constructed. -/
lemma Rooted.named_job (hs : s.Rooted) {w : Fin n} {next : Next} (h : s.JobMove s' w next) {i : ℤ}
    (hi : s'.Added i) :
    (s'.session i).mSessionID ∈ s'.added ∧ getIndex (s'.session i).mSessionID = i := by
  by_cases hpc : ∃ clientFD id, s.job w = .accept (.construct clientFD i id)
  · obtain ⟨clientFD, id, hpc⟩ := hpc
    obtain ⟨hadded, hid, hsession⟩ := h.construct_eq hs hpc
    rw [hsession, hadded]
    exact ⟨List.mem_append_right _ (List.mem_singleton_self _), hid⟩
  · have hold : s.Added i := by
      rcases JobPC.adds_eq_nil_or (s.job w) with hnone | ⟨clientFD, index, id, heq⟩
      · rwa [Added, h.added_of_adds hnone] at hi
      · obtain ⟨hadded, hid, -⟩ := h.construct_eq hs heq
        obtain ⟨id', hid', rfl⟩ := hi
        rw [hadded, List.mem_append] at hid'
        rcases hid' with hid' | hid'
        · exact ⟨id', hid', rfl⟩
        · obtain rfl := List.mem_singleton.1 hid'
          exact absurd ⟨clientFD, id', by rw [hid, heq]⟩ hpc
    have heq := (h.moves.mSessionID hold.nonneg).resolve_right
      fun ⟨clientFD, id, heq, _⟩ => hpc ⟨clientFD, id, heq⟩
    rw [session, heq]
    exact ⟨h.subset (hs.named i hold).1, (hs.named i hold).2⟩

/-- An ID that `AcceptJob` is about to register or to report has been added. -/
lemma Rooted.connecting_job (hs : s.Rooted) {w : Fin n} {next : Next} (h : s.JobMove s' w next)
    {w' : Fin n} {id : SessionID} (hw' : (s'.job w').connecting = some id) : id ∈ s'.added := by
  rcases eq_or_ne w' w with rfl | hne
  · rw [h.job_self] at hw'
    cases h.moves.acceptNext.1 with
    | alloc hadds hreserved hnone hi =>
      rw [hnone] at hw'
      cases hw'
    | reserved hadds hreserved hnone =>
      rw [hnone] at hw'
      cases hw'
    | construct hpc hnone hid =>
      obtain rfl := Option.some.inj ((JobPC.connecting_of_registering hid).symm.trans hw')
      rw [h.added_eq, hpc]
      exact List.mem_append_right _ (List.mem_singleton_self _)
    | connecting hadds hnone hconnecting hregistering =>
      rcases hconnecting with heq | heq
      · rw [heq] at hw'
        cases hw'
      · exact h.subset (hs.connecting w' id (heq ▸ hw'))
  · exact h.subset (hs.connecting w' id (h.job_of_ne hne ▸ hw'))

lemma Rooted.job_step (hs : s.Rooted) {w : Fin n} {next : Next} (h : s.JobMove s' w next)
    (hsteady : s'.server.Steady) : s'.Rooted := by
  have hsub := h.subset
  refine ⟨hsteady, fun i hi => hs.named_job h hi, fun i hi => ?_, fun w' i pc hw' => ?_,
    fun k i hk => ?_, fun k id packet hk => ?_, fun w' id hw' => hs.connecting_job h hw',
    fun w' => ?_⟩
  · have hle := h.places_le (.recv i)
    rcases Nat.eq_zero_or_pos (s.places (.recv i)) with hzero | hpos
    · -- the receive job is registered by this step
      have hcount : 0 < (s.job w).registers.toList.count (.recv i) := by omega
      have hmem := List.count_pos_iff.1 hcount
      obtain ⟨id, hid, rfl⟩ := hs.registering_of_registers (Option.mem_toList.1 hmem)
      exact ⟨id, hsub (hs.connecting w id (JobPC.connecting_of_registering hid)), rfl⟩
    · exact (hs.placed i hpos).of_subset hsub
  · obtain ⟨pc', hold⟩ := h.recv_of_recv hw'
    exact (hs.running w' i pc' hold).of_subset hsub
  · exact (hs.sending k i (h.sender_eq ▸ hk)).of_subset hsub
  · exact hsub (hs.lookedUp k id packet (h.sender_eq ▸ hk))
  · rcases eq_or_ne w' w with rfl | hne
    · rw [h.job_self]
      exact h.moves.acceptNext.2
    · rw [h.job_of_ne hne]
      exact hs.pointer w'

lemma Life.job_step (hs : s.Life) {w : Fin n} {next : Next} (h : s.JobMove s' w next)
    (hinv : s'.server.Inv) : s'.Life := by
  have hsub := h.subset
  have hnext := h.moves.acceptNext.1
  refine ⟨hs.toRooted.job_step h hinv.steady, hinv, fun id hid => ?_, fun id hid => ?_,
    fun w' i hw' => ?_, fun c hc => hsub (h.called hs hc), fun w₁ id hw₁ w₂ pc hw₂ => ?_⟩
  · have hold : id ∈ s.added → (s'.session (getIndex id)).mSessionID = id := fun hid => by
      rw [h.mSessionID hs ⟨id, hid, rfl⟩]
      exact hs.added_id id hid
    rcases h.added_cases hs with heq | ⟨clientFD, index, id', -, heq, rfl, -, hsession, -⟩
    · exact hold (heq ▸ hid)
    · rw [heq, List.mem_append] at hid
      rcases hid with hid | hid
      · exact hold hid
      · rw [List.mem_singleton.1 hid, hsession]
        rfl
  · have hold : id ∈ s.added → getIndex id ∉ s'.memory.group.mSessionIndexPool :=
      fun hid hmem => hs.added_used id hid (h.bound.indices.subset hmem)
    rcases h.added_cases hs with heq | ⟨clientFD, index, id', -, heq, rfl, -, -, hpool⟩
    · exact hold (heq ▸ hid)
    · rw [heq, List.mem_append] at hid
      rcases hid with hid | hid
      · exact hold hid
      · rw [List.mem_singleton.1 hid]
        exact hpool
  · -- a slot that is reserved stays unused, as there is one `AcceptJob`
    rintro hadded
    rcases eq_or_ne w' w with rfl | hne
    · rw [h.job_self] at hw'
      cases hnext with
      | alloc hadds hreserved hnone hi =>
        rw [Added, h.added_of_adds hadds] at hadded
        obtain rfl := Option.some.inj (hreserved.symm.trans hw')
        rcases hi with rfl | hpool
        · exact absurd (Added.nonneg hadded) (by decide)
        · obtain ⟨id, hid, rfl⟩ := hadded
          exact hs.added_used id hid (hpool ▸ List.mem_cons_self)
      | reserved hadds hreserved hnone =>
        rw [Added, h.added_of_adds hadds] at hadded
        exact hs.reserved w' i (hreserved ▸ hw') hadded
      | construct hpc hnone hid =>
        rw [hnone] at hw'
        cases hw'
      | connecting hadds hnone hconnecting hregistering =>
        rw [hnone] at hw'
        cases hw'
    · rw [h.job_of_ne hne] at hw'
      rcases h.added_cases hs with heq | ⟨clientFD, index, id, hpc, heq, rfl, -, -, -⟩
      · rw [Added, heq] at hadded
        exact hs.reserved w' i hw' hadded
      · have hnonneg := hadded.nonneg
        have hacc : .accept ∈ (s.job w').hand :=
          Server.accept_mem_hand (JobPC.newSlot_of_reserved hw' hnonneg)
        refine hne (hs.inv.worker_unique hacc ?_)
        change _ ∈ (s.job w).hand
        rw [hpc]
        exact List.mem_singleton_self _
  · obtain ⟨pc', hold⟩ := h.recv_of_recv hw₂
    rcases eq_or_ne w₁ w with rfl | hne
    · rw [h.job_self] at hw₁
      cases hnext with
      | alloc hadds hreserved hnone hi =>
        rw [JobPC.connecting_of_registering hw₁] at hnone
        cases hnone
      | reserved hadds hreserved hnone =>
        rw [JobPC.connecting_of_registering hw₁] at hnone
        cases hnone
      | construct hpc hnone hid =>
        -- the slot of a session that has just been constructed was not in use
        obtain rfl := Option.some.inj (hid.symm.trans hw₁)
        obtain ⟨-, rfl, hunused, -⟩ := h.of_construct hs hpc
        exact hunused (hs.running w₂ _ pc' hold)
      | connecting hadds hnone hconnecting hregistering =>
        rcases hregistering with heq | heq
        · rw [heq] at hw₁
          cases hw₁
        · exact hs.quiet w₁ id (heq ▸ hw₁) w₂ pc' hold
    · exact hs.quiet w₁ id (h.job_of_ne hne ▸ hw₁) w₂ pc' hold

lemma Rooted.send_step [DecidableEq κ] (hs : s.Rooted) {k : κ} {pc : SendPC}
    (h : s.SendMove s' k pc) (hsteady : s'.server.Steady) : s'.Rooted := by
  have hadded : ∀ i, s'.Added i ↔ s.Added i := fun i => by rw [Added, h.added_eq, Added]
  refine ⟨hsteady, fun i hi => ?_, fun i hi => ?_, fun w i pc hw => ?_, fun k' i hk' => ?_,
    fun k' id packet hk' => ?_, fun w id hw => ?_, fun w => ?_⟩
  · have hold := (hadded i).1 hi
    rw [session, h.moves.mSessionID hold.nonneg, h.added_eq]
    exact hs.named i hold
  · rw [hadded]
    exact hs.placed i (hi.trans_le (h.places_le _))
  · rw [hadded]
    exact hs.running w i pc (h.job_eq ▸ hw)
  · rw [hadded]
    rcases eq_or_ne k' k with rfl | hne
    · rw [h.sender_self] at hk'
      rcases h.moves.slot hk' with hold | ⟨id, packet, hold, rfl⟩
      · exact hs.sending k' i hold
      · exact ⟨id, hs.lookedUp k' id packet hold, rfl⟩
    · exact hs.sending k' i (h.sender_of_ne hne ▸ hk')
  · rw [h.added_eq]
    rcases eq_or_ne k' k with rfl | hne
    · rw [h.sender_self] at hk'
      exact absurd hk' h.moves.not_getSession
    · exact hs.lookedUp k' id packet (h.sender_of_ne hne ▸ hk')
  · rw [h.added_eq]
    exact hs.connecting w id (h.job_eq ▸ hw)
  · rw [h.job_eq]
    exact hs.pointer w

lemma Life.send_step [DecidableEq κ] (hs : s.Life) {k : κ} {pc : SendPC}
    (h : s.SendMove s' k pc) (hinv : s'.server.Inv) : s'.Life := by
  refine ⟨hs.toRooted.send_step h hinv.steady, hinv, fun id hid => ?_, fun id hid => ?_,
    fun w i hw => ?_, fun c hc => ?_, fun w id hw w' pc hw' => ?_⟩
  · rw [session, h.moves.mSessionID (getIndex_nonneg id)]
    exact hs.added_id id (h.added_eq ▸ hid)
  · rw [h.moves.shrinks.pool_eq]
    exact hs.added_used id (h.added_eq ▸ hid)
  · rw [Added, h.added_eq]
    exact hs.reserved w i (h.job_eq ▸ hw)
  · rw [h.added_eq]
    rcases h.moves.calls with heq | ⟨slot, hpc, heq⟩
    · exact hs.called c (heq ▸ hc)
    · rw [heq, List.mem_append] at hc
      rcases hc with hc | hc
      · exact hs.called c hc
      · rw [List.mem_singleton.1 hc]
        exact (hs.mSessionID_mem (hs.sending k slot (SendPC.slot_of_disconnecting hpc))).1
  · rw [h.job_eq] at hw hw'
    exact hs.quiet w id hw w' pc hw'

/-- A call has an ID or a slot of a session that has been added. -/
lemma Rooted.call_step [DecidableEq κ] (hs : s.Rooted) {k : κ} {pc : SendPC}
    (h : s.CallMove s' k pc) (hslot : ∀ i, pc.slot = some i → s.Added i)
    (hid : ∀ id packet, pc = .getSession id packet → id ∈ s.added) : s'.Rooted := by
  obtain ⟨hidle, hserver, hsender, hadded⟩ := h
  obtain ⟨server, sender, added⟩ := s'
  obtain rfl := hserver
  obtain rfl := hsender
  obtain rfl := hadded
  refine ⟨hs.steady, hs.named, hs.placed, hs.running, fun k' i hk' => ?_,
    fun k' id packet hk' => ?_, hs.connecting, hs.pointer⟩
  · rcases eq_or_ne k' k with rfl | hne
    · simp only [Function.update_self] at hk'
      exact hslot i hk'
    · simp only [Function.update_of_ne hne] at hk'
      exact hs.sending k' i hk'
  · rcases eq_or_ne k' k with rfl | hne
    · simp only [Function.update_self] at hk'
      exact hid id packet hk'
    · simp only [Function.update_of_ne hne] at hk'
      exact hs.lookedUp k' id packet hk'

lemma Life.call_step [DecidableEq κ] (hs : s.Life) {k : κ} {pc : SendPC} (h : s.CallMove s' k pc)
    (hrooted : s'.Rooted) : s'.Life := by
  obtain ⟨-, hserver, -, hadded⟩ := h
  obtain ⟨server, sender, added⟩ := s'
  obtain rfl := hserver
  obtain rfl := hadded
  exact ⟨hrooted, hs.inv, hs.added_id, hs.added_used, hs.reserved, hs.called, hs.quiet⟩

/-- **One step.** -/
theorem Rooted.step [DecidableEq κ] (hs : s.Rooted) {a : RunStep n κ} (hstep : s.step a = some s') :
    s'.Rooted := by
  have hsteady := steady_step hs.steady hstep
  cases runMoves_of_step hs.steady hstep with
  | quietPool h | quietStart h => exact hs.quiet_step h hsteady
  | job h => exact hs.job_step h hsteady
  | sender h => exact hs.send_step h hsteady
  | send hadded h =>
    refine hs.call_step h (fun i hi => by cases hi) fun id packet hpc => ?_
    rw [← (SendPC.getSession.inj hpc).1]
    exact hadded
  | disconnect hadded h =>
    refine hs.call_step h (fun i hi => ?_) (fun id packet hpc => by cases hpc)
    rw [← Option.some.inj hi]
    exact hadded

/-- **One step keeps the invariant.** -/
theorem Life.step [DecidableEq κ] (hs : s.Life) {a : RunStep n κ} (hstep : s.step a = some s') :
    s'.Life := by
  have hinv := inv_step hs.inv hstep
  cases runMoves_of_step hs.inv.steady hstep with
  | quietPool h | quietStart h => exact hs.quiet_step h hinv
  | job h => exact hs.job_step h hinv
  | sender h => exact hs.send_step h hinv
  | send hadded h | disconnect hadded h => exact hs.call_step h (hs.toRooted.step hstep)

/-- **The invariant rule.**  What the moves keep that satisfy a side condition holds in every
run all of whose steps satisfy it. -/
theorem always_of_moves [DecidableEq κ] {I P : ServerRun n κ → Prop}
    {G : ServerRun n κ → RunStep n κ → Prop}
    (hstep : ∀ {s s' a}, s.Life → I s → G s a → s.RunMoves s' a → I s')
    (hIP : ∀ {s}, s.Life → I s → P s) {memory : ℕ → Session} {maxSessions : ℕ}
    (hmax : maxSessions < 65536) {uniqueNumber : BitVec 64} {listenFD : SocketFD}
    (hstart : I (start n κ memory maxSessions uniqueNumber listenFD)) {as : List (RunStep n κ)}
    (hG : (machine n κ).Along G (start n κ memory maxSessions uniqueNumber listenFD) as) :
    (machine n κ).Always P (start n κ memory maxSessions uniqueNumber listenFD) as :=
  StepMachine.always_of_along (I := fun s => s.Life ∧ I s)
    (fun _ _ _ hs hGs h => ⟨hs.1.step h, hstep hs.1 hs.2 hGs (runMoves_of_step hs.1.inv.steady h)⟩)
    (fun _ hs => hIP hs.1 hs.2) ⟨life_start hmax, hstart⟩ hG

/-- The invariant rule for the server with a record of its steps. -/
theorem always_withHistory_of_moves [DecidableEq κ] {η : Type}
    {record : ServerRun n κ → RunStep n κ → η → η} {I : ServerRun n κ → η → Prop}
    {P : ServerRun n κ × η → Prop} {G : ServerRun n κ → RunStep n κ → Prop}
    (hstep : ∀ {s s' a r}, s.Life → I s r → G s a → s.RunMoves s' a → I s' (record s a r))
    (hIP : ∀ {s r}, I s r → P (s, r)) {memory : ℕ → Session} {maxSessions : ℕ}
    (hmax : maxSessions < 65536) {uniqueNumber : BitVec 64} {listenFD : SocketFD} {r : η}
    (hstart : I (start n κ memory maxSessions uniqueNumber listenFD) r) {as : List (RunStep n κ)}
    (hG : (machine n κ).Along G (start n κ memory maxSessions uniqueNumber listenFD) as) :
    ((machine n κ).withHistory record).Always P
      (start n κ memory maxSessions uniqueNumber listenFD, r) as := by
  refine StepMachine.always_of_along (I := fun p => p.1.Life ∧ I p.1 p.2) ?_
    (fun _ hs => hIP hs.2) ⟨life_start hmax, hstart⟩ (StepMachine.along_withHistory.2 hG)
  rintro ⟨s, r⟩ a ⟨s', r'⟩ hs hGs h
  obtain ⟨hs', rfl⟩ := StepMachine.withHistory_step_eq_some.1 h
  exact ⟨hs.1.step hs', hstep hs.1 hs.2 hGs (runMoves_of_step hs.1.inv.steady hs')⟩

/-! ## Two workers and one client -/

/-- There is a first worker. -/
instance twoWorkers : NeZero 2 := ⟨by decide⟩

/-- A server with two workers and the listening socket 3 accepts a client on the descriptor 7,
and registers its receive job. -/
def register : List (RunStep 2 κ) :=
  [.start true, .pool (.addPush (.inr ())), .pool (.addTest (.inr ())), .start true,
    .pool (.loop 0), .pool (.pop 0), .job 0 (.epollWait (.events [3])), .job 0 .run,
    .pool (.addPush (.inl 0)), .pool (.addTest (.inl 0)), .job 0 .run, .job 0 .run,
    .pool (.addPush (.inl 0)), .pool (.addTest (.inl 0)), .job 0 .run, .job 0 .run,
    .pool (.loop 1), .pool (.pop 1), .job 1 (.accept (.accepted 7)),
    .job 1 (.onAccepeted true), .job 1 .run, .job 1 .run, .job 1 .run, .job 1 .run,
    .job 1 (.epollCtl true)]

/-- The application is told of the client, and `AcceptJob` ends. -/
def connect : List (RunStep 2 κ) :=
  register ++ [.job 1 .run, .job 1 (.accept (.failed .EAGAIN)), .job 1 (.epollCtl true)]

/-- The first worker fetches an event of the client. -/
def fetch : List (RunStep 2 κ) :=
  [.pool (.loop 0), .pool (.pop 0), .job 0 (.epollWait (.events [7])), .job 0 .run,
    .pool (.addPush (.inl 0)), .pool (.addTest (.inl 0))]

/-- The second worker runs the receive job up to the first `recv`. -/
def receive : List (RunStep 2 κ) :=
  connect ++ fetch ++ [.pool (.loop 1), .pool (.pop 1), .job 1 .run, .job 1 .run]

/-- The peer closes the connection, and the receive job reports it. -/
def close : List (RunStep 2 κ) :=
  receive ++ [.job 1 (.recv .closed), .job 1 .run, .job 1 .run, .job 1 .run, .job 1 .run,
    .job 1 .run, .job 1 .run, .job 1 .run]

/-- A thread that sends finds the peer slow and disconnects while the application is in
`OnRecv`; the receive job reports it. -/
def closeInOnRecv : List (RunStep 2 Unit) :=
  receive ++ [.job 1 (.recv (.received [65])), .job 1 .run, .job 1 .run,
    .job 1 (.recv (.failed .EAGAIN)), .job 1 .run, .send () 0 ⟨4096, 1⟩, .sender () .run,
    .sender () .run, .sender () .run, .sender () .run, .sender () .run, .sender () .run,
    .sender () (.writev (.failed .EAGAIN)), .sender () .run, .sender () .run, .sender () .run,
    .sender () .run, .sender () .run, .job 1 (.onRecv 1), .job 1 .run,
    .job 1 (.epollCtl false), .job 1 .run, .job 1 .run, .job 1 .run, .job 1 .run, .job 1 .run,
    .job 1 .run]

end ServerRun

end CoreServer
