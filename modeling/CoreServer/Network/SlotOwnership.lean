import CoreServer.Network.SessionGroup
import CoreServer.Lib.StepMachine

/-!
# Concurrent calls on a session group

`AddSession` and `DeleteSession` of a `SessionGroup`, called by any number of threads.  A
thread moves from one access of shared memory to the next: the locked section of
`AllocSession`, the increment of `sUniqueNumber` and the construction in the slot; the
comparison with the ID in the slot and the locked section of `FreeSession`.

The state records the indices that have been handed out and not been freed, the sessions
that have been returned and whose deletion has not begun, and the results of the deletes.
Threads and sessions are the owners of a pool of slots (`SlotRun.toPool`), and every step is
an operation of that pool.
-/

namespace CoreServer

/-- Where a thread stands in a call on the group. -/
inductive SlotPC where
  | idle
  /-- `AddSession`, before `__sync_fetch_and_add`. -/
  | number (clientFD : SocketFD) (index : ℤ)
  /-- `AddSession`, before `new (session) Session`. -/
  | construct (clientFD : SocketFD) (index : ℤ) (sessionID : SessionID)
  /-- `DeleteSession`, before `session->GetSessionID() != sessionID`. -/
  | check (sessionID : SessionID)
  /-- `DeleteSession`, before `FreeSession`. -/
  | free (index : ℤ)
deriving DecidableEq, Repr

/-- The slot that a call has in its hands. -/
def SlotPC.slot : SlotPC → Option ℤ
  | idle => none
  | number _ index => some index
  | construct _ index _ => some index
  | check sessionID => some (getIndex sessionID)
  | free index => some index

/-- A step of a thread.  A call begins with `addSession`, which goes up to the end of
`AllocSession`, or with `deleteSession`. -/
inductive SlotStep (τ : Type) where
  | addSession (thread : τ) (clientFD : SocketFD)
  | number (thread : τ)
  | construct (thread : τ)
  | deleteSession (thread : τ) (sessionID : SessionID)
  | check (thread : τ)
  | free (thread : τ)
deriving DecidableEq, Repr

/-- A session group and the threads that use it. -/
structure SlotRun (τ : Type) where
  group : SessionGroup
  sUniqueNumber : BitVec 64
  pc : τ → SlotPC
  held : List ℤ
  live : List SessionID
  deleted : List Bool

namespace SlotRun

open SessionGroup

variable {τ : Type}

section Machine

variable [DecidableEq τ]

/-- The thread `t` goes on at `pc`. -/
def goto (s : SlotRun τ) (t : τ) (pc : SlotPC) : SlotRun τ :=
  { s with pc := Function.update s.pc t pc }

/-- One step of a thread. -/
def step (s : SlotRun τ) : SlotStep τ → Option (SlotRun τ)
  | .addSession t clientFD =>
    match s.pc t with
    | .idle =>
      let (index, group) := s.group.allocSession
      some ({ s with
        group := group
        held := if index = sINVALID_ID then s.held else index :: s.held }.goto t
          (.number clientFD index))
    | _ => none
  | .number t =>
    match s.pc t with
    | .number clientFD index =>
      some ({ s with sUniqueNumber := s.sUniqueNumber + 1 }.goto t
        (.construct clientFD index (packID s.sUniqueNumber index)))
    | _ => none
  | .construct t =>
    match s.pc t with
    | .construct clientFD index sessionID => do
      let group ← s.group.constructSession index sessionID clientFD
      return { s with group := group, live := sessionID :: s.live }.goto t .idle
    | _ => none
  | .deleteSession t sessionID =>
    match s.pc t with
    | .idle => some ({ s with live := s.live.erase sessionID }.goto t (.check sessionID))
    | _ => none
  -- the ID in the slot is read without the lock
  | .check t =>
    match s.pc t with
    | .check sessionID => do
      let session ← s.group.slot (getIndex sessionID)
      if session.mSessionID ≠ sessionID then
        return { s with deleted := s.deleted ++ [false] }.goto t .idle
      return s.goto t (.free (getIndex sessionID))
    | _ => none
  | .free t =>
    match s.pc t with
    | .free index =>
      some ({ s with
        group := s.group.freeSession index
        held := s.held.erase index
        deleted := s.deleted ++ [true] }.goto t .idle)
    | _ => none

/-- The machine of the calls on one group. -/
def machine (τ : Type) [DecidableEq τ] : StepMachine (SlotRun τ) (SlotStep τ) := ⟨step⟩

end Machine

/-- A group that has just been constructed, and threads that have made no call. -/
def start (memory : ℕ → Session) (maxSessions : ℕ) (uniqueNumber : BitVec 64) : SlotRun τ where
  group := SessionGroup.construct memory maxSessions
  sUniqueNumber := uniqueNumber
  pc _ := .idle
  held := []
  live := []
  deleted := []

/-- The callers keep to the rules: at most `mMaxSession` indices are allocated and not yet
freed, and a session is deleted once, with its own ID, after `AddSession` has returned it. -/
def Disciplined (s : SlotRun τ) : SlotStep τ → Prop
  | .addSession _ _ => s.held.length < s.group.mMaxSession
  | .deleteSession _ sessionID => sessionID ∈ s.live
  | _ => True

instance (s : SlotRun τ) (a : SlotStep τ) : Decidable (s.Disciplined a) :=
  match a with
  | .addSession _ _ => inferInstanceAs (Decidable (_ < _))
  | .deleteSession _ _ => inferInstanceAs (Decidable (_ ∈ _))
  | .number _ | .construct _ | .check _ | .free _ => inferInstanceAs (Decidable True)

/-- Who has which slot: the free indices and those handed out are the indices that the
constructor has pushed, each once; those handed out are indices of the table; sessions that
are live have different slots, with their own IDs in them; every `DeleteSession` has
returned true, and no thread is about to leave the table. -/
structure SlotsOwned (memory : ℕ → Session) (maxSessions : ℕ) (s : SlotRun τ) : Prop where
  nodup : (s.group.mSessionIndexPool ++ s.held).Nodup
  partition : ∀ i, i ∈ s.group.mSessionIndexPool ++ s.held ↔
    i ∈ (SessionGroup.construct memory maxSessions).mSessionIndexPool
  inside : ∀ i ∈ s.held, 0 ≤ i ∧ i < maxSessions
  live_nodup : (s.live.map getIndex).Nodup
  live_slot : ∀ sessionID ∈ s.live, getIndex sessionID ∈ s.held ∧
    s.group.getSession sessionID = some (some (getIndex sessionID))
  deleted : ∀ result ∈ s.deleted, result = true
  defined : ∀ t index, (s.pc t).slot = some index → (s.group.slot index).isSome = true

/-! ## The threads and the sessions as owners -/

/-- The slot that a thread has in its hands, and the slot of a live session. -/
def slotOf (s : SlotRun τ) : τ ⊕ SessionID → Option ℤ
  | .inl t => (s.pc t).slot
  | .inr sessionID => if sessionID ∈ s.live then some (getIndex sessionID) else none

/-- The group as a pool of slots. -/
def toPool (s : SlotRun τ) : SlotPool ℤ (τ ⊕ SessionID) where
  free := s.group.mSessionIndexPool
  held := s.held
  slot := s.slotOf

/-- An ID about to be constructed names the slot it is for, and an ID about to be checked is
in the slot that it names. -/
def PCOk (group : SessionGroup) : SlotPC → Prop
  | .construct _ index sessionID => getIndex sessionID = index
  | .check sessionID =>
    (group.mSessionVector (getIndex sessionID).toNat).mSessionID = sessionID
  | _ => True

/-- The indices are owned, the one past the table lies at the bottom of the stack, and every
ID that may yet be used is in the slot that it names. -/
structure Inv (maxSessions : ℕ) (s : SlotRun τ) : Prop where
  max_eq : s.group.mMaxSession = maxSessions
  wf : s.toPool.WellFormed (indices maxSessions)
  bottom : s.group.mSessionIndexPool.getLast? = some (maxSessions : ℤ)
  live_nodup : s.live.Nodup
  live_id : ∀ sessionID ∈ s.live,
    (s.group.mSessionVector (getIndex sessionID).toNat).mSessionID = sessionID
  pc_ok : ∀ t, PCOk s.group (s.pc t)
  deleted : ∀ result ∈ s.deleted, result = true

variable {memory : ℕ → Session} {maxSessions : ℕ} {uniqueNumber : BitVec 64} {s s' : SlotRun τ}
  {t : τ} {pc : SlotPC}

lemma inv_start : (start memory maxSessions uniqueNumber : SlotRun τ).Inv maxSessions where
  max_eq := rfl
  wf := by
    have hpool : (start memory maxSessions uniqueNumber : SlotRun τ).toPool =
        SlotPool.new (indices maxSessions) := by
      simp only [toPool, start, SlotPool.new, mSessionIndexPool_construct, SlotPool.mk.injEq,
        true_and]
      funext o
      cases o <;> simp [slotOf, SlotPC.slot]
    rw [hpool]
    exact SlotPool.wellFormed_new _
  bottom := by simp [start, indices, List.range_succ]
  live_nodup := List.nodup_nil
  live_id := by simp [start]
  pc_ok _ := trivial
  deleted := by simp [start]

/-- The index past the table is never handed out. -/
lemma Inv.held_inside (hs : s.Inv maxSessions) {i : ℤ} (hi : i ∈ s.held) :
    0 ≤ i ∧ i < maxSessions := by
  have hall := mem_indices.1 (hs.wf.mem_all hi)
  have hfree := hs.wf.not_mem_free (nodup_indices maxSessions) hi
  have hne : i ≠ maxSessions := by
    rintro rfl
    exact hfree (List.mem_of_getLast? hs.bottom)
  omega

lemma Inv.slot_inside (hs : s.Inv maxSessions) {o : τ ⊕ SessionID} {i : ℤ}
    (ho : s.slotOf o = some i) : 0 ≤ i ∧ i < maxSessions :=
  hs.held_inside (hs.wf.mem_held o i ho)

/-- A session that may yet be used keeps its ID when another session is constructed. -/
lemma Inv.id_stamp (hs : s.Inv maxSessions) {o : τ ⊕ SessionID} {sessionID : SessionID}
    (ho : s.slotOf o = some (getIndex sessionID)) {index : ℤ}
    (hslot : s.slotOf (.inl t) = some index)
    (hne : o ≠ .inl t) (newID : SessionID) (clientFD : SocketFD) :
    ((s.group.stamp index newID clientFD).mSessionVector (getIndex sessionID).toNat).mSessionID =
      (s.group.mSessionVector (getIndex sessionID).toNat).mSessionID := by
  rw [mSessionID_stamp (hs.slot_inside hslot).1 (hs.slot_inside ho).1, if_neg]
  intro heq
  exact hne (hs.wf.slot_inj o (.inl t) index (by rw [← heq]; exact ho) hslot)

/-- `AllocSession` hands out an index of the table as long as the rules are kept. -/
lemma Inv.exists_pool (hs : s.Inv maxSessions) (hroom : s.held.length < maxSessions) :
    ∃ i rest, s.group.mSessionIndexPool = i :: rest ∧ rest.getLast? = some (maxSessions : ℤ) ∧
      0 ≤ i := by
  have hlen := hs.wf.length_add
  have hall : (indices maxSessions).length = maxSessions + 1 := by simp [indices]
  have hbottom := hs.bottom
  cases hpool : s.group.mSessionIndexPool with
  | nil => simp [hpool] at hbottom
  | cons i rest =>
    cases rest with
    | nil =>
      simp only [toPool, hpool, List.length_singleton] at hlen
      omega
    | cons j rest =>
      rw [hpool, List.getLast?_cons_cons] at hbottom
      have hmem : i ∈ indices maxSessions :=
        hs.wf.partition.subset (List.mem_append_left _ (by simp [toPool, hpool]))
      exact ⟨i, j :: rest, rfl, hbottom, (mem_indices.1 hmem).1⟩

/-! ## The steps -/

variable [DecidableEq τ]

@[simp] lemma goto_group : (s.goto t pc).group = s.group := rfl
@[simp] lemma goto_held : (s.goto t pc).held = s.held := rfl
@[simp] lemma goto_live : (s.goto t pc).live = s.live := rfl
@[simp] lemma goto_deleted : (s.goto t pc).deleted = s.deleted := rfl

lemma goto_pc {t' : τ} : (s.goto t pc).pc t' = if t' = t then pc else s.pc t' :=
  Function.update_apply ..

lemma forall_goto {P : SlotPC → Prop} (hold : ∀ t', P (s.pc t')) (hnew : P pc) (t' : τ) :
    P ((s.goto t pc).pc t') := by
  rw [goto_pc]
  split
  · exact hnew
  · exact hold t'

lemma slotOf_goto : (s.goto t pc).slotOf = Function.update s.slotOf (Sum.inl t) pc.slot := by
  funext o
  rw [Function.update_apply]
  cases o with
  | inl t' =>
    simp only [slotOf, goto_pc, Sum.inl.injEq]
    split <;> rfl
  | inr sessionID =>
    rw [if_neg (by simp)]
    rfl

/-- A thread that is not interrupted executes `AddSession`. -/
theorem exec_addSession (hpc : s.pc t = .idle) {clientFD : SocketFD} {sessionID : SessionID}
    {g : SessionGroup}
    (h : s.group.addSession s.sUniqueNumber clientFD = some (sessionID, g)) :
    ∃ s', (machine τ).exec s [.addSession t clientFD, .number t, .construct t] = some s' ∧
      s'.group = g ∧ s'.live = sessionID :: s.live ∧ s'.pc t = .idle := by
  simp only [SessionGroup.addSession, Option.bind_eq_bind, Option.bind_eq_some_iff,
    Option.pure_def, Option.some.injEq, Prod.mk.injEq] at h
  obtain ⟨g', hconstruct, rfl, rfl⟩ := h
  simp [StepMachine.exec_cons, machine, SlotRun.step, hpc, goto, hconstruct]

/-- A thread that is not interrupted executes `DeleteSession`. -/
theorem exec_deleteSession (hpc : s.pc t = .idle) {sessionID : SessionID} {result : Bool}
    {g : SessionGroup} (h : s.group.deleteSession sessionID = some (result, g)) :
    ∃ s', (machine τ).exec s ([.deleteSession t sessionID, .check t] ++
        if result then [.free t] else []) = some s' ∧
      s'.group = g ∧ s'.deleted = s.deleted ++ [result] ∧ s'.pc t = .idle := by
  simp only [SessionGroup.deleteSession, Option.bind_eq_bind, Option.bind_eq_some_iff] at h
  obtain ⟨session, hslot, h⟩ := h
  split at h
  · rename_i hne
    simp only [Option.pure_def, Option.some.injEq, Prod.mk.injEq] at h
    obtain ⟨rfl, rfl⟩ := h
    simp [StepMachine.exec_cons, machine, SlotRun.step, hpc, goto, hslot, hne]
  · rename_i heq
    simp only [Option.pure_def, Option.some.injEq, Prod.mk.injEq] at h
    obtain ⟨rfl, rfl⟩ := h
    simp [StepMachine.exec_cons, machine, SlotRun.step, hpc, goto, hslot,
      not_not.1 heq]

/-- `AllocSession`: the thread acquires the index on the top of the stack. -/
lemma Inv.addSession (hs : s.Inv maxSessions) {i : ℤ} {rest : List ℤ}
    (hpool : s.group.mSessionIndexPool = i :: rest)
    (hbottom : rest.getLast? = some (maxSessions : ℤ)) (clientFD : SocketFD) :
    ({ s with
      group := { s.group with mSessionIndexPool := rest }
      held := i :: s.held }.goto t (.number clientFD i)).Inv maxSessions where
  max_eq := hs.max_eq
  wf := by
    convert hs.wf.acquire (nodup_indices maxSessions) (.inl t) hpool using 1
    simp only [toPool, SlotPool.acquire, slotOf_goto, goto_group, goto_held, hpool,
      List.tail_cons, SlotPool.mk.injEq, true_and]
    rfl
  bottom := hbottom
  live_nodup := hs.live_nodup
  live_id := hs.live_id
  pc_ok := forall_goto hs.pc_ok trivial
  deleted := hs.deleted

/-- A thread that keeps its slot leaves the pool as it is. -/
lemma toPool_goto {pc : SlotPC} (h : s.slotOf (.inl t) = pc.slot) :
    (s.goto t pc).toPool = s.toPool := by
  simp only [toPool, slotOf_goto, goto_group, goto_held, SlotPool.mk.injEq, true_and]
  exact h ▸ Function.update_eq_self _ _

/-- The thread packs the ID. -/
lemma Inv.number (hs : s.Inv maxSessions) (hmax : maxSessions < 65536) {clientFD : SocketFD}
    {i : ℤ} (hpc : s.pc t = .number clientFD i) (uniqueNumber : BitVec 64) :
    ({ s with sUniqueNumber := uniqueNumber + 1 }.goto t
      (.construct clientFD i (packID uniqueNumber i))).Inv maxSessions where
  max_eq := hs.max_eq
  wf := by
    have hslot : s.slotOf (.inl t) = some i := by rw [slotOf, hpc, SlotPC.slot]
    rw [toPool_goto hslot]
    exact hs.wf
  bottom := hs.bottom
  live_nodup := hs.live_nodup
  live_id := hs.live_id
  pc_ok := by
    have hin := hs.slot_inside (o := .inl t) (i := i) (by rw [slotOf, hpc, SlotPC.slot])
    exact forall_goto hs.pc_ok (getIndex_packID _ hin.1 (by omega))
  deleted := hs.deleted

/-- The thread passes the slot on to the session it has constructed there. -/
lemma Inv.construct (hs : s.Inv maxSessions) {clientFD : SocketFD} {i : ℤ}
    {sessionID : SessionID} (hpc : s.pc t = .construct clientFD i sessionID) :
    ({ s with
      group := s.group.stamp i sessionID clientFD
      live := sessionID :: s.live }.goto t .idle).Inv maxSessions := by
  have hindex : getIndex sessionID = i := by
    have hok := hs.pc_ok t
    rwa [hpc] at hok
  have hslot : s.slotOf (.inl t) = some i := by rw [slotOf, hpc, SlotPC.slot]
  have hlive : ∀ id ∈ s.live, s.slotOf (.inr id) = some (getIndex id) := fun id hid => if_pos hid
  have hnew : sessionID ∉ s.live := fun hmem =>
    Sum.inr_ne_inl (hs.wf.slot_inj _ _ i ((hlive _ hmem).trans (by rw [hindex])) hslot)
  refine ⟨hs.max_eq, ?_, hs.bottom, List.nodup_cons.2 ⟨hnew, hs.live_nodup⟩, ?_, ?_, hs.deleted⟩
  · convert hs.wf.transfer (.inl t) (.inr sessionID) using 1
    simp only [toPool, SlotPool.transfer, slotOf_goto, goto_group, goto_held,
      mSessionIndexPool_stamp, SlotPool.mk.injEq, true_and, hslot, SlotPC.slot]
    funext o
    cases o with
    | inl t' => simp [Function.update_apply, slotOf]
    | inr id =>
      by_cases heq : id = sessionID
      · simp [slotOf, heq, hindex]
      · simp [slotOf, heq]
  · intro id hid
    rcases List.mem_cons.1 hid with rfl | hold
    · have hnonneg := (hs.slot_inside hslot).1
      rw [goto_group, mSessionID_stamp hnonneg (hindex ▸ hnonneg), if_pos hindex]
    · rw [goto_group, hs.id_stamp (hlive id hold) hslot Sum.inr_ne_inl]
      exact hs.live_id id hold
  · intro t'
    have hok := hs.pc_ok t'
    rw [goto_pc, goto_group]
    split
    · trivial
    · -- another thread keeps what it knows of the slot it holds
      rename_i hne
      have hkeep : ∀ id, s.pc t' = .check id →
          PCOk (s.group.stamp i sessionID clientFD) (.check id) := by
        intro id hid
        have hslot' : s.slotOf (.inl t') = some (getIndex id) := by rw [slotOf, hid, SlotPC.slot]
        rw [PCOk, hs.id_stamp hslot' hslot (by simpa using hne)]
        rwa [hid] at hok
      cases hid : s.pc t' with
      | check id => exact hkeep id hid
      | construct fd index id => rwa [hid] at hok
      | idle => trivial
      | number fd index => trivial
      | free index => trivial

/-- The session passes its slot on to the thread that deletes it. -/
lemma Inv.deleteSession (hs : s.Inv maxSessions) {sessionID : SessionID}
    (hlive : sessionID ∈ s.live) :
    ({ s with live := s.live.erase sessionID }.goto t (.check sessionID)).Inv maxSessions where
  max_eq := hs.max_eq
  wf := by
    have hslot : s.slotOf (.inr sessionID) = some (getIndex sessionID) := if_pos hlive
    convert hs.wf.transfer (.inr sessionID) (.inl t) using 1
    simp only [toPool, SlotPool.transfer, slotOf_goto, goto_group, goto_held,
      SlotPool.mk.injEq, true_and, hslot, SlotPC.slot]
    congr 1
    funext o
    cases o with
    | inl t' => simp [slotOf]
    | inr id =>
      by_cases heq : id = sessionID
      · simp [slotOf, heq, hs.live_nodup.not_mem_erase]
      · simp [slotOf, heq, List.mem_erase_of_ne heq]
  bottom := hs.bottom
  live_nodup := hs.live_nodup.erase _
  live_id id hid := hs.live_id id (List.mem_of_mem_erase hid)
  pc_ok := forall_goto hs.pc_ok (hs.live_id sessionID hlive)
  deleted := hs.deleted

/-- The comparison with the ID in the slot. -/
lemma Inv.check (hs : s.Inv maxSessions) {sessionID : SessionID}
    (hpc : s.pc t = .check sessionID) :
    (s.goto t (.free (getIndex sessionID))).Inv maxSessions where
  max_eq := hs.max_eq
  wf := by
    have hslot : s.slotOf (.inl t) = some (getIndex sessionID) := by
      rw [slotOf, hpc, SlotPC.slot]
    rw [toPool_goto hslot]
    exact hs.wf
  bottom := hs.bottom
  live_nodup := hs.live_nodup
  live_id := hs.live_id
  pc_ok := forall_goto hs.pc_ok trivial
  deleted := hs.deleted

/-- `FreeSession`: the thread releases the slot. -/
lemma Inv.free (hs : s.Inv maxSessions) {i : ℤ} (hpc : s.pc t = .free i) :
    ({ s with
      group := s.group.freeSession i
      held := s.held.erase i
      deleted := s.deleted ++ [true] }.goto t .idle).Inv maxSessions where
  max_eq := hs.max_eq
  wf := by
    have hslot : s.slotOf (.inl t) = some i := by rw [slotOf, hpc, SlotPC.slot]
    convert hs.wf.release (o := .inl t) (i := i) hslot using 1
    simp only [toPool, SlotPool.release, slotOf_goto, goto_group, goto_held, freeSession,
      SlotPC.slot, SlotPool.mk.injEq, true_and]
    rfl
  bottom := by
    -- the stack is never empty, so a push leaves its bottom alone
    have hbottom := hs.bottom
    cases hpool : s.group.mSessionIndexPool with
    | nil => simp [hpool] at hbottom
    | cons j rest =>
      rw [hpool] at hbottom
      simp only [goto_group, freeSession, hpool, List.getLast?_cons_cons, hbottom]
  live_nodup := hs.live_nodup
  live_id := hs.live_id
  pc_ok := forall_goto hs.pc_ok trivial
  deleted := by
    intro result hresult
    rcases List.mem_append.1 hresult with hold | hnew
    · exact hs.deleted result hold
    · exact List.mem_singleton.1 hnew

/-- **Every step of a thread keeps the invariant**, when the callers keep to the rules. -/
theorem Inv.step (hs : s.Inv maxSessions) (hmax : maxSessions < 65536) {a : SlotStep τ}
    (ha : s.Disciplined a) (h : s.step a = some s') : s'.Inv maxSessions := by
  have hmaxeq := hs.max_eq
  cases a with
  | addSession t clientFD =>
    simp only [SlotRun.step] at h
    split at h
    · obtain ⟨i, rest, hpool, hbottom, hnonneg⟩ := hs.exists_pool (hmaxeq ▸ ha)
      have hi : i ≠ sINVALID_ID := by
        rw [sINVALID_ID]
        omega
      rw [allocSession_eq hpool, Option.some.injEq, if_neg hi] at h
      exact h ▸ hs.addSession hpool hbottom clientFD
    · cases h
  | number t =>
    simp only [SlotRun.step] at h
    split at h
    · rename_i clientFD i hpc
      rw [Option.some.injEq] at h
      exact h ▸ hs.number hmax hpc s.sUniqueNumber
    · cases h
  | construct t =>
    simp only [SlotRun.step] at h
    split at h
    · rename_i clientFD i sessionID hpc
      have hin := hs.slot_inside (o := .inl t) (i := i) (by rw [slotOf, hpc, SlotPC.slot])
      rw [constructSession_eq hin.1 (by omega)] at h
      exact Option.some.inj h ▸ hs.construct hpc
    · cases h
  | deleteSession t sessionID =>
    simp only [SlotRun.step] at h
    split at h
    · rw [Option.some.injEq] at h
      exact h ▸ hs.deleteSession ha
    · cases h
  | check t =>
    simp only [SlotRun.step] at h
    split at h
    · rename_i sessionID hpc
      have hin := hs.slot_inside (o := .inl t) (i := getIndex sessionID)
        (by rw [slotOf, hpc, SlotPC.slot])
      have hok := hs.pc_ok t
      rw [hpc, PCOk] at hok
      rw [slot_eq_some hin.1 (by omega), Option.bind_eq_bind, Option.bind_some,
        if_neg (not_not.2 hok)] at h
      exact Option.some.inj h ▸ hs.check hpc
    · cases h
  | free t =>
    simp only [SlotRun.step] at h
    split at h
    · rename_i i hpc
      rw [Option.some.injEq] at h
      exact h ▸ hs.free hpc
    · cases h

omit [DecidableEq τ] in
theorem Inv.slotsOwned (hs : s.Inv maxSessions) (memory : ℕ → Session) :
    s.SlotsOwned memory maxSessions where
  nodup := hs.wf.nodup (nodup_indices maxSessions)
  partition i := by
    rw [mSessionIndexPool_construct]
    exact hs.wf.partition.mem_iff
  inside i hi := hs.held_inside hi
  live_nodup := by
    refine List.Nodup.map_on (fun id hid id' hid' heq => ?_) hs.live_nodup
    have howner := hs.wf.slot_inj (.inr id) (.inr id') (getIndex id) (if_pos hid)
      ((if_pos hid').trans (by rw [heq]))
    exact Sum.inr.inj howner
  live_slot id hid := by
    have hmaxeq := hs.max_eq
    have hslot : s.slotOf (.inr id) = some (getIndex id) := if_pos hid
    have hin := hs.slot_inside hslot
    refine ⟨hs.wf.mem_held (.inr id) _ hslot, ?_⟩
    rw [getSession_eq (by omega), if_pos (hs.live_id id hid)]
  deleted := hs.deleted
  defined t i ht := by
    have hmaxeq := hs.max_eq
    have hin := hs.slot_inside (o := .inl t) ht
    rw [slot_eq_some hin.1 (by omega)]
    rfl

end SlotRun

open SlotRun

/-- **Slot ownership.**  However the calls of any number of threads interleave, as long as
the callers keep to the rules every slot has one owner, and every `DeleteSession` returns
true. -/
theorem sessionGroup_slotsOwned {τ : Type} [DecidableEq τ] (memory : ℕ → Session)
    {maxSessions : ℕ} (hmax : maxSessions < 65535) (uniqueNumber : BitVec 64)
    {as : List (SlotStep τ)} {s : SlotRun τ}
    (hrun : (SlotRun.machine τ).exec (start memory maxSessions uniqueNumber) as = some s)
    (hrules : (SlotRun.machine τ).Along Disciplined (start memory maxSessions uniqueNumber) as) :
    s.SlotsOwned memory maxSessions := by
  have hs : s.Inv maxSessions := StepMachine.exec_invariant_along (M := SlotRun.machine τ)
    (fun _ _ _ hs ha h => hs.step (by omega) ha h) inv_start hrules hrun
  exact hs.slotsOwned memory

/-- Two threads add a session each at the same time, and one of the sessions is deleted while
its slot's neighbour is constructed. -/
theorem sessionGroup_slotsOwned_two_threads : ∃ s,
    (SlotRun.machine Bool).exec (start (fun _ => Session.zeroMemory) 2 0)
      [.addSession false 5, .addSession true 6, .number true, .number false, .construct true,
        .deleteSession true 1, .check true, .construct false, .free true] = some s ∧
      s.live = [0x1000000000000] ∧ s.deleted = [true] ∧
      s.SlotsOwned (fun _ => Session.zeroMemory) 2 :=
  StepMachine.exists_exec_and (fun s => s.live = [0x1000000000000] ∧ s.deleted = [true])
    (by decide +kernel) fun _ hrun ⟨hlive, hdeleted⟩ =>
      ⟨hlive, hdeleted, sessionGroup_slotsOwned _ (by decide) 0 hrun (by decide +kernel)⟩

end CoreServer
