import CoreServer.Network.SessionGroup
import CoreServer.Lib.StepMachine

/-!
# Histories of a session group

A history of `AddSession` and `DeleteSession` calls, one after another, with any IDs given
to `DeleteSession`.  The state records the sessions that have been added, those that have
not been deleted since, and how often a `DeleteSession` has returned true.  `sUniqueNumber` may
start anywhere; it belongs to the file, and other groups that advance it are left out.

The only thing that ties an ID to a session is the ID left in the slot.  It is the ID of the
session constructed there last (`GroupRun.Inv.stamped`), whether that session has been
deleted or not, and in a slot that has never been used it is what the memory holds.  The
stack of free indices starts with one index too many, which stays at its bottom
(`GroupRun.Inv.pool_eq`) until the table is full and `AddSession` takes it.
-/

namespace CoreServer

/-- A session that `AddSession` has returned: its ID, and the slot it was constructed in. -/
structure AddedSession where
  sessionID : SessionID
  slot : ℤ
deriving DecidableEq, Repr

/-- A call on the group. -/
inductive GroupCall where
  | addSession (clientFD : SocketFD)
  | deleteSession (sessionID : SessionID)
deriving DecidableEq, Repr

/-- A session group with its history; the latest session of `added` comes first. -/
structure GroupRun where
  group : SessionGroup
  sUniqueNumber : BitVec 64
  added : List AddedSession
  live : List AddedSession
  freed : ℕ

namespace GroupRun

open SessionGroup

/-- One call. -/
def step (s : GroupRun) : GroupCall → Option GroupRun
  | .addSession clientFD => do
    let (index, _) := s.group.allocSession
    let (sessionID, g) ← s.group.addSession s.sUniqueNumber clientFD
    return { s with
      group := g
      sUniqueNumber := s.sUniqueNumber + 1
      added := ⟨sessionID, index⟩ :: s.added
      live := ⟨sessionID, index⟩ :: s.live }
  | .deleteSession sessionID => do
    let (deleted, g) ← s.group.deleteSession sessionID
    if deleted then
      return { s with
        group := g
        live := s.live.eraseP fun a => a.sessionID = sessionID
        freed := s.freed + 1 }
    return { s with group := g }

/-- The machine of the histories of one group. -/
def machine : StepMachine GroupRun GroupCall := ⟨step⟩

/-- A group that has just been constructed, when `sUniqueNumber` is `uniqueNumber`. -/
def start (memory : ℕ → Session) (maxSessions : ℕ) (uniqueNumber : BitVec 64) : GroupRun where
  group := SessionGroup.construct memory maxSessions
  sUniqueNumber := uniqueNumber
  added := []
  live := []
  freed := 0

/-- `sessionID` has been returned by an `AddSession`. -/
def Issued (s : GroupRun) (sessionID : SessionID) : Prop :=
  ∃ a ∈ s.added, a.sessionID = sessionID

/-- `sessionID` has been returned by an `AddSession` and not been deleted since. -/
def Live (s : GroupRun) (sessionID : SessionID) : Prop :=
  ∃ a ∈ s.live, a.sessionID = sessionID

instance (s : GroupRun) (sessionID : SessionID) : Decidable (s.Issued sessionID) :=
  inferInstanceAs (Decidable (∃ a ∈ s.added, _))

instance (s : GroupRun) (sessionID : SessionID) : Decidable (s.Live sessionID) :=
  inferInstanceAs (Decidable (∃ a ∈ s.live, _))

/-- The ID of the session constructed last in the slot `index`. -/
def lastOccupant (s : GroupRun) (index : ℤ) : Option SessionID :=
  (s.added.find? fun a => a.slot = index).map AddedSession.sessionID

/-! ## What every history keeps -/

/-- The stack ends with the index past the table and has only indices of the table above it;
its size follows from the calls made; each slot has the ID of the session constructed there
last. -/
structure Inv (memory : ℕ → Session) (maxSessions : ℕ) (s : GroupRun) : Prop where
  max_eq : s.group.mMaxSession = maxSessions
  pool_eq : ∃ free : List ℤ, s.group.mSessionIndexPool = free ++ [(maxSessions : ℤ)] ∧
    (∀ i ∈ free, 0 ≤ i ∧ i < maxSessions) ∧ free.length + s.added.length = maxSessions + s.freed
  stamped : ∀ i : ℤ, 0 ≤ i → (s.group.mSessionVector i.toNat).mSessionID =
    (s.lastOccupant i).getD (memory i.toNat).mSessionID
  slot_eq : ∀ a ∈ s.added, a.slot = getIndex a.sessionID ∧ a.slot < maxSessions
  live_subset : s.live ⊆ s.added

variable {memory : ℕ → Session} {maxSessions : ℕ} {s s' : GroupRun}

lemma inv_start (uniqueNumber : BitVec 64) :
    (start memory maxSessions uniqueNumber).Inv memory maxSessions where
  max_eq := rfl
  pool_eq := by
    refine ⟨(List.range maxSessions).map Nat.cast, ?_, ?_, by simp [start]⟩
    · rw [start, mSessionIndexPool_construct, indices, List.range_succ, List.map_append]
      rfl
    · intro i hi
      obtain ⟨n, hn, rfl⟩ := List.mem_map.1 hi
      rw [List.mem_range] at hn
      omega
  stamped _ _ := rfl
  slot_eq := by simp [start]
  live_subset := by simp [start]

/-- Everything that `AddSession` can do: take an index of the table from the top of the
stack and construct a session there. -/
lemma Inv.addSession_cases (hs : s.Inv memory maxSessions) (hmax : maxSessions < 65536)
    (clientFD : SocketFD) :
    (s.group.mSessionIndexPool = [(maxSessions : ℤ)] ∧
        s.added.length = maxSessions + s.freed ∧
        s.group.addSession s.sUniqueNumber clientFD = none) ∨
      ∃ (index : ℤ) (free : List ℤ),
        s.group.mSessionIndexPool = index :: (free ++ [(maxSessions : ℤ)]) ∧
        0 ≤ index ∧ index < maxSessions ∧ (∀ i ∈ free, 0 ≤ i ∧ i < maxSessions) ∧
        free.length + 1 + s.added.length = maxSessions + s.freed ∧
        getIndex (packID s.sUniqueNumber index) = index ∧
        s.group.allocSession.1 = index ∧
        s.group.addSession s.sUniqueNumber clientFD = some (packID s.sUniqueNumber index,
          { s.group with mSessionIndexPool := free ++ [(maxSessions : ℤ)] }.stamp index
            (packID s.sUniqueNumber index) clientFD) := by
  obtain ⟨free, hpool, hrange, hlen⟩ := hs.pool_eq
  have hmaxeq := hs.max_eq
  cases free with
  | nil =>
    -- the index past the table is on the top
    refine Or.inl ⟨hpool, by simpa using hlen, addSession_eq_none hpool (by omega) _ _⟩
  | cons index free =>
    obtain ⟨hnonneg, hlt⟩ := hrange index List.mem_cons_self
    rw [List.cons_append] at hpool
    refine Or.inr ⟨index, free, hpool, hnonneg, hlt,
      fun i hi => hrange i (List.mem_cons_of_mem _ hi), by simpa using hlen,
      getIndex_packID _ hnonneg (by omega), by rw [allocSession_eq hpool],
      addSession_eq hpool hnonneg (by omega) _ _⟩

/-- `DeleteSession` reads the slot that the ID names. -/
lemma Inv.deleteSession_cases (hs : s.Inv memory maxSessions) (sessionID : SessionID) :
    (maxSessions ≤ getIndex sessionID ∧ s.group.deleteSession sessionID = none) ∨
      (getIndex sessionID < maxSessions ∧
        (s.lastOccupant (getIndex sessionID)).getD
          (memory (getIndex sessionID).toNat).mSessionID = sessionID ∧
        s.group.deleteSession sessionID =
          some (true, s.group.freeSession (getIndex sessionID))) ∨
      (getIndex sessionID < maxSessions ∧
        (s.lastOccupant (getIndex sessionID)).getD
          (memory (getIndex sessionID).toNat).mSessionID ≠ sessionID ∧
        s.group.deleteSession sessionID = some (false, s.group)) := by
  have hmaxeq := hs.max_eq
  rcases lt_or_ge (getIndex sessionID) maxSessions with hlt | hge
  · rw [deleteSession_eq (by omega), hs.stamped _ (getIndex_nonneg _)]
    split
    · rename_i heq
      exact Or.inr (Or.inl ⟨hlt, heq, rfl⟩)
    · rename_i hne
      exact Or.inr (Or.inr ⟨hlt, hne, rfl⟩)
  · exact Or.inl ⟨hge, deleteSession_eq_none (by omega)⟩

/-- What a call that has a defined result does. -/
inductive Moves (memory : ℕ → Session) (maxSessions : ℕ) (s : GroupRun) :
    GroupCall → GroupRun → Prop
  | add {clientFD : SocketFD} (index : ℤ) (free : List ℤ)
      (hpool : s.group.mSessionIndexPool = index :: (free ++ [(maxSessions : ℤ)]))
      (hnonneg : 0 ≤ index) (hlt : index < maxSessions)
      (hrange : ∀ i ∈ free, 0 ≤ i ∧ i < maxSessions)
      (hlen : free.length + 1 + s.added.length = maxSessions + s.freed)
      (hindex : getIndex (packID s.sUniqueNumber index) = index)
      (halloc : s.group.allocSession.1 = index) :
    Moves memory maxSessions s (.addSession clientFD) { s with
      group := { s.group with mSessionIndexPool := free ++ [(maxSessions : ℤ)] }.stamp index
        (packID s.sUniqueNumber index) clientFD
      sUniqueNumber := s.sUniqueNumber + 1
      added := ⟨packID s.sUniqueNumber index, index⟩ :: s.added
      live := ⟨packID s.sUniqueNumber index, index⟩ :: s.live }
  | delete (sessionID : SessionID) (hlt : getIndex sessionID < maxSessions)
      (hid : (s.lastOccupant (getIndex sessionID)).getD
        (memory (getIndex sessionID).toNat).mSessionID = sessionID) :
    Moves memory maxSessions s (.deleteSession sessionID) { s with
      group := s.group.freeSession (getIndex sessionID)
      live := s.live.eraseP fun a => a.sessionID = sessionID
      freed := s.freed + 1 }
  | refuse {sessionID : SessionID} : Moves memory maxSessions s (.deleteSession sessionID) s

theorem Inv.moves_of_step (hs : s.Inv memory maxSessions) (hmax : maxSessions < 65536)
    {c : GroupCall} (h : s.step c = some s') : Moves memory maxSessions s c s' := by
  cases c with
  | addSession clientFD =>
    rcases hs.addSession_cases hmax clientFD with ⟨-, -, hnone⟩ |
      ⟨index, free, hpool, hnonneg, hlt, hrange, hlen, hindex, halloc, hadd⟩
    · simp [GroupRun.step, hnone] at h
    · simp only [GroupRun.step, hadd, halloc, Option.bind_eq_bind, Option.bind_some,
        Option.pure_def, Option.some.injEq] at h
      subst h
      exact .add index free hpool hnonneg hlt hrange hlen hindex halloc
  | deleteSession sessionID =>
    rcases hs.deleteSession_cases sessionID with ⟨-, hnone⟩ | ⟨hlt, hid, hdel⟩ | ⟨-, -, hdel⟩
    · simp [GroupRun.step, hnone] at h
    · simp only [GroupRun.step, hdel, Option.bind_eq_bind, Option.bind_some, if_true,
        Option.pure_def, Option.some.injEq] at h
      subst h
      exact .delete sessionID hlt hid
    · simp only [GroupRun.step, hdel, Option.bind_eq_bind, Option.bind_some,
        Bool.false_eq_true, if_false, Option.pure_def, Option.some.injEq] at h
      subst h
      exact .refuse

/-- **Every call that has a defined result keeps the invariant.** -/
theorem Inv.step (hs : s.Inv memory maxSessions) (hmax : maxSessions < 65536) {c : GroupCall}
    (h : s.step c = some s') : s'.Inv memory maxSessions := by
  cases hs.moves_of_step hmax h with
  | add index free hpool hnonneg hlt hrange hlen hindex halloc =>
    refine ⟨hs.max_eq, ⟨free, rfl, hrange, ?_⟩, fun i hi => ?_, ?_, ?_⟩
    · simp only [List.length_cons]
      omega
    · -- the new session is the last one constructed in its slot
      rw [mSessionID_stamp hnonneg hi]
      simp only [lastOccupant, List.find?_cons]
      by_cases heq : i = index
      · simp [heq]
      · have hdec : decide (index = i) = false := decide_eq_false (Ne.symm heq)
        rw [if_neg heq, hdec]
        exact hs.stamped i hi
    · intro a ha
      rcases List.mem_cons.1 ha with rfl | ha
      · exact ⟨hindex.symm, hlt⟩
      · exact hs.slot_eq a ha
    · exact List.cons_subset_cons _ hs.live_subset
  | delete sessionID hlt hid =>
    obtain ⟨free, hpool, hrange, hlen⟩ := hs.pool_eq
    refine ⟨hs.max_eq, ⟨getIndex sessionID :: free, ?_, ?_, ?_⟩, hs.stamped, hs.slot_eq,
      fun a ha => hs.live_subset (List.mem_of_mem_eraseP ha)⟩
    · simp [freeSession, hpool]
    · intro i hi
      rcases List.mem_cons.1 hi with rfl | hi
      · exact ⟨getIndex_nonneg _, hlt⟩
      · exact hrange i hi
    · simp only [List.length_cons]
      omega
  | refuse => exact hs

lemma inv_of_exec (hmax : maxSessions < 65536) {uniqueNumber : BitVec 64}
    {calls : List GroupCall}
    (h : machine.exec (start memory maxSessions uniqueNumber) calls = some s) :
    s.Inv memory maxSessions :=
  StepMachine.exec_invariant (M := machine) (fun _ _ _ hs h => hs.step hmax h)
    (inv_start uniqueNumber) h

/-! ## Looking a session up -/

/-- `GetSession` reads a slot of the table, and returns the slot of the live session that has
the ID, or the null pointer if there is none. -/
def LookupExact (s : GroupRun) (sessionID : SessionID) : Prop :=
  ∃ session, s.group.getSession sessionID = some session ∧
    ∀ i, session = some i ↔ ⟨sessionID, i⟩ ∈ s.live

/-- The ID names a slot of the table.  If a session has been constructed there, the last one
has this ID exactly if the session with this ID is live; if none has, the memory of the slot
does not hold this ID. -/
def Traceable (memory : ℕ → Session) (maxSessions : ℕ) (s : GroupRun)
    (sessionID : SessionID) : Prop :=
  getIndex sessionID < maxSessions ∧
    match s.lastOccupant (getIndex sessionID) with
    | some occupant => occupant = sessionID ↔ s.Live sessionID
    | none => (memory (getIndex sessionID).toNat).mSessionID ≠ sessionID

lemma Inv.live_iff (hs : s.Inv memory maxSessions) {sessionID : SessionID} :
    s.Live sessionID ↔ ⟨sessionID, getIndex sessionID⟩ ∈ s.live := by
  constructor
  · rintro ⟨a, ha, rfl⟩
    rw [← (hs.slot_eq a (hs.live_subset ha)).1]
    exact ha
  · exact fun h => ⟨_, h, rfl⟩

/-- The slot of an issued ID has had an occupant. -/
lemma Inv.exists_lastOccupant (hs : s.Inv memory maxSessions) {sessionID : SessionID}
    (h : s.Issued sessionID) : ∃ occupant, s.lastOccupant (getIndex sessionID) = some occupant := by
  obtain ⟨a, ha, rfl⟩ := h
  have hfound : (s.added.find? fun b => b.slot = getIndex a.sessionID).isSome := by
    rw [List.find?_isSome]
    exact ⟨a, ha, by simpa using (hs.slot_eq a ha).1⟩
  obtain ⟨b, hb⟩ := Option.isSome_iff_exists.1 hfound
  exact ⟨b.sessionID, by rw [lastOccupant, hb, Option.map_some]⟩

lemma Inv.issued_of_live (hs : s.Inv memory maxSessions) {sessionID : SessionID}
    (h : s.Live sessionID) : s.Issued sessionID := by
  obtain ⟨a, ha, rfl⟩ := h
  exact ⟨a, hs.live_subset ha, rfl⟩

theorem Inv.lookupExact_iff (hs : s.Inv memory maxSessions) (sessionID : SessionID) :
    s.LookupExact sessionID ↔ s.Traceable memory maxSessions sessionID := by
  have hmaxeq := hs.max_eq
  rcases lt_or_ge (getIndex sessionID) maxSessions with hlt | hge
  · have hslot : ∀ i, ⟨sessionID, i⟩ ∈ s.live ↔ i = getIndex sessionID ∧ s.Live sessionID := by
      intro i
      constructor
      · exact fun hi => ⟨(hs.slot_eq _ (hs.live_subset hi)).1, _, hi, rfl⟩
      · rintro ⟨rfl, hlive⟩
        exact hs.live_iff.1 hlive
    have hexact : s.LookupExact sessionID ↔
        ((s.lastOccupant (getIndex sessionID)).getD
          (memory (getIndex sessionID).toNat).mSessionID = sessionID ↔ s.Live sessionID) := by
      rw [LookupExact, getSession_eq (by omega), hs.stamped _ (getIndex_nonneg _)]
      simp only [Option.some.injEq, exists_eq_left', hslot]
      split <;> rename_i heq
      · simp only [heq, true_iff, Option.some.injEq]
        exact ⟨fun h => ((h _).1 rfl).2, fun h i => by rw [and_iff_left h, eq_comm]⟩
      · simp only [heq, false_iff, reduceCtorEq]
        exact ⟨fun h hlive => h _ ⟨rfl, hlive⟩, fun h i hi => h hi.2⟩
    rw [hexact, Traceable, and_iff_right hlt]
    cases hocc : s.lastOccupant (getIndex sessionID) with
    | some occupant => rfl
    | none =>
      -- a live session has been constructed in its slot
      have hdead : ¬ s.Live sessionID := by
        intro hlive
        obtain ⟨occupant, hocc'⟩ := hs.exists_lastOccupant (hs.issued_of_live hlive)
        rw [hocc] at hocc'
        cases hocc'
      simp [hdead]
  · refine iff_of_false ?_ fun h => absurd h.1 (by omega)
    rintro ⟨session, hsession, -⟩
    rw [getSession_eq_none (by omega)] at hsession
    cases hsession

/-! ## Deleting a session twice -/

/-- `DeleteSession` returns false and leaves the stack of free indices as it is. -/
def DeleteHarmless (s : GroupRun) (sessionID : SessionID) : Prop :=
  ∃ g, s.group.deleteSession sessionID = some (false, g) ∧
    g.mSessionIndexPool = s.group.mSessionIndexPool

/-- A delete names an issued ID, and if the session with this ID is not live, the slot has
been given to a session with another ID since. -/
def DeletesReused (s : GroupRun) : GroupCall → Prop
  | .addSession _ => True
  | .deleteSession sessionID => s.Issued sessionID ∧
      (¬ s.Live sessionID → s.lastOccupant (getIndex sessionID) ≠ some sessionID)

instance (s : GroupRun) (c : GroupCall) : Decidable (s.DeletesReused c) :=
  match c with
  | .addSession _ => inferInstanceAs (Decidable True)
  | .deleteSession _ => inferInstanceAs (Decidable (_ ∧ (_ → _)))

lemma Inv.deleteHarmless_iff (hs : s.Inv memory maxSessions) {sessionID : SessionID}
    (h : s.Issued sessionID) :
    s.DeleteHarmless sessionID ↔ s.lastOccupant (getIndex sessionID) ≠ some sessionID := by
  obtain ⟨occupant, hocc⟩ := hs.exists_lastOccupant h
  obtain ⟨a, ha, rfl⟩ := h
  obtain ⟨hslot, hlt⟩ := hs.slot_eq a ha
  rw [DeleteHarmless, hocc, ne_eq, Option.some.injEq]
  rcases hs.deleteSession_cases a.sessionID with ⟨hge, -⟩ | ⟨-, heq, hdel⟩ | ⟨-, hne, hdel⟩
  · omega
  · rw [hocc, Option.getD_some] at heq
    simp [hdel, heq]
  · rw [hocc, Option.getD_some] at hne
    simp [hdel, hne]

/-- The sessions that are live as the owners of a pool of slots. -/
def toPool (s : GroupRun) : SlotPool ℤ SessionID where
  free := s.group.mSessionIndexPool
  held := s.live.map AddedSession.slot
  slot sessionID := if s.Live sessionID then some (getIndex sessionID) else none

/-- As long as every delete of a session that is not live is harmless, the live sessions own
their slots, and each was the last to be constructed in its slot. -/
structure Owned (memory : ℕ → Session) (maxSessions : ℕ) (s : GroupRun) : Prop where
  inv : s.Inv memory maxSessions
  wf : s.toPool.WellFormed (indices maxSessions)
  occupies : ∀ a ∈ s.live, s.lastOccupant a.slot = some a.sessionID

lemma owned_start (uniqueNumber : BitVec 64) :
    (start memory maxSessions uniqueNumber).Owned memory maxSessions where
  inv := inv_start uniqueNumber
  wf := by
    have hpool : (start memory maxSessions uniqueNumber).toPool =
        SlotPool.new (indices maxSessions) := by
      simp [toPool, start, SlotPool.new, Live]
    rw [hpool]
    exact SlotPool.wellFormed_new _
  occupies := by simp [start]

/-- After `AddSession` the new session owns the slot that was on the top of the stack. -/
lemma toPool_added {g : SessionGroup} {uniqueNumber : BitVec 64} {a : AddedSession}
    (hpool : g.mSessionIndexPool = s.group.mSessionIndexPool.tail)
    (hslot : getIndex a.sessionID = a.slot) :
    toPool ⟨g, uniqueNumber, a :: s.added, a :: s.live, s.freed⟩ =
      s.toPool.acquire a.sessionID a.slot := by
  simp only [toPool, SlotPool.acquire, hpool, List.map_cons, SlotPool.mk.injEq, true_and]
  funext sessionID
  rw [Function.update_apply]
  have hlive : Live ⟨g, uniqueNumber, a :: s.added, a :: s.live, s.freed⟩ sessionID ↔
      a.sessionID = sessionID ∨ s.Live sessionID := by
    simp only [Live, List.exists_mem_cons_iff]
  by_cases heq : sessionID = a.sessionID
  · rw [if_pos (hlive.2 (Or.inl heq.symm)), if_pos heq, heq, hslot]
  · rw [if_neg heq]
    exact if_congr (by rw [hlive, or_iff_right (Ne.symm heq)]) rfl rfl

/-- After `DeleteSession` has deleted a live session its slot is on the top of the stack. -/
lemma Owned.toPool_deleted (hs : s.Owned memory maxSessions) {sessionID : SessionID}
    (hlive : s.Live sessionID) :
    (toPool { s with
      group := s.group.freeSession (getIndex sessionID)
      live := s.live.eraseP fun a => a.sessionID = sessionID
      freed := s.freed + 1 }).WellFormed (indices maxSessions) := by
  obtain ⟨b, l₁, l₂, -, hb, hsplit, herase⟩ :=
    List.exists_of_eraseP (p := fun a : AddedSession => decide (a.sessionID = sessionID))
      (hs.inv.live_iff.1 hlive) (by simp)
  have hslot : ∀ a ∈ s.live, a.sessionID = sessionID → a.slot = getIndex sessionID :=
    fun a ha hid => hid ▸ (hs.inv.slot_eq a (hs.inv.live_subset ha)).1
  have hperm : s.toPool.held.Perm (getIndex sessionID :: (l₁ ++ l₂).map AddedSession.slot) := by
    have hbslot := hslot b (by simp [hsplit]) (of_decide_eq_true hb)
    rw [← hbslot, ← List.map_cons, toPool, hsplit]
    exact List.perm_middle.map _
  have hnodup := (List.nodup_append.1 (hs.wf.nodup (nodup_indices maxSessions))).2.1
  -- no other live session has the slot, so none has the ID
  have hgone : ∀ a ∈ l₁ ++ l₂, a.sessionID ≠ sessionID := by
    intro a ha hid
    have hmem : a ∈ s.live := by
      rw [hsplit]
      exact ((List.sublist_cons_self b l₂).append_left l₁).subset ha
    have hnot := (List.nodup_cons.1 (hperm.nodup_iff.1 hnodup)).1
    rw [← hslot a hmem hid] at hnot
    exact hnot (List.mem_map_of_mem ha)
  have hheld : ((l₁ ++ l₂).map AddedSession.slot).Perm
      (s.toPool.held.erase (getIndex sessionID)) :=
    (((List.perm_cons_erase (hperm.symm.subset List.mem_cons_self)).symm.trans hperm).cons_inv).symm
  convert (hs.wf.release (o := sessionID) (i := getIndex sessionID) (if_pos hlive)).of_perm hheld
    using 1
  simp only [toPool, SlotPool.release, freeSession, herase, SlotPool.mk.injEq, true_and]
  funext id
  rw [Function.update_apply]
  by_cases heq : id = sessionID
  · rw [if_pos heq, if_neg]
    rintro ⟨a, ha, hid⟩
    exact hgone a ha (hid.trans heq)
  · rw [if_neg heq]
    refine if_congr ?_ rfl rfl
    simp only [Live, hsplit]
    constructor
    · rintro ⟨a, ha, hid⟩
      exact ⟨a, ((List.sublist_cons_self b l₂).append_left l₁).subset ha, hid⟩
    · rintro ⟨a, ha, rfl⟩
      refine ⟨a, ?_, rfl⟩
      have hne : a ≠ b := by
        rintro rfl
        exact heq (of_decide_eq_true hb)
      rw [List.mem_append, List.mem_cons, or_iff_right hne] at ha
      exact List.mem_append.2 ha

theorem Owned.step (hs : s.Owned memory maxSessions) (hmax : maxSessions < 65536)
    {c : GroupCall} (hc : s.DeletesReused c) (h : s.step c = some s') :
    s'.Owned memory maxSessions := by
  have hinv := hs.inv.step hmax h
  cases hs.inv.moves_of_step hmax h with
  | add index free hpool hnonneg hlt hrange hlen hindex halloc =>
    refine ⟨hinv, ?_, fun a ha => ?_⟩
    · rw [toPool_added (a := ⟨packID s.sUniqueNumber index, index⟩) (by rw [hpool]; rfl) hindex]
      exact hs.wf.acquire (nodup_indices maxSessions) _ hpool
    · simp only [lastOccupant, List.find?_cons]
      rcases List.mem_cons.1 ha with rfl | hold
      · simp
      · -- the index was free, so it is not the slot of a live session
        have hne : index ≠ a.slot := by
          rintro heq
          refine hs.wf.not_mem_free (nodup_indices maxSessions)
            (List.mem_map_of_mem (f := AddedSession.slot) hold) ?_
          simp [toPool, hpool, heq]
        rw [decide_eq_false hne]
        exact hs.occupies a hold
  | delete sessionID hlt hid =>
    -- the slot still has the ID, so the session is live
    obtain ⟨hissued, hreused⟩ := hc
    obtain ⟨occupant, hocc⟩ := hs.inv.exists_lastOccupant hissued
    rw [hocc, Option.getD_some] at hid
    have hlive : s.Live sessionID := by
      by_contra hdead
      exact hreused hdead (by rw [hocc, hid])
    exact ⟨hinv, hs.toPool_deleted hlive,
      fun a ha => hs.occupies a (List.mem_of_mem_eraseP ha)⟩
  | refuse => exact hs

/-! ## Adding a session to a full table -/

/-- `AcceptJob::Execute` from `AddSession` to `session->GetRecvJob()`: the ID and the slot of
the session whose receive job is registered next, and the group afterwards. -/
def acceptSession (g : SessionGroup) (uniqueNumber : BitVec 64) (clientFD : SocketFD) :
    Option (SessionID × ℤ × SessionGroup) := do
  let (clientSession, g) ← g.addSession uniqueNumber clientFD
  let session ← g.getSession clientSession
  let slot ← session
  return (clientSession, slot, g)

/-- `AddSession` constructs the session in a slot of the table, or returns an ID that
`GetSession` maps to the null pointer without writing to a slot; and `AcceptJob` gets a
session to dereference. -/
def AddInside (s : GroupRun) (clientFD : SocketFD) : Prop :=
  ∃ sessionID g, s.group.addSession s.sUniqueNumber clientFD = some (sessionID, g) ∧
    ((∃ index : ℤ, 0 ≤ index ∧ index < s.group.mMaxSession ∧
        g.mSessionVector = Function.update s.group.mSessionVector index.toNat
          ((s.group.mSessionVector index.toNat).construct sessionID clientFD)) ∨
      (g.getSession sessionID = some none ∧ g.mSessionVector = s.group.mSessionVector)) ∧
    ∃ slot, acceptSession s.group s.sUniqueNumber clientFD = some (sessionID, slot, g)

/-- An `AddSession` stays inside the table. -/
def AddsInside (s : GroupRun) : GroupCall → Prop
  | .addSession clientFD => s.AddInside clientFD
  | .deleteSession _ => True

/-- Before an `AddSession`, the sessions added exceed the deletes that have returned true by
less than the size of the table. -/
def HasRoom (s : GroupRun) : GroupCall → Prop
  | .addSession _ => s.added.length < s.freed + s.group.mMaxSession
  | .deleteSession _ => True

instance (s : GroupRun) (c : GroupCall) : Decidable (s.HasRoom c) :=
  match c with
  | .addSession _ => inferInstanceAs (Decidable (_ < _))
  | .deleteSession _ => inferInstanceAs (Decidable True)

theorem Inv.addsInside_iff (hs : s.Inv memory maxSessions) (hmax : maxSessions < 65536)
    (c : GroupCall) : s.AddsInside c ↔ s.HasRoom c := by
  cases c with
  | deleteSession sessionID => exact Iff.rfl
  | addSession clientFD =>
    have hmaxeq := hs.max_eq
    rcases hs.addSession_cases hmax clientFD with ⟨hpool, hlen, hnone⟩ |
      ⟨index, free, hpool, hnonneg, hlt, hrange, hlen, hindex, -, hadd⟩
    · refine iff_of_false ?_ (Nat.not_lt.2 (by omega))
      rintro ⟨sessionID, g, hadd, -⟩
      rw [hnone] at hadd
      cases hadd
    · refine iff_of_true ⟨_, _, hadd, Or.inl ⟨index, hnonneg, by omega, rfl⟩, index, ?_⟩
        (show _ < _ by omega)
      -- the ID is in the slot that it names
      have hget : ({ s.group with mSessionIndexPool := free ++ [(maxSessions : ℤ)] }.stamp index
          (packID s.sUniqueNumber index) clientFD).getSession (packID s.sUniqueNumber index) =
            some (some index) := by
        have hinside : index < (s.group.mMaxSession : ℤ) := by omega
        rw [getSession_eq (by rw [hindex]; exact hinside), hindex,
          mSessionID_stamp hnonneg hnonneg, if_pos rfl, if_pos rfl]
      simp only [acceptSession, hadd, Option.bind_eq_bind, Option.bind_some, hget]
      rfl

end GroupRun

open GroupRun

/-- **When a lookup is exact.**  In every state that a history reaches, `GetSession` tells
the live session with an ID, and its slot, from no session exactly when the ID names a slot
of the table, the ID left there is not that of a deleted session or of unused memory, and
the slot of a live session has not been given to another one. -/
theorem getSession_exact_iff (memory : ℕ → Session) {maxSessions : ℕ} (hmax : maxSessions < 65535)
    (uniqueNumber : BitVec 64) {calls : List GroupCall} {s : GroupRun}
    (hrun : GroupRun.machine.exec (start memory maxSessions uniqueNumber) calls = some s)
    (sessionID : SessionID) :
    s.LookupExact sessionID ↔ s.Traceable memory maxSessions sessionID :=
  (inv_of_exec (by omega) hrun).lookupExact_iff sessionID

/-- A table of two slots with one live session. -/
theorem getSession_exact_live : ∃ s,
    GroupRun.machine.exec (start (fun _ => Session.zeroMemory) 2 1) [.addSession 5] = some s ∧
      s.LookupExact 0x1000000000000 :=
  StepMachine.exists_exec_and
    (fun s => s.lastOccupant 0 = some 0x1000000000000 ∧ s.Live 0x1000000000000) (by decide +kernel)
    fun _ hrun ⟨hocc, hlive⟩ => (getSession_exact_iff _ (by decide) 1 hrun _).2 (by
      have hindex : getIndex 0x1000000000000 = 0 := by decide
      rw [Traceable, hindex, hocc]
      exact ⟨by decide, iff_of_true rfl hlive⟩)

/-- After the second of two sessions has been deleted its ID still gets its slot, and the ID
-1 is looked up outside the table. -/
theorem getSession_finds_deleted : ∃ s,
    GroupRun.machine.exec (start (fun _ => Session.zeroMemory) 2 0)
      [.addSession 5, .addSession 6, .deleteSession 0x1000000000001] = some s ∧
      ¬ s.LookupExact 0x1000000000001 ∧ ¬ s.LookupExact (-1) :=
  StepMachine.exists_exec_and
    (fun s => s.group.getSession 0x1000000000001 = some (some 1) ∧
      ⟨0x1000000000001, 1⟩ ∉ s.live ∧ s.group.getSession (-1) = none) (by decide +kernel) (by
    rintro s - ⟨hstale, hdead, hinvalid⟩
    refine ⟨?_, ?_⟩
    · rintro ⟨session, hsession, hexact⟩
      rw [hstale, Option.some.injEq] at hsession
      exact hdead ((hexact 1).1 hsession.symm)
    · rintro ⟨session, hsession, -⟩
      rw [hinvalid] at hsession
      cases hsession)

/-- **When deleting a session twice is harmless.**  In every state that a history reaches,
`DeleteSession` of an ID that has been deleted already returns false and frees no slot
exactly when the slot has been given to a session with another ID since.  As long as every
delete of a deleted session comes that late, two live sessions never have the same slot. -/
theorem deleteSession_harmless_iff (memory : ℕ → Session) {maxSessions : ℕ}
    (hmax : maxSessions < 65535) (uniqueNumber : BitVec 64) :
    (∀ calls s, GroupRun.machine.exec (start memory maxSessions uniqueNumber) calls = some s →
      ∀ sessionID, s.Issued sessionID → ¬ s.Live sessionID →
        (s.DeleteHarmless sessionID ↔
          s.lastOccupant (getIndex sessionID) ≠ some sessionID)) ∧
    ∀ calls, GroupRun.machine.Along DeletesReused (start memory maxSessions uniqueNumber) calls →
      GroupRun.machine.Always (fun s => (s.live.map AddedSession.slot).Nodup)
        (start memory maxSessions uniqueNumber) calls := by
  refine ⟨fun calls s hrun sessionID hissued _ => ?_, fun calls hcalls => ?_⟩
  · exact (inv_of_exec (by omega) hrun).deleteHarmless_iff hissued
  · refine StepMachine.always_of_along (I := Owned memory maxSessions)
      (fun _ _ _ hs hc h => hs.step (by omega) hc h) (fun s hs => ?_)
      (owned_start uniqueNumber) hcalls
    exact (List.nodup_append.1 (hs.wf.nodup (SessionGroup.nodup_indices maxSessions))).2.1

/-- A table of two slots: the first session is deleted a second time after its slot has been
given to another one. -/
theorem deleteSession_harmless_reused :
    GroupRun.machine.Always (fun s => (s.live.map AddedSession.slot).Nodup)
      (start (fun _ => Session.zeroMemory) 2 0)
      [.addSession 5, .deleteSession 0, .addSession 6, .deleteSession 0, .addSession 7] :=
  (deleteSession_harmless_iff _ (by decide) 0).2 _ (by decide +kernel)

/-- A session is deleted twice in a row: the second `DeleteSession` frees the slot again, and
the next two sessions are both constructed in it. -/
theorem deleteSession_frees_twice :
    (∃ s, GroupRun.machine.exec (start (fun _ => Session.zeroMemory) 2 0)
      [.addSession 5, .deleteSession 0] = some s ∧
        s.Issued 0 ∧ ¬ s.Live 0 ∧ ¬ s.DeleteHarmless 0) ∧
    ∃ s, GroupRun.machine.exec (start (fun _ => Session.zeroMemory) 2 0)
      [.addSession 5, .deleteSession 0, .deleteSession 0, .addSession 6, .addSession 7] = some s ∧
        s.live.map AddedSession.slot = [0, 0] := by
  refine ⟨?_, StepMachine.exists_exec_and (fun s => s.live.map AddedSession.slot = [0, 0])
    (by decide +kernel) fun _ _ h => h⟩
  refine StepMachine.exists_exec_and
    (fun s => s.Issued 0 ∧ ¬ s.Live 0 ∧ (s.group.deleteSession 0).any Prod.fst = true)
    (by decide +kernel) ?_
  rintro s - ⟨hissued, hdead, hdel⟩
  refine ⟨hissued, hdead, ?_⟩
  rintro ⟨g, hfalse, -⟩
  rw [hfalse, Option.any_some] at hdel
  cases hdel

/-- **When `AddSession` stays inside the table.**  Along every history, every `AddSession`
does exactly when, before every `AddSession`, the sessions added exceed the deletes that have
returned true by less than the size of the table. -/
theorem addSession_inside_iff (memory : ℕ → Session) {maxSessions : ℕ} (hmax : maxSessions < 65535)
    (uniqueNumber : BitVec 64) (calls : List GroupCall) :
    GroupRun.machine.Along AddsInside (start memory maxSessions uniqueNumber) calls ↔
      GroupRun.machine.Along HasRoom (start memory maxSessions uniqueNumber) calls :=
  StepMachine.along_congr (I := Inv memory maxSessions) (G := fun _ _ => True)
    (fun _ _ _ hs _ h => hs.step (by omega) h) (fun _ c hs _ => hs.addsInside_iff (by omega) c)
    (inv_start uniqueNumber) (StepMachine.along_of_forall (fun _ _ => trivial) _ _)

/-- A table of one slot, filled twice. -/
theorem addSession_inside_one_slot :
    GroupRun.machine.Along AddsInside (start (fun _ => Session.zeroMemory) 1 0)
      [.addSession 5, .deleteSession 0, .addSession 6] :=
  (addSession_inside_iff _ (by decide) 0 _).2 (by decide +kernel)

/-- The second session of a table of one slot is constructed past the end of the table. -/
theorem addSession_leaves_full_table : ∃ s,
    GroupRun.machine.exec (start (fun _ => Session.zeroMemory) 1 0) [.addSession 5] = some s ∧
      s.group.allocSession.1 = 1 ∧ ¬ s.AddInside 6 :=
  StepMachine.exists_exec_and
    (fun s => s.group.allocSession.1 = 1 ∧
      (s.group.addSession s.sUniqueNumber 6).isNone = true) (by decide +kernel) (by
    rintro s - ⟨halloc, hnone⟩
    refine ⟨halloc, ?_⟩
    rintro ⟨sessionID, g, hadd, -⟩
    simp [hadd] at hnone)

end CoreServer
