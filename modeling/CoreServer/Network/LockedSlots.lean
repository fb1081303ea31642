import CoreServer.Lib.Simulation
import CoreServer.Lock
import CoreServer.Network.SlotOwnership

/-!
# `SessionGroup` with its mutex

`SlotRun` takes the locked sections of `AllocSession` and `FreeSession` as one step each.  Here
`AllocSession` takes `mStackMutex`, calls `empty`, then `top`, then `pop` on `mSessionIndexPool`
and gives the mutex back, also where it returns early; `FreeSession` pushes between the two.
The steps of the other threads, among them the unlocked ones that construct sessions and read
their IDs, come in between.
-/

namespace CoreServer

/-- Where a thread stands in a call on the group. -/
inductive LockedSlotPC where
  | idle
  /-- `AllocSession`, before the guard takes `mStackMutex`. -/
  | allocLock (clientFD : SocketFD)
  /-- Before `mSessionIndexPool.empty()`. -/
  | allocEmpty (clientFD : SocketFD)
  /-- Before `mSessionIndexPool.top()`. -/
  | allocTop (clientFD : SocketFD)
  /-- Before `mSessionIndexPool.pop()`. -/
  | allocPop (clientFD : SocketFD) (index : ℤ)
  /-- Before the guard gives `mStackMutex` back and `AllocSession` returns `index`. -/
  | allocUnlock (clientFD : SocketFD) (index : ℤ)
  /-- `AddSession`, before `__sync_fetch_and_add`. -/
  | number (clientFD : SocketFD) (index : ℤ)
  /-- `AddSession`, before `new (session) Session`. -/
  | construct (clientFD : SocketFD) (index : ℤ) (sessionID : SessionID)
  /-- `DeleteSession`, before `session->GetSessionID() != sessionID`. -/
  | check (sessionID : SessionID)
  /-- `FreeSession`, before the guard takes `mStackMutex`. -/
  | freeLock (index : ℤ)
  /-- Before `mSessionIndexPool.push`. -/
  | freePush (index : ℤ)
  /-- Before the guard gives `mStackMutex` back. -/
  | freeUnlock
deriving DecidableEq, Repr

/-- A step of a thread: it calls `AddSession` or `DeleteSession`, or it goes on. -/
inductive LockedSlotStep (τ : Type) where
  | addSession (thread : τ) (clientFD : SocketFD)
  | deleteSession (thread : τ) (sessionID : SessionID)
  | run (thread : τ)
deriving DecidableEq, Repr

/-- A session group, its mutex and the threads that use it, with the records of `SlotRun`. -/
structure LockedSlots (τ : Type) where
  group : SessionGroup
  mStackMutex : Mutex τ
  sUniqueNumber : BitVec 64
  pc : τ → LockedSlotPC
  held : List ℤ
  live : List SessionID
  deleted : List Bool

namespace LockedSlots

open SessionGroup

variable {τ : Type}

section Machine

variable [DecidableEq τ]

/-- The thread `t` goes on at `pc`. -/
def goto (s : LockedSlots τ) (t : τ) (pc : LockedSlotPC) : LockedSlots τ :=
  { s with pc := Function.update s.pc t pc }

/-- The group with another stack of free indices. -/
def withPool (s : LockedSlots τ) (pool : List ℤ) : LockedSlots τ :=
  { s with group := { s.group with mSessionIndexPool := pool } }

/-- A thread goes on. -/
def run (s : LockedSlots τ) (t : τ) : Option (LockedSlots τ) :=
  match s.pc t with
  | .idle => none
  | .allocLock clientFD => do
    let m ← s.mStackMutex.lock t
    return { s with mStackMutex := m }.goto t (.allocEmpty clientFD)
  | .allocEmpty clientFD =>
    some (s.goto t (if s.group.mSessionIndexPool.isEmpty then .allocUnlock clientFD sINVALID_ID
      else .allocTop clientFD))
  -- `top` and `pop` of an empty stack have no defined behaviour
  | .allocTop clientFD =>
    match s.group.mSessionIndexPool with
    | [] => none
    | index :: _ => some (s.goto t (.allocPop clientFD index))
  | .allocPop clientFD index =>
    match s.group.mSessionIndexPool with
    | [] => none
    | _ :: pool =>
      some ({ s.withPool pool with
        held := if index = sINVALID_ID then s.held else index :: s.held }.goto t
          (.allocUnlock clientFD index))
  | .allocUnlock clientFD index =>
    some ({ s with mStackMutex := s.mStackMutex.unlock }.goto t (.number clientFD index))
  | .number clientFD index =>
    some ({ s with sUniqueNumber := s.sUniqueNumber + 1 }.goto t
      (.construct clientFD index (packID s.sUniqueNumber index)))
  | .construct clientFD index sessionID => do
    let group ← s.group.constructSession index sessionID clientFD
    return { s with group := group, live := sessionID :: s.live }.goto t .idle
  | .check sessionID => do
    let session ← s.group.slot (getIndex sessionID)
    if session.mSessionID ≠ sessionID then
      return { s with deleted := s.deleted ++ [false] }.goto t .idle
    return s.goto t (.freeLock (getIndex sessionID))
  | .freeLock index => do
    let m ← s.mStackMutex.lock t
    return { s with mStackMutex := m }.goto t (.freePush index)
  | .freePush index =>
    some ({ s.withPool (index :: s.group.mSessionIndexPool) with
      held := s.held.erase index
      deleted := s.deleted ++ [true] }.goto t .freeUnlock)
  | .freeUnlock => some ({ s with mStackMutex := s.mStackMutex.unlock }.goto t .idle)

/-- One step of a thread. -/
def step (s : LockedSlots τ) : LockedSlotStep τ → Option (LockedSlots τ)
  | .addSession t clientFD =>
    match s.pc t with
    | .idle => some (s.goto t (.allocLock clientFD))
    | _ => none
  | .deleteSession t sessionID =>
    match s.pc t with
    | .idle => some ({ s with live := s.live.erase sessionID }.goto t (.check sessionID))
    | _ => none
  | .run t => s.run t

/-- The machine of the calls on one group. -/
def machine (τ : Type) [DecidableEq τ] : StepMachine (LockedSlots τ) (LockedSlotStep τ) := ⟨step⟩

end Machine

/-- A group that has just been constructed, and threads that have made no call. -/
def start (memory : ℕ → Session) (maxSessions : ℕ) (uniqueNumber : BitVec 64) : LockedSlots τ where
  group := SessionGroup.construct memory maxSessions
  mStackMutex := Mutex.construct
  sUniqueNumber := uniqueNumber
  pc _ := .idle
  held := []
  live := []
  deleted := []

end LockedSlots

/-! ## What a state stands for -/

namespace LockedSlotPC

/-- `AllocSession` is done from `pop` on, or from `empty` on where the stack is empty, and
`FreeSession` from `push` on. -/
def atomic : LockedSlotPC → SlotPC
  | .idle | .allocLock _ | .allocEmpty _ | .allocTop _ | .allocPop _ _ => .idle
  | .allocUnlock clientFD index | .number clientFD index => .number clientFD index
  | .construct clientFD index sessionID => .construct clientFD index sessionID
  | .check sessionID => .check sessionID
  | .freeLock index | .freePush index => .free index
  | .freeUnlock => .idle

/-- The thread stands between `Lock` and `Unlock`. -/
def inside : LockedSlotPC → Bool
  | .allocEmpty _ | .allocTop _ | .allocPop _ _ | .allocUnlock _ _ => true
  | .freePush _ | .freeUnlock => true
  | _ => false

/-- What a thread in `AllocSession` has seen of the stack is so. -/
def Sees (pool : List ℤ) : LockedSlotPC → Prop
  | .allocTop _ => pool ≠ []
  | .allocPop _ index => pool.head? = some index
  | _ => True

lemma Sees.of_not_inside {pc : LockedSlotPC} (h : pc.inside = false) (pool : List ℤ) :
    pc.Sees pool := by
  cases pc with
  | allocTop clientFD => simp [inside] at h
  | allocPop clientFD index => simp [inside] at h
  | _ => trivial

end LockedSlotPC

namespace LockedSlots

open SessionGroup

variable {τ : Type}

/-- The group whose locked sections are one step each. -/
def atomic (s : LockedSlots τ) : SlotRun τ where
  group := s.group
  sUniqueNumber := s.sUniqueNumber
  pc t := (s.pc t).atomic
  held := s.held
  live := s.live
  deleted := s.deleted

/-- The steps with one-step sections that a step is seen as.  `AddSession` counts as called where
`AllocSession` is done. -/
def see (s : LockedSlots τ) : LockedSlotStep τ → List (SlotStep τ)
  | .addSession _ _ => []
  | .deleteSession t sessionID => [.deleteSession t sessionID]
  | .run t =>
    match s.pc t with
    | .allocEmpty clientFD =>
      if s.group.mSessionIndexPool.isEmpty then [.addSession t clientFD] else []
    | .allocPop clientFD _ => [.addSession t clientFD]
    | .number _ _ => [.number t]
    | .construct _ _ _ => [.construct t]
    | .check _ => [.check t]
    | .freePush _ => [.free t]
    | _ => []

/-- The mutex is held by the thread inside a section, and that thread has seen the stack as it
is. -/
structure Inv (s : LockedSlots τ) : Prop where
  guards : s.mStackMutex.Guards fun t => (s.pc t).inside
  sees : ∀ t, (s.pc t).Sees s.group.mSessionIndexPool

lemma inv_start (memory : ℕ → Session) (maxSessions : ℕ) (uniqueNumber : BitVec 64) :
    (start memory maxSessions uniqueNumber : LockedSlots τ).Inv where
  guards t := by simp [start, Mutex.construct, LockedSlotPC.inside]
  sees _ := trivial

variable [DecidableEq τ] {s s' : LockedSlots τ} {t : τ} {pc : LockedSlotPC}

/-- A thread goes on. -/
lemma Inv.move (hs : s.Inv) (hpc : s'.pc = Function.update s.pc t pc)
    (huses : Mutex.Uses s.mStackMutex s'.mStackMutex s.group.mSessionIndexPool
      s'.group.mSessionIndexPool (fun t => (s.pc t).inside) (fun t => (s'.pc t).inside) t)
    (hsees : pc.Sees s'.group.mSessionIndexPool) : s'.Inv := by
  have hother : ∀ t', t' ≠ t → s'.pc t' = s.pc t' := fun t' hne => by
    rw [hpc, Function.update_of_ne hne]
  refine ⟨hs.guards.uses huses fun t' hne => by rw [hother t' hne], fun t' => ?_⟩
  rcases eq_or_ne t' t with rfl | hne
  · rw [hpc, Function.update_self]
    exact hsees
  · rw [hother t' hne]
    by_cases hin : (s.pc t').inside = true
    · rw [huses.data_eq hs.guards (u := t') hin hne]
      exact hs.sees t'
    · exact .of_not_inside (Bool.eq_false_iff.2 hin) _

/-- The step from `s` to `s'` keeps the invariant, and is seen as `steps`. -/
def SeenAs (s s' : LockedSlots τ) (steps : List (SlotStep τ)) : Prop :=
  StepMachine.SeenAs (SlotRun.machine τ) Inv atomic s s' steps

@[simp] lemma goto_pc_self : (s.goto t pc).pc t = pc := Function.update_self ..

@[simp] lemma atomic_goto : (s.goto t pc).atomic = s.atomic.goto t pc.atomic := by
  simp only [atomic, goto, SlotRun.goto, SlotRun.mk.injEq, true_and, and_true]
  funext t'
  rw [Function.apply_update (fun _ => LockedSlotPC.atomic)]

omit [DecidableEq τ] in
lemma atomic_pc (h : s.pc t = pc) : s.atomic.pc t = pc.atomic := congrArg LockedSlotPC.atomic h

lemma slotStep {u : SlotRun τ} {a : SlotStep τ} : (SlotRun.machine τ).step u a = u.step a := rfl

/-- A thread that stays where it stood, for the group with one-step sections. -/
lemma Inv.unseen (hs' : s'.Inv) {pc' : LockedSlotPC} (hpc : s.pc t = pc)
    (hsame : s'.atomic = s.atomic.goto t pc'.atomic) (hatomic : pc'.atomic = pc.atomic) :
    s.SeenAs s' [] := by
  refine .nothing hs' ?_
  rw [hsame, hatomic, ← atomic_pc hpc]
  simp only [SlotRun.goto, Function.update_eq_self]

section Steps

attribute [local simp] LockedSlotPC.inside LockedSlotPC.atomic LockedSlotPC.Sees

/-! ## `AllocSession` -/

lemma Inv.allocLock (hs : s.Inv) {clientFD : SocketFD} (hpc : s.pc t = .allocLock clientFD)
    {m : Mutex τ} (hlock : s.mStackMutex.lock t = some m) :
    s.SeenAs ({ s with mStackMutex := m }.goto t (.allocEmpty clientFD)) [] := by
  refine Inv.unseen (hs.move rfl (.lock hlock rfl ?_) trivial) hpc atomic_goto rfl
  simp

lemma Inv.allocEmpty_nil (hs : s.Inv) {clientFD : SocketFD}
    (hpc : s.pc t = .allocEmpty clientFD) (hpool : s.group.mSessionIndexPool = []) :
    s.SeenAs (s.goto t (.allocUnlock clientFD sINVALID_ID)) [.addSession t clientFD] := by
  have ht := atomic_pc hpc
  have halloc : s.atomic.group.allocSession = (sINVALID_ID, s.group) :=
    allocSession_eq_nil hpool
  refine .one (hs.move rfl (.nothing rfl rfl ?_) trivial) ?_
  · simp [hpc]
  · rw [atomic_goto]
    simp only [slotStep, SlotRun.step, ht, LockedSlotPC.atomic, halloc, if_true]
    rfl

lemma Inv.allocEmpty_cons (hs : s.Inv) {clientFD : SocketFD}
    (hpc : s.pc t = .allocEmpty clientFD) (hpool : s.group.mSessionIndexPool ≠ []) :
    s.SeenAs (s.goto t (.allocTop clientFD)) [] := by
  refine Inv.unseen (hs.move rfl (.nothing rfl rfl ?_) hpool) hpc atomic_goto rfl
  simp [hpc]

lemma Inv.allocTop (hs : s.Inv) {clientFD : SocketFD} (hpc : s.pc t = .allocTop clientFD)
    {index : ℤ} {pool : List ℤ} (hpool : s.group.mSessionIndexPool = index :: pool) :
    s.SeenAs (s.goto t (.allocPop clientFD index)) [] := by
  refine Inv.unseen (hs.move rfl (.nothing rfl rfl ?_) ?_) hpc atomic_goto rfl
  · simp [hpc]
  · exact congrArg List.head? hpool

lemma Inv.allocPop (hs : s.Inv) {clientFD : SocketFD} {index index' : ℤ}
    (hpc : s.pc t = .allocPop clientFD index) {pool : List ℤ}
    (hpool : s.group.mSessionIndexPool = index' :: pool) :
    s.SeenAs ({ s.withPool pool with
      held := if index = sINVALID_ID then s.held else index :: s.held }.goto t
        (.allocUnlock clientFD index)) [.addSession t clientFD] := by
  have ht := atomic_pc hpc
  -- the index on top is still the one that `top` has returned
  have hsees := hs.sees t
  rw [hpc] at hsees
  obtain rfl : index' = index := by simpa [hpool] using hsees
  have halloc : s.atomic.group.allocSession =
      (index', { s.group with mSessionIndexPool := pool }) := allocSession_eq hpool
  refine .one (hs.move rfl (.access rfl ?_ ?_) trivial) ?_
  · simp [hpc]
  · simp
  · rw [atomic_goto]
    simp only [slotStep, SlotRun.step, ht, LockedSlotPC.atomic, halloc]
    rfl

lemma Inv.allocUnlock (hs : s.Inv) {clientFD : SocketFD} {index : ℤ}
    (hpc : s.pc t = .allocUnlock clientFD index) :
    s.SeenAs ({ s with mStackMutex := s.mStackMutex.unlock }.goto t (.number clientFD index))
      [] := by
  refine Inv.unseen (hs.move rfl (.unlock rfl rfl ?_ ?_) trivial) hpc atomic_goto rfl
  · simp [hpc]
  · simp

/-! ## `FreeSession` -/

lemma Inv.freeLock (hs : s.Inv) {index : ℤ} (hpc : s.pc t = .freeLock index) {m : Mutex τ}
    (hlock : s.mStackMutex.lock t = some m) :
    s.SeenAs ({ s with mStackMutex := m }.goto t (.freePush index)) [] := by
  refine Inv.unseen (hs.move rfl (.lock hlock rfl ?_) trivial) hpc atomic_goto rfl
  simp

lemma Inv.freePush (hs : s.Inv) {index : ℤ} (hpc : s.pc t = .freePush index) :
    s.SeenAs ({ s.withPool (index :: s.group.mSessionIndexPool) with
      held := s.held.erase index
      deleted := s.deleted ++ [true] }.goto t .freeUnlock) [.free t] := by
  have ht := atomic_pc hpc
  refine .one (hs.move rfl (.access rfl ?_ ?_) trivial) ?_
  · simp [hpc]
  · simp
  · rw [atomic_goto]
    simp only [slotStep, SlotRun.step, ht]
    rfl

lemma Inv.freeUnlock (hs : s.Inv) (hpc : s.pc t = .freeUnlock) :
    s.SeenAs ({ s with mStackMutex := s.mStackMutex.unlock }.goto t .idle) [] := by
  refine Inv.unseen (hs.move rfl (.unlock rfl rfl ?_ ?_) trivial) hpc atomic_goto rfl
  · simp [hpc]
  · simp

/-! ## The steps without the lock -/

lemma Inv.number (hs : s.Inv) {clientFD : SocketFD} {index : ℤ}
    (hpc : s.pc t = .number clientFD index) :
    s.SeenAs ({ s with sUniqueNumber := s.sUniqueNumber + 1 }.goto t
      (.construct clientFD index (packID s.sUniqueNumber index))) [.number t] := by
  have ht := atomic_pc hpc
  refine .one (hs.move rfl (.nothing rfl rfl ?_) trivial) ?_
  · simp [hpc]
  · rw [atomic_goto]
    simp only [slotStep, SlotRun.step, ht]
    rfl

lemma Inv.construct (hs : s.Inv) {clientFD : SocketFD} {index : ℤ} {sessionID : SessionID}
    (hpc : s.pc t = .construct clientFD index sessionID) {group : SessionGroup}
    (hgroup : s.group.constructSession index sessionID clientFD = some group) :
    s.SeenAs ({ s with group := group, live := sessionID :: s.live }.goto t .idle)
      [.construct t] := by
  have ht := atomic_pc hpc
  obtain ⟨-, -, rfl⟩ := constructSession_eq_some hgroup
  refine .one (hs.move rfl (.nothing rfl rfl ?_) trivial) ?_
  · simp [hpc]
  · have hgroup' : s.atomic.group.constructSession index sessionID clientFD = _ := hgroup
    rw [atomic_goto]
    simp only [slotStep, SlotRun.step, ht, LockedSlotPC.atomic, hgroup', Option.bind_eq_bind,
      Option.bind_some]
    rfl

lemma Inv.check (hs : s.Inv) {sessionID : SessionID} (hpc : s.pc t = .check sessionID)
    {session : Session} (hslot : s.group.slot (getIndex sessionID) = some session) :
    s.SeenAs (if session.mSessionID ≠ sessionID then
        { s with deleted := s.deleted ++ [false] }.goto t .idle
      else s.goto t (.freeLock (getIndex sessionID))) [.check t] := by
  have ht := atomic_pc hpc
  have hslot' : s.atomic.group.slot (getIndex sessionID) = some session := hslot
  by_cases hid : session.mSessionID ≠ sessionID
  · rw [if_pos hid]
    refine .one (hs.move rfl (.nothing rfl rfl ?_) trivial) ?_
    · simp [hpc]
    · rw [atomic_goto]
      simp only [slotStep, SlotRun.step, ht, LockedSlotPC.atomic, hslot', Option.bind_eq_bind,
        Option.bind_some, if_pos hid]
      rfl
  · rw [if_neg hid]
    refine .one (hs.move rfl (.nothing rfl rfl ?_) trivial) ?_
    · simp [hpc]
    · rw [atomic_goto]
      simp only [slotStep, SlotRun.step, ht, LockedSlotPC.atomic, hslot', Option.bind_eq_bind,
        Option.bind_some, if_neg hid]
      rfl

/-- A thread goes on. -/
lemma Inv.run (hs : s.Inv) (h : s.run t = some s') : s.SeenAs s' (s.see (.run t)) := by
  simp only [LockedSlots.run] at h
  simp only [see]
  split at h <;> rename_i hpc <;> simp only [hpc]
  · cases h
  · obtain ⟨m, hlock, h⟩ := Option.bind_eq_some_iff.1 h
    exact Option.some.inj h ▸ hs.allocLock hpc hlock
  · cases hpool : s.group.mSessionIndexPool with
    | nil => exact Option.some.inj h ▸ by simpa [hpool] using hs.allocEmpty_nil hpc hpool
    | cons index pool =>
      exact Option.some.inj h ▸ by simpa [hpool] using hs.allocEmpty_cons hpc (by simp [hpool])
  · split at h
    · cases h
    · rename_i hpool
      exact Option.some.inj h ▸ hs.allocTop hpc hpool
  · split at h
    · cases h
    · rename_i hpool
      exact Option.some.inj h ▸ hs.allocPop hpc hpool
  · exact Option.some.inj h ▸ hs.allocUnlock hpc
  · exact Option.some.inj h ▸ hs.number hpc
  · obtain ⟨group, hgroup, h⟩ := Option.bind_eq_some_iff.1 h
    exact Option.some.inj h ▸ hs.construct hpc hgroup
  · obtain ⟨session, hslot, h⟩ := Option.bind_eq_some_iff.1 h
    have hcheck := hs.check hpc hslot
    split at h <;> rename_i hid
    · rw [if_pos hid] at hcheck
      exact Option.some.inj h ▸ hcheck
    · rw [if_neg hid] at hcheck
      exact Option.some.inj h ▸ hcheck
  · obtain ⟨m, hlock, h⟩ := Option.bind_eq_some_iff.1 h
    exact Option.some.inj h ▸ hs.freeLock hpc hlock
  · exact Option.some.inj h ▸ hs.freePush hpc
  · exact Option.some.inj h ▸ hs.freeUnlock hpc

/-- **One step** keeps the invariant, and is seen as the steps that `see` says. -/
theorem Inv.step (hs : s.Inv) {a : LockedSlotStep τ} (h : s.step a = some s') :
    s.SeenAs s' (s.see a) := by
  cases a with
  | addSession t clientFD =>
    simp only [LockedSlots.step] at h
    split at h
    · rename_i hpc
      obtain rfl := Option.some.inj h
      refine Inv.unseen (hs.move rfl (.nothing rfl rfl ?_) trivial) hpc atomic_goto rfl
      simp [hpc]
    · cases h
  | deleteSession t sessionID =>
    simp only [LockedSlots.step] at h
    split at h
    · rename_i hpc
      obtain rfl := Option.some.inj h
      have ht := atomic_pc hpc
      refine .one (hs.move rfl (.nothing rfl rfl ?_) trivial) ?_
      · simp [hpc]
      · rw [atomic_goto]
        simp only [slotStep, SlotRun.step, ht]
        rfl
    · cases h
  | run t => exact hs.run h

end Steps

/-- The group with its mutex refines the group with one-step sections. -/
lemma refines : (machine τ).Refines (SlotRun.machine τ) Inv atomic see where
  keeps hs h := (hs.step h).1
  simulates hs h := (hs.step h).2

/-- The callers keep to the rules of `SlotRun.Disciplined`. -/
def Disciplined (s : LockedSlots τ) (a : LockedSlotStep τ) : Prop :=
  ∀ b ∈ s.see a, s.atomic.Disciplined b

instance (s : LockedSlots τ) (a : LockedSlotStep τ) : Decidable (s.Disciplined a) :=
  inferInstanceAs (Decidable (∀ b ∈ s.see a, s.atomic.Disciplined b))

omit s s' t pc in
lemma along_see {s : LockedSlots τ} {a : LockedSlotStep τ} (h : s.Disciplined a) :
    (SlotRun.machine τ).Along SlotRun.Disciplined s.atomic (s.see a) := by
  have hone : ∀ b, s.see a = [b] →
      (SlotRun.machine τ).Along SlotRun.Disciplined s.atomic (s.see a) := fun b hb => by
    rw [hb]
    exact ⟨h b (by simp [hb]), fun _ _ => trivial⟩
  have hsee : s.see a = [] ∨ ∃ b, s.see a = [b] := by
    cases a with
    | addSession t clientFD => exact .inl rfl
    | deleteSession t sessionID => exact .inr ⟨_, rfl⟩
    | run t =>
      simp only [see]
      split
      · split
        · exact .inr ⟨_, rfl⟩
        · exact .inl rfl
      all_goals first | exact .inl rfl | exact .inr ⟨_, rfl⟩
  rcases hsee with hnil | ⟨b, hb⟩
  · rw [hnil]
    trivial
  · exact hone b hb

end LockedSlots

open LockedSlots

/-- **The sections of the session group are atomic.**  However the steps of the threads are
interleaved, at most one thread is inside `AllocSession` or `FreeSession`; a run is seen as a run
with one-step sections; and as long as the callers keep to the rules every slot has one owner. -/
theorem sessionGroup_sections_atomic {τ : Type} [DecidableEq τ] (memory : ℕ → Session)
    {maxSessions : ℕ} (hmax : maxSessions < 65535) (uniqueNumber : BitVec 64)
    {as : List (LockedSlotStep τ)} {s : LockedSlots τ}
    (hrun : (LockedSlots.machine τ).exec (start memory maxSessions uniqueNumber) as = some s) :
    (∀ t t', (s.pc t).inside = true → (s.pc t').inside = true → t = t') ∧
    (SlotRun.machine τ).exec (SlotRun.start memory maxSessions uniqueNumber)
        ((LockedSlots.machine τ).seen see (start memory maxSessions uniqueNumber) as) =
      some s.atomic ∧
    ((LockedSlots.machine τ).Along Disciplined (start memory maxSessions uniqueNumber) as →
      s.atomic.SlotsOwned memory maxSessions) := by
  have h₀ := LockedSlots.inv_start (τ := τ) memory maxSessions uniqueNumber
  have hseen := LockedSlots.refines.exec h₀ hrun
  refine ⟨fun _ _ => (LockedSlots.refines.invariant h₀ hrun).guards.unique, hseen, fun hrules => ?_⟩
  have halong := LockedSlots.refines.along (fun _ _ _ h => along_see h) h₀ hrules
  have hs : s.atomic.Inv maxSessions :=
    StepMachine.exec_invariant_along (M := SlotRun.machine τ)
      (fun _ _ _ hs ha h => hs.step (by omega) ha h) SlotRun.inv_start halong hseen
  exact hs.slotsOwned memory

/-- Two threads add a session each, and one of them is deleted: a thread that waits for the mutex
goes on when the other has left. -/
def lockedSlotsRun : List (LockedSlotStep Bool) :=
  [.addSession false 5, .addSession true 6, .run false, .run false, .run false, .run false,
    .run false, .run true, .run true, .run false, .run true, .run true, .run true, .run true,
    .run true, .run false, .deleteSession true 0x1000000000001, .run true, .run true, .run true,
    .run true]

theorem sessionGroup_sections_atomic_lockedSlotsRun : ∃ s,
    (LockedSlots.machine Bool).exec (start (fun _ => Session.zeroMemory) 2 0) lockedSlotsRun =
        some s ∧
      s.live = [0] ∧ s.deleted = [true] ∧
      s.atomic.SlotsOwned (fun _ => Session.zeroMemory) 2 :=
  StepMachine.exists_exec_and (fun s => s.live = [0] ∧ s.deleted = [true])
    (by decide +kernel) fun _ hrun ⟨hlive, hdeleted⟩ =>
      ⟨hlive, hdeleted, (sessionGroup_sections_atomic _ (by decide) 0 hrun).2.2 (by decide +kernel)⟩

end CoreServer
