import CoreServer.Network.Session
import CoreServer.Lib.SlotPool

/-!
# `SessionGroup`

`Network/SessionGroup.cpp`: the table of sessions, the stack of free indices and the packing
of an index and a running number into a `SessionID`.  The pointer to the server, which never
changes, is left out.

A pointer to a slot is the index of the slot.  A method that would read or write a slot
outside the table is `none`.
-/

namespace CoreServer

/-- `const Int64 sSessionUnqueMask = 0xFFFFFFFFFFFF0000`. -/
def sSessionUnqueMask : BitVec 64 := 0xFFFFFFFFFFFF0000

/-- `const Int64 sSessionIndexMask = 0x000000000000FFFF`. -/
def sSessionIndexMask : BitVec 64 := 0x000000000000FFFF

/-- `GetIndex`. -/
def getIndex (sessionID : SessionID) : ℤ := toInt32 (sessionID &&& sSessionIndexMask).toInt

/-- `GetUniqueNumber`.  The type is signed, so the shift repeats the highest bit. -/
def getUniqueNumber (sessionID : SessionID) : ℤ :=
  ((sessionID &&& sSessionUnqueMask).sshiftRight 48).toInt

/-- The `SessionID` that `AddSession` makes of a running number and an index. -/
def packID (uniqueNumber : BitVec 64) (index : ℤ) : SessionID :=
  (uniqueNumber <<< 48) ||| BitVec.ofInt 64 index

/-- The members of `SessionGroup`; the top of the stack `mSessionIndexPool` comes first. -/
structure SessionGroup where
  mMaxSession : ℕ
  mSessionVector : ℕ → Session
  mSessionIndexPool : List ℤ

namespace SessionGroup

/-- The loop of the constructor, from `index` down to zero. -/
def pushIndices : ℕ → List ℤ → List ℤ
  | 0, pool => 0 :: pool
  | index + 1, pool => pushIndices index ((index + 1 : ℕ) :: pool)

/-- `SessionGroup::SessionGroup`, with what the memory of the slots holds. -/
def construct (memory : ℕ → Session) (maxSessions : ℕ) : SessionGroup where
  mMaxSession := maxSessions
  mSessionVector i := (memory i).constructDefault
  mSessionIndexPool := pushIndices maxSessions []

/-- The session at `&mSessionVector[index]`. -/
def slot (g : SessionGroup) (index : ℤ) : Option Session :=
  if 0 ≤ index ∧ index < g.mMaxSession then some (g.mSessionVector index.toNat) else none

/-- `AllocSession`: the returned index and the group afterwards. -/
def allocSession (g : SessionGroup) : ℤ × SessionGroup :=
  match g.mSessionIndexPool with
  | [] => (sINVALID_ID, g)
  | index :: pool => (index, { g with mSessionIndexPool := pool })

/-- `FreeSession`. -/
def freeSession (g : SessionGroup) (index : ℤ) : SessionGroup :=
  { g with mSessionIndexPool := index :: g.mSessionIndexPool }

/-- `new (&mSessionVector[index]) Session(mServer, sessionID, clientFD)`. -/
def constructSession (g : SessionGroup) (index : ℤ) (sessionID : SessionID)
    (clientFD : SocketFD) : Option SessionGroup := do
  let memory ← g.slot index
  return { g with mSessionVector :=
    Function.update g.mSessionVector index.toNat (memory.construct sessionID clientFD) }

/-- `AddSession`, executed without interruption while `sUniqueNumber` is `uniqueNumber`: the
returned ID and the group afterwards. -/
def addSession (g : SessionGroup) (uniqueNumber : BitVec 64) (clientFD : SocketFD) :
    Option (SessionID × SessionGroup) := do
  let (index, g) := g.allocSession
  let sessionID := packID uniqueNumber index
  let g ← g.constructSession index sessionID clientFD
  return (sessionID, g)

/-- `DeleteSession`, executed without interruption: the returned flag and the group
afterwards. -/
def deleteSession (g : SessionGroup) (sessionID : SessionID) : Option (Bool × SessionGroup) := do
  let index := getIndex sessionID
  let session ← g.slot index
  if session.mSessionID ≠ sessionID then return (false, g)
  return (true, g.freeSession index)

/-- `GetSession`: the slot that the returned pointer points at, or `none` for the null
pointer. -/
def getSession (g : SessionGroup) (sessionID : SessionID) : Option (Option ℤ) := do
  let index := getIndex sessionID
  let session ← g.slot index
  if session.mSessionID ≠ sessionID then return none
  return some index

/-- The indices of the table and the one past its end. -/
def indices (maxSessions : ℕ) : List ℤ := (List.range (maxSessions + 1)).map Nat.cast

end SessionGroup

/-! ## The packing of an index -/

lemma getIndex_eq (sessionID : SessionID) :
    getIndex sessionID = ((sessionID.toNat % 65536 : ℕ) : ℤ) := by
  have hmask : (sessionID &&& sSessionIndexMask).toNat = sessionID.toNat % 65536 := by
    rw [BitVec.toNat_and]
    exact Nat.and_two_pow_sub_one_eq_mod _ 16
  have hlt : sessionID.toNat % 65536 < 65536 := Nat.mod_lt _ (by omega)
  rw [getIndex, BitVec.toInt_eq_toNat_of_lt (by omega), hmask, toInt32,
    Int.bmod_eq_of_le (by omega) (by omega)]

lemma getIndex_nonneg (sessionID : SessionID) : 0 ≤ getIndex sessionID := by
  rw [getIndex_eq]
  exact Int.natCast_nonneg _

/-- The index that is packed into an ID is the index that `GetIndex` takes out of it. -/
lemma getIndex_packID (uniqueNumber : BitVec 64) {index : ℤ} (h : 0 ≤ index)
    (hlt : index < 65536) : getIndex (packID uniqueNumber index) = index := by
  lift index to ℕ using h
  have hlow : (uniqueNumber <<< 48).toNat % 65536 = 0 := by
    rw [BitVec.toNat_shiftLeft, Nat.shiftLeft_eq, Nat.mod_mod_of_dvd _ (by decide)]
    omega
  have hindex : (BitVec.ofInt 64 index).toNat % 65536 = index := by
    rw [BitVec.ofInt_natCast, BitVec.toNat_ofNat, Nat.mod_mod_of_dvd _ (by decide)]
    exact Nat.mod_eq_of_lt (by omega)
  have hor := Nat.or_mod_two_pow (a := (uniqueNumber <<< 48).toNat)
    (b := (BitVec.ofInt 64 index).toNat) (n := 16)
  rw [show (2 : ℕ) ^ 16 = 65536 from rfl, hlow, hindex, Nat.zero_or] at hor
  rw [getIndex_eq, packID, BitVec.toNat_or, hor]

/-- The mask keeps bits that the shift throws away, and the index is among those it clears. -/
lemma getUniqueNumber_eq (sessionID : SessionID) :
    getUniqueNumber sessionID = sessionID.toInt / 2 ^ 48 := by
  have hmask : (sessionID &&& sSessionUnqueMask).sshiftRight 48 = sessionID.sshiftRight 48 := by
    have hones : sSessionUnqueMask.sshiftRight 48 = BitVec.allOnes 64 := by decide
    rw [BitVec.sshiftRight_and_distrib, hones, BitVec.and_allOnes]
  rw [getUniqueNumber, hmask, BitVec.toInt_sshiftRight, Int.shiftRight_eq_div_pow]
  rfl

namespace SessionGroup

/-! ## The methods -/

variable {g g' : SessionGroup}

lemma pushIndices_eq (n : ℕ) (pool : List ℤ) : pushIndices n pool = indices n ++ pool := by
  induction n generalizing pool with
  | zero => rfl
  | succ n ih =>
    rw [pushIndices, ih, indices, indices, List.range_succ (n := n + 1), List.map_append]
    simp

@[simp] lemma mSessionIndexPool_construct (memory : ℕ → Session) (maxSessions : ℕ) :
    (construct memory maxSessions).mSessionIndexPool = indices maxSessions := by
  rw [construct, pushIndices_eq, List.append_nil]

lemma nodup_indices (maxSessions : ℕ) : (indices maxSessions).Nodup :=
  List.nodup_range.map Nat.cast_injective

lemma mem_indices {maxSessions : ℕ} {i : ℤ} :
    i ∈ indices maxSessions ↔ 0 ≤ i ∧ i ≤ maxSessions := by
  rw [indices, List.mem_map]
  constructor
  · rintro ⟨n, hn, rfl⟩
    rw [List.mem_range] at hn
    omega
  · rintro ⟨h, hle⟩
    exact ⟨i.toNat, List.mem_range.2 (by omega), Int.toNat_of_nonneg h⟩

lemma slot_eq_some {index : ℤ} (h : 0 ≤ index) (hlt : index < g.mMaxSession) :
    g.slot index = some (g.mSessionVector index.toNat) := if_pos ⟨h, hlt⟩

lemma slot_eq_none {index : ℤ} (h : ¬ (0 ≤ index ∧ index < g.mMaxSession)) :
    g.slot index = none := if_neg h

/-- A slot that can be read is in the table. -/
lemma of_slot_eq_some {index : ℤ} {session : Session} (h : g.slot index = some session) :
    (0 ≤ index ∧ index < g.mMaxSession) ∧ session = g.mSessionVector index.toNat := by
  obtain ⟨hin, hsession⟩ := Option.ite_none_right_eq_some.1 h
  exact ⟨hin, (Option.some.inj hsession).symm⟩

/-- The group after a session has been constructed in the slot `index`. -/
def stamp (g : SessionGroup) (index : ℤ) (sessionID : SessionID) (clientFD : SocketFD) :
    SessionGroup :=
  { g with
    mSessionVector := Function.update g.mSessionVector index.toNat
      ((g.mSessionVector index.toNat).construct sessionID clientFD) }

@[simp] lemma mMaxSession_stamp (index : ℤ) (sessionID : SessionID) (clientFD : SocketFD) :
    (g.stamp index sessionID clientFD).mMaxSession = g.mMaxSession := rfl

@[simp] lemma mSessionIndexPool_stamp (index : ℤ) (sessionID : SessionID) (clientFD : SocketFD) :
    (g.stamp index sessionID clientFD).mSessionIndexPool = g.mSessionIndexPool := rfl

/-- The ID in a slot after a session has been constructed. -/
lemma mSessionID_stamp {index i : ℤ} (h : 0 ≤ index) (hi : 0 ≤ i) (sessionID : SessionID)
    (clientFD : SocketFD) :
    ((g.stamp index sessionID clientFD).mSessionVector i.toNat).mSessionID =
      if i = index then sessionID else (g.mSessionVector i.toNat).mSessionID := by
  simp only [stamp, Function.update_apply, show i.toNat = index.toNat ↔ i = index by omega]
  split <;> rfl

lemma constructSession_eq {index : ℤ} (h : 0 ≤ index) (hlt : index < g.mMaxSession)
    (sessionID : SessionID) (clientFD : SocketFD) :
    g.constructSession index sessionID clientFD = some (g.stamp index sessionID clientFD) := by
  rw [constructSession, slot_eq_some h hlt]
  rfl

lemma allocSession_eq {index : ℤ} {pool : List ℤ} (h : g.mSessionIndexPool = index :: pool) :
    g.allocSession = (index, { g with mSessionIndexPool := pool }) := by
  rw [allocSession, h]

lemma allocSession_eq_nil (h : g.mSessionIndexPool = []) : g.allocSession = (sINVALID_ID, g) := by
  rw [allocSession, h]

/-- `GetSession` finds a session in the slot that the ID names, if the ID is the one in that
slot. -/
lemma getSession_eq {sessionID : SessionID} (hlt : getIndex sessionID < g.mMaxSession) :
    g.getSession sessionID =
      some (if (g.mSessionVector (getIndex sessionID).toNat).mSessionID = sessionID
        then some (getIndex sessionID) else none) := by
  rw [getSession, slot_eq_some (getIndex_nonneg _) hlt]
  simp only [Option.bind_eq_bind, Option.bind_some, ne_eq, ite_not]
  split <;> rfl

lemma getSession_eq_none {sessionID : SessionID} (hge : g.mMaxSession ≤ getIndex sessionID) :
    g.getSession sessionID = none := by
  rw [getSession, slot_eq_none (by omega)]
  rfl

/-- `DeleteSession` frees the slot that the ID names, if the ID is the one in that slot. -/
lemma deleteSession_eq {sessionID : SessionID} (hlt : getIndex sessionID < g.mMaxSession) :
    g.deleteSession sessionID =
      some (if (g.mSessionVector (getIndex sessionID).toNat).mSessionID = sessionID
        then (true, g.freeSession (getIndex sessionID)) else (false, g)) := by
  rw [deleteSession, slot_eq_some (getIndex_nonneg _) hlt]
  simp only [Option.bind_eq_bind, Option.bind_some, ne_eq, ite_not]
  split <;> rfl

lemma deleteSession_eq_none {sessionID : SessionID} (hge : g.mMaxSession ≤ getIndex sessionID) :
    g.deleteSession sessionID = none := by
  rw [deleteSession, slot_eq_none (by omega)]
  rfl

@[simp] lemma mSessionVector_allocSession (g : SessionGroup) :
    g.allocSession.2.mSessionVector = g.mSessionVector := by
  unfold allocSession
  split <;> rfl

/-- A session that has been constructed has been constructed inside the table. -/
lemma constructSession_eq_some {index : ℤ} {sessionID : SessionID} {clientFD : SocketFD}
    (h : g.constructSession index sessionID clientFD = some g') :
    (0 ≤ index ∧ index < g.mMaxSession) ∧ g' = g.stamp index sessionID clientFD := by
  obtain ⟨memory, hslot, h⟩ := Option.bind_eq_some_iff.1 h
  obtain ⟨hin, rfl⟩ := of_slot_eq_some hslot
  exact ⟨hin, (Option.some.inj h).symm⟩

/-- What an `AddSession` that stays inside the table does. -/
lemma addSession_eq_some {uniqueNumber : BitVec 64} {clientFD : SocketFD} {sessionID : SessionID}
    (h : g.addSession uniqueNumber clientFD = some (sessionID, g')) :
    sessionID = packID uniqueNumber g.allocSession.1 ∧
      g' = g.allocSession.2.stamp g.allocSession.1 sessionID clientFD := by
  rw [addSession] at h
  generalize g.allocSession = alloc at h ⊢
  obtain ⟨index, g₁⟩ := alloc
  obtain ⟨g₂, hconstruct, h⟩ := Option.bind_eq_some_iff.1 h
  obtain ⟨rfl, rfl⟩ := Prod.mk.inj (Option.some.inj h)
  exact ⟨rfl, (constructSession_eq_some hconstruct).2⟩

/-- `AddSession` with an index of the table on the top of the stack. -/
lemma addSession_eq {index : ℤ} {pool : List ℤ} (hpool : g.mSessionIndexPool = index :: pool)
    (h : 0 ≤ index) (hlt : index < g.mMaxSession) (uniqueNumber : BitVec 64)
    (clientFD : SocketFD) :
    g.addSession uniqueNumber clientFD =
      some (packID uniqueNumber index,
        { g with mSessionIndexPool := pool }.stamp index (packID uniqueNumber index) clientFD) := by
  rw [addSession, allocSession_eq hpool]
  simp only [constructSession_eq (g := { g with mSessionIndexPool := pool }) h hlt]
  rfl

/-- `AddSession` with any other index on the top writes outside the table. -/
lemma addSession_eq_none {index : ℤ} {pool : List ℤ}
    (hpool : g.mSessionIndexPool = index :: pool) (h : ¬ (0 ≤ index ∧ index < g.mMaxSession))
    (uniqueNumber : BitVec 64) (clientFD : SocketFD) :
    g.addSession uniqueNumber clientFD = none := by
  rw [addSession, allocSession_eq hpool]
  simp only [constructSession, slot_eq_none (g := { g with mSessionIndexPool := pool }) h]
  rfl

end SessionGroup

end CoreServer
