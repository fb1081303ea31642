import CoreServer.Network.SessionHistory

/-!
# How long a `SessionID` is new

`AddSession` shifts the running number by 48 bits, which leaves its lowest 16, and puts the index
of the slot below them.  Two sessions have the same ID exactly if they were constructed in the
same slot and a multiple of `2 ^ 16` calls lies between them.  `GetIndex` takes the index out
again; `GetUniqueNumber` takes the 16 bits out as a signed number.
-/

namespace CoreServer

/-- The number and the index next to each other. -/
lemma toNat_packID (uniqueNumber : BitVec 64) {index : ℤ} (h : 0 ≤ index) (hlt : index < 65536) :
    (packID uniqueNumber index).toNat = uniqueNumber.toNat % 65536 * 2 ^ 48 + index.toNat := by
  lift index to ℕ using h
  have hindex : (BitVec.ofInt 64 index).toNat = index := by
    rw [BitVec.ofInt_natCast, BitVec.toNat_ofNat, Nat.mod_eq_of_lt (by omega)]
  have hnumber : uniqueNumber.toNat * 2 ^ 48 % 2 ^ 64 = uniqueNumber.toNat % 65536 * 2 ^ 48 := by
    omega
  rw [packID, BitVec.toNat_or, BitVec.toNat_shiftLeft, hindex, Nat.shiftLeft_eq, hnumber,
    ← Nat.shiftLeft_eq, ← Nat.shiftLeft_add_eq_or_of_lt (by omega), Int.toNat_natCast]

/-- An ID tells the index and the lowest 16 bits of the number. -/
lemma packID_inj {u v : BitVec 64} {i j : ℤ} (hi : 0 ≤ i) (hi' : i < 65536) (hj : 0 ≤ j)
    (hj' : j < 65536) :
    packID u i = packID v j ↔ u.toNat % 65536 = v.toNat % 65536 ∧ i = j := by
  rw [← BitVec.toNat_inj, toNat_packID u hi hi', toNat_packID v hj hj']
  omega

/-- What `GetUniqueNumber` takes out of an ID is the lowest 16 bits of the number, as a signed
number. -/
lemma getUniqueNumber_packID (uniqueNumber : BitVec 64) {index : ℤ} (h : 0 ≤ index)
    (hlt : index < 65536) :
    getUniqueNumber (packID uniqueNumber index) = uniqueNumber.toInt.bmod (2 ^ 16) := by
  have hpack := toNat_packID uniqueNumber h hlt
  lift index to ℕ using h
  rw [Int.toNat_natCast] at hpack
  have hnumber : uniqueNumber.toInt.bmod (2 ^ 16) = (uniqueNumber.toNat : ℤ).bmod (2 ^ 16) := by
    rw [BitVec.toInt_eq_toNat_bmod, Int.bmod_bmod_of_dvd (by decide)]
  have hmod : (uniqueNumber.toNat : ℤ) % 65536 = (uniqueNumber.toNat % 65536 : ℕ) := by simp
  have hm : uniqueNumber.toNat % 65536 < 65536 := Nat.mod_lt _ (by decide)
  rw [getUniqueNumber_eq, hnumber, BitVec.toInt_eq_toNat_cond, hpack, Int.bmod_def,
    show ((2 ^ 16 : ℕ) : ℤ) = 65536 from rfl, hmod]
  -- Below the top bit of the 16 the ID is positive, from it on the ID is negative.
  generalize uniqueNumber.toNat % 65536 = m at hm
  split_ifs <;> omega

/-- **Packing and unpacking.**  `GetIndex` gives the index back.  `GetUniqueNumber` gives the number
modulo `2 ^ 16` back exactly if the highest of these 16 bits is zero. -/
theorem packID_roundTrip_iff (uniqueNumber : BitVec 64) {index : ℤ} (h : 0 ≤ index)
    (hle : index ≤ 65535) :
    getIndex (packID uniqueNumber index) = index ∧
        getUniqueNumber (packID uniqueNumber index) = uniqueNumber.toInt % 2 ^ 16 ↔
      uniqueNumber.toInt % 2 ^ 16 < 2 ^ 15 := by
  have hlt : index < 65536 := by omega
  have hnonneg : 0 ≤ uniqueNumber.toInt % 2 ^ 16 := Int.emod_nonneg _ (by decide)
  rw [getIndex_packID _ h hlt, getUniqueNumber_packID _ h hlt, Int.bmod_def]
  push_cast
  split_ifs <;> omega

/-- The last number that comes back, in the last index. -/
theorem packID_roundTrip_highest :
    getIndex (packID 32767 65535) = 65535 ∧ getUniqueNumber (packID 32767 65535) = 32767 :=
  (packID_roundTrip_iff 32767 (by decide) (by decide)).2 (by decide)

/-- The number 32768 comes back as -32768. -/
theorem packID_not_roundTrip :
    ¬ ∀ (uniqueNumber : BitVec 64) (index : ℤ), 0 ≤ uniqueNumber.toInt → 0 ≤ index →
      index ≤ 65535 → getIndex (packID uniqueNumber index) = index ∧
        getUniqueNumber (packID uniqueNumber index) = uniqueNumber.toInt % 2 ^ 16 := by
  intro h
  have hbad := (h 32768 0 (by decide) le_rfl (by decide)).2
  revert hbad
  decide

namespace GroupRun

variable {memory : ℕ → Session} {maxSessions : ℕ} {s s' : GroupRun} {u : BitVec 64}

/-- No two `AddSession`s have returned the same ID. -/
def NeverReused (s : GroupRun) : Prop := (s.added.map AddedSession.sessionID).Nodup

/-- `AddSession` does not construct a session in a slot in which the session added a multiple of
65536 calls before has been constructed. -/
def NumberNew (s : GroupRun) : GroupCall → Prop
  | .addSession clientFD => (s.step (.addSession clientFD)).isSome →
      ∀ p ∈ s.added.zipIdx 1, 65536 ∣ p.2 → p.1.slot ≠ s.group.allocSession.1
  | .deleteSession _ => True

instance (s : GroupRun) : ∀ c, Decidable (s.NumberNew c)
  | .addSession _ => inferInstanceAs (Decidable (_ → ∀ _ ∈ _, _))
  | .deleteSession _ => inferInstanceAs (Decidable True)

/-- The session added `k` calls before has the number that `sUniqueNumber` had then. -/
structure Numbered (memory : ℕ → Session) (maxSessions : ℕ) (s : GroupRun) : Prop where
  inv : s.Inv memory maxSessions
  number : ∀ p ∈ s.added.zipIdx 1,
    p.1.sessionID = packID (s.sUniqueNumber - BitVec.ofNat 64 p.2) p.1.slot

lemma numbered_start (uniqueNumber : BitVec 64) :
    (start memory maxSessions uniqueNumber).Numbered memory maxSessions where
  inv := inv_start uniqueNumber
  number _ hp := absurd hp List.not_mem_nil

/-- The numbers that are a multiple of 65536 calls apart have the same lowest bits. -/
lemma sub_mod_eq_iff (u : BitVec 64) (k : ℕ) :
    (u - BitVec.ofNat 64 k).toNat % 65536 = u.toNat % 65536 ↔ 65536 ∣ k := by
  rw [BitVec.toNat_sub, BitVec.toNat_ofNat]
  omega

/-- A call later, and a call further back. -/
lemma add_one_sub_ofNat (u : BitVec 64) (k : ℕ) :
    u + 1 - BitVec.ofNat 64 (k + 1) = u - BitVec.ofNat 64 k := by
  have hone : (1 : BitVec 64).toNat = 1 := rfl
  apply BitVec.eq_of_toNat_eq
  simp only [BitVec.toNat_sub, BitVec.toNat_add, BitVec.toNat_ofNat, hone]
  omega

/-- A call adds no session, or the one with the next number in the slot on the top of the
stack. -/
lemma Inv.added_cases (hs : s.Inv memory maxSessions) (hmax : maxSessions < 65536) {c : GroupCall}
    (h : s.step c = some s') :
    (s'.added = s.added ∧ s'.sUniqueNumber = s.sUniqueNumber ∧ ∃ id, c = .deleteSession id) ∨
      ∃ clientFD index, c = .addSession clientFD ∧ s.group.allocSession.1 = index ∧ 0 ≤ index ∧
        index < maxSessions ∧ s'.sUniqueNumber = s.sUniqueNumber + 1 ∧
        s'.added = ⟨packID s.sUniqueNumber index, index⟩ :: s.added := by
  cases hs.moves_of_step hmax h with
  | add index free hpool hnonneg hlt hrange hlen hindex halloc =>
    exact Or.inr ⟨_, index, rfl, halloc, hnonneg, hlt, rfl, rfl⟩
  | delete sessionID hlt hid => exact Or.inl ⟨rfl, rfl, sessionID, rfl⟩
  | refuse => exact Or.inl ⟨rfl, rfl, _, rfl⟩

/-- One call later, every session has been added one call earlier. -/
lemma mem_zipIdx_cons {a : AddedSession} {p : AddedSession × ℕ} :
    p ∈ (a :: s.added).zipIdx 1 ↔ p = (a, 1) ∨ ∃ q ∈ s.added.zipIdx 1, p = (q.1, q.2 + 1) := by
  rw [List.zipIdx_cons, List.mem_cons, List.zipIdx_succ, List.mem_map]
  simp only [eq_comm]

/-- **Every call keeps the numbers.** -/
theorem Numbered.step (hs : s.Numbered memory maxSessions) (hmax : maxSessions < 65536)
    {c : GroupCall} (h : s.step c = some s') : s'.Numbered memory maxSessions := by
  refine ⟨hs.inv.step hmax h, fun p hp => ?_⟩
  rcases hs.inv.added_cases hmax h with ⟨hadded, hnumber, -⟩ |
    ⟨clientFD, index, -, -, -, -, hnumber, hadded⟩
  · rw [hnumber]
    exact hs.number p (hadded ▸ hp)
  · rw [hadded, mem_zipIdx_cons] at hp
    rw [hnumber]
    rcases hp with rfl | ⟨q, hq, rfl⟩
    · rw [add_one_sub_ofNat, BitVec.sub_zero]
    · rw [add_one_sub_ofNat]
      exact hs.number q hq

/-- The next ID is new exactly if the slot is not one of those whose number comes again. -/
lemma Numbered.new_iff (hs : s.Numbered memory maxSessions) (hmax : maxSessions < 65536)
    {index : ℤ} (hnonneg : 0 ≤ index) (hlt : index < maxSessions) :
    packID s.sUniqueNumber index ∉ s.added.map AddedSession.sessionID ↔
      ∀ p ∈ s.added.zipIdx 1, 65536 ∣ p.2 → p.1.slot ≠ index := by
  have hsame : ∀ p ∈ s.added.zipIdx 1,
      p.1.sessionID = packID s.sUniqueNumber index ↔ 65536 ∣ p.2 ∧ p.1.slot = index := by
    intro p hp
    have hslot := hs.inv.slot_eq p.1 (List.fst_mem_of_mem_zipIdx hp)
    have hpos : 0 ≤ p.1.slot := hslot.1 ▸ getIndex_nonneg _
    rw [hs.number p hp, packID_inj hpos (by omega) hnonneg (by omega), sub_mod_eq_iff]
  constructor
  · intro hnew p hp hdvd hslot
    refine hnew (List.mem_map.2 ⟨p.1, List.fst_mem_of_mem_zipIdx hp, ?_⟩)
    exact (hsame p hp).2 ⟨hdvd, hslot⟩
  · intro hfresh hmem
    obtain ⟨a, ha, hid⟩ := List.mem_map.1 hmem
    rw [← List.zipIdx_map_fst 1 s.added] at ha
    obtain ⟨p, hp, rfl⟩ := List.mem_map.1 ha
    obtain ⟨hdvd, hslot⟩ := (hsame p hp).1 hid
    exact hfresh p hp hdvd hslot

/-- **One call** reuses no ID exactly if it adds no session, or one whose number is new in its
slot. -/
theorem Numbered.neverReused_iff (hs : s.Numbered memory maxSessions) (hmax : maxSessions < 65536)
    {c : GroupCall} (h : s.step c = some s') :
    s'.NeverReused ↔ s.NumberNew c ∧ s.NeverReused := by
  rcases hs.inv.added_cases hmax h with ⟨hadded, -, id, rfl⟩ |
    ⟨clientFD, index, rfl, halloc, hnonneg, hlt, -, hadded⟩
  · rw [NeverReused, hadded]
    exact ⟨fun hnever => ⟨trivial, hnever⟩, And.right⟩
  · have hsome : (s.step (.addSession clientFD)).isSome := by rw [h]; rfl
    rw [NeverReused, hadded, List.map_cons, List.nodup_cons, hs.new_iff hmax hnonneg hlt]
    simp only [NumberNew, halloc]
    exact and_congr_left fun _ => ⟨fun hnew _ => hnew, fun hnew => hnew hsome⟩

/-! ## A long history of one slot -/

/-- A session is added to the only slot of a table and deleted, `k` times, and added once more;
`u` is the first number. -/
def churn : BitVec 64 → ℕ → List GroupCall
  | _, 0 => [.addSession 7]
  | u, k + 1 => [.addSession 7, .deleteSession (packID u 0)] ++ churn (u + 1) k

/-- The only slot of a table is free. -/
structure OneFree (s : GroupRun) : Prop where
  max_eq : s.group.mMaxSession = 1
  pool_eq : s.group.mSessionIndexPool = [0, 1]

/-- The state after a session has been added to the only slot. -/
def addOne (s : GroupRun) : GroupRun :=
  { s with
    group := { s.group with mSessionIndexPool := [1] }.stamp 0 (packID s.sUniqueNumber 0) 7
    sUniqueNumber := s.sUniqueNumber + 1
    added := ⟨packID s.sUniqueNumber 0, 0⟩ :: s.added
    live := ⟨packID s.sUniqueNumber 0, 0⟩ :: s.live }

lemma OneFree.addSession (hs : s.OneFree) : s.step (.addSession 7) = some s.addOne := by
  have hin : (0 : ℤ) < s.group.mMaxSession := by
    rw [hs.max_eq]
    exact Int.one_pos
  simp only [GroupRun.step, SessionGroup.addSession_eq hs.pool_eq le_rfl hin,
    SessionGroup.allocSession_eq hs.pool_eq]
  rfl

/-- The session that has just been added is deleted, and the slot is free again. -/
lemma OneFree.deleteSession (hs : s.OneFree) :
    ∃ s', s.addOne.step (.deleteSession (packID s.sUniqueNumber 0)) = some s' ∧ s'.OneFree ∧
      s'.sUniqueNumber = s.sUniqueNumber + 1 ∧ s'.added.length = s.added.length + 1 := by
  have hindex : getIndex (packID s.sUniqueNumber 0) = 0 := getIndex_packID _ le_rfl (by decide)
  have hin : getIndex (packID s.sUniqueNumber 0) < s.addOne.group.mMaxSession := by
    rw [hindex]
    change (0 : ℤ) < s.group.mMaxSession
    rw [hs.max_eq]
    exact Int.one_pos
  have hid : (s.addOne.group.mSessionVector
      (getIndex (packID s.sUniqueNumber 0)).toNat).mSessionID = packID s.sUniqueNumber 0 := by
    rw [hindex]
    exact (SessionGroup.mSessionID_stamp le_rfl le_rfl _ _).trans (if_pos rfl)
  have hdelete := SessionGroup.deleteSession_eq hin
  rw [if_pos hid, hindex] at hdelete
  simp only [GroupRun.step, hdelete, Option.bind_eq_bind, Option.bind_some, if_true]
  exact ⟨_, rfl, ⟨hs.max_eq, rfl⟩, rfl, rfl⟩

/-- The whole history adds `k + 1` sessions. -/
lemma OneFree.exec_churn (hs : s.OneFree) (k : ℕ) :
    ∃ s', machine.exec s (churn s.sUniqueNumber k) = some s' ∧
      s'.added.length = s.added.length + k + 1 := by
  induction k generalizing s with
  | zero => exact ⟨s.addOne, StepMachine.exec_cons_eq_some.2 ⟨s.addOne, hs.addSession, rfl⟩, rfl⟩
  | succ k ih =>
    obtain ⟨s₁, hdelete, hs₁, hnumber, hlen⟩ := hs.deleteSession
    obtain ⟨s', hrun, hlen'⟩ := ih hs₁
    refine ⟨s', ?_, by omega⟩
    rw [hnumber] at hrun
    exact StepMachine.exec_cons_eq_some.2 ⟨s.addOne, hs.addSession,
      StepMachine.exec_cons_eq_some.2 ⟨s₁, hdelete, hrun⟩⟩

/-- In a table of one slot, 65537 sessions cannot have different IDs. -/
lemma Numbered.not_neverReused (hs : s.Numbered memory 1) (hlen : 65536 < s.added.length) :
    ¬ s.NeverReused := by
  have hslot : ∀ a ∈ s.added, a.slot = 0 := by
    intro a ha
    have hin := hs.inv.slot_eq a ha
    have hpos : 0 ≤ a.slot := hin.1 ▸ getIndex_nonneg _
    have hlt := hin.2
    omega
  have hnumber : ∀ i (hi : i < s.added.length),
      s.added[i].sessionID = packID (s.sUniqueNumber - BitVec.ofNat 64 (1 + i)) 0 := by
    intro i hi
    have hmem : (s.added[i], 1 + i) ∈ s.added.zipIdx 1 :=
      List.mk_add_mem_zipIdx_iff_getElem?.2 (List.getElem?_eq_getElem hi)
    rw [hs.number _ hmem, hslot _ (List.getElem_mem hi)]
  -- the first session of the list and the one added 65536 calls before
  have hsame : s.added[0].sessionID = s.added[65536].sessionID := by
    rw [hnumber 0, hnumber 65536, packID_inj le_rfl (by decide) le_rfl (by decide)]
    refine ⟨?_, rfl⟩
    rw [BitVec.toNat_sub, BitVec.toNat_sub, BitVec.toNat_ofNat, BitVec.toNat_ofNat]
    omega
  intro hnever
  have hfirst : 0 < (s.added.map AddedSession.sessionID).length := by
    rw [List.length_map]
    omega
  have hbefore : 65536 < (s.added.map AddedSession.sessionID).length := by
    rw [List.length_map]
    omega
  have hequal : (s.added.map AddedSession.sessionID)[0] =
      (s.added.map AddedSession.sessionID)[65536] := by
    simpa only [List.getElem_map] using hsame
  exact absurd (hnever.getElem_inj_iff.1 hequal) (by decide)

end GroupRun

/-- **When session IDs are never reused.**  In every history of a session group, the IDs that
`AddSession` has returned are different exactly if no `AddSession` constructs a session in a slot
in which the session added a multiple of 65536 calls before has been constructed. -/
theorem addSession_neverReused_iff (memory : ℕ → Session) {maxSessions : ℕ}
    (hmax : maxSessions < 65535) (uniqueNumber : BitVec 64) (calls : List GroupCall) :
    GroupRun.machine.Always GroupRun.NeverReused
        (GroupRun.start memory maxSessions uniqueNumber) calls ↔
      GroupRun.machine.Along GroupRun.NumberNew
        (GroupRun.start memory maxSessions uniqueNumber) calls := by
  constructor
  · refine StepMachine.along_of_always (I := GroupRun.Numbered memory maxSessions)
      (fun s c s' hs h => hs.step (by omega) h) ?_ ?_ (GroupRun.numbered_start uniqueNumber)
    · intro s c s' hs h hnever
      exact ((hs.neverReused_iff (by omega) h).1 hnever).1
    · intro s c hnone
      cases c with
      | addSession clientFD =>
        intro hsome
        rw [show s.step (.addSession clientFD) = none from hnone] at hsome
        cases hsome
      | deleteSession sessionID => trivial
  · refine StepMachine.always_of_along
      (I := fun s : GroupRun => s.Numbered memory maxSessions ∧ s.NeverReused) ?_
      (fun s hs => hs.2) ⟨GroupRun.numbered_start uniqueNumber, List.nodup_nil⟩
    rintro s c s' ⟨hs, hnever⟩ hnew h
    exact ⟨hs.step (by omega) h, (hs.neverReused_iff (by omega) h).2 ⟨hnew, hnever⟩⟩

/-- Two slots whose sessions are deleted and added again. -/
theorem addSession_neverReused_two_slots :
    GroupRun.machine.Always GroupRun.NeverReused
      (GroupRun.start (fun _ => Session.zeroMemory) 2 0)
      [.addSession 5, .addSession 6, .deleteSession 0, .addSession 7] :=
  (addSession_neverReused_iff _ (by decide) 0 _).2 (by decide +kernel)

/-- The 65537th session of a slot has the ID of the first one. -/
theorem addSession_reuses_id_after_65536 :
    ¬ GroupRun.machine.Always GroupRun.NeverReused
      (GroupRun.start (fun _ => Session.zeroMemory) 1 0) (GroupRun.churn 0 65536) := by
  have hfree : (GroupRun.start (fun _ => Session.zeroMemory) 1 0).OneFree := ⟨rfl, by decide⟩
  obtain ⟨s, hrun, hlen⟩ := hfree.exec_churn 65536
  have hs : s.Numbered (fun _ => Session.zeroMemory) 1 :=
    StepMachine.exec_invariant (M := GroupRun.machine) (fun _ _ _ hs h => hs.step (by decide) h)
      (GroupRun.numbered_start 0) hrun
  intro halways
  exact hs.not_neverReused (hlen ▸ by omega) (halways _ s (List.prefix_refl _) hrun)

end CoreServer
