import CoreServer.Descriptors

/-!
# The connections that threads write to

The bytes of a call of `Server::Send` are addressed by an ID, then by the slot of the session that
`GetSession` has found, and at last by the descriptor that `DoSend` has read.  Each of the three
can be used for another connection while a thread still goes by it.  The connections are numbered
in the order of their `accept`, and it is recorded which one a descriptor and an ID stand for, and
for which ones the bytes are that a session has in its queue and that a thread carries.
-/

namespace CoreServer

/-- What the connection is found by to which a thread sends. -/
inductive SendTarget where
  | id (sessionID : SessionID)
  | slot (i : ℤ)
  | fd (fd : SocketFD)
deriving DecidableEq, Repr

/-- What a thread finds the connection by to which it sends.  From `GetSession` until `DoSend` reads
`mSessionFD` for `writev` this is the slot, also while the packet of the thread is in the queue of
the session: a constructor that runs in the slot stores the members one after the other, and has
stored the new `mSessionFD` while the old `mPackets` are still there to be taken. -/
def SendPC.target : SendPC → Option SendTarget
  | getSession sessionID _ => some (.id sessionID)
  | push i _ | testAndSet i | doSend i .swap | doSend i (.checkFD _) | doSend i (.writevArgs _) =>
    some (.slot i)
  | doSend _ (.writev _ fd) => if fd = sINVALID_SOCKET_FD then none else some (.fd fd)
  | _ => none

/-- The packets that the first `count` bytes reach, each given by its entry in the second list. -/
def reached {τ : Type} : List IoVec → List τ → ℕ → List τ
  | v :: packets, c :: cs, count + 1 => c :: reached packets cs (count + 1 - v.iov_len)
  | _, _, _ => []

lemma reached_subset {τ : Type} (packets : List IoVec) (cs : List τ) (count : ℕ) :
    reached packets cs count ⊆ cs := by
  induction packets generalizing cs count with
  | nil => simp [reached]
  | cons v packets ih =>
    cases cs with
    | nil => simp [reached]
    | cons c cs =>
      cases count with
      | zero => simp [reached]
      | succ count => exact List.cons_subset_cons c (ih cs _)

/-- Which connection a descriptor and an ID stand for, how many there are, and for which ones the
packets are that a session has in its queue and that a thread carries. -/
structure Connections (κ : Type) where
  accepted : ℕ
  ofFD : SocketFD → Option ℕ
  ofID : SessionID → Option ℕ
  queued : ℤ → List (Option ℕ)
  carried : κ → List (Option ℕ)

/-- No connection has been accepted. -/
def Connections.none (κ : Type) : Connections κ :=
  ⟨0, fun _ => Option.none, fun _ => Option.none, fun _ => [], fun _ => []⟩

/-- A `writev` that takes `count` bytes of the packets of a thread. -/
structure WritevTakes (κ : Type) where
  thread : κ
  sendPackets : List IoVec
  fd : SocketFD
  count : ℕ

namespace ServerRun

variable {n : ℕ} {κ : Type}

/-- The `writev` of a step that takes bytes. -/
def writes (s : ServerRun n κ) : RunStep n κ → Option (WritevTakes κ)
  | .sender k (.writev (.accepted count _)) =>
    match s.sender k with
    | .doSend _ (.writev sendPackets fd) => some ⟨k, sendPackets, fd, count⟩
    | _ => none
  | _ => none

/-- The targets that a step gives to another connection: `accept` a descriptor number, and
`AddSession` an ID and a slot. -/
def reuses (s : ServerRun n κ) : RunStep n κ → List SendTarget
  | .job w input =>
    match s.job w, input with
    | .accept .accept, .accept (.accepted clientFD) => [.fd clientFD]
    | .accept (.construct _ index sessionID), _ => [.id sessionID, .slot index]
    | _, _ => []
  | _ => []

/-- The slot and the descriptor of a thread that goes back after an interrupted `writev`. -/
def retries (s : ServerRun n κ) : RunStep n κ → Option (ℤ × SocketFD)
  | .sender k (.writev (.failed .EINTR)) =>
    match s.sender k with
    | .doSend slot (.writev _ fd) => some (slot, fd)
    | _ => none
  | _ => none

variable [DecidableEq κ]

/-- A connection is numbered at its `accept`, and its ID is recorded in `AddSession`; a call of
`Send` is for the connection of its ID. -/
def track (s : ServerRun n κ) : RunStep n κ → Connections κ → Connections κ
  | .job w input, h =>
    match s.job w, input with
    | .accept .accept, .accept (.accepted clientFD) =>
      { h with
        accepted := h.accepted + 1
        ofFD := Function.update h.ofFD clientFD (some h.accepted) }
    | .accept (.construct clientFD index sessionID), _ =>
      { h with
        ofID := Function.update h.ofID sessionID (h.ofFD clientFD)
        queued := Function.update h.queued index [] }
    | _, _ => h
  | .send k sessionID _, h =>
    { h with carried := Function.update h.carried k [h.ofID sessionID] }
  | .sender k _, h =>
    match s.sender k with
    | .push slot _ =>
      { h with queued := Function.update h.queued slot (h.queued slot ++ h.carried k) }
    | .doSend slot .swap =>
      { h with
        queued := Function.update h.queued slot []
        carried := Function.update h.carried k (h.queued slot) }
    | _ => h
  | _, h => h

/-- No step gives a target to another connection while a thread goes by it, and a thread whose
`writev` has been interrupted goes back to a session that still has its socket, or none. -/
def KeepsTargets (s : ServerRun n κ) (a : RunStep n κ) : Prop :=
  (s.step a).isSome →
    (∀ t ∈ s.reuses a, ∀ k, (s.sender k).target ≠ some t) ∧
    ∀ p ∈ s.retries a, (s.session p.1).mSessionFD = p.2 ∨
      (s.session p.1).mSessionFD = sINVALID_SOCKET_FD

instance [Fintype κ] (s : ServerRun n κ) (a : RunStep n κ) : Decidable (s.KeepsTargets a) :=
  inferInstanceAs (Decidable (_ → _ ∧ _))

end ServerRun

namespace DeleteRun

variable {n : ℕ} {κ δ : Type} [DecidableEq κ] [DecidableEq δ]

/-- What is recorded of the connections. -/
def track (s : DeleteRun n κ δ) : DeleteStep n κ δ → Connections κ → Connections κ
  | .run a, h => s.run.track a h
  | .delete _ _, h | .deleter _, h => h

omit [DecidableEq κ] [DecidableEq δ] in
/-- The `writev` of a step that takes bytes. -/
def writes (s : DeleteRun n κ δ) : DeleteStep n κ δ → Option (WritevTakes κ)
  | .run a => s.run.writes a
  | .delete _ _ | .deleter _ => none

/-- The bytes that `writev` takes are for the connection to which it writes them. -/
def WritesOwn (s : DeleteRun n κ δ × Connections κ) (a : DeleteStep n κ δ) : Prop :=
  (s.1.step a).isSome → ∀ w ∈ s.1.writes a,
    ∀ c ∈ reached w.sendPackets (s.2.carried w.thread) w.count, c = s.2.ofFD w.fd

instance (s : DeleteRun n κ δ × Connections κ) (a : DeleteStep n κ δ) :
    Decidable (WritesOwn s a) :=
  inferInstanceAs (Decidable (_ → _))

end DeleteRun

namespace ServerRun

variable {n : ℕ} {κ : Type} {s s' : ServerRun n κ} {h : Connections κ}

/-! ## Where bytes are going -/

/-- Bytes for the connection `c` come to it by the target. -/
def Reaches (s : ServerRun n κ) (h : Connections κ) : SendTarget → Option ℕ → Prop
  | .id id, c => c = h.ofID id
  | .slot i, c => ∀ fd, s.Holds (.inl i) fd → c = h.ofFD fd
  | .fd fd, c => c = h.ofFD fd

/-- The socket of a session is the connection of its ID, and everything that is in a queue or that
a thread carries comes to the connection that it is for. -/
structure Aimed (s : ServerRun n κ) (h : Connections κ) : Prop where
  held : s.Held
  invalid : sINVALID_SOCKET_FD ∉ s.memory.openFDs
  socket : ∀ i fd, s.Holds (.inl i) fd → h.ofFD fd = h.ofID (s.session i).mSessionID
  queued : ∀ i, ∀ c ∈ h.queued i, s.Reaches h (.slot i) c
  carried : ∀ k t, (s.sender k).target = some t → ∀ c ∈ h.carried k, s.Reaches h t c

lemma aimed_start {memory : ℕ → Session} {maxSessions : ℕ} {uniqueNumber : BitVec 64}
    {listenFD : SocketFD} (hlisten : listenFD ≠ sINVALID_SOCKET_FD) :
    (start n κ memory maxSessions uniqueNumber listenFD).Aimed (Connections.none κ) where
  held := held_start
  invalid hmem := hlisten (List.mem_singleton.1 hmem).symm
  socket _ _ _ := rfl
  queued _ _ hc := by cases hc
  carried _ _ ht := by cases ht

variable [DecidableEq κ] {a : RunStep n κ}

/-- A descriptor that is accepted is not open. -/
lemma notMem_openFDs_of_reuses (hstep : s.step a = some s') {fd : SocketFD}
    (hfd : .fd fd ∈ s.reuses a) : fd ∉ s.memory.openFDs := by
  unfold reuses at hfd
  split at hfd
  · split at hfd
    · rename_i hpc
      obtain rfl := SendTarget.fd.inj (List.mem_singleton.1 hfd)
      obtain ⟨next, hjob⟩ := jobStep_of_step hstep
      rw [hpc] at hjob
      exact (Option.ite_none_right_eq_some.1 hjob).1.2
    · simp at hfd
    · cases hfd
  · cases hfd

omit [DecidableEq κ] in
lemma slot_mem_reuses {i : ℤ} : .slot i ∈ s.reuses a ↔ ∃ fd, s.constructs a = some (i, fd) := by
  cases a with
  | job w input =>
    by_cases hpc : ∃ clientFD index id, s.job w = .accept (.construct clientFD index id)
    · obtain ⟨clientFD, index, id, hpc⟩ := hpc
      simp [reuses, constructs, JobPC.constructs, hpc, eq_comm]
    · have hnone : (s.job w).constructs = none := by
        unfold JobPC.constructs
        split
        · exact absurd ⟨_, _, _, ‹_›⟩ hpc
        · rfl
      simp only [reuses, constructs, hnone]
      split
      · simp
      · exact absurd ⟨_, _, _, ‹_›⟩ hpc
      · simp
  | pool | start | send | disconnect | sender => simp [reuses, constructs]

/-- A session is constructed in the slot of its ID. -/
lemma RunMoves.constructs_of_reuses (hs : s.Rooted) (h : s.RunMoves s' a) {id : SessionID}
    (hid : .id id ∈ s.reuses a) : ∃ fd, s.constructs a = some (getIndex id, fd) := by
  unfold reuses at hid
  split at hid
  · rename_i w input
    split at hid
    · simp at hid
    · rename_i clientFD index sessionID hpc
      obtain rfl : id = sessionID := by simpa using hid
      cases h with
      | job h =>
        obtain ⟨-, hindex, -⟩ := h.construct_eq hs hpc
        exact ⟨clientFD, by rw [constructs, hpc, hindex]; rfl⟩
    · cases hid
  · cases hid

/-! ### What is recorded -/

lemma ofFD_track (fd : SocketFD) :
    (s.track a h).ofFD fd = h.ofFD fd ∨ .fd fd ∈ s.reuses a := by
  unfold track reuses
  split
  · split
    · rename_i clientFD hpc
      by_cases hfd : fd = clientFD
      · exact Or.inr (by simp [hpc, hfd])
      · exact Or.inl (Function.update_of_ne hfd ..)
    · exact Or.inl rfl
    · exact Or.inl rfl
  · exact Or.inl rfl
  · split <;> exact Or.inl rfl
  · exact Or.inl rfl

lemma ofID_track (id : SessionID) :
    (s.track a h).ofID id = h.ofID id ∨ .id id ∈ s.reuses a := by
  unfold track reuses
  split
  · split
    · exact Or.inl rfl
    · rename_i clientFD index sessionID hpc
      by_cases hid : id = sessionID
      · exact Or.inr (by simp [hpc, hid])
      · exact Or.inl (Function.update_of_ne hid ..)
    · exact Or.inl rfl
  · exact Or.inl rfl
  · split <;> exact Or.inl rfl
  · exact Or.inl rfl

/-- A session that is constructed has the connection of its ID as its socket, and no packets. -/
lemma RunMoves.constructed (hs : s.Rooted) (hmoves : s.RunMoves s' a) {i : ℤ} {fd : SocketFD}
    (hconstructs : s.constructs a = some (i, fd)) :
    (s'.session i).mSessionFD = fd ∧ (s.track a h).queued i = [] ∧
      (s.track a h).ofFD = h.ofFD ∧
      (s.track a h).ofID (s'.session i).mSessionID = h.ofFD fd := by
  unfold constructs JobPC.constructs at hconstructs
  split at hconstructs
  · split at hconstructs
    · rename_i w input pc clientFD index id hpc
      obtain ⟨rfl, rfl⟩ := Prod.mk.inj (Option.some.inj hconstructs)
      cases hmoves with
      | job hmove =>
        obtain ⟨-, -, hsession⟩ := hmove.construct_eq hs hpc
        simp [track, hpc, hsession, Session.construct]
    · cases hconstructs
  · cases hconstructs

omit [DecidableEq κ] in
/-- A session keeps its ID, or is constructed. -/
lemma RunMoves.mSessionID_cases [DecidableEq κ] (hmoves : s.RunMoves s' a) {i : ℤ} (hi : 0 ≤ i) :
    (s'.session i).mSessionID = (s.session i).mSessionID ∨ .slot i ∈ s.reuses a := by
  cases hmoves with
  | quietPool h | quietStart h => exact Or.inl (by rw [h.session_eq])
  | send hadded h | disconnect hadded h => exact Or.inl (by rw [h.session_eq])
  | sender h => exact Or.inl (h.moves.mSessionID hi)
  | job h =>
    refine (h.moves.mSessionID hi).imp_right ?_
    rintro ⟨clientFD, id, hpc, -⟩
    exact slot_mem_reuses.2 ⟨clientFD, by rw [constructs, hpc]; rfl⟩

/-- The packets in a queue were in it before, or a thread has pushed what it carries. -/
lemma queued_track {i : ℤ} {c : Option ℕ} (hc : c ∈ (s.track a h).queued i) :
    c ∈ h.queued i ∨ ∃ k packet, s.sender k = .push i packet ∧ c ∈ h.carried k := by
  unfold track at hc
  split at hc
  · split at hc
    · exact Or.inl hc
    · rename_i clientFD index sessionID hpc
      by_cases hi : i = index
      · subst hi
        simp at hc
      · simp only [Function.update_of_ne hi] at hc
        exact Or.inl hc
    · exact Or.inl hc
  · exact Or.inl hc
  · rename_i k input
    split at hc
    · rename_i slot packet hpc
      by_cases hi : i = slot
      · subst hi
        simp only [Function.update_self, List.mem_append] at hc
        exact hc.imp_right fun hc => ⟨k, packet, hpc, hc⟩
      · simp only [Function.update_of_ne hi] at hc
        exact Or.inl hc
    · rename_i slot hpc
      by_cases hi : i = slot
      · subst hi
        simp at hc
      · simp only [Function.update_of_ne hi] at hc
        exact Or.inl hc
    · exact Or.inl hc
  · exact Or.inl hc

/-- A thread that does not move carries what it did. -/
lemma carried_track {k : κ} (hk : a.thread ≠ some (.inr k))
    (hcall : ∀ id packet, a ≠ .send k id packet) : (s.track a h).carried k = h.carried k := by
  unfold track
  split
  · split <;> rfl
  · rename_i k' id packet
    refine Function.update_of_ne ?_ ..
    rintro rfl
    exact hcall id packet rfl
  · rename_i k' input
    have hne : k ≠ k' := by
      rintro rfl
      exact hk rfl
    split
    · rfl
    · exact Function.update_of_ne hne ..
    · rfl
  · rfl

/-! ### The steps -/

/-- What comes to a connection still does if its target is not used for another one. -/
lemma Aimed.reaches (hs : s.Rooted) (hold : s.Aimed h) (hstep : s.step a = some s')
    {t : SendTarget} (ht : t ∉ s.reuses a) {c : Option ℕ} (hc : s.Reaches h t c) :
    s'.Reaches (s.track a h) t c := by
  cases t with
  | id id => exact hc.trans ((ofID_track id).resolve_right ht).symm
  | fd fd => exact hc.trans ((ofFD_track fd).resolve_right ht).symm
  | slot i =>
    intro fd hfd
    have hmoves := runMoves_of_step hs.steady hstep
    rcases hmoves.holds_session hs hfd with hfd | hnew
    · have hopen := hold.held.mem hfd
      refine (hc fd hfd).trans ((ofFD_track fd).resolve_right fun hmem => ?_).symm
      exact notMem_openFDs_of_reuses hstep hmem hopen
    · exact absurd (slot_mem_reuses.2 ⟨fd, hnew⟩) ht

omit [DecidableEq κ] in
/-- A thread goes on to write after `writev` only if that has been interrupted. -/
lemma target_afterWritev {m : ServerMemory} {slot : ℤ} {fd : SocketFD} {sendPackets : List IoVec}
    {w : WritevResult} (hw : m.WritevPossible fd sendPackets w) {t : SendTarget}
    (ht : (SendPC.doSend slot (DoSendPC.afterWritev sendPackets w)).target = some t) :
    w = .failed .EINTR ∧ t = .slot slot := by
  rcases DoSendPC.afterWritev_cases sendPackets w with ⟨failed, heq⟩ | ⟨hneg, herrno, heq⟩ | heq |
    ⟨-, -, heq⟩
  · rw [heq] at ht
    cases ht
  · rw [heq] at ht
    cases w with
    | accepted count e =>
      -- the kernel takes less than what wraps around
      obtain ⟨-, -, -, hmax⟩ := hw
      simp only [WritevResult.value, toInt32, sMAX_RW_COUNT] at hneg hmax
      rw [Int.bmod_eq_of_le (by omega) (by omega)] at hneg
      omega
    | failed e =>
      obtain rfl : e = .EINTR := herrno
      exact ⟨rfl, (Option.some.inj ht).symm⟩
  · rw [heq] at ht
    cases ht
  · rw [heq] at ht
    cases ht

/-- Where the bytes come that a thread carries after its step. -/
lemma Aimed.carried_send (hs : s.Rooted) (hold : s.Aimed h) {k : κ} {input : SendInput}
    {pc : SendPC} (hmove : s.SendMove s' k pc) (hwritev : s.AnswersWritev k input pc)
    (hretries : ∀ p ∈ s.retries (.sender k input), (s.session p.1).mSessionFD = p.2 ∨
      (s.session p.1).mSessionFD = sINVALID_SOCKET_FD)
    {t : SendTarget} (ht : pc.target = some t) {c : Option ℕ}
    (hc : c ∈ (s.track (.sender k input) h).carried k) : s.Reaches h t c := by
  have hmoves := hmove.moves
  have hcarried := hold.carried k
  have hadded := hs.sending k
  simp only [track] at hc
  generalize hpc : s.sender k = spc at hmoves hcarried hadded hc
  generalize s'.memory = m' at hmoves
  cases hmoves with
  | notFound | alreadySet hin hsending => cases ht
  | push hin | set hin hsending => exact hcarried t ht c hc
  | done hmoves | disconnect hmoves | disconnected hmoves => cases ht
  | found hin hid hlen =>
    obtain rfl := Option.some.inj ht
    intro fd hfd
    have hsocket := hold.socket _ fd hfd
    rw [session, hid] at hsocket
    exact (hcarried _ rfl c hc).trans hsocket.symm
  | @doSend slot pc pc' m' hmoves =>
    generalize hpc' : (some _ : Option DoSendPC) = opc at hmoves
    cases hmoves with
    | clear hin | addPackets job hin => cases hpc'
    | swapEmpty hin hpackets | fdInvalid hfd | giveUp hin | disconnect hmoves =>
      obtain rfl := Option.some.inj hpc'
      cases ht
    | disconnected hmoves =>
      rcases DoSendPC.afterDisconnect_cases hpc'.symm with rfl | ⟨sendPackets, rfl⟩ <;> cases ht
    | swap hin hpackets =>
      obtain rfl := Option.some.inj hpc'
      obtain rfl := Option.some.inj ht
      simp only [Function.update_self] at hc
      exact hold.queued _ c hc
    | fdValid hfd =>
      obtain rfl := Option.some.inj hpc'
      exact hcarried t ht c hc
    | writevArgs =>
      obtain rfl := Option.some.inj hpc'
      obtain ⟨hfd, ht⟩ := Option.ite_none_left_eq_some.1 ht
      obtain rfl := Option.some.inj ht
      exact hcarried _ rfl c hc _ ⟨hadded _ rfl, rfl, hfd⟩
    | @writev sendPackets fd _ _ =>
      obtain rfl := Option.some.inj hpc'
      obtain ⟨w, rfl, hw, hnext⟩ := hwritev _ _ _ hpc
      rw [hnext] at ht
      obtain ⟨rfl, rfl⟩ := target_afterWritev hw ht
      intro fd' hfd'
      obtain ⟨-, hsocket, hvalid⟩ := hfd'
      -- the session still has the socket of the interrupted call
      have hsame : fd' = fd := by
        rcases hretries (slot, fd) (by simp [retries, hpc]) with heq | hinvalid
        · exact hsocket.symm.trans heq
        · exact absurd (hsocket.symm.trans hinvalid) hvalid
      subst hsame
      exact hcarried _ (if_neg hvalid) c hc

/-- **One step.** -/
theorem Aimed.step (hs : s.Rooted) (hold : s.Aimed h) (ha : s.KeepsTargets a)
    (hstep : s.step a = some s') : s'.Aimed (s.track a h) := by
  have hmoves := runMoves_of_step hs.steady hstep
  obtain ⟨hkeeps, hretries⟩ := ha (by rw [hstep]; rfl)
  refine ⟨hold.held.step hs hmoves, fun hinvalid => ?_, fun i fd hfd => ?_, fun i c hc => ?_,
    fun k t ht c hc => ?_⟩
  · rcases hmoves.openFDs_subset hinvalid with hmem | hnonneg
    · exact hold.invalid hmem
    · exact absurd hnonneg (by decide)
  · by_cases hslot : .slot i ∈ s.reuses a
    · obtain ⟨clientFD, hnew⟩ := slot_mem_reuses.1 hslot
      obtain ⟨hclient, -, hofFD, hofID⟩ := hmoves.constructed (h := h) hs hnew
      rw [hofFD, hofID, ← hclient, hfd.2.1]
    · -- the session is the one that it was
      have hnone : s.constructs a ≠ some (i, fd) := fun hnew =>
        hslot (slot_mem_reuses.2 ⟨fd, hnew⟩)
      have hholds := (hmoves.holds_session hs hfd).resolve_right hnone
      have hid := (hmoves.mSessionID_cases hholds.1.nonneg).resolve_right hslot
      have hofID : .id (s.session i).mSessionID ∉ s.reuses a := by
        intro hmem
        have hnew := hmoves.constructs_of_reuses hs hmem
        rw [(hs.named i hholds.1).2] at hnew
        exact hslot (slot_mem_reuses.2 hnew)
      have hofFD : .fd fd ∉ s.reuses a := fun hmem =>
        notMem_openFDs_of_reuses hstep hmem (hold.held.mem hholds)
      rw [hid, (ofFD_track fd).resolve_right hofFD, (ofID_track _).resolve_right hofID]
      exact hold.socket i fd hholds
  · have hslot : .slot i ∉ s.reuses a := by
      intro hmem
      obtain ⟨clientFD, hnew⟩ := slot_mem_reuses.1 hmem
      rw [(hmoves.constructed (h := h) hs hnew).2.1] at hc
      cases hc
    refine hold.reaches hs hstep hslot ?_
    rcases queued_track hc with hc | ⟨k, packet, hpc, hc⟩
    · exact hold.queued i c hc
    · exact hold.carried k _ (by rw [hpc]; rfl) c hc
  · have hsame : s'.sender k = s.sender k → (s.track a h).carried k = h.carried k →
        s'.Reaches (s.track a h) t c := fun hpc hcarried =>
      hold.reaches hs hstep (fun hmem => hkeeps t hmem k (hpc ▸ ht))
        (hold.carried k t (hpc ▸ ht) c (hcarried ▸ hc))
    cases hmoves with
    | quietPool hmove | quietStart hmove => exact hsame (by rw [hmove.sender_eq]) rfl
    | job hmove =>
      exact hsame (by rw [hmove.sender_eq]) (carried_track (by simp [RunStep.thread]) (by simp))
    | @send k' id packet hadded hmove =>
      by_cases hk : k = k'
      · subst hk
        rw [hmove.sender_self] at ht
        obtain rfl := Option.some.inj ht
        simp only [track, Function.update_self, List.mem_singleton] at hc
        exact hold.reaches (c := c) hs hstep (by simp [reuses]) hc
      · refine hsame (hmove.sender_of_ne hk) (carried_track (by simp [RunStep.thread]) ?_)
        rintro id' packet' heq
        exact hk (RunStep.send.inj heq).1.symm
    | @disconnect k' slot hadded hmove =>
      by_cases hk : k = k'
      · subst hk
        rw [hmove.sender_self] at ht
        cases ht
      · exact hsame (hmove.sender_of_ne hk) rfl
    | @sender k' input pc hmove hwritev =>
      by_cases hk : k = k'
      · subst hk
        rw [hmove.sender_self] at ht
        exact hold.reaches hs hstep (by simp [reuses])
          (hold.carried_send hs hmove hwritev hretries ht hc)
      · refine hsame (hmove.sender_of_ne hk) (carried_track ?_ (by simp))
        intro heq
        exact hk (Sum.inr.inj (Option.some.inj heq)).symm

omit [DecidableEq κ] in
/-- The thread that writes stands before `writev`. -/
lemma writes_eq_some {w : WritevTakes κ} (hw : w ∈ s.writes a) :
    ∃ slot e, a = .sender w.thread (.writev (.accepted w.count e)) ∧
      s.sender w.thread = .doSend slot (.writev w.sendPackets w.fd) := by
  unfold writes at hw
  split at hw
  · split at hw
    · rename_i hpc
      obtain rfl := Option.some.inj hw
      exact ⟨_, _, rfl, hpc⟩
    · cases hw
  · cases hw

/-- What `writev` takes is for the connection of its descriptor. -/
lemma Aimed.writes (hold : s.Aimed h) (hstep : s.step a = some s') {w : WritevTakes κ}
    (hw : w ∈ s.writes a) {c : Option ℕ} (hc : c ∈ h.carried w.thread) : c = h.ofFD w.fd := by
  obtain ⟨slot, e, rfl, hpc⟩ := writes_eq_some hw
  obtain ⟨⟨memory, pc⟩, hsend, -⟩ := Option.bind_eq_some_iff.1 hstep
  rw [hpc] at hsend
  obtain ⟨w', hw', hpossible, -⟩ := ServerMemory.sendStep_writev hsend
  obtain rfl := SendInput.writev.inj hw'
  have hvalid : w.fd ≠ sINVALID_SOCKET_FD := fun heq => hold.invalid (heq ▸ hpossible.1)
  exact hold.carried w.thread (.fd w.fd) (by rw [hpc]; exact if_neg hvalid) c hc

omit [DecidableEq κ] in
/-- A slot that is freed stays what it was. -/
lemma aimed_freeSession (hold : s.Aimed h) (index : ℤ) : (s.freeSession index).Aimed h :=
  ⟨hold.held, hold.invalid, hold.socket, hold.queued, hold.carried⟩

/-- A thread sends two bytes to the first client, up to `writev`. -/
def sendUpToWritev : List (RunStep 2 (Fin 2)) :=
  register ++ [.job 1 .run, .send 0 0 ⟨4096, 2⟩, .sender 0 .run, .sender 0 .run, .sender 0 .run,
    .sender 0 .run, .sender 0 .run, .sender 0 .run]

/-- Another thread disconnects the session, and closes its descriptor. -/
def disconnectFirst : List (RunStep 2 (Fin 2)) :=
  [.disconnect 1 0, .sender 1 .run, .sender 1 .run, .sender 1 .run, .sender 1 .run]

/-- The number of the descriptor is used for a new client before `writev`. -/
def writevReused : List (RunStep 2 (Fin 2)) :=
  sendUpToWritev ++ disconnectFirst ++
    [.job 1 (.accept (.accepted 7)), .sender 0 (.writev (.accepted 2 .EAGAIN))]

/-- All has been sent before the session is disconnected. -/
def sendFirst : List (RunStep 2 (Fin 2)) :=
  sendUpToWritev ++ [.sender 0 (.writev (.accepted 2 .EAGAIN)), .sender 0 .run] ++ disconnectFirst

/-- A new client gets the slot and the descriptor number, and is sent to. -/
def sendSecond : List (RunStep 2 (Fin 2)) :=
  [.job 1 (.accept (.accepted 7)), .job 1 (.onAccepeted true), .job 1 .run, .job 1 .run,
    .job 1 .run, .send 0 (packID 1 0) ⟨8192, 1⟩, .sender 0 .run, .sender 0 .run, .sender 0 .run,
    .sender 0 .run, .sender 0 .run, .sender 0 .run, .sender 0 (.writev (.accepted 1 .EAGAIN))]

end ServerRun

/-- The first session is deleted between the two calls. -/
def DeleteRun.sendTwice : List (DeleteStep 2 (Fin 2) Unit) :=
  ServerRun.sendFirst.map .run ++ [.delete () 0, .deleter (), .deleter ()] ++
    ServerRun.sendSecond.map .run

/-- **When sends reach only their own connection.**  In a server with any number of threads that
send, disconnect and delete sessions, `writev` writes the bytes of a call of `Send` to the
connection whose `accept` has produced its ID if no ID, no slot and no descriptor number is used
for another connection while a thread that is still going to write goes by it, and no interrupted
`writev` is tried again on a session that has got another socket. -/
theorem server_writesOwn {n : ℕ} {κ δ : Type} [DecidableEq κ] [DecidableEq δ]
    (memory : ℕ → Session) {maxSessions : ℕ} (hmax : maxSessions < 65536)
    (uniqueNumber : BitVec 64) {listenFD : SocketFD} (hlisten : listenFD ≠ sINVALID_SOCKET_FD)
    {as : List (DeleteStep n κ δ)}
    (h : (DeleteRun.machine n κ δ).Along (DeleteRun.OnRun ServerRun.KeepsTargets)
      (DeleteRun.start n κ δ memory maxSessions uniqueNumber listenFD) as) :
    ((DeleteRun.machine n κ δ).withHistory DeleteRun.track).Along DeleteRun.WritesOwn
      (DeleteRun.start n κ δ memory maxSessions uniqueNumber listenFD, Connections.none κ) as := by
  refine StepMachine.along_of_along (I := fun s => s.1.run.Rooted ∧ s.1.run.Aimed s.2)
    (G := fun s a => s.1.OnRun ServerRun.KeepsTargets a) ?_ ?_
    ⟨ServerRun.rooted_start hmax, ServerRun.aimed_start hlisten⟩
    (StepMachine.along_withHistory.2 h)
  · rintro ⟨s, r⟩ a ⟨s', r'⟩ ⟨hs, haimed⟩ ha hstep
    obtain ⟨hstep, rfl⟩ := StepMachine.withHistory_step_eq_some.1 hstep
    refine ⟨DeleteRun.rooted_step hs hstep, ?_⟩
    cases DeleteRun.moves_of_step hs hstep with
    | run hmoves hrun => exact haimed.step hs ha hrun
    | call heq | check heq => exact heq ▸ haimed
    | free index heq => exact heq ▸ ServerRun.aimed_freeSession haimed index
  · rintro ⟨s, r⟩ a ⟨hs, haimed⟩ - hsome w hw c hc
    obtain ⟨s', hstep⟩ := Option.isSome_iff_exists.1 hsome
    cases a with
    | run a =>
      obtain ⟨run, hrun, -⟩ := Option.bind_eq_some_iff.1 hstep
      exact haimed.writes hrun hw (reached_subset _ _ _ hc)
    | delete d sessionID => cases hw
    | deleter d => cases hw

/-- The second client gets the slot, the descriptor number and the bytes of a later call. -/
theorem server_writesOwn_twice :
    ((DeleteRun.machine 2 (Fin 2) Unit).withHistory DeleteRun.track).Along DeleteRun.WritesOwn
      (DeleteRun.start 2 (Fin 2) Unit (fun _ => Session.zeroMemory) 2 0 3,
        Connections.none (Fin 2)) DeleteRun.sendTwice :=
  server_writesOwn _ (by decide) 0 (by decide) (by decide +kernel)

/-- The bytes for the first client are written to the second one. -/
theorem server_writes_to_later_connection :
    ¬ ((DeleteRun.machine 2 (Fin 2) Unit).withHistory DeleteRun.track).Along DeleteRun.WritesOwn
      (DeleteRun.start 2 (Fin 2) Unit (fun _ => Session.zeroMemory) 2 0 3,
        Connections.none (Fin 2)) (ServerRun.writevReused.map .run) := by
  decide +kernel

end CoreServer
