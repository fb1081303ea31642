import CoreServer.ReceiveEnd

/-!
# How often `OnDisconnected` is called

`Disconnect` calls `OnDisconnected` when it finds `mIsRecving` and `mIsSending` cleared, so a
session is reported by every thread that is in its `Disconnect` once both flags are clear.
`ClearsAlone` says when a step leaves at most one such thread behind.
-/

namespace CoreServer

/-- The session whose `mIsRecving` a worker is about to clear. -/
def JobPC.clearsRecving : JobPC → Option ℤ
  | recv i .setReceiveState | recv i .setReceiveStateAfterMod => some i
  | _ => Option.none

/-- The session whose `mIsSending` a thread is about to clear, to call `Disconnect` then. -/
def SendPC.givesUp : SendPC → Option ℤ
  | doSend i (.giveUp _) => some i
  | _ => none

namespace ServerRun

variable {n : ℕ} {κ : Type} {s s' : ServerRun n κ}

/-- Nobody is in `Disconnect` of the session, and it has not been reported. -/
def Undisconnected (s : ServerRun n κ) (i : ℤ) : Prop :=
  (∀ t, ¬ s.InDisconnect i t) ∧ ¬ s.Reported i

/-- At most one thread is in `Disconnect` of the session, and none once it has been reported. -/
def OneCaller (s : ServerRun n κ) (i : ℤ) : Prop :=
  (∀ t t', s.InDisconnect i t → s.InDisconnect i t' → t = t') ∧
    (s.Reported i → ∀ t, ¬ s.InDisconnect i t)

/-- The step after which both flags of a session are clear finds at most one thread in
`Disconnect` of it: the one that clears the flag, if that goes on there. -/
def ClearsAlone (s : ServerRun n κ) : RunStep n κ → Prop
  | .job w _ => ∀ i ∈ (s.job w).clearsRecving, (s.session i).mIsSending = false →
      s.Undisconnected i
  | .sender k _ =>
    (∀ i ∈ (s.sender k).givesUp, (s.session i).mIsRecving = false → s.Undisconnected i) ∧
      ∀ i ∈ (s.sender k).clears, (s.session i).mIsRecving = false → s.OneCaller i
  | .disconnect _ i => (s.session i).mIsRecving = false → (s.session i).mIsSending = false →
      s.Undisconnected i
  | .pool _ | .start _ | .send _ _ _ => True

instance [Fintype κ] (s : ServerRun n κ) (i : ℤ) : Decidable (s.Undisconnected i) :=
  inferInstanceAs (Decidable (_ ∧ _))

instance [Fintype κ] [DecidableEq κ] (s : ServerRun n κ) (i : ℤ) : Decidable (s.OneCaller i) :=
  inferInstanceAs (Decidable (_ ∧ _))

instance [Fintype κ] [DecidableEq κ] (s : ServerRun n κ) :
    ∀ a : RunStep n κ, Decidable (s.ClearsAlone a)
  | .job _ _ => inferInstanceAs (Decidable (∀ i ∈ _, _))
  | .sender _ _ => inferInstanceAs (Decidable ((∀ i ∈ _, _) ∧ ∀ i ∈ _, _))
  | .disconnect _ _ => inferInstanceAs (Decidable (_ → _ → _))
  | .pool _ | .start _ | .send _ _ _ => .isTrue trivial

/-- The invariant. -/
structure Single (s : ServerRun n κ) : Prop where
  oneCaller : ∀ i, s.Added i → (s.session i).mIsRecving = false →
    (s.session i).mIsSending = false → s.OneCaller i
  /-- A thread that is about to report a session is the only one. -/
  reporting : ∀ t i, s.disconnecting t = some (i, .onDisconnected) →
    (∀ t', s.disconnecting t' = some (i, .onDisconnected) → t' = t) ∧ ¬ s.Reported i
  once : ∀ id, s.memory.callbacks.count (.onDisconnected id) ≤ 1

lemma single_start {memory : ℕ → Session} {maxSessions : ℕ} {uniqueNumber : BitVec 64}
    {listenFD : SocketFD} : (start n κ memory maxSessions uniqueNumber listenFD).Single where
  oneCaller i h := by
    obtain ⟨id, hid, -⟩ := h
    cases hid
  reporting t i h := by cases t <;> cases h
  once id := Nat.zero_le _

/-- A session that has just been constructed has `mIsRecving` set. -/
lemma JobMove.added_of_not_recving (hs : s.Life) {w : Fin n} {next : Next}
    (h : s.JobMove s' w next) {i : ℤ} (hi : s'.Added i)
    (hrecving : (s'.session i).mIsRecving = false) : s.Added i := by
  obtain ⟨id, hid, rfl⟩ := hi
  rcases h.added_cases hs with heq | ⟨clientFD, index, id', -, heq, rfl, -, hsession, -⟩
  · exact ⟨id, heq ▸ hid, rfl⟩
  · rw [heq, List.mem_append] at hid
    rcases hid with hid | hid
    · exact ⟨id, hid, rfl⟩
    · rw [List.mem_singleton.1 hid, hsession] at hrecving
      cases hrecving

variable [DecidableEq κ] {a : RunStep n κ}

lemma RunMoves.added_of_not_recving (hs : s.Life) (h : s.RunMoves s' a) {i : ℤ} (hi : s'.Added i)
    (hrecving : (s'.session i).mIsRecving = false) : s.Added i := by
  cases h with
  | quietPool h | quietStart h => exact (h.added_iff i).1 hi
  | send hadded h | disconnect hadded h =>
    rw [Added, h.added_eq] at hi
    exact hi
  | job h => exact h.added_of_not_recving hs hi hrecving
  | sender h =>
    rw [Added, h.added_eq] at hi
    exact hi

/-! ## One step -/

/-- A thread comes to `Disconnect` of a session whose flags are clear then when nobody else
is there. -/
lemma EntersDisconnect.undisconnected (hs : s.Life) (h : s.RunMoves s' a)
    (ha : s.ClearsAlone a) {i : ℤ} (hi : s.Added i) {t : Fin n ⊕ κ}
    (henters : s.EntersDisconnect i t a) (hrecving : (s'.session i).mIsRecving = false)
    (hsending : (s'.session i).mIsSending = false) : s.Undisconnected i := by
  cases henters with
  | recvJob hpc =>
    cases h with
    | job h =>
      rw [(h.sendMembers hs hi).1] at hsending
      refine ha i ?_ hsending
      rcases hpc with hpc | hpc <;> rw [hpc] <;> exact rfl
  | giveUp hpc =>
    cases h with
    | sender h =>
      rw [h.mIsRecving hi.nonneg] at hrecving
      exact ha.1 i (by rw [hpc]; exact rfl) hrecving
  | call =>
    cases h with
    | disconnect hadded h =>
      rw [h.session_eq] at hrecving hsending
      exact ha hrecving hsending

/-- Both flags were clear before the step, or it has cleared one of them. -/
lemma RunMoves.flags_cases (hs : s.Life) (h : s.RunMoves s' a) {i : ℤ} (hi : s.Added i)
    (hrecving : (s'.session i).mIsRecving = false)
    (hsending : (s'.session i).mIsSending = false) :
    ((s.session i).mIsRecving = false ∧ (s.session i).mIsSending = false) ∨
      (∃ t, s.EntersDisconnect i t a) ∨
      (∃ k input, a = .sender k input ∧ s.sender k = .doSend i .clear ∧
        (s.session i).mIsRecving = false) := by
  cases h with
  | quietPool h | quietStart h =>
    rw [h.session_eq] at hrecving hsending
    exact Or.inl ⟨hrecving, hsending⟩
  | send hadded h | disconnect hadded h =>
    rw [h.session_eq] at hrecving hsending
    exact Or.inl ⟨hrecving, hsending⟩
  | job h =>
    rw [(h.sendMembers hs hi).1] at hsending
    rcases h.mIsRecving hs hi with heq | ⟨-, hpc⟩
    · exact Or.inl ⟨heq ▸ hrecving, hsending⟩
    · exact Or.inr (Or.inl ⟨_, .recvJob hpc⟩)
  | sender h =>
    rw [h.mIsRecving hi.nonneg] at hrecving
    -- the flag is as it was, or set by `Send`, or cleared at the end or before `Disconnect`
    rcases h.mIsSending hi.nonneg with heq | ⟨heq, -⟩ | ⟨-, hpc | ⟨failed, hpc⟩⟩
    · exact Or.inl ⟨hrecving, heq ▸ hsending⟩
    · rw [heq] at hsending
      cases hsending
    · exact Or.inr (Or.inr ⟨_, _, rfl, hpc, hrecving⟩)
    · exact Or.inr (Or.inl ⟨_, .giveUp hpc⟩)

/-- Once both flags are clear at most one thread is in `Disconnect`. -/
lemma Single.oneCaller_step (hs : s.Life) (hsingle : s.Single) (h : s.RunMoves s' a)
    (ha : s.ClearsAlone a) {i : ℤ} (hi' : s'.Added i)
    (hrecving : (s'.session i).mIsRecving = false)
    (hsending : (s'.session i).mIsSending = false) : s'.OneCaller i := by
  have hi := h.added_of_not_recving hs hi' hrecving
  by_cases henters : ∃ t, s.EntersDisconnect i t a
  · -- the thread that comes to `Disconnect` is alone there
    obtain ⟨t, henters⟩ := henters
    obtain ⟨hnobody, hunreported⟩ := henters.undisconnected hs h ha hi hrecving hsending
    have honly : ∀ t', s'.InDisconnect i t' → t' = t := fun t' ht' =>
      (h.inDisconnect_cases ht').elim (fun hold => absurd hold (hnobody t'))
        fun henters' => henters'.unique henters
    refine ⟨fun t₁ t₂ ht₁ ht₂ => (honly t₁ ht₁).trans (honly t₂ ht₂).symm, fun hreported => ?_⟩
    rcases h.reported_cases hs hi hreported with hold | ⟨t', ht', -⟩
    · exact absurd hold hunreported
    · exact absurd ⟨_, ht'⟩ (hnobody t')
  · have hback : ∀ t, s'.InDisconnect i t → s.InDisconnect i t := fun t ht =>
      (h.inDisconnect_cases ht).resolve_right fun henters' => henters ⟨t, henters'⟩
    have hone : s.OneCaller i := by
      rcases h.flags_cases hs hi hrecving hsending with ⟨hrecving, hsending⟩ | henters' |
        ⟨k, input, rfl, hpc, hrecving⟩
      · exact hsingle.oneCaller i hi hrecving hsending
      · exact absurd henters' henters
      · exact ha.2 i (by rw [hpc]; exact rfl) hrecving
    refine ⟨fun t₁ t₂ ht₁ ht₂ => hone.1 t₁ t₂ (hback t₁ ht₁) (hback t₂ ht₂),
      fun hreported t ht => ?_⟩
    rcases h.reported_cases hs hi hreported with hold | ⟨t', ht', hleft⟩
    · exact hone.2 hold t (hback t ht)
    · -- the thread that has reported the session was the one in `Disconnect`
      obtain rfl := hone.1 t t' (hback t ht) ⟨_, ht'⟩
      obtain ⟨pc, ht⟩ := ht
      rw [hleft] at ht
      cases ht

/-- Two threads do not come to report one session. -/
lemma Single.reporting_step (hs : s.Life) (he : s.Ended) (hsingle : s.Single)
    (h : s.RunMoves s' a) {t : Fin n ⊕ κ} {i : ℤ}
    (ht : s'.disconnecting t = some (i, .onDisconnected)) :
    (∀ t', s'.disconnecting t' = some (i, .onDisconnected) → t' = t) ∧ ¬ s'.Reported i := by
  -- a thread that comes to the call has found both flags cleared
  have hcome : ∀ {t'}, s'.disconnecting t' = some (i, .onDisconnected) →
      s.disconnecting t' = some (i, .onDisconnected) ∨
        (s.disconnecting t' = some (i, .isSending) ∧ s.OneCaller i) := by
    intro t' ht'
    rcases h.disconnecting_cases ht' with hold | ⟨pc', hold, hmoves⟩ | ⟨hpc, -⟩
    · exact Or.inl hold
    · right
      generalize s'.memory = m' at hmoves
      cases hmoves with
      | notSending hin hsending =>
        exact ⟨hold, hsingle.oneCaller i (hs.added_of_disconnecting hold)
          (he.tested t' i _ hold (Or.inl rfl)) hsending⟩
    · cases hpc
  have hreported : s'.Reported i → s.Added i → s.Reported i ∨
      ∃ t, s.disconnecting t = some (i, .onDisconnected) ∧ s'.disconnecting t = none :=
    fun hreported hi => h.reported_cases hs hi hreported
  rcases hcome ht with hold | ⟨hold, hone⟩
  · obtain ⟨honly, hunreported⟩ := hsingle.reporting t i hold
    refine ⟨fun t' ht' => ?_, fun hr => ?_⟩
    · rcases hcome ht' with hold' | ⟨hold', hone⟩
      · exact honly t' hold'
      · exact hone.1 t' t ⟨_, hold'⟩ ⟨_, hold⟩
    · rcases hreported hr (hs.added_of_disconnecting hold) with hr | ⟨t', ht', hleft⟩
      · exact hunreported hr
      · obtain rfl := honly t' ht'
        rw [hleft] at ht
        cases ht
  · refine ⟨fun t' ht' => ?_, fun hr => ?_⟩
    · rcases hcome ht' with hold' | ⟨hold', -⟩
      · exact hone.1 t' t ⟨_, hold'⟩ ⟨_, hold⟩
      · exact hone.1 t' t ⟨_, hold'⟩ ⟨_, hold⟩
    · rcases hreported hr (hs.added_of_disconnecting hold) with hr | ⟨t', ht', -⟩
      · exact hone.2 hr t ⟨_, hold⟩
      · obtain rfl := hone.1 t' t ⟨_, ht'⟩ ⟨_, hold⟩
        rw [ht'] at hold
        cases hold

lemma Single.once_step (hsingle : s.Single) (h : s.RunMoves s' a) (id : SessionID) :
    s'.memory.callbacks.count (.onDisconnected id) ≤ 1 := by
  obtain ⟨cs, hcalls, heq⟩ := h.calls
  rw [heq, List.count_append]
  have honce := hsingle.once id
  by_cases hid : .onDisconnected id ∈ cs
  · cases hcalls with
    | @onDisconnected t i ht ht' ha =>
      have hzero := List.count_eq_zero.2 (hsingle.reporting t i ht).2
      rw [List.mem_singleton.1 hid, hzero, List.count_singleton_self]
    | none => cases hid
    | onConnected sessionID hw hw' => cases List.mem_singleton.1 hid
    | onRecv block hw hused hpos ha => cases List.mem_singleton.1 hid
    | onRecvReturned readSize hw => cases List.mem_singleton.1 hid
  · rw [List.count_eq_zero.2 hid]
    exact honce

/-- **One step keeps the invariant.** -/
theorem Single.step (hs : s.Life) (he : s.Ended) (hsingle : s.Single) (ha : s.ClearsAlone a)
    (h : s.RunMoves s' a) : s'.Single where
  oneCaller _ := hsingle.oneCaller_step hs h ha
  reporting _ _ := hsingle.reporting_step hs he h
  once := hsingle.once_step h

/-- `OnDisconnected` has been called at most once for each session. -/
def DisconnectedOnce (s : ServerRun n κ) : Prop :=
  ∀ id, s.memory.callbacks.count (.onDisconnected id) ≤ 1

end ServerRun

/-- **When `OnDisconnected` is called at most once.**  In every run each of whose steps that
leave both flags of a session clear finds at most one thread in `Disconnect` of it, the
application is told at most once that a session is disconnected. -/
theorem server_disconnectedOnce {n : ℕ} {κ : Type} [DecidableEq κ] (memory : ℕ → Session)
    {maxSessions : ℕ} (hmax : maxSessions < 65536) (uniqueNumber : BitVec 64)
    (listenFD : SocketFD) {as : List (RunStep n κ)}
    (has : (ServerRun.machine n κ).Along ServerRun.ClearsAlone
      (ServerRun.start n κ memory maxSessions uniqueNumber listenFD) as) :
    (ServerRun.machine n κ).Always ServerRun.DisconnectedOnce
      (ServerRun.start n κ memory maxSessions uniqueNumber listenFD) as :=
  ServerRun.always_of_moves (I := fun s => s.Ended ∧ s.Single)
    (fun hs hI ha h => ⟨hI.1.step hs h, hI.2.step hs hI.1 ha h⟩) (fun _ hI => hI.2.once) hmax
    ⟨ServerRun.ended_start, ServerRun.single_start⟩ has

/-- A disconnection that a thread begins while the application is in `OnRecv` is reported
once. -/
theorem server_disconnectedOnce_closeInOnRecv :
    (ServerRun.machine 2 Unit).Always ServerRun.DisconnectedOnce
      (ServerRun.start 2 Unit (fun _ => Session.zeroMemory) 2 0 3) ServerRun.closeInOnRecv :=
  server_disconnectedOnce _ (by decide) 0 3 (by decide +kernel)

/-- The application sends with the ID of a session that has been reported. -/
def ServerRun.sendAfterClose : List (RunStep 2 Unit) :=
  ServerRun.close ++ [.send () 0 ⟨4096, 1⟩, .sender () .run, .sender () .run, .sender () .run,
    .sender () .run, .sender () .run, .sender () .run, .sender () .run, .sender () .run,
    .sender () .run, .sender () .run]

/-- A `Send` with the ID of a session that has been reported reports it again. -/
theorem server_disconnectsTwice :
    ¬ (ServerRun.machine 2 Unit).Always ServerRun.DisconnectedOnce
      (ServerRun.start 2 Unit (fun _ => Session.zeroMemory) 2 0 3) ServerRun.sendAfterClose := by
  obtain ⟨s, hrun, htwice⟩ : ∃ s ∈ (ServerRun.machine 2 Unit).exec
      (ServerRun.start 2 Unit (fun _ => Session.zeroMemory) 2 0 3) ServerRun.sendAfterClose,
      s.memory.callbacks.count (.onDisconnected 0) = 2 := by
    decide +kernel
  intro halways
  have honce := halways _ s (List.prefix_refl _) hrun 0
  omega

end CoreServer
