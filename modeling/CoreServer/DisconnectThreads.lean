import CoreServer.SessionLife

/-!
# The threads in `Disconnect`

`Disconnect` of a session is executed by the worker in its `RecvJob`, by threads in `DoSend`,
and by threads that have called it themselves.  This file follows them from step to step, and
with them the calls of the application and the members of the session that `Disconnect`
reads.
-/

namespace CoreServer

/-- The descriptor whose registration is about to be taken away in `Disconnect`. -/
def DisconnectPC.removes : DisconnectPC → Option SocketFD
  | epollDel fd | close fd => some fd
  | _ => none

namespace ServerMemory

variable {m m' : ServerMemory} {pc : JobPC} {next : Next}

/-- `Disconnect` returns after it has called the application. -/
lemma DisconnectMoves.eq_none {slot : ℤ} {pc' : Option DisconnectPC}
    (h : DisconnectMoves m slot .onDisconnected m' pc') : pc' = none := by
  cases h
  rfl

/-- A worker that is in `Disconnect` after a step was there before, or has cleared
`mIsRecving`. -/
lemma JobMoves.disconnecting_cases (h : JobMoves m pc m' next) {i : ℤ} {dpc : DisconnectPC}
    (hnext : next.pc.disconnecting = some (i, dpc)) :
    (∃ dpc', pc.disconnecting = some (i, dpc') ∧ DisconnectMoves m i dpc' m' (some dpc)) ∨
      (dpc = .swap ∧ (pc = .recv i .setReceiveState ∨ pc = .recv i .setReceiveStateAfterMod)) := by
  cases h with
  | poll hmoves => cases hmoves <;> cases hnext
  | accept hmoves => cases hmoves <;> cases hnext
  | complete => cases hnext
  | recv hmoves =>
    cases hmoves with
    | disconnect hmoves | disconnectAfterMod hmoves =>
      obtain ⟨rfl, rfl⟩ := Prod.mk.inj (Option.some.inj hnext)
      exact Or.inl ⟨_, rfl, hmoves⟩
    | setReceiveState hin =>
      obtain ⟨rfl, rfl⟩ := Prod.mk.inj (Option.some.inj hnext)
      exact Or.inr ⟨rfl, Or.inl rfl⟩
    | setReceiveStateAfterMod hin =>
      obtain ⟨rfl, rfl⟩ := Prod.mk.inj (Option.some.inj hnext)
      exact Or.inr ⟨rfl, Or.inr rfl⟩
    | _ => cases hnext

/-- A worker in `Disconnect` goes on there. -/
lemma JobMoves.of_disconnecting (h : JobMoves m pc m' next) {i : ℤ} {dpc : DisconnectPC}
    (hpc : pc.disconnecting = some (i, dpc)) :
    ∃ dpc', DisconnectMoves m i dpc m' dpc' ∧
      next.pc.disconnecting = dpc'.map fun dpc' => (i, dpc') := by
  rcases JobPC.disconnecting_eq_some.1 hpc with rfl | rfl
  · cases h with
    | recv hmoves =>
      cases hmoves with
      | disconnect hmoves => exact ⟨_, hmoves, rfl⟩
      | disconnected hmoves => exact ⟨_, hmoves, rfl⟩
  · cases h with
    | recv hmoves =>
      cases hmoves with
      | disconnectAfterMod hmoves => exact ⟨_, hmoves, rfl⟩
      | disconnectedAfterMod hmoves => exact ⟨_, hmoves, rfl⟩

lemma disconnecting_afterWritev {slot : ℤ} {sendPackets : List IoVec} {w : WritevResult} :
    (SendPC.doSend slot (DoSendPC.afterWritev sendPackets w)).disconnecting = none := by
  rcases DoSendPC.afterWritev_cases sendPackets w with ⟨failed, heq⟩ | ⟨-, -, heq⟩ | heq |
    ⟨-, -, heq⟩ <;>
  · rw [heq]
    rfl

lemma disconnecting_afterDisconnect {slot : ℤ} {failed : Option (List IoVec)} {pc : DoSendPC}
    (h : DoSendPC.afterDisconnect failed = some pc) :
    (SendPC.doSend slot pc).disconnecting = none := by
  rcases DoSendPC.afterDisconnect_cases h with rfl | ⟨sendPackets, rfl⟩ <;> rfl

variable {spc spc' : SendPC}

/-- A thread that sends and is in `Disconnect` after a step was there before, or has cleared
`mIsSending`. -/
lemma SendMoves.disconnecting_cases (h : SendMoves m spc m' spc') {i : ℤ} {dpc : DisconnectPC}
    (hnext : spc'.disconnecting = some (i, dpc)) :
    (∃ dpc', spc.disconnecting = some (i, dpc') ∧ DisconnectMoves m i dpc' m' (some dpc)) ∨
      (dpc = .swap ∧ ∃ failed, spc = .doSend i (.giveUp failed)) := by
  cases h with
  | doSend hmoves =>
    generalize hpc : (some _ : Option DoSendPC) = opc at hmoves
    cases hmoves with
    | disconnect hmoves =>
      obtain rfl := Option.some.inj hpc
      obtain ⟨rfl, rfl⟩ := Prod.mk.inj (Option.some.inj hnext)
      exact Or.inl ⟨_, rfl, hmoves⟩
    | giveUp hin =>
      obtain rfl := Option.some.inj hpc
      obtain ⟨rfl, rfl⟩ := Prod.mk.inj (Option.some.inj hnext)
      exact Or.inr ⟨rfl, _, rfl⟩
    | disconnected hmoves =>
      rw [disconnecting_afterDisconnect hpc.symm] at hnext
      cases hnext
    | writev w hw =>
      obtain rfl := Option.some.inj hpc
      rw [disconnecting_afterWritev] at hnext
      cases hnext
    | clear hin => cases hpc
    | addPackets job hin => cases hpc
    | swapEmpty hin hpackets | swap hin hpackets | fdInvalid hfd | fdValid hfd | writevArgs =>
      obtain rfl := Option.some.inj hpc
      cases hnext
  | disconnect hmoves =>
    obtain ⟨rfl, rfl⟩ := Prod.mk.inj (Option.some.inj hnext)
    exact Or.inl ⟨_, rfl, hmoves⟩
  | notFound | done hmoves | disconnected hmoves => cases hnext
  | found hin hid hlen => cases hnext
  | push hin => cases hnext
  | alreadySet hin hsending | set hin hsending => cases hnext

/-- A thread that sends and is in `Disconnect` goes on there. -/
lemma SendMoves.of_disconnecting (h : SendMoves m spc m' spc') {i : ℤ} {dpc : DisconnectPC}
    (hpc : spc.disconnecting = some (i, dpc)) :
    ∃ dpc', DisconnectMoves m i dpc m' dpc' ∧
      spc'.disconnecting = dpc'.map fun dpc' => (i, dpc') := by
  unfold SendPC.disconnecting at hpc
  split at hpc
  · obtain ⟨rfl, rfl⟩ := Prod.mk.inj (Option.some.inj hpc)
    obtain ⟨pc', hmoves, rfl⟩ := h.of_doSend
    cases hmoves with
    | disconnect hmoves => exact ⟨_, hmoves, rfl⟩
    | disconnected hmoves =>
      refine ⟨_, hmoves, ?_⟩
      generalize hafter : DoSendPC.afterDisconnect _ = opc
      cases opc with
      | none => rfl
      | some pc => exact disconnecting_afterDisconnect hafter
  · obtain ⟨rfl, rfl⟩ := Prod.mk.inj (Option.some.inj hpc)
    cases h with
    | disconnect hmoves => exact ⟨_, hmoves, rfl⟩
    | disconnected hmoves => exact ⟨_, hmoves, rfl⟩
  · cases hpc

end ServerMemory

/-- The thread that moves in its job, or in `Send` or `Disconnect`. -/
def RunStep.thread {n : ℕ} {κ : Type} : RunStep n κ → Option (Fin n ⊕ κ)
  | job w _ => some (.inl w)
  | sender k _ => some (.inr k)
  | pool _ | start _ | send _ _ _ | disconnect _ _ => none

namespace ServerRun

variable {n : ℕ} {κ : Type} {s s' : ServerRun n κ}

/-- The session whose `Disconnect` a thread executes, and where it stands there. -/
def disconnecting (s : ServerRun n κ) : Fin n ⊕ κ → Option (ℤ × DisconnectPC)
  | .inl w => (s.job w).disconnecting
  | .inr k => (s.sender k).disconnecting

/-- A thread is in `Disconnect` of the session in the slot `i`. -/
def InDisconnect (s : ServerRun n κ) (i : ℤ) (t : Fin n ⊕ κ) : Prop :=
  ∃ pc, s.disconnecting t = some (i, pc)

instance (s : ServerRun n κ) (i : ℤ) (t : Fin n ⊕ κ) : Decidable (s.InDisconnect i t) :=
  decidable_of_iff (∃ p ∈ s.disconnecting t, p.1 = i) <| by
    constructor
    · rintro ⟨⟨_, pc⟩, ht, rfl⟩
      exact ⟨pc, ht⟩
    · rintro ⟨pc, ht⟩
      exact ⟨(i, pc), ht, rfl⟩

/-- The step with which a thread comes to `Disconnect`: it has cleared `mIsRecving` or
`mIsSending`, or it calls `Disconnect` itself. -/
inductive EntersDisconnect (s : ServerRun n κ) (i : ℤ) : Fin n ⊕ κ → RunStep n κ → Prop
  | recvJob {w : Fin n} {input : JobInput}
      (hpc : s.job w = .recv i .setReceiveState ∨ s.job w = .recv i .setReceiveStateAfterMod) :
    EntersDisconnect s i (.inl w) (.job w input)
  | giveUp {k : κ} {input : SendInput} {failed : Option (List IoVec)}
      (hpc : s.sender k = .doSend i (.giveUp failed)) :
    EntersDisconnect s i (.inr k) (.sender k input)
  | call {k : κ} : EntersDisconnect s i (.inr k) (.disconnect k i)

lemma EntersDisconnect.unique {i : ℤ} {t t' : Fin n ⊕ κ} {a : RunStep n κ}
    (h : s.EntersDisconnect i t a) (h' : s.EntersDisconnect i t' a) : t = t' := by
  cases h <;> cases h' <;> rfl

/-- Only sessions that have been added are disconnected. -/
lemma Rooted.added_of_disconnecting (hs : s.Rooted) {t : Fin n ⊕ κ} {i : ℤ} {dpc : DisconnectPC}
    (h : s.disconnecting t = some (i, dpc)) : s.Added i := by
  cases t with
  | inl w =>
    rcases JobPC.disconnecting_eq_some.1 h with hpc | hpc
    · exact hs.running w i _ hpc
    · exact hs.running w i _ hpc
  | inr k => exact hs.sending k i (SendPC.slot_of_disconnecting h)

/-! ### The threads that do not move -/

lemma Quiet.disconnecting_eq (h : s.Quiet s') (t : Fin n ⊕ κ) :
    s'.disconnecting t = s.disconnecting t := by
  cases t with
  | inl w => exact h.job_congr (f := JobPC.disconnecting) (fun j => by cases j <;> rfl) w
  | inr k => rw [disconnecting, h.sender_eq, disconnecting]

lemma JobMove.disconnecting_of_ne {w : Fin n} {next : Next} (h : s.JobMove s' w next)
    {t : Fin n ⊕ κ} (hne : t ≠ .inl w) : s'.disconnecting t = s.disconnecting t := by
  cases t with
  | inl w' => rw [disconnecting, h.job_of_ne fun heq => hne (by rw [heq]), disconnecting]
  | inr k => rw [disconnecting, h.sender_eq, disconnecting]

variable [DecidableEq κ] {a : RunStep n κ}

lemma SendMove.disconnecting_of_ne {k : κ} {pc : SendPC} (h : s.SendMove s' k pc)
    {t : Fin n ⊕ κ} (hne : t ≠ .inr k) : s'.disconnecting t = s.disconnecting t := by
  cases t with
  | inl w => rw [disconnecting, h.job_eq, disconnecting]
  | inr k' => rw [disconnecting, h.sender_of_ne fun heq => hne (by rw [heq]), disconnecting]

lemma CallMove.disconnecting_of_ne {k : κ} {pc : SendPC} (h : s.CallMove s' k pc)
    {t : Fin n ⊕ κ} (hne : t ≠ .inr k) : s'.disconnecting t = s.disconnecting t := by
  cases t with
  | inl w => rw [disconnecting, job, h.server_eq, disconnecting]
  | inr k' => rw [disconnecting, h.sender_of_ne fun heq => hne (by rw [heq]), disconnecting]

/-- A thread that calls has been in no `Disconnect`. -/
lemma CallMove.ne_of_disconnecting {k : κ} {pc : SendPC} (h : s.CallMove s' k pc)
    {t : Fin n ⊕ κ} {p : ℤ × DisconnectPC} (ht : s.disconnecting t = some p) : t ≠ .inr k := by
  rintro rfl
  rw [disconnecting, h.idle] at ht
  cases ht

/-! ### The threads that move -/

/-- **Where a thread in `Disconnect` has come from.** -/
theorem RunMoves.disconnecting_cases (h : s.RunMoves s' a) {t : Fin n ⊕ κ} {i : ℤ}
    {dpc : DisconnectPC} (ht : s'.disconnecting t = some (i, dpc)) :
    s.disconnecting t = some (i, dpc) ∨
      (∃ dpc', s.disconnecting t = some (i, dpc') ∧
        ServerMemory.DisconnectMoves s.memory i dpc' s'.memory (some dpc)) ∨
      (dpc = .swap ∧ s.EntersDisconnect i t a) := by
  cases h with
  | quietPool h | quietStart h => exact Or.inl ((h.disconnecting_eq t).symm.trans ht)
  | @job w input next h =>
    by_cases heq : t = .inl w
    · subst heq
      rw [disconnecting, h.job_self] at ht
      exact Or.inr ((h.moves.disconnecting_cases ht).imp_right (And.imp_right .recvJob))
    · exact Or.inl ((h.disconnecting_of_ne heq).symm.trans ht)
  | @sender k input pc h =>
    by_cases heq : t = .inr k
    · subst heq
      rw [disconnecting, h.sender_self] at ht
      refine Or.inr ((h.moves.disconnecting_cases ht).imp_right (And.imp_right ?_))
      rintro ⟨failed, hpc⟩
      exact .giveUp hpc
    · exact Or.inl ((h.disconnecting_of_ne heq).symm.trans ht)
  | @send k sessionID packet hadded h =>
    by_cases heq : t = .inr k
    · subst heq
      rw [disconnecting, h.sender_self] at ht
      cases ht
    · exact Or.inl ((h.disconnecting_of_ne heq).symm.trans ht)
  | @disconnect k slot hadded h =>
    by_cases heq : t = .inr k
    · subst heq
      rw [disconnecting, h.sender_self] at ht
      obtain ⟨rfl, rfl⟩ := Prod.mk.inj (Option.some.inj ht)
      exact Or.inr (Or.inr ⟨rfl, .call⟩)
    · exact Or.inl ((h.disconnecting_of_ne heq).symm.trans ht)

/-- A thread in `Disconnect` was there before, or comes to it by the step. -/
lemma RunMoves.inDisconnect_cases (h : s.RunMoves s' a) {i : ℤ} {t : Fin n ⊕ κ}
    (ht : s'.InDisconnect i t) : s.InDisconnect i t ∨ s.EntersDisconnect i t a := by
  obtain ⟨pc, ht⟩ := ht
  rcases h.disconnecting_cases ht with hold | ⟨pc', hold, -⟩ | ⟨-, henters⟩
  · exact Or.inl ⟨pc, hold⟩
  · exact Or.inl ⟨pc', hold⟩
  · exact Or.inr henters

/-- **Where a thread in `Disconnect` goes on.** -/
theorem RunMoves.of_disconnecting (h : s.RunMoves s' a) {t : Fin n ⊕ κ} {i : ℤ}
    {dpc : DisconnectPC} (ht : s.disconnecting t = some (i, dpc)) :
    s'.disconnecting t = some (i, dpc) ∨
      ∃ dpc', ServerMemory.DisconnectMoves s.memory i dpc s'.memory dpc' ∧
        s'.disconnecting t = dpc'.map fun dpc' => (i, dpc') := by
  cases h with
  | quietPool h | quietStart h => exact Or.inl ((h.disconnecting_eq t).trans ht)
  | send hadded h | disconnect hadded h =>
    exact Or.inl ((h.disconnecting_of_ne (h.ne_of_disconnecting ht)).trans ht)
  | @job w input next h =>
    by_cases heq : t = .inl w
    · subst heq
      rw [disconnecting, h.job_self]
      exact Or.inr (h.moves.of_disconnecting ht)
    · exact Or.inl ((h.disconnecting_of_ne heq).trans ht)
  | @sender k input pc h =>
    by_cases heq : t = .inr k
    · subst heq
      rw [disconnecting, h.sender_self]
      exact Or.inr (h.moves.of_disconnecting ht)
    · exact Or.inl ((h.disconnecting_of_ne heq).trans ht)

/-! ## The calls of the application -/

/-- The calls of the application in a step, and the thread that makes them. -/
inductive RunCalls (s s' : ServerRun n κ) (a : RunStep n κ) : List Callback → Prop
  | none : RunCalls s s' a []
  | onConnected {w : Fin n} (sessionID : SessionID)
      (hw : s.job w = .accept (.onConnected sessionID)) (hw' : s'.job w = .accept .accept) :
    RunCalls s s' a [.onConnected sessionID]
  | onRecv {w : Fin n} {i usedSize : ℤ} (block : List Byte) (hw : s.job w = .recv i .usedSize)
      (hused : (s.session i).mRecvJob.mRecvBuffer.getUsedSize = some usedSize)
      (hpos : 0 < usedSize) (ha : a.thread = some (.inl w)) :
    RunCalls s s' a [.onRecv (s.session i).mSessionID block]
  | onRecvReturned {w : Fin n} {i usedSize : ℤ} (readSize : ℤ)
      (hw : s.job w = .recv i (.onRecv usedSize)) :
    RunCalls s s' a [.onRecvReturned (s.session i).mSessionID readSize]
  | onDisconnected {t : Fin n ⊕ κ} {i : ℤ} (ht : s.disconnecting t = some (i, .onDisconnected))
      (ht' : s'.disconnecting t = Option.none) (ha : a.thread = some t) :
    RunCalls s s' a [.onDisconnected (s.session i).mSessionID]

/-- **The calls of the application in one step.** -/
theorem RunMoves.calls (h : s.RunMoves s' a) :
    ∃ cs, s.RunCalls s' a cs ∧ s'.memory.callbacks = s.memory.callbacks ++ cs := by
  have hnone : s'.memory.callbacks = s.memory.callbacks →
      ∃ cs, s.RunCalls s' a cs ∧ s'.memory.callbacks = s.memory.callbacks ++ cs := fun heq =>
    ⟨[], .none, by rw [heq, List.append_nil]⟩
  cases h with
  | quietPool h | quietStart h => exact hnone h.callbacks_eq
  | send hadded h | disconnect hadded h => exact hnone (by rw [memory, h.server_eq])
  | @job w input next h =>
    obtain ⟨cs, hcalls, heq⟩ := h.moves.calls
    refine ⟨cs, ?_, heq⟩
    generalize hpc : s.job w = pc at hcalls
    cases hcalls with
    | none => exact .none
    | onConnected sessionID => exact .onConnected sessionID hpc h.job_self
    | onRecv block hused hpos => exact .onRecv block hpc hused hpos rfl
    | onRecvReturned readSize => exact .onRecvReturned readSize hpc
    | onDisconnected hdpc =>
      rw [← hpc] at hdpc
      have ht : s.disconnecting (.inl w) = some (_, .onDisconnected) := hdpc
      refine .onDisconnected ht ?_ rfl
      obtain ⟨dpc', hmoves, hnext⟩ := h.moves.of_disconnecting hdpc
      rw [disconnecting, h.job_self, hnext, hmoves.eq_none, Option.map_none]
  | @sender k input pc h =>
    rcases h.moves.calls with heq | ⟨i, hdpc, heq⟩
    · exact hnone heq
    · have ht : s.disconnecting (.inr k) = some (i, .onDisconnected) := hdpc
      refine ⟨_, .onDisconnected ht ?_ rfl, heq⟩
      obtain ⟨dpc', hmoves, hnext⟩ := h.moves.of_disconnecting hdpc
      rw [disconnecting, h.sender_self, hnext, hmoves.eq_none, Option.map_none]

/-! ## The members of a session -/

omit [DecidableEq κ] in
/-- A session that has been added is not constructed again. -/
lemma JobMove.change (hs : s.Life) {w : Fin n} {next : Next} (h : s.JobMove s' w next) {i : ℤ}
    (hi : s.Added i) : ServerMemory.JobChange (s.session i) i (s.job w) (s'.session i) ∧
      ∀ clientFD id, s.job w ≠ .accept (.construct clientFD i id) := by
  refine ⟨h.moves.session hi.nonneg, fun clientFD id hpc => ?_⟩
  exact hs.reserved w i (by rw [hpc]; rfl) hi

omit [DecidableEq κ] in
/-- Only the worker in its `RecvJob` clears `mIsRecving`. -/
lemma JobMove.mIsRecving (hs : s.Life) {w : Fin n} {next : Next} (h : s.JobMove s' w next) {i : ℤ}
    (hi : s.Added i) : (s'.session i).mIsRecving = (s.session i).mIsRecving ∨
      ((s'.session i).mIsRecving = false ∧
        (s.job w = .recv i .setReceiveState ∨ s.job w = .recv i .setReceiveStateAfterMod)) := by
  obtain ⟨hchange, hold⟩ := h.change hs hi
  generalize s'.session i = t at hchange ⊢
  generalize s.job w = pc at hchange hold ⊢
  cases hchange with
  | construct clientFD id => exact absurd rfl (hold clientFD id)
  | setReceiveState hpc => exact Or.inr ⟨rfl, by rcases hpc with rfl | rfl <;> simp⟩
  | same => exact Or.inl rfl
  | setRecvBuffer b => exact Or.inl rfl
  | takeFD hpc => exact Or.inl rfl

lemma SendMove.mIsRecving {k : κ} {pc : SendPC} (h : s.SendMove s' k pc) {i : ℤ} (hi : 0 ≤ i) :
    (s'.session i).mIsRecving = (s.session i).mIsRecving := by
  have hchange := h.moves.session hi
  rw [session, session]
  generalize s'.memory.session i = t at hchange ⊢
  generalize s.sender k = spc at hchange
  cases hchange <;> rfl

omit [DecidableEq κ] in
lemma Quiet.session_eq (h : s.Quiet s') (i : ℤ) : s'.session i = s.session i :=
  ServerMemory.session_of_group_eq h.group_eq i

lemma CallMove.session_eq {k : κ} {pc : SendPC} (h : s.CallMove s' k pc) (i : ℤ) :
    s'.session i = s.session i := by
  rw [session, memory, h.server_eq]

/-- `mIsRecving` is not set again. -/
lemma RunMoves.mIsRecving_eq_false (hs : s.Life) (h : s.RunMoves s' a) {i : ℤ} (hi : s.Added i)
    (hrecving : (s.session i).mIsRecving = false) : (s'.session i).mIsRecving = false := by
  cases h with
  | quietPool h | quietStart h => rw [h.session_eq, hrecving]
  | send hadded h | disconnect hadded h => rw [h.session_eq, hrecving]
  | job h =>
    rcases h.mIsRecving hs hi with heq | ⟨heq, -⟩
    · rw [heq, hrecving]
    · exact heq
  | sender h => rw [h.mIsRecving hi.nonneg, hrecving]

/-- A session keeps its ID. -/
lemma RunMoves.mSessionID (hs : s.Life) (h : s.RunMoves s' a) {i : ℤ} (hi : s.Added i) :
    (s'.session i).mSessionID = (s.session i).mSessionID := by
  cases h with
  | quietPool h | quietStart h => rw [h.session_eq]
  | send hadded h | disconnect hadded h => rw [h.session_eq]
  | job h => exact h.mSessionID hs hi
  | sender h => exact h.moves.mSessionID hi.nonneg

/-- A session that has been added stays so. -/
lemma RunMoves.subset (h : s.RunMoves s' a) : s.added ⊆ s'.added := by
  cases h with
  | quietPool h | quietStart h => exact h.added_eq ▸ List.Subset.refl _
  | send hadded h | disconnect hadded h => exact h.added_eq ▸ List.Subset.refl _
  | job h => exact h.subset
  | sender h => exact h.added_eq ▸ List.Subset.refl _

/-- A session that a step adds has just been constructed. -/
lemma RunMoves.of_new_added (hs : s.Life) (h : s.RunMoves s' a) {i : ℤ} (hold : ¬ s.Added i)
    (hi : s'.Added i) : s'.sender = s.sender ∧
      ∃ clientFD id, s'.session i = (s.session i).construct id clientFD := by
  have hsame : s'.added = s.added → False := fun heq => by
    rw [Added, heq] at hi
    exact hold hi
  cases h with
  | quietPool h | quietStart h => exact (hsame h.added_eq).elim
  | send hadded h | disconnect hadded h => exact (hsame h.added_eq).elim
  | sender h => exact (hsame h.added_eq).elim
  | job h =>
    rcases h.added_cases hs with heq | ⟨clientFD, index, id, -, heq, rfl, -, hsession, -⟩
    · exact (hsame heq).elim
    · obtain ⟨id', hid', rfl⟩ := hi
      rw [heq, List.mem_append] at hid'
      rcases hid' with hid' | hid'
      · exact absurd ⟨id', hid', rfl⟩ hold
      · rw [List.mem_singleton.1 hid']
        exact ⟨h.sender_eq, clientFD, id, hsession⟩

omit [DecidableEq κ] in
/-- Nothing that a worker does changes the members that `Send` uses, but for the socket. -/
lemma JobMove.sendMembers (hs : s.Life) {w : Fin n} {next : Next} (h : s.JobMove s' w next)
    {i : ℤ} (hi : s.Added i) : (s'.session i).mIsSending = (s.session i).mIsSending ∧
      (s'.session i).mPackets = (s.session i).mPackets ∧
      (s'.session i).mSendJob = (s.session i).mSendJob := by
  obtain ⟨hchange, hold⟩ := h.change hs hi
  generalize s'.session i = t at hchange ⊢
  generalize s.job w = pc at hchange hold ⊢
  cases hchange with
  | construct clientFD id => exact absurd rfl (hold clientFD id)
  | setReceiveState hpc => exact ⟨rfl, rfl, rfl⟩
  | same => exact ⟨rfl, rfl, rfl⟩
  | setRecvBuffer b => exact ⟨rfl, rfl, rfl⟩
  | takeFD hpc => exact ⟨rfl, rfl, rfl⟩

omit [DecidableEq κ] in
/-- A session loses its socket by the swap of `Disconnect`. -/
lemma JobMove.mSessionFD (hs : s.Life) {w : Fin n} {next : Next} (h : s.JobMove s' w next)
    {i : ℤ} (hi : s.Added i) : (s'.session i).mSessionFD = (s.session i).mSessionFD ∨
      ((s'.session i).mSessionFD = sINVALID_SOCKET_FD ∧
        (s.job w).disconnecting = some (i, .swap)) := by
  obtain ⟨hchange, hold⟩ := h.change hs hi
  generalize s'.session i = t at hchange ⊢
  generalize s.job w = pc at hchange hold ⊢
  cases hchange with
  | construct clientFD id => exact absurd rfl (hold clientFD id)
  | takeFD hpc => exact Or.inr ⟨rfl, hpc⟩
  | setReceiveState hpc => exact Or.inl rfl
  | same => exact Or.inl rfl
  | setRecvBuffer b => exact Or.inl rfl

lemma SendMove.mSessionFD {k : κ} {pc : SendPC} (h : s.SendMove s' k pc) {i : ℤ} (hi : 0 ≤ i) :
    (s'.session i).mSessionFD = (s.session i).mSessionFD ∨
      ((s'.session i).mSessionFD = sINVALID_SOCKET_FD ∧
        (s.sender k).disconnecting = some (i, .swap)) := by
  have hchange := h.moves.session hi
  rw [session, session]
  generalize s'.memory.session i = t at hchange ⊢
  generalize s.sender k = spc at hchange ⊢
  cases hchange with
  | takeFD hpc => exact Or.inr ⟨rfl, hpc⟩
  | testAndSet => exact Or.inl rfl
  | clear hpc => exact Or.inl rfl
  | same => exact Or.inl rfl
  | pushPacket packet => exact Or.inl rfl
  | takePackets => exact Or.inl rfl
  | setSendJob sendPackets result job => exact Or.inl rfl

/-- The queue of a session is emptied by the swap of `DoSend`. -/
lemma SendMove.mPackets_ne_nil {k : κ} {pc : SendPC} (h : s.SendMove s' k pc) {i : ℤ} (hi : 0 ≤ i)
    (hswap : s.sender k ≠ .doSend i .swap) (hpackets : (s.session i).mPackets ≠ []) :
    (s'.session i).mPackets ≠ [] := by
  have hchange := h.moves.session hi
  rw [session] at hpackets ⊢
  generalize s'.memory.session i = t at hchange ⊢
  generalize s.sender k = spc at hchange hswap
  cases hchange with
  | takePackets => exact absurd rfl hswap
  | pushPacket packet => exact List.append_ne_nil_of_right_ne_nil _ (by simp)
  | takeFD hpc => exact hpackets
  | testAndSet => exact hpackets
  | clear hpc => exact hpackets
  | same => exact hpackets
  | setSendJob sendPackets result job => exact hpackets

/-- A thread sets `mIsSending` before `DoSend`, and clears it at the end or before
`Disconnect`. -/
lemma SendMove.mIsSending {k : κ} {pc : SendPC} (h : s.SendMove s' k pc) {i : ℤ} (hi : 0 ≤ i) :
    (s'.session i).mIsSending = (s.session i).mIsSending ∨
      ((s'.session i).mIsSending = true ∧ s.sender k = .testAndSet i) ∨
      ((s'.session i).mIsSending = false ∧
        (s.sender k = .doSend i .clear ∨ ∃ failed, s.sender k = .doSend i (.giveUp failed))) := by
  have hchange := h.moves.session hi
  rw [session, session]
  generalize s'.memory.session i = t at hchange ⊢
  generalize s.sender k = spc at hchange ⊢
  cases hchange with
  | testAndSet => exact Or.inr (Or.inl ⟨rfl, rfl⟩)
  | clear hpc => exact Or.inr (Or.inr ⟨rfl, by rcases hpc with rfl | ⟨failed, rfl⟩ <;> simp⟩)
  | same => exact Or.inl rfl
  | pushPacket packet => exact Or.inl rfl
  | takePackets => exact Or.inl rfl
  | setSendJob sendPackets result job => exact Or.inl rfl
  | takeFD hpc => exact Or.inl rfl

/-! ## Sessions that have been reported -/

omit [DecidableEq κ] in
/-- The application has been told that the session in the slot `i` is disconnected. -/
def Reported (s : ServerRun n κ) (i : ℤ) : Prop :=
  .onDisconnected (s.session i).mSessionID ∈ s.memory.callbacks

omit [DecidableEq κ] in
instance (s : ServerRun n κ) (i : ℤ) : Decidable (s.Reported i) :=
  inferInstanceAs (Decidable (_ ∈ _))

/-- A session is reported by a thread that leaves `Disconnect`. -/
lemma RunMoves.reported_cases (hs : s.Life) (h : s.RunMoves s' a) {i : ℤ} (hi : s.Added i)
    (hreported : s'.Reported i) : s.Reported i ∨
      ∃ t, s.disconnecting t = some (i, .onDisconnected) ∧ s'.disconnecting t = none := by
  obtain ⟨cs, hcalls, heq⟩ := h.calls
  rw [Reported, h.mSessionID hs hi, heq, List.mem_append] at hreported
  refine hreported.imp_right fun hnew => ?_
  cases hcalls with
  | @onDisconnected t i' ht ht' ha =>
    have hid := Callback.onDisconnected.inj (List.mem_singleton.1 hnew)
    have hi' := (hs.mSessionID_mem (hs.added_of_disconnecting ht)).2
    rw [← hid, (hs.mSessionID_mem hi).2] at hi'
    exact ⟨t, hi' ▸ ht, ht'⟩
  | none => cases hnew
  | onConnected sessionID hw hw' => cases List.mem_singleton.1 hnew
  | onRecv block hw hused hpos ha => cases List.mem_singleton.1 hnew
  | onRecvReturned readSize hw => cases List.mem_singleton.1 hnew

lemma RunMoves.reported (hs : s.Life) (h : s.RunMoves s' a) {i : ℤ} (hi : s.Added i)
    (hreported : s.Reported i) : s'.Reported i := by
  obtain ⟨cs, -, heq⟩ := h.calls
  rw [Reported, h.mSessionID hs hi, heq, List.mem_append]
  exact Or.inl hreported

/-! ## Sessions without a socket -/

omit [DecidableEq κ] in
/-- Behind its swap `Disconnect` has taken the socket of the session. -/
def Swapped (s : ServerRun n κ) : Prop :=
  ∀ t i pc, s.disconnecting t = some (i, pc) → pc ≠ .swap →
    (s.session i).mSessionFD = sINVALID_SOCKET_FD

omit [DecidableEq κ] in
lemma swapped_start {memory : ℕ → Session} {maxSessions : ℕ} {uniqueNumber : BitVec 64}
    {listenFD : SocketFD} : (start n κ memory maxSessions uniqueNumber listenFD).Swapped := by
  intro t i pc h
  cases t <;> cases h

/-- A session keeps its socket or loses it. -/
lemma RunMoves.mSessionFD_cases (hs : s.Life) (h : s.RunMoves s' a) {i : ℤ} (hi : s.Added i) :
    (s'.session i).mSessionFD = (s.session i).mSessionFD ∨
      (s'.session i).mSessionFD = sINVALID_SOCKET_FD := by
  cases h with
  | quietPool h | quietStart h => exact Or.inl (by rw [h.session_eq])
  | send hadded h | disconnect hadded h => exact Or.inl (by rw [h.session_eq])
  | job h => exact (h.mSessionFD hs hi).imp_right And.left
  | sender h => exact (h.mSessionFD hi.nonneg).imp_right And.left

/-- A session gets no new socket. -/
lemma RunMoves.mSessionFD (hs : s.Life) (h : s.RunMoves s' a) {i : ℤ} (hi : s.Added i)
    (hfd : (s.session i).mSessionFD = sINVALID_SOCKET_FD) :
    (s'.session i).mSessionFD = sINVALID_SOCKET_FD :=
  (h.mSessionFD_cases hs hi).elim (fun heq => heq.trans hfd) id

/-- **One step keeps it.** -/
theorem Swapped.step (hs : s.Life) (hswapped : s.Swapped) (h : s.RunMoves s' a) : s'.Swapped := by
  intro t i pc ht hne
  rcases h.disconnecting_cases ht with hold | ⟨pc', hold, hmoves⟩ | ⟨hpc, -⟩
  · exact h.mSessionFD hs (hs.added_of_disconnecting hold) (hswapped t i pc hold hne)
  · by_cases hpc' : pc' = .swap
    · subst hpc'
      have hi := (hs.added_of_disconnecting hold).nonneg
      rw [session]
      generalize s'.memory = m' at hmoves
      cases hmoves with
      | swapValid hin hfd | swapInvalid hin hfd =>
        rw [ServerMemory.session_updateSession_self hi]
        rfl
    · exact h.mSessionFD hs (hs.added_of_disconnecting hold) (hswapped t i pc' hold hpc')
  · exact absurd hpc hne

end ServerRun

end CoreServer
