import CoreServer.DisconnectThreads

/-!
# Who sends on a session

`mIsSending` belongs to the thread in `DoSend`: as long as the session is open and nobody is
about to close it, the flag is set exactly while one thread holds it, and there is only one.
A packet that is queued while the flag is set is left to its holder, and what a partial write
leaves is left to nobody.
-/

namespace CoreServer

/-- The session for which a thread in `DoSend` holds `mIsSending`. -/
def SendPC.holds : SendPC → Option ℤ
  | doSend i .swap | doSend i (.checkFD _) | doSend i (.writevArgs _) | doSend i (.writev _ _)
  | doSend i .clear => some i
  | _ => none

/-- The session that a thread in `DoSend` is about to close. -/
def SendPC.closes : SendPC → Option ℤ
  | doSend i (.giveUp _) | doSend i (.disconnect .swap _) => some i
  | _ => none

/-- The session in whose send job a thread is about to put what is left of its packets. -/
def SendPC.cuts : SendPC → Option ℤ
  | doSend i (.addPackets _ _) => some i
  | _ => none

/-- The session for which a thread is about to call `writev`, and the packets. -/
def SendPC.offers : SendPC → Option (ℤ × List IoVec)
  | doSend i (.writev sendPackets _) => some (i, sendPackets)
  | _ => none

/-- The session for which a thread has still to try to get `mIsSending`. -/
def SendPC.tries : SendPC → Option ℤ
  | push i _ | testAndSet i => some i
  | _ => none

namespace ServerMemory

variable {m m' : ServerMemory} {pc pc' : SendPC}

/-- How a step of a thread that sends changes who sends on the session in the slot `i`. -/
inductive OwnerChange (t t' : Session) (i : ℤ) : SendPC → SendPC → Prop
  | same {pc pc' : SendPC} (hholds : pc'.holds = some i ↔ pc.holds = some i)
      (hcloses : pc'.closes = some i → pc.closes = some i)
      (hcuts : pc'.cuts = some i → pc.cuts = some i) (hsending : t'.mIsSending = t.mIsSending)
      (hjob : t'.mSendJob = t.mSendJob) : OwnerChange t t' i pc pc'
  | takes (hsending : t.mIsSending = false) (hsending' : t'.mIsSending = true)
      (hjob : t'.mSendJob = t.mSendJob) :
    OwnerChange t t' i (.testAndSet i) (.doSend i .swap)
  | clears (hsending' : t'.mIsSending = false) (hjob : t'.mSendJob = t.mSendJob) :
    OwnerChange t t' i (.doSend i .clear) .idle
  | closes {pc pc' : SendPC} (hcloses : pc'.closes = some i) : OwnerChange t t' i pc pc'
  | cuts {sendPackets : List IoVec} {fd : SocketFD} {pc' : SendPC} (hcuts : pc'.cuts = some i) :
    OwnerChange t t' i (.doSend i (.writev sendPackets fd)) pc'
  | leaves {pc pc' : SendPC} (hpc : pc.closes = some i ∨ pc.cuts = some i ∨
      ∃ dpc, dpc ≠ .swap ∧ pc.disconnecting = some (i, dpc)) : OwnerChange t t' i pc pc'

/-- Only the thread that has a pointer to a session does anything to it. -/
lemma SendMoves.session_of_slot_ne (h : SendMoves m pc m' pc') {i : ℤ} (hi : 0 ≤ i)
    (hslot : pc.slot ≠ some i) : m'.session i = m.session i := by
  have hchange := h.session hi
  generalize m'.session i = t at hchange ⊢
  cases hchange with
  | same => rfl
  | takeFD hpc => exact absurd (SendPC.slot_of_disconnecting hpc) hslot
  | _ => exact absurd rfl hslot

/-- A thread comes to a session with its packet. -/
lemma SendMoves.of_slot_ne (h : SendMoves m pc m' pc') {i : ℤ} (hslot : pc.slot ≠ some i) :
    pc'.slot ≠ some i ∨ ∃ packet, pc' = .push i packet := by
  by_cases hslot' : pc'.slot = some i
  · cases h with
    | found hin hid hlen =>
      obtain rfl := Option.some.inj hslot'
      exact Or.inr ⟨_, rfl⟩
    | notFound | done hmoves | disconnected hmoves => cases hslot'
    | alreadySet hin hsending => cases hslot'
    | push hin => exact absurd hslot' hslot
    | set hin hsending => exact absurd hslot' hslot
    | doSend hmoves => exact absurd hslot' hslot
    | disconnect hmoves => exact absurd hslot' hslot
  · exact Or.inl hslot'

end ServerMemory

namespace SendPC

variable {pc : SendPC} {i : ℤ}

lemma slot_of_holds (h : pc.holds = some i) : pc.slot = some i := by
  unfold holds at h
  split at h
  all_goals first | exact h | cases h

lemma slot_of_closes (h : pc.closes = some i) : pc.slot = some i := by
  unfold closes at h
  split at h
  all_goals first | exact h | cases h

lemma slot_of_cuts (h : pc.cuts = some i) : pc.slot = some i := by
  unfold cuts at h
  split at h
  all_goals first | exact h | cases h

end SendPC

namespace ServerMemory

variable {m m' : ServerMemory} {pc pc' : SendPC}

/-- A step without a pointer to the session. -/
lemma OwnerChange.of_slot_ne (h : SendMoves m pc m' pc') {i : ℤ} (hi : 0 ≤ i)
    (hslot : pc.slot ≠ some i) : OwnerChange (m.session i) (m'.session i) i pc pc' := by
  rw [h.session_of_slot_ne hi hslot]
  rcases h.of_slot_ne hslot with hslot' | ⟨packet, rfl⟩
  · exact .same ⟨fun h => absurd (SendPC.slot_of_holds h) hslot',
        fun h => absurd (SendPC.slot_of_holds h) hslot⟩
      (fun h => absurd (SendPC.slot_of_closes h) hslot')
      (fun h => absurd (SendPC.slot_of_cuts h) hslot') rfl rfl
  · exact .same ⟨fun h => (by cases h), fun h => absurd (SendPC.slot_of_holds h) hslot⟩
      (fun h => by cases h) (fun h => by cases h) rfl rfl

/-- Where a thread goes on after `writev`. -/
lemma OwnerChange.of_writev {t : Session} {i : ℤ} {sendPackets : List IoVec} {fd : SocketFD}
    (w : WritevResult) : OwnerChange t t i (.doSend i (.writev sendPackets fd))
      (.doSend i (DoSendPC.afterWritev sendPackets w)) := by
  rcases DoSendPC.afterWritev_cases sendPackets w with ⟨failed, heq⟩ | ⟨-, -, heq⟩ | heq |
    ⟨-, -, heq⟩
  · exact heq ▸ .closes rfl
  · exact heq ▸ .same Iff.rfl (fun h => by cases h) (fun h => by cases h) rfl rfl
  · exact heq ▸ .same Iff.rfl (fun h => by cases h) (fun h => by cases h) rfl rfl
  · exact heq ▸ .cuts rfl

/-- A batch is cut after a `writev` that has accepted another number of bytes than the total. -/
lemma cuts_afterWritev {i : ℤ} {sendPackets : List IoVec} {w : WritevResult}
    (h : (SendPC.doSend i (DoSendPC.afterWritev sendPackets w)).cuts = some i) :
    ∃ count errno, w = .accepted count errno ∧ 0 ≤ toInt32 count ∧
      toInt32 count ≠ SendRun.totalSendBytes sendPackets := by
  rcases DoSendPC.afterWritev_cases sendPackets w with ⟨failed, heq⟩ | ⟨-, -, heq⟩ | heq |
    ⟨hnonneg, hne, -⟩
  · rw [heq] at h
    cases h
  · rw [heq] at h
    cases h
  · rw [heq] at h
    cases h
  · cases w with
    | accepted count errno => exact ⟨count, errno, rfl, hnonneg, hne⟩
    | failed errno => exact absurd hnonneg (show ¬ 0 ≤ toInt32 (-1) by decide)

/-- A thread that is about to close a session comes to the swap, and the swap closes it. -/
lemma SendMoves.of_closes (h : SendMoves m pc m' pc') {i : ℤ} (hi : 0 ≤ i)
    (hpc : pc.closes = some i) :
    pc'.closes = some i ∨ (m'.session i).mSessionFD = sINVALID_SOCKET_FD := by
  unfold SendPC.closes at hpc
  split at hpc
  · obtain rfl := Option.some.inj hpc
    obtain ⟨pc', hmoves, rfl⟩ := h.of_doSend
    cases hmoves with
    | giveUp hin => exact Or.inl rfl
  · obtain rfl := Option.some.inj hpc
    obtain ⟨pc', hmoves, rfl⟩ := h.of_doSend
    cases hmoves with
    | disconnect hmoves =>
      cases hmoves with
      | swapValid hin hfd | swapInvalid hin hfd =>
        right
        rw [session_updateSession_self hi]
        rfl
    | disconnected hmoves => cases hmoves
  · cases hpc

/-- A step in `DoSend` of the session. -/
lemma DoSendMoves.ownerChange {i : ℤ} {pc : DoSendPC} {pc' : Option DoSendPC}
    (h : DoSendMoves m i pc m' pc') :
    OwnerChange (m.session i) (m'.session i) i (.doSend i pc)
      (pc'.elim .idle fun pc' => .doSend i pc') := by
  have hdisconnect : ∀ {dpc : DisconnectPC} {failed : Option (List IoVec)} {t t' : Session}
      {spc : SendPC}, OwnerChange t t' i (.doSend i (.disconnect dpc failed)) spc := by
    intro dpc failed t t' spc
    by_cases hswap : dpc = .swap
    · exact .leaves (Or.inl (by rw [hswap]; rfl))
    · exact .leaves (Or.inr (Or.inr ⟨dpc, hswap, rfl⟩))
  cases h with
  | disconnect hmoves | disconnected hmoves => exact hdisconnect
  | swapEmpty hin hpackets | swap hin hpackets =>
    rw [session_updateSession_self hin.1]
    exact .same Iff.rfl (fun h => by cases h) (fun h => by cases h) rfl rfl
  | fdInvalid hfd => exact .closes rfl
  | fdValid hfd => exact .same Iff.rfl (fun h => by cases h) (fun h => by cases h) rfl rfl
  | writevArgs => exact .same Iff.rfl (fun h => by cases h) (fun h => by cases h) rfl rfl
  | writev w hw => exact .of_writev w
  | clear hin =>
    rw [session_updateSession_self hin.1]
    exact .clears rfl rfl
  | giveUp hin => exact .leaves (Or.inl rfl)
  | addPackets job hin => exact .leaves (Or.inr (Or.inl rfl))

/-- **How a step of a thread that sends changes who sends.** -/
theorem SendMoves.ownerChange (h : SendMoves m pc m' pc') {i : ℤ} (hi : 0 ≤ i) :
    OwnerChange (m.session i) (m'.session i) i pc pc' := by
  by_cases hslot : pc.slot = some i
  · cases h with
    | notFound => cases hslot
    | found hin hid hlen => cases hslot
    | push hin =>
      obtain rfl := Option.some.inj hslot
      rw [session_updateSession_self hin.1]
      exact .same Iff.rfl (fun h => by cases h) (fun h => by cases h) rfl rfl
    | alreadySet hin hsending =>
      obtain rfl := Option.some.inj hslot
      rw [session_updateSession_self hin.1]
      exact .same Iff.rfl (fun h => by cases h) (fun h => by cases h) hsending.symm rfl
    | set hin hsending =>
      obtain rfl := Option.some.inj hslot
      rw [session_updateSession_self hin.1]
      exact .takes hsending rfl rfl
    | doSend hmoves =>
      obtain rfl := Option.some.inj hslot
      exact hmoves.ownerChange
    | done hmoves =>
      obtain rfl := Option.some.inj hslot
      exact hmoves.ownerChange
    | disconnect hmoves | disconnected hmoves =>
      -- a thread that has called `Disconnect` does not send
      obtain rfl := Option.some.inj hslot
      have hsession := hmoves.session hi
      refine .same ⟨fun h => (by cases h), fun h => (by cases h)⟩ (fun h => by cases h)
        (fun h => by cases h) ?_ ?_ <;>
      · rcases hsession with heq | ⟨-, -, heq⟩ <;> rw [heq]
        rfl
  · exact .of_slot_ne h hi hslot

end ServerMemory

namespace ServerRun

variable {n : ℕ} {κ : Type} {s s' : ServerRun n κ}

/-- A thread in `DoSend` is about to close the session. -/
def Closing (s : ServerRun n κ) (i : ℤ) : Prop := ∃ k, (s.sender k).closes = some i

/-- `mIsSending` of the session is set exactly while one thread holds it, and nothing has been
left in its send job. -/
structure Owned (s : ServerRun n κ) (i : ℤ) : Prop where
  unique : ∀ k k', (s.sender k).holds = some i → (s.sender k').holds = some i → k = k'
  sending : (s.session i).mIsSending = true ↔ ∃ k, (s.sender k).holds = some i
  nothingLeft : (s.session i).mSendJob.mSendPackets = []
  nobodyCuts : ∀ k, (s.sender k).cuts ≠ some i

/-- Nobody sends on a session that has just been constructed. -/
lemma Owned.of_construct (hs : s.Life) (hsender : s'.sender = s.sender) {i : ℤ}
    (hi : ¬ s.Added i) {id : SessionID} {clientFD : SocketFD}
    (hsession : s'.session i = (s.session i).construct id clientFD) : s'.Owned i := by
  have hnobody : ∀ k, (s'.sender k).slot ≠ some i := fun k hk =>
    hi (hs.sending k i (hsender ▸ hk))
  refine ⟨fun k k' hk _ => absurd (SendPC.slot_of_holds hk) (hnobody k), ?_, ?_, fun k hk =>
    hnobody k (SendPC.slot_of_cuts hk)⟩
  · rw [hsession]
    constructor
    · intro h
      cases h
    · rintro ⟨k, hk⟩
      exact absurd (SendPC.slot_of_holds hk) (hnobody k)
  · rw [hsession]
    rfl

/-- A step at which nobody changes his part on the session. -/
lemma Owned.frame {i : ℤ} (h : s.Owned i)
    (hholds : ∀ k, (s'.sender k).holds = some i ↔ (s.sender k).holds = some i)
    (hcuts : ∀ k, (s'.sender k).cuts = some i → (s.sender k).cuts = some i)
    (hsending : (s'.session i).mIsSending = (s.session i).mIsSending)
    (hjob : (s'.session i).mSendJob = (s.session i).mSendJob) : s'.Owned i where
  unique k k' hk hk' := h.unique k k' ((hholds k).1 hk) ((hholds k').1 hk')
  sending := by
    rw [hsending, h.sending]
    exact exists_congr fun k => (hholds k).symm
  nothingLeft := hjob ▸ h.nothingLeft
  nobodyCuts k hk := h.nobodyCuts k (hcuts k hk)

variable [DecidableEq κ] {a : RunStep n κ}

/-- What a step of a thread that sends changes for all threads, it changes for itself. -/
lemma SendMove.forall_sender {k : κ} {pc : SendPC} (h : s.SendMove s' k pc)
    {p : SendPC → SendPC → Prop} (hself : p (s.sender k) pc) (hrefl : ∀ pc, p pc pc) (k' : κ) :
    p (s.sender k') (s'.sender k') := by
  rcases eq_or_ne k' k with rfl | hne
  · rw [h.sender_self]
    exact hself
  · rw [h.sender_of_ne hne]
    exact hrefl _

/-- What a call changes for all threads, it changes for the one that makes it. -/
lemma CallMove.forall_sender {k : κ} {pc : SendPC} (h : s.CallMove s' k pc)
    {p : SendPC → SendPC → Prop} (hself : p .idle pc) (hrefl : ∀ pc, p pc pc) (k' : κ) :
    p (s.sender k') (s'.sender k') := by
  rcases eq_or_ne k' k with rfl | hne
  · rw [h.sender_self, h.idle]
    exact hself
  · rw [h.sender_of_ne hne]
    exact hrefl _

/-- **A step of a thread that sends on an open session** keeps the owner of `mIsSending`, if no
`writev` is cut short and nobody is about to close the session. -/
theorem Owned.send_step {k : κ} {pc : SendPC} (h : s.SendMove s' k pc) {i : ℤ} (hi : 0 ≤ i)
    (howned : s.Owned i) (hclosing : ¬ s.Closing i) (hswapped : s.Swapped)
    (hopen : (s.session i).mSessionFD ≠ sINVALID_SOCKET_FD)
    (hcut : ∀ sendPackets fd, s.sender k = .doSend i (.writev sendPackets fd) →
      pc.cuts ≠ some i) : s'.Owned i ∨ s'.Closing i := by
  have hchange := h.moves.ownerChange hi
  generalize hpc : s.sender k = pc₀ at hchange
  cases hchange with
  | same hholds hcloses hcuts hsending hjob =>
    refine Or.inl (howned.frame ?_ ?_ hsending hjob)
    · exact h.forall_sender (p := fun pc pc' => pc'.holds = some i ↔ pc.holds = some i)
        (hpc ▸ hholds) fun _ => Iff.rfl
    · exact h.forall_sender (p := fun pc pc' => pc'.cuts = some i → pc.cuts = some i)
        (hpc ▸ hcuts) fun _ => id
  | closes hcloses => exact Or.inr ⟨k, by rw [h.sender_self, hcloses]⟩
  | cuts hcuts => exact absurd hcuts (hcut _ _ hpc)
  | leaves hleaves =>
    rcases hleaves with hcloses | hcuts | ⟨dpc, hne, hdpc⟩
    · exact absurd ⟨k, hpc ▸ hcloses⟩ hclosing
    · exact absurd (hpc ▸ hcuts) (howned.nobodyCuts k)
    · have ht : s.disconnecting (.inr k) = some (i, dpc) := by rw [disconnecting, hpc, hdpc]
      exact absurd (hswapped _ i dpc ht hne) hopen
  | takes hsending hsending' hjob =>
    -- the flag was clear, so nobody held it, and now the thread does
    have hnobody : ∀ k', (s.sender k').holds ≠ some i := fun k' hk' =>
      Bool.false_ne_true (hsending.symm.trans (howned.sending.2 ⟨k', hk'⟩))
    have honly : ∀ {k'}, (s'.sender k').holds = some i → k' = k := fun {k'} hk' => by
      by_contra hne
      exact hnobody k' (h.sender_of_ne hne ▸ hk')
    refine Or.inl ⟨fun k₁ k₂ h₁ h₂ => (honly h₁).trans (honly h₂).symm, ?_,
      hjob.symm ▸ howned.nothingLeft, fun k' hk' => howned.nobodyCuts k' ?_⟩
    · exact iff_of_true hsending' ⟨k, by rw [h.sender_self]; rfl⟩
    · exact h.forall_sender (p := fun pc pc' => pc'.cuts = some i → pc.cuts = some i)
        (fun hcuts => by cases hcuts) (fun _ => id) k' hk'
  | clears hsending' hjob =>
    -- the thread was the only one that held the flag
    have hheld : (s.sender k).holds = some i := by rw [hpc]; rfl
    have hnobody : ∀ k', (s'.sender k').holds ≠ some i := fun k' hk' => by
      rcases eq_or_ne k' k with rfl | hne
      · rw [h.sender_self] at hk'
        cases hk'
      · exact hne (howned.unique k' k (h.sender_of_ne hne ▸ hk') hheld)
    refine Or.inl ⟨fun k₁ k₂ h₁ _ => absurd h₁ (hnobody k₁), ?_, hjob.symm ▸ howned.nothingLeft,
      fun k' hk' => howned.nobodyCuts k' ?_⟩
    · refine iff_of_false (fun hset => Bool.false_ne_true (hsending'.symm.trans hset)) ?_
      rintro ⟨k', hk'⟩
      exact hnobody k' hk'
    · exact h.forall_sender (p := fun pc pc' => pc'.cuts = some i → pc.cuts = some i)
        (fun hcuts => by cases hcuts) (fun _ => id) k' hk'

/-- A session that a thread is about to close stays so until it is closed. -/
lemma RunMoves.closing (h : s.RunMoves s' a) {i : ℤ} (hi : 0 ≤ i) (hclosing : s.Closing i) :
    s'.Closing i ∨ (s'.session i).mSessionFD = sINVALID_SOCKET_FD := by
  obtain ⟨k', hk'⟩ := hclosing
  have hcall : ∀ {k : κ} {pc : SendPC}, s.CallMove s' k pc → s'.Closing i := by
    intro k pc h
    have hne : k' ≠ k := by
      rintro rfl
      rw [h.idle] at hk'
      cases hk'
    exact ⟨k', by rw [h.sender_of_ne hne, hk']⟩
  cases h with
  | quietPool h | quietStart h => exact Or.inl ⟨k', by rw [h.sender_eq, hk']⟩
  | send hadded h | disconnect hadded h => exact Or.inl (hcall h)
  | job h => exact Or.inl ⟨k', by rw [h.sender_eq, hk']⟩
  | @sender k input pc h =>
    rcases eq_or_ne k' k with rfl | hne
    · exact (h.moves.of_closes hi hk').imp_left fun hpc => ⟨k', by rw [h.sender_self, hpc]⟩
    · exact Or.inl ⟨k', by rw [h.sender_of_ne hne, hk']⟩

/-- **One step keeps the owner of `mIsSending`**, as long as no `writev` is cut short and nobody
is about to close the session. -/
theorem Owned.step (hs : s.Life) (h : s.RunMoves s' a) {i : ℤ} (hi : s.Added i)
    (howned : s.Owned i) (hclosing : ¬ s.Closing i) (hswapped : s.Swapped)
    (hopen : (s.session i).mSessionFD ≠ sINVALID_SOCKET_FD)
    (hcut : ∀ k sendPackets fd count errno, a = .sender k (.writev (.accepted count errno)) →
      s.sender k = .doSend i (.writev sendPackets fd) →
      s.memory.WritevPossible fd sendPackets (.accepted count errno) →
      toInt32 count = SendRun.totalSendBytes sendPackets) : s'.Owned i ∨ s'.Closing i := by
  have hcall : ∀ {k : κ} {pc : SendPC}, s.CallMove s' k pc → pc.holds = none → pc.cuts = none →
      s'.Owned i := by
    intro k pc h hholds hcuts
    refine howned.frame ?_ ?_ (by rw [h.session_eq]) (by rw [h.session_eq])
    · exact h.forall_sender (p := fun pc pc' => pc'.holds = some i ↔ pc.holds = some i)
        (by rw [hholds]; exact Iff.rfl) fun _ => Iff.rfl
    · exact h.forall_sender (p := fun pc pc' => pc'.cuts = some i → pc.cuts = some i)
        (by rw [hcuts]; exact id) fun _ => id
  cases h with
  | quietPool h | quietStart h =>
    refine Or.inl (howned.frame (fun k => by rw [h.sender_eq]) (fun k hk => ?_)
      (by rw [h.session_eq]) (by rw [h.session_eq]))
    rwa [h.sender_eq] at hk
  | send hadded h | disconnect hadded h => exact Or.inl (hcall h rfl rfl)
  | job h =>
    -- a worker changes none of the members that `Send` uses
    obtain ⟨hsending, -, hjob⟩ := h.sendMembers hs hi
    refine Or.inl (howned.frame (fun k => by rw [h.sender_eq]) (fun k hk => ?_) hsending hjob)
    rwa [h.sender_eq] at hk
  | sender h hwritev =>
    refine howned.send_step h hi.nonneg hclosing hswapped hopen fun sendPackets fd hpc hcuts => ?_
    obtain ⟨w, rfl, hpossible, rfl⟩ := hwritev i sendPackets fd hpc
    obtain ⟨count, errno, rfl, -, hne⟩ := ServerMemory.cuts_afterWritev hcuts
    exact hne (hcut _ sendPackets fd count errno rfl hpc hpossible)

end ServerRun

end CoreServer
