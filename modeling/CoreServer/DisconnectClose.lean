import CoreServer.Descriptors

/-!
# Which descriptors `Disconnect` closes

`Disconnect` takes the descriptor of a session with one atomic exchange, deletes its registration
and closes it.  The kernel may give the number to another client as soon as it has been closed.
The clients are numbered in the order of their `accept`, and the calls of `Disconnect` in the order
of their exchanges; it is recorded which call deletes and closes the descriptor of which client.
-/

namespace CoreServer

/-- Which client a descriptor and a slot stand for, in which call of `Disconnect` a thread is, and
the clients whose descriptors have been deleted from the epoll and closed, each with the call. -/
structure CloseLog (τ : Type) where
  accepted : ℕ
  ofFD : SocketFD → ℕ
  ofSlot : ℤ → ℕ
  calls : ℕ
  call : τ → ℕ
  removed : List (ℕ × ℕ)
  closed : List (ℕ × ℕ)

namespace CloseLog

/-- Nothing is recorded. -/
def empty (τ : Type) : CloseLog τ := ⟨0, fun _ => 0, fun _ => 0, 0, fun _ => 0, [], []⟩

/-- No descriptor is deleted or closed twice, and only one call deletes and closes it. -/
def ClosesOnce {τ : Type} (h : CloseLog τ) : Prop :=
  (h.removed.map Prod.snd).Nodup ∧ (h.closed.map Prod.snd).Nodup ∧
    ∀ e ∈ h.removed, ∀ e' ∈ h.closed, e.2 = e'.2 → e.1 = e'.1

variable {τ : Type} [DecidableEq τ]

/-- What a step of a thread in `Disconnect` adds. -/
def disconnect (h : CloseLog τ) (t : τ) : DisconnectPC → CloseLog τ
  | .swap => { h with calls := h.calls + 1, call := Function.update h.call t h.calls }
  | .epollDel oldFD => { h with removed := h.removed ++ [(h.call t, h.ofFD oldFD)] }
  | .close oldFD => { h with closed := h.closed ++ [(h.call t, h.ofFD oldFD)] }
  | _ => h

end CloseLog

/-- The client that a step accepts. -/
def RunStep.accepts {n : ℕ} {κ : Type} : RunStep n κ → Option SocketFD
  | job _ (.accept (.accepted clientFD)) => some clientFD
  | _ => none

namespace ServerRun

variable {n : ℕ} {κ : Type}

/-- The thread that a step takes on in `Disconnect`, and where it stands there. -/
def disconnects (s : ServerRun n κ) (a : RunStep n κ) : Option ((Fin n ⊕ κ) × DisconnectPC) :=
  a.thread.bind fun t => (s.disconnecting t).map fun p => (t, p.2)

/-- A client is numbered at its `accept`, and gets a slot in `AddSession`. -/
def recordClose [DecidableEq κ] (s : ServerRun n κ) (a : RunStep n κ)
    (h : CloseLog (Fin n ⊕ κ)) : CloseLog (Fin n ⊕ κ) :=
  match s.disconnects a, s.constructs a, a.accepts with
  | some (t, pc), _, _ => h.disconnect t pc
  | none, some (i, clientFD), _ =>
    { h with ofSlot := Function.update h.ofSlot i (h.ofFD clientFD) }
  | none, none, some clientFD =>
    { h with
      accepted := h.accepted + 1
      ofFD := Function.update h.ofFD clientFD h.accepted }
  | none, none, none => h

/-- A thread that is about to delete or to close a descriptor in `Disconnect` has that of the client
of its own session, which is open; no session has it as its socket, and no other thread holds it. -/
def RemovesOwn (p : ServerRun n κ × CloseLog (Fin n ⊕ κ)) (a : RunStep n κ) : Prop :=
  ∀ t ∈ a.thread, ∀ q ∈ p.1.removing t, q.2 ∈ p.1.memory.openFDs ∧ p.2.ofFD q.2 = p.2.ofSlot q.1 ∧
    (∀ i, p.1.Added i → (p.1.session i).mSessionFD ≠ q.2) ∧
    ∀ t', p.1.threadHolds t' = some q.2 → t' = t

end ServerRun

/-! ## The descriptors that are opened -/

namespace ServerMemory

variable {m m' : ServerMemory}

lemma DisconnectMoves.openFDs_subset {slot : ℤ} {pc : DisconnectPC} {pc' : Option DisconnectPC}
    (h : DisconnectMoves m slot pc m' pc') : m'.openFDs ⊆ m.openFDs := by
  cases h with
  | close oldFD => exact List.erase_subset
  | _ => exact List.Subset.refl _

lemma DoSendMoves.openFDs_subset {slot : ℤ} {pc : DoSendPC} {pc' : Option DoSendPC}
    (h : DoSendMoves m slot pc m' pc') : m'.openFDs ⊆ m.openFDs := by
  cases h with
  | disconnect hmoves | disconnected hmoves => exact hmoves.openFDs_subset
  | _ => exact List.Subset.refl _

lemma SendMoves.openFDs_subset {pc pc' : SendPC} (h : SendMoves m pc m' pc') :
    m'.openFDs ⊆ m.openFDs := by
  cases h with
  | doSend hmoves | done hmoves => exact hmoves.openFDs_subset
  | disconnect hmoves | disconnected hmoves => exact hmoves.openFDs_subset
  | _ => exact List.Subset.refl _

/-- Only `accept` opens a descriptor. -/
lemma JobMoves.openFDs_subset {pc : JobPC} {next : Next} (h : JobMoves m pc m' next)
    (hpc : pc ≠ .accept .accept) : m'.openFDs ⊆ m.openFDs := by
  cases h with
  | poll hmoves => cases hmoves <;> exact List.Subset.refl _
  | accept hmoves =>
    cases hmoves with
    | accepted => exact absurd rfl hpc
    | close => exact List.erase_subset
    | _ => exact List.Subset.refl _
  | recv hmoves =>
    cases hmoves with
    | disconnect hmoves | disconnected hmoves => exact hmoves.openFDs_subset
    | disconnectAfterMod hmoves | disconnectedAfterMod hmoves => exact hmoves.openFDs_subset
    | _ => exact List.Subset.refl _
  | complete => exact List.Subset.refl _

/-- A client is accepted in `AcceptJob`, with a number that is not open. -/
lemma jobStep_accepted {pc : JobPC} {clientFD : SocketFD} {next : Next}
    (h : m.jobStep pc (.accept (.accepted clientFD)) = some (m', next)) :
    pc = .accept .accept ∧ 0 ≤ clientFD ∧ clientFD ∉ m.openFDs := by
  cases pc with
  | none | complete => cases h
  | poll pc =>
    cases pc with
    | addEvents jobs => cases jobs <;> cases h
    | _ => cases h
  | accept pc =>
    cases pc with
    | accept => exact ⟨rfl, (Option.ite_none_right_eq_some.1 h).1⟩
    | _ => cases h
  | recv slot pc => cases pc <;> cases h

lemma jobStep_openFDs {pc : JobPC} {input : JobInput} {next : Next}
    (h : m.jobStep pc input = some (m', next)) {fd : SocketFD} (hfd : fd ∈ m'.openFDs) :
    fd ∈ m.openFDs ∨ input = .accept (.accepted fd) := by
  by_cases hpc : pc = .accept .accept
  · subst hpc
    cases input with
    | accept result =>
      cases result with
      | accepted clientFD =>
        obtain ⟨-, h⟩ := Option.ite_none_right_eq_some.1 h
        obtain ⟨rfl, -⟩ := Prod.mk.inj (Option.some.inj h)
        rcases List.mem_cons.1 hfd with rfl | hold
        · exact Or.inr rfl
        · exact Or.inl hold
      | failed errno =>
        cases errno <;>
        · obtain ⟨rfl, -⟩ := Prod.mk.inj (Option.some.inj h)
          exact Or.inl hfd
    | _ => cases h
  · exact Or.inl ((jobMoves_of_step h).openFDs_subset hpc hfd)

end ServerMemory

namespace ServerRun

variable {n : ℕ} {κ : Type} [DecidableEq κ] {s s' : ServerRun n κ} {a : RunStep n κ}

/-- A descriptor that is open after a step has been open, or is that of the client it accepts. -/
lemma step_openFDs (hs : s.Rooted) (h : s.step a = some s') {fd : SocketFD}
    (hfd : fd ∈ s'.memory.openFDs) : fd ∈ s.memory.openFDs ∨ a.accepts = some fd := by
  have hmoves := runMoves_of_step hs.steady h
  cases hmoves with
  | quietPool hquiet | quietStart hquiet => exact Or.inl (hquiet.openFDs_eq ▸ hfd)
  | send hadded hcall | disconnect hadded hcall =>
    rw [memory, hcall.server_eq] at hfd
    exact Or.inl hfd
  | sender hmove => exact Or.inl (hmove.moves.openFDs_subset hfd)
  | job hmove =>
    obtain ⟨next, hjob⟩ := jobStep_of_step h
    refine (ServerMemory.jobStep_openFDs hjob hfd).imp_right ?_
    rintro rfl
    rfl

/-- The client that is accepted has a number that is not open. -/
lemma new_of_accepts (h : s.step a = some s') {fd : SocketFD} (ha : a.accepts = some fd) :
    0 ≤ fd ∧ fd ∉ s.memory.openFDs := by
  unfold RunStep.accepts at ha
  split at ha
  · obtain rfl := Option.some.inj ha
    obtain ⟨next, hjob⟩ := jobStep_of_step h
    exact (ServerMemory.jobStep_accepted hjob).2
  · cases ha

/-! ## The holders of the descriptors -/

omit [DecidableEq κ] in
lemma disconnects_eq_some {t : Fin n ⊕ κ} {pc : DisconnectPC} :
    s.disconnects a = some (t, pc) ↔
      a.thread = some t ∧ ∃ i, s.disconnecting t = some (i, pc) := by
  constructor
  · intro h
    obtain ⟨t', ha, h⟩ := Option.bind_eq_some_iff.1 h
    obtain ⟨⟨i, pc'⟩, ht, h⟩ := Option.map_eq_some_iff.1 h
    obtain ⟨rfl, rfl⟩ := Prod.mk.inj h
    exact ⟨ha, i, ht⟩
  · rintro ⟨ha, i, ht⟩
    rw [disconnects, ha, Option.bind_some, ht]
    rfl

omit [DecidableEq κ] in
/-- A thread in `Disconnect` holds the descriptor that it has taken and not closed. -/
lemma threadHolds_of_disconnecting {t : Fin n ⊕ κ} {i : ℤ} {pc : DisconnectPC}
    (ht : s.disconnecting t = some (i, pc)) : s.threadHolds t = pc.removes := by
  cases t with
  | inl w =>
    have hw : (s.job w).disconnecting = some (i, pc) := ht
    change (s.job w).holdsFD = _
    generalize s.job w = jpc at hw
    unfold JobPC.holdsFD
    split
    all_goals first | cases hw | skip
    rw [hw, Option.bind_some]
  | inr k =>
    have hk : (s.sender k).disconnecting = some (i, pc) := ht
    rw [threadHolds, SendPC.holdsFD, hk, Option.bind_some]

/-- A thread that stays where it is. -/
lemma RunMoves.disconnecting_of_thread (h : s.RunMoves s' a) {t : Fin n ⊕ κ}
    {p : ℤ × DisconnectPC} (ht : s.disconnecting t = some p) (ha : a.thread ≠ some t) :
    s'.disconnecting t = some p := by
  cases h with
  | quietPool h | quietStart h => exact (h.disconnecting_eq t).trans ht
  | send hadded h | disconnect hadded h =>
    exact (h.disconnecting_of_ne (h.ne_of_disconnecting ht)).trans ht
  | job h =>
    refine (h.disconnecting_of_ne ?_).trans ht
    rintro rfl
    exact ha rfl
  | sender h =>
    refine (h.disconnecting_of_ne ?_).trans ht
    rintro rfl
    exact ha rfl

omit [DecidableEq κ] in
/-- A thread in `Disconnect` constructs no session. -/
lemma constructs_of_disconnects (h : s.disconnects a ≠ none) : s.constructs a = none := by
  cases a with
  | job w input =>
    have hthread : s.disconnects (.job w input) =
        (s.job w).disconnecting.map fun p => (.inl w, p.2) := rfl
    rw [hthread] at h
    change (s.job w).constructs = none
    cases hpc : s.job w with
    | accept pc =>
      rw [hpc] at h
      exact absurd rfl h
    | _ => rfl
  | _ => rfl

/-- A worker that accepts a client is not in `Disconnect`, and constructs no session. -/
lemma of_accepts (h : s.step a = some s') {fd : SocketFD} (ha : a.accepts = some fd) :
    s.disconnects a = none ∧ s.constructs a = none := by
  unfold RunStep.accepts at ha
  split at ha
  · obtain ⟨next, hjob⟩ := jobStep_of_step h
    have hpc := (ServerMemory.jobStep_accepted hjob).1
    constructor
    · change (s.disconnecting (.inl _)).map _ = none
      rw [disconnecting, hpc]
      rfl
    · change (s.job _).constructs = none
      rw [hpc]
      rfl
  · cases ha

/-- What is held after a step has been held, or is the client that the step accepts. -/
lemma step_holds (hs : s.Rooted) (hheld : s.Held) (h : s.step a = some s') {x : ℤ ⊕ (Fin n ⊕ κ)}
    {fd : SocketFD} (hx : s'.Holds x fd) : (∃ y, s.Holds y fd) ∨ a.accepts = some fd := by
  have hmoves := runMoves_of_step hs.steady h
  rcases step_openFDs hs h ((hheld.step hs hmoves).mem hx) with hopen | haccepts
  · left
    rcases x with i | t
    · rcases hmoves.holds_session hs hx with hold | hnew
      · exact ⟨_, hold⟩
      · -- the session gets the descriptor that the worker held
        cases ha : a.thread with
        | none =>
          rw [show s.constructs a = none by cases a <;> first | rfl | cases ha] at hnew
          cases hnew
        | some t =>
          cases hmoves.fdMoves ha with
          | construct hopen hhas hheld' hconstructs =>
            obtain ⟨-, rfl⟩ := Prod.mk.inj (Option.some.inj (hconstructs.symm.trans hnew))
            exact ⟨.inr t, hhas⟩
          | keep _ _ hnone | accept _ _ _ _ hnone | take _ _ _ _ _ hnone | close _ _ _ hnone =>
            cases hnone.symm.trans hnew
    · by_cases ha : a.thread = some t
      · cases hmoves.fdMoves ha with
        | keep hopen hsame hnone =>
          rcases hsame with hnone | hsame
          · cases hnone.symm.trans hx
          · exact ⟨.inr t, hsame.symm.trans hx⟩
        | accept hnonneg hnew hopen' hhas hnone =>
          obtain rfl := Option.some.inj (hhas.symm.trans hx)
          exact absurd hopen hnew
        | construct hopen hhas hheld' hconstructs => cases hheld'.symm.trans hx
        | @take i hswap hopen hvalid htaken hheld' hnone =>
          obtain rfl := Option.some.inj (hheld'.symm.trans hx)
          exact ⟨.inl i, hs.added_of_disconnecting hswap, rfl, hvalid⟩
        | close hhas hheld' hopen hnone => cases hheld'.symm.trans hx
      · rcases hmoves.threadHolds_of_ne ha with heq | hnone
        · exact ⟨.inr t, heq.symm.trans hx⟩
        · cases hnone.symm.trans hx
  · exact Or.inr haccepts

/-- Nobody holds a descriptor that has been closed. -/
lemma not_holds_of_close (hs : s.Rooted) (hheld : s.Held) (h : s.step a = some s')
    {t : Fin n ⊕ κ} (ha : a.thread = some t) {i : ℤ} {fd : SocketFD}
    (ht : s.disconnecting t = some (i, .close fd)) (x : ℤ ⊕ (Fin n ⊕ κ)) : ¬ s'.Holds x fd := by
  have hmoves := runMoves_of_step hs.steady h
  have hhas : s.Holds (.inr t) fd := threadHolds_of_disconnecting ht
  intro hx
  rcases x with j | t'
  · rcases hmoves.holds_session hs hx with hold | hnew
    · cases hheld.unique hold hhas
    · rw [constructs_of_disconnects (by rw [disconnects_eq_some.2 ⟨ha, i, ht⟩]; simp)] at hnew
      cases hnew
  · by_cases heq : t' = t
    · subst heq
      obtain ⟨dpc', hclose, hnext⟩ := hmoves.of_thread ha ht
      generalize s'.memory = m' at hclose
      cases hclose with
      | close => cases (threadHolds_of_disconnecting hnext).symm.trans hx
    · have ha' : a.thread ≠ some t' := fun ha' => heq (Option.some.inj (ha'.symm.trans ha))
      rcases hmoves.threadHolds_of_ne ha' with hsame | hnone
      · have hhas' : s.Holds (.inr t') fd := hsame.symm.trans hx
        exact heq (Sum.inr.inj (hheld.unique hhas' hhas))
      · cases hnone.symm.trans hx

/-- The descriptor is held and has not been deleted from the epoll in `Disconnect`. -/
def Undeleted (s : ServerRun n κ) (x : ℤ ⊕ (Fin n ⊕ κ)) (fd : SocketFD) : Prop :=
  s.Holds x fd ∧ ∀ t i, x = .inr t → s.disconnecting t ≠ some (i, .close fd)

lemma step_undeleted (hs : s.Rooted) (hheld : s.Held) (h : s.step a = some s')
    {x : ℤ ⊕ (Fin n ⊕ κ)} {fd : SocketFD} (hx : s'.Undeleted x fd) :
    (∃ y, s.Undeleted y fd) ∨ a.accepts = some fd := by
  have hmoves := runMoves_of_step hs.steady h
  refine (step_holds hs hheld h hx.1).imp_left ?_
  rintro ⟨y, hy⟩
  by_contra hno
  obtain ⟨t, i, rfl, ht⟩ : ∃ t i, y = .inr t ∧ s.disconnecting t = some (i, .close fd) := by
    by_contra hno'
    exact hno ⟨y, hy, fun t i heq ht => hno' ⟨t, i, heq, ht⟩⟩
  by_cases ha : a.thread = some t
  · exact not_holds_of_close hs hheld h ha ht x hx.1
  · -- a thread that is about to close the descriptor still is
    have ht' := hmoves.disconnecting_of_thread ht ha
    have hstill : s'.Holds (.inr t) fd := threadHolds_of_disconnecting ht'
    obtain rfl := (hheld.step hs hmoves).unique hx.1 hstill
    exact hx.2 t i rfl ht'

/-- A descriptor that has been deleted from the epoll is about to be closed. -/
lemma not_undeleted_of_epollDel (hs : s.Rooted) (hheld : s.Held) (h : s.step a = some s')
    {t : Fin n ⊕ κ} (ha : a.thread = some t) {i : ℤ} {fd : SocketFD}
    (ht : s.disconnecting t = some (i, .epollDel fd)) (x : ℤ ⊕ (Fin n ⊕ κ)) :
    ¬ s'.Undeleted x fd := by
  have hmoves := runMoves_of_step hs.steady h
  obtain ⟨dpc', hdel, hnext⟩ := hmoves.of_thread ha ht
  have ht' : s'.disconnecting t = some (i, .close fd) := by
    generalize s'.memory = m' at hdel
    cases hdel with
    | epollDel => exact hnext
  intro hx
  obtain rfl := (hheld.step hs hmoves).unique hx.1
    (show s'.Holds (.inr t) fd from threadHolds_of_disconnecting ht')
  exact hx.2 t i rfl ht'

/-! ## The log -/

variable {h : CloseLog (Fin n ⊕ κ)}

/-- The invariant.  A descriptor that is held stands for a client of its own, whose descriptor has
not been closed, nor deleted unless its holder is about to close it. -/
structure Logged (s : ServerRun n κ) (h : CloseLog (Fin n ⊕ κ)) : Prop where
  held : s.Held
  valid : ∀ x fd, s.Holds x fd → fd ≠ sINVALID_SOCKET_FD
  removed : Serials s.Undeleted h.ofFD h.accepted (h.removed.map Prod.snd)
  closed : Serials s.Holds h.ofFD h.accepted (h.closed.map Prod.snd)
  own : ∀ i fd, s.Holds (.inl i) fd → h.ofFD fd = h.ofSlot i
  taken : ∀ t i fd, s.removing t = some (i, fd) → h.ofFD fd = h.ofSlot i
  closing : ∀ t i fd, s.disconnecting t = some (i, .close fd) →
    ∀ e ∈ h.removed, e.2 = h.ofFD fd → e.1 = h.call t
  sameCall : ∀ e ∈ h.removed, ∀ e' ∈ h.closed, e.2 = e'.2 → e.1 = e'.1

omit [DecidableEq κ] in
lemma Logged.closesOnce (hs : s.Logged h) : h.ClosesOnce :=
  ⟨hs.removed.nodup, hs.closed.nodup, hs.sameCall⟩

omit [DecidableEq κ] in
lemma logged_start {memory : ℕ → Session} {maxSessions : ℕ} {uniqueNumber : BitVec 64}
    {listenFD : SocketFD} :
    (start n κ memory maxSessions uniqueNumber listenFD).Logged (CloseLog.empty (Fin n ⊕ κ)) := by
  have hnone : ∀ x fd, ¬ (start n κ memory maxSessions uniqueNumber listenFD).Holds x fd := by
    rintro (i | w | k) fd hx
    · obtain ⟨⟨id, hid, -⟩, -⟩ := hx
      cases hid
    · cases hx
    · cases hx
  refine ⟨held_start, fun x fd hx => absurd hx (hnone x fd), ⟨?_, ?_, ?_, ?_, List.nodup_nil⟩,
    ⟨?_, ?_, ?_, ?_, List.nodup_nil⟩, ?_, ?_, ?_, ?_⟩
  · exact fun x fd hx => absurd hx.1 (hnone x fd)
  · exact fun x y fd fd' hx => absurd hx.1 (hnone x fd)
  · exact fun x fd hx => absurd hx.1 (hnone x fd)
  · exact fun c hc => by cases hc
  · exact fun x fd hx => absurd hx (hnone x fd)
  · exact fun x y fd fd' hx => absurd hx (hnone x fd)
  · exact fun x fd hx => absurd hx (hnone x fd)
  · exact fun c hc => by cases hc
  · exact fun i fd hx => absurd hx (hnone _ fd)
  · exact fun t i fd _ => rfl
  · exact fun t i fd _ e he => by cases he
  · exact fun e he => by cases he

/-- What is recorded of a step that is not in `Disconnect`. -/
lemma recordClose_of_none (hdis : s.disconnects a = none) :
    (s.recordClose a h).removed = h.removed ∧ (s.recordClose a h).closed = h.closed ∧
      (s.recordClose a h).call = h.call := by
  unfold recordClose
  rw [hdis]
  split
  all_goals first | (rename_i heq; cases heq) | exact ⟨rfl, rfl, rfl⟩

omit [DecidableEq κ] in
lemma ofFD_disconnect [DecidableEq κ] (t : Fin n ⊕ κ) (pc : DisconnectPC) :
    (h.disconnect t pc).ofFD = h.ofFD ∧ (h.disconnect t pc).ofSlot = h.ofSlot ∧
      (h.disconnect t pc).accepted = h.accepted := by
  cases pc <;> exact ⟨rfl, rfl, rfl⟩

/-- A step that accepts no client numbers none. -/
lemma recordClose_of_not_accepts (ha : a.accepts = none) :
    (s.recordClose a h).ofFD = h.ofFD ∧ (s.recordClose a h).accepted = h.accepted := by
  unfold recordClose
  rw [ha]
  split
  · exact ⟨(ofFD_disconnect _ _).1, (ofFD_disconnect _ _).2.2⟩
  · exact ⟨rfl, rfl⟩
  · rename_i heq
    cases heq
  · exact ⟨rfl, rfl⟩

/-- A step that constructs no session gives no slot. -/
lemma ofSlot_recordClose (hnone : s.constructs a = none) :
    (s.recordClose a h).ofSlot = h.ofSlot := by
  unfold recordClose
  rw [hnone]
  split
  · exact (ofFD_disconnect _ _).2.1
  · rename_i _ heq
    cases heq
  · rfl
  · rfl

/-- A session that is constructed gets the client whose descriptor it has. -/
lemma recordClose_of_constructs {i : ℤ} {fd : SocketFD} (hc : s.constructs a = some (i, fd)) :
    (s.recordClose a h).ofSlot = Function.update h.ofSlot i (h.ofFD fd) := by
  have hdis : s.disconnects a = none := by
    by_contra hne
    cases (constructs_of_disconnects hne).symm.trans hc
  rw [recordClose, hdis, hc]

lemma recordClose_of_accepts (hstep : s.step a = some s') {fd : SocketFD}
    (ha : a.accepts = some fd) :
    (s.recordClose a h).ofFD = Function.update h.ofFD fd h.accepted ∧
      (s.recordClose a h).accepted = h.accepted + 1 := by
  obtain ⟨hdis, hc⟩ := of_accepts hstep ha
  rw [recordClose, hdis, hc, ha]
  exact ⟨rfl, rfl⟩

/-- A descriptor that is open stands for the same client. -/
lemma ofFD_recordClose (hstep : s.step a = some s') {fd : SocketFD}
    (hfd : fd ∈ s.memory.openFDs) : (s.recordClose a h).ofFD fd = h.ofFD fd := by
  cases ha : a.accepts with
  | none => rw [(recordClose_of_not_accepts ha).1]
  | some fd' =>
    have hne : fd ≠ fd' := by
      rintro rfl
      exact (new_of_accepts hstep ha).2 hfd
    rw [(recordClose_of_accepts hstep ha).1, Function.update_of_ne hne]

omit [DecidableEq κ] in
/-- If sessions are not deleted, a session is constructed in a slot that has had none. -/
lemma not_added_of_constructs (hs : s.Life) {i : ℤ} {fd : SocketFD}
    (hc : s.constructs a = some (i, fd)) : ¬ s.Added i := by
  cases a with
  | job w input =>
    have hpc : (s.job w).constructs = some (i, fd) := hc
    refine hs.reserved w i ?_
    generalize s.job w = pc at hpc
    unfold JobPC.constructs at hpc
    split at hpc
    · obtain ⟨rfl, -⟩ := Prod.mk.inj (Option.some.inj hpc)
      rfl
    · cases hpc
  | _ => cases hc

/-- A slot in which there is a session stands for the same client. -/
lemma ofSlot_recordClose_of_added (hs : s.Life) {i : ℤ} (hi : s.Added i) :
    (s.recordClose a h).ofSlot i = h.ofSlot i := by
  cases hc : s.constructs a with
  | none => rw [ofSlot_recordClose hc]
  | some p =>
    obtain ⟨i', fd⟩ := p
    have hne : i ≠ i' := by
      rintro rfl
      exact not_added_of_constructs hs hc hi
    rw [recordClose_of_constructs hc, Function.update_of_ne hne]

/-- A descriptor that a thread is about to delete or to close has been so before, or has been the
socket of the session. -/
lemma RunMoves.removing_cases (hs : s.Rooted) (hmoves : s.RunMoves s' a) {t : Fin n ⊕ κ} {i : ℤ}
    {fd : SocketFD} (ht : s'.removing t = some (i, fd)) :
    s.removing t = some (i, fd) ∨ s.Holds (.inl i) fd := by
  obtain ⟨dpc, ht, hremoves⟩ := removing_eq_some.1 ht
  rcases hmoves.disconnecting_cases ht with hold | ⟨dpc', hold, hdmoves⟩ | ⟨rfl, -⟩
  · exact Or.inl (removing_eq_some.2 ⟨dpc, hold, hremoves⟩)
  · have hi := hs.added_of_disconnecting hold
    generalize s'.memory = m' at hdmoves
    cases hdmoves with
    | swapValid hin hfd =>
      obtain rfl := Option.some.inj hremoves
      exact Or.inr ⟨hi, rfl, hfd⟩
    | epollDel oldFD =>
      obtain rfl := Option.some.inj hremoves
      exact Or.inl (removing_eq_some.2 ⟨_, hold, rfl⟩)
    | swapInvalid | close | notRecving | notSending => cases hremoves
  · cases hremoves

/-! ## One step -/

/-- The client of a descriptor that is held stays the same. -/
lemma Logged.ofFD_eq (hlog : s.Logged h) (hstep : s.step a = some s') {x : ℤ ⊕ (Fin n ⊕ κ)}
    {fd : SocketFD} (hx : s.Holds x fd) : (s.recordClose a h).ofFD fd = h.ofFD fd :=
  ofFD_recordClose hstep (hlog.held.mem hx)

lemma Logged.valid_step (hs : s.Life) (hlog : s.Logged h) (hstep : s.step a = some s')
    {x : ℤ ⊕ (Fin n ⊕ κ)} {fd : SocketFD} (hx : s'.Holds x fd) : fd ≠ sINVALID_SOCKET_FD := by
  rcases step_holds hs.toRooted hlog.held hstep hx with ⟨y, hy⟩ | haccepts
  · exact hlog.valid y fd hy
  · have hnonneg := (new_of_accepts hstep haccepts).1
    rintro rfl
    exact absurd hnonneg (by decide)

/-- The descriptor of a session is that of its client. -/
lemma Logged.own_step (hs : s.Life) (hlog : s.Logged h) (hstep : s.step a = some s') {i : ℤ}
    {fd : SocketFD} (hx : s'.Holds (.inl i) fd) :
    (s.recordClose a h).ofFD fd = (s.recordClose a h).ofSlot i := by
  rcases (runMoves_of_step hs.inv.steady hstep).holds_session hs.toRooted hx with hold | hnew
  · rw [hlog.ofFD_eq hstep hold, ofSlot_recordClose_of_added hs hold.1, hlog.own i fd hold]
  · have hnone : a.accepts = none := by
      by_contra hne
      obtain ⟨fd', ha⟩ := Option.ne_none_iff_exists'.1 hne
      cases (of_accepts hstep ha).2.symm.trans hnew
    rw [(recordClose_of_not_accepts hnone).1, recordClose_of_constructs hnew,
      Function.update_self]

/-- What a thread is about to delete or to close is the descriptor of the client of its session. -/
lemma Logged.taken_step (hs : s.Life) (hlog : s.Logged h) (hstep : s.step a = some s')
    {t : Fin n ⊕ κ} {i : ℤ} {fd : SocketFD} (ht : s'.removing t = some (i, fd)) :
    (s.recordClose a h).ofFD fd = (s.recordClose a h).ofSlot i := by
  have hrooted := hs.toRooted
  rcases (runMoves_of_step hs.inv.steady hstep).removing_cases hrooted ht with hold | hold
  · obtain ⟨dpc, hdpc, hremoves⟩ := removing_eq_some.1 hold
    have hhas : s.Holds (.inr t) fd := (threadHolds_of_disconnecting hdpc).trans hremoves
    rw [hlog.ofFD_eq hstep hhas,
      ofSlot_recordClose_of_added hs (hrooted.added_of_disconnecting hdpc), hlog.taken t i fd hold]
  · rw [hlog.ofFD_eq hstep hold, ofSlot_recordClose_of_added hs hold.1, hlog.own i fd hold]

/-- A thread that is about to close a descriptor has been so, or has just deleted its
registration. -/
lemma RunMoves.closing_cases (hmoves : s.RunMoves s' a) {t : Fin n ⊕ κ} {i : ℤ} {fd : SocketFD}
    (ht : s'.disconnecting t = some (i, .close fd)) :
    (a.thread ≠ some t ∧ s.disconnecting t = some (i, .close fd)) ∨
      (a.thread = some t ∧ s.disconnecting t = some (i, .epollDel fd)) := by
  by_cases ha : a.thread = some t
  · refine Or.inr ⟨ha, ?_⟩
    rcases hmoves.disconnecting_cases ht with hold | ⟨dpc', hold, hdmoves⟩ | ⟨hne, -⟩
    · obtain ⟨dpc', hdmoves, hnext⟩ := hmoves.of_thread ha hold
      generalize s'.memory = m' at hdmoves
      cases hdmoves with
      | close => cases ht.symm.trans hnext
    · generalize s'.memory = m' at hdmoves
      cases hdmoves with
      | epollDel => exact hold
    · cases hne
  · refine Or.inl ⟨ha, ?_⟩
    rcases hmoves.disconnecting_cases ht with hold | ⟨dpc', hold, -⟩ | ⟨hne, -⟩
    · exact hold
    · have hsame := hmoves.disconnecting_of_thread hold ha
      rw [ht] at hsame
      rw [hold, hsame]
    · cases hne

/-- What is left to show of a step: the lists of the descriptors deleted and closed, and by which
calls. -/
lemma Logged.of_step (hs : s.Life) (hlog : s.Logged h) (hstep : s.step a = some s')
    (hremoved : Serials s'.Undeleted (s.recordClose a h).ofFD (s.recordClose a h).accepted
      ((s.recordClose a h).removed.map Prod.snd))
    (hclosed : Serials s'.Holds (s.recordClose a h).ofFD (s.recordClose a h).accepted
      ((s.recordClose a h).closed.map Prod.snd))
    (hclosing : ∀ t i fd, s'.disconnecting t = some (i, .close fd) →
      ∀ e ∈ (s.recordClose a h).removed, e.2 = (s.recordClose a h).ofFD fd →
        e.1 = (s.recordClose a h).call t)
    (hsame : ∀ e ∈ (s.recordClose a h).removed, ∀ e' ∈ (s.recordClose a h).closed,
      e.2 = e'.2 → e.1 = e'.1) : s'.Logged (s.recordClose a h) where
  held := hlog.held.step hs.toRooted (runMoves_of_step hs.inv.steady hstep)
  valid _ _ hx := hlog.valid_step hs hstep hx
  removed := hremoved
  closed := hclosed
  own _ _ hx := hlog.own_step hs hstep hx
  taken _ _ _ ht := hlog.taken_step hs hstep ht
  closing := hclosing
  sameCall := hsame

/-- A step outside `Disconnect`. -/
lemma Logged.step_of_not_disconnects (hs : s.Life) (hlog : s.Logged h)
    (hstep : s.step a = some s') (hdis : s.disconnects a = none) :
    s'.Logged (s.recordClose a h) := by
  obtain ⟨hremoved, hclosed, hcall⟩ := recordClose_of_none (h := h) hdis
  have hholds : ∀ x fd, s'.Holds x fd → (∃ y, s.Holds y fd) ∨ a.accepts = some fd :=
    fun x fd hx => step_holds hs.toRooted hlog.held hstep hx
  have hundeleted : ∀ x fd, s'.Undeleted x fd → (∃ y, s.Undeleted y fd) ∨ a.accepts = some fd :=
    fun x fd hx => step_undeleted hs.toRooted hlog.held hstep hx
  have hserials : Serials s'.Undeleted (s.recordClose a h).ofFD (s.recordClose a h).accepted
        (h.removed.map Prod.snd) ∧
      Serials s'.Holds (s.recordClose a h).ofFD (s.recordClose a h).accepted
        (h.closed.map Prod.snd) := by
    cases haccepts : a.accepts with
    | none =>
      rw [haccepts] at hholds hundeleted
      rw [(recordClose_of_not_accepts haccepts).1, (recordClose_of_not_accepts haccepts).2]
      exact ⟨hlog.removed.mono fun x fd hx => (hundeleted x fd hx).resolve_right nofun,
        hlog.closed.mono fun x fd hx => (hholds x fd hx).resolve_right nofun⟩
    | some fd =>
      rw [haccepts] at hholds hundeleted
      have hnew : ∀ x, ¬ s.Holds x fd :=
        fun x hx => (new_of_accepts hstep haccepts).2 (hlog.held.mem hx)
      rw [(recordClose_of_accepts hstep haccepts).1, (recordClose_of_accepts hstep haccepts).2]
      refine ⟨hlog.removed.acquire (fun x hx => hnew x hx.1) fun x u hx => ?_,
        hlog.closed.acquire hnew fun x u hx => ?_⟩
      · exact (hundeleted x u hx).imp_right fun heq => (Option.some.inj heq).symm
      · exact (hholds x u hx).imp_right fun heq => (Option.some.inj heq).symm
  refine hlog.of_step hs hstep (hremoved ▸ hserials.1) (hclosed ▸ hserials.2) ?_ ?_
  · intro t i fd ht e he hfd
    rcases (runMoves_of_step hs.inv.steady hstep).closing_cases ht with ⟨-, hold⟩ | ⟨ha, hold⟩
    · have hhas : s.Holds (.inr t) fd := threadHolds_of_disconnecting hold
      rw [hlog.ofFD_eq hstep hhas] at hfd
      rw [hcall]
      exact hlog.closing t i fd hold e (hremoved ▸ he) hfd
    · cases hdis.symm.trans (disconnects_eq_some.2 ⟨ha, i, hold⟩)
  · rw [hremoved, hclosed]
    exact hlog.sameCall

section Disconnects

variable {t : Fin n ⊕ κ} {i : ℤ} {fd : SocketFD} {pc : DisconnectPC}

lemma recordClose_of_disconnects (ha : a.thread = some t) (ht : s.disconnecting t = some (i, pc)) :
    s.recordClose a h = h.disconnect t pc := by
  rw [recordClose, disconnects_eq_some.2 ⟨ha, i, ht⟩]

/-- A thread in `Disconnect` accepts no client. -/
lemma not_accepts_of_disconnecting (hstep : s.step a = some s') (ha : a.thread = some t)
    (ht : s.disconnecting t = some (i, pc)) : a.accepts = none := by
  by_contra hne
  obtain ⟨fd, haccepts⟩ := Option.ne_none_iff_exists'.1 hne
  cases (of_accepts hstep haccepts).1.symm.trans (disconnects_eq_some.2 ⟨ha, i, ht⟩)

/-- A thread in `Disconnect` gives nobody a descriptor that nobody has held. -/
lemma Logged.holds_before (hs : s.Life) (hlog : s.Logged h) (hstep : s.step a = some s')
    (ha : a.thread = some t) (ht : s.disconnecting t = some (i, pc)) (x : ℤ ⊕ (Fin n ⊕ κ))
    (u : SocketFD) (hx : s'.Holds x u) : ∃ y, s.Holds y u := by
  refine (step_holds hs.toRooted hlog.held hstep hx).resolve_right ?_
  rw [not_accepts_of_disconnecting hstep ha ht]
  nofun

lemma Logged.undeleted_before (hs : s.Life) (hlog : s.Logged h) (hstep : s.step a = some s')
    (ha : a.thread = some t) (ht : s.disconnecting t = some (i, pc)) (x : ℤ ⊕ (Fin n ⊕ κ))
    (u : SocketFD) (hx : s'.Undeleted x u) : ∃ y, s.Undeleted y u := by
  refine (step_undeleted hs.toRooted hlog.held hstep hx).resolve_right ?_
  rw [not_accepts_of_disconnecting hstep ha ht]
  nofun

/-- The exchange and the tests of the flags: nothing is deleted or closed, and the other threads are
in the same calls. -/
lemma Logged.step_keeps (hs : s.Life) (hlog : s.Logged h) (hstep : s.step a = some s')
    (ha : a.thread = some t) (ht : s.disconnecting t = some (i, pc))
    (hpc : pc.removes = none ∨ pc = .swap) : s'.Logged (s.recordClose a h) := by
  have hundeleted := hlog.undeleted_before hs hstep ha ht
  have hholds := hlog.holds_before hs hstep ha ht
  have hkeeps : (h.disconnect t pc).removed = h.removed ∧ (h.disconnect t pc).closed = h.closed ∧
      ∀ t' ≠ t, (h.disconnect t pc).call t' = h.call t' := by
    cases pc with
    | swap => exact ⟨rfl, rfl, fun t' hne => Function.update_of_ne hne ..⟩
    | epollDel | close => rcases hpc with hpc | hpc <;> cases hpc
    | isRecving | isSending | onDisconnected => exact ⟨rfl, rfl, fun _ _ => rfl⟩
  obtain ⟨hremoved, hclosed, hcall⟩ := hkeeps
  obtain ⟨hofFD, -, haccepted⟩ := ofFD_disconnect (h := h) t pc
  refine hlog.of_step hs hstep ?_ ?_ ?_ ?_ <;>
    rw [recordClose_of_disconnects (h := h) ha ht]
  · rw [hofFD, haccepted, hremoved]
    exact hlog.removed.mono hundeleted
  · rw [hofFD, haccepted, hclosed]
    exact hlog.closed.mono hholds
  · rw [hofFD, hremoved]
    intro t' i' fd' ht' e he hfd
    rcases (runMoves_of_step hs.inv.steady hstep).closing_cases ht' with ⟨hne, hold⟩ | ⟨ha', hold⟩
    · have hne' : t' ≠ t := by
        rintro rfl
        exact hne ha
      exact (hlog.closing t' i' fd' hold e he hfd).trans (hcall t' hne').symm
    · obtain rfl := Option.some.inj (ha'.symm.trans ha)
      obtain ⟨-, rfl⟩ := Prod.mk.inj (Option.some.inj (hold.symm.trans ht))
      rcases hpc with hpc | hpc <;> cases hpc
  · rw [hremoved, hclosed]
    exact hlog.sameCall

/-- The registration of a descriptor is deleted. -/
lemma Logged.step_epollDel (hs : s.Life) (hlog : s.Logged h) (hstep : s.step a = some s')
    (ha : a.thread = some t) (ht : s.disconnecting t = some (i, .epollDel fd)) :
    s'.Logged (s.recordClose a h) := by
  have hhas : s.Holds (.inr t) fd := threadHolds_of_disconnecting ht
  have hin : s.Undeleted (.inr t) fd := by
    refine ⟨hhas, fun t' i' heq ht' => ?_⟩
    obtain rfl := Sum.inr.inj heq
    cases ht.symm.trans ht'
  have hundeleted := hlog.undeleted_before hs hstep ha ht
  have hholds := hlog.holds_before hs hstep ha ht
  have hremoved : Serials s'.Undeleted h.ofFD h.accepted
      (h.removed.map Prod.snd ++ [h.ofFD fd]) := by
    refine hlog.removed.giveBack hin fun x u hx => ⟨hundeleted x u hx, ?_⟩
    rintro rfl
    exact not_undeleted_of_epollDel hs.toRooted hlog.held hstep ha ht x hx
  refine hlog.of_step hs hstep ?_ ?_ ?_ ?_ <;>
    rw [recordClose_of_disconnects (h := h) ha ht]
  · change Serials _ _ _ ((h.removed ++ [(h.call t, h.ofFD fd)]).map Prod.snd)
    rw [List.map_append]
    exact hremoved
  · exact hlog.closed.mono hholds
  · intro t' i' fd' ht' e he hfd
    have hcases := (runMoves_of_step hs.inv.steady hstep).closing_cases ht'
    rcases List.mem_append.1 he with hold' | hlast
    · rcases hcases with ⟨hne, hold⟩ | ⟨ha', hold⟩
      · exact hlog.closing t' i' fd' hold e hold' hfd
      · -- the registration has not been deleted before
        obtain rfl := Option.some.inj (ha'.symm.trans ha)
        obtain ⟨-, hpc⟩ := Prod.mk.inj (Option.some.inj (hold.symm.trans ht))
        obtain rfl := DisconnectPC.epollDel.inj hpc
        exact absurd (hfd ▸ List.mem_map_of_mem hold') (hlog.removed.notReturned hin)
    · obtain rfl := List.mem_singleton.1 hlast
      rcases hcases with ⟨hne, hold⟩ | ⟨ha', hold⟩
      · -- another thread is about to close another descriptor
        have hhas' : s.Holds (.inr t') fd' := threadHolds_of_disconnecting hold
        obtain rfl := hlog.closed.inj hhas hhas' hfd
        obtain rfl := Sum.inr.inj (hlog.held.unique hhas hhas')
        exact absurd ha hne
      · rw [Option.some.inj (ha.symm.trans ha')]
        rfl
  · intro e he e' he' heq
    rcases List.mem_append.1 he with hold | hlast
    · exact hlog.sameCall e hold e' he' heq
    · obtain rfl := List.mem_singleton.1 hlast
      have hmem : e'.2 ∈ h.closed.map Prod.snd := List.mem_map_of_mem he'
      rw [← heq] at hmem
      exact absurd hmem (hlog.closed.notReturned hhas)

/-- A descriptor is closed. -/
lemma Logged.step_close (hs : s.Life) (hlog : s.Logged h) (hstep : s.step a = some s')
    (ha : a.thread = some t) (ht : s.disconnecting t = some (i, .close fd)) :
    s'.Logged (s.recordClose a h) := by
  have hhas : s.Holds (.inr t) fd := threadHolds_of_disconnecting ht
  have hundeleted := hlog.undeleted_before hs hstep ha ht
  have hholds := hlog.holds_before hs hstep ha ht
  have hclosed : Serials s'.Holds h.ofFD h.accepted (h.closed.map Prod.snd ++ [h.ofFD fd]) := by
    refine hlog.closed.giveBack hhas fun x u hx => ⟨hholds x u hx, ?_⟩
    rintro rfl
    exact not_holds_of_close hs.toRooted hlog.held hstep ha ht x hx
  refine hlog.of_step hs hstep ?_ ?_ ?_ ?_ <;>
    rw [recordClose_of_disconnects (h := h) ha ht]
  · exact hlog.removed.mono hundeleted
  · change Serials _ _ _ ((h.closed ++ [(h.call t, h.ofFD fd)]).map Prod.snd)
    rw [List.map_append]
    exact hclosed
  · intro t' i' fd' ht' e he hfd
    rcases (runMoves_of_step hs.inv.steady hstep).closing_cases ht' with ⟨-, hold⟩ | ⟨ha', hold⟩
    · exact hlog.closing t' i' fd' hold e he hfd
    · obtain rfl := Option.some.inj (ha'.symm.trans ha)
      cases hold.symm.trans ht
  · intro e he e' he' heq
    rcases List.mem_append.1 he' with hold | hlast
    · exact hlog.sameCall e he e' hold heq
    · obtain rfl := List.mem_singleton.1 hlast
      exact hlog.closing t i fd ht e he heq

end Disconnects

/-- **One step.** -/
theorem Logged.step (hs : s.Life) (hlog : s.Logged h) (hstep : s.step a = some s') :
    s'.Logged (s.recordClose a h) := by
  cases hdis : s.disconnects a with
  | none => exact hlog.step_of_not_disconnects hs hstep hdis
  | some p =>
    obtain ⟨ha, i, ht⟩ := disconnects_eq_some.1 hdis
    cases hpc : p.2 with
    | swap => exact hlog.step_keeps hs hstep ha ht (Or.inr hpc)
    | epollDel fd => exact hlog.step_epollDel hs hstep ha (hpc ▸ ht)
    | close fd => exact hlog.step_close hs hstep ha (hpc ▸ ht)
    | isRecving | isSending | onDisconnected =>
      exact hlog.step_keeps hs hstep ha ht (Or.inl (by rw [hpc]; rfl))

omit [DecidableEq κ] in
lemma Logged.removesOwn (hlog : s.Logged h) (a : RunStep n κ) : RemovesOwn (s, h) a := by
  rintro t - ⟨i, fd⟩ ht
  obtain ⟨dpc, hdpc, hremoves⟩ := removing_eq_some.1 ht
  have hhas : s.Holds (.inr t) fd := (threadHolds_of_disconnecting hdpc).trans hremoves
  refine ⟨hlog.held.mem hhas, hlog.taken t i fd ht, fun j hj heq => ?_, fun t' ht' => ?_⟩
  · cases hlog.held.unique hhas (show s.Holds (.inl j) fd from ⟨hj, heq, hlog.valid _ _ hhas⟩)
  · exact Sum.inr.inj (hlog.held.unique (show s.Holds (.inr t') fd from ht') hhas)

end ServerRun

open ServerRun

/-- **`Disconnect` closes every descriptor once.**  In every run of a server with any number of
threads that send and disconnect, whatever numbers the kernel gives to new clients, the descriptor
of a client is deleted from the epoll and closed at most once, by one call of `Disconnect`, and
what a call deletes and closes is the descriptor of the client of its own session. -/
theorem server_closesOnce {n : ℕ} {κ : Type} [DecidableEq κ] (memory : ℕ → Session)
    {maxSessions : ℕ} (hmax : maxSessions < 65536) (uniqueNumber : BitVec 64)
    (listenFD : SocketFD) (as : List (RunStep n κ)) :
    ((machine n κ).withHistory recordClose).Always (fun p => p.2.ClosesOnce)
        (start n κ memory maxSessions uniqueNumber listenFD, CloseLog.empty _) as ∧
      ((machine n κ).withHistory recordClose).Along RemovesOwn
        (start n κ memory maxSessions uniqueNumber listenFD, CloseLog.empty _) as := by
  have hstep : ∀ (p : ServerRun n κ × CloseLog (Fin n ⊕ κ)) a p', (p.1.Life ∧ p.1.Logged p.2) →
      ((machine n κ).withHistory recordClose).step p a = some p' →
        p'.1.Life ∧ p'.1.Logged p'.2 := by
    rintro p a p' ⟨hlife, hlog⟩ h
    obtain ⟨hstep, hrecord⟩ := StepMachine.withHistory_step_eq_some.1 h
    exact ⟨hlife.step hstep, hrecord ▸ hlog.step hlife hstep⟩
  have hstart : (start n κ memory maxSessions uniqueNumber listenFD).Life ∧
      (start n κ memory maxSessions uniqueNumber listenFD).Logged (CloseLog.empty _) :=
    ⟨life_start hmax, logged_start⟩
  exact ⟨StepMachine.always_of_invariant hstep (fun _ hs => hs.2.closesOnce) hstart as,
    StepMachine.along_of_invariant hstep (fun _ a hs => hs.2.removesOwn a) hstart as⟩

/-- A client is disconnected, and the kernel gives the number of its descriptor to the next one,
which is disconnected too. -/
def ServerRun.closeReused : List (RunStep 2 Unit) :=
  ServerRun.receive ++ [.disconnect () 0, .sender () .run, .sender () .run, .sender () .run] ++
    ServerRun.acceptAgain ++ [.sender () .run, .disconnect () 1, .sender () .run, .sender () .run,
      .sender () .run]

/-- Two clients get the same number one after the other, and each is closed once. -/
theorem server_closesOnce_reused :
    (∃ p ∈ ((machine 2 Unit).withHistory recordClose).exec
      (start 2 Unit (fun _ => Session.zeroMemory) 2 0 3, CloseLog.empty _) closeReused,
      p.2.removed = [(0, 0), (1, 1)] ∧ p.2.closed = [(0, 0), (1, 1)]) ∧
    ((machine 2 Unit).withHistory recordClose).Always (fun p => p.2.ClosesOnce)
        (start 2 Unit (fun _ => Session.zeroMemory) 2 0 3, CloseLog.empty _) closeReused ∧
      ((machine 2 Unit).withHistory recordClose).Along RemovesOwn
        (start 2 Unit (fun _ => Session.zeroMemory) 2 0 3, CloseLog.empty _) closeReused :=
  ⟨by decide +kernel, server_closesOnce _ (by decide) 0 3 closeReused⟩

end CoreServer
