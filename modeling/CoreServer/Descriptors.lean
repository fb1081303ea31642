import CoreServer.Registrations
import CoreServer.Lib.Leases

/-!
# The holders of the descriptors

The descriptor of a client is held by the worker that has accepted it, then by the session that
`AddSession` constructs with it, and then by the thread that takes it from the session in
`Disconnect`.  Its number is not used again before this thread has closed it: no descriptor has
two holders, and every one that is held is open.
-/

namespace CoreServer

/-- The descriptor that a worker has accepted and not put into a session, or that it has taken
from a session and not closed. -/
def JobPC.holdsFD : JobPC → Option SocketFD
  | accept (.onAccepeted clientFD) | accept (.close clientFD) => some clientFD
  | accept (.alloc clientFD) | accept (.number clientFD _) => some clientFD
  | accept (.construct clientFD _ _) => some clientFD
  | pc => pc.disconnecting.bind fun p => p.2.removes

/-- The descriptor that a thread has taken from a session and not closed. -/
def SendPC.holdsFD (pc : SendPC) : Option SocketFD := pc.disconnecting.bind fun p => p.2.removes

namespace ServerMemory

/-- What a step does to the open descriptors: of a thread that holds `held` before it and `held'`
after it, stands at `disconnecting` in `Disconnect`, and constructs a session as `constructs`
says. -/
inductive FDMoves (m m' : ServerMemory) (held held' : Option SocketFD)
    (disconnecting : Option (ℤ × DisconnectPC)) (constructs : Option (ℤ × SocketFD)) : Prop
  | keep (hopen : m'.openFDs = m.openFDs) (hheld : held' = none ∨ held' = held)
      (hnone : constructs = none)
  | accept {fd : SocketFD} (hnonneg : 0 ≤ fd) (hnew : fd ∉ m.openFDs)
      (hopen : m'.openFDs = fd :: m.openFDs) (hheld' : held' = some fd) (hnone : constructs = none)
  | construct {i : ℤ} {fd : SocketFD} (hopen : m'.openFDs = m.openFDs) (hheld : held = some fd)
      (hheld' : held' = none) (hconstructs : constructs = some (i, fd))
  | take {i : ℤ} (hswap : disconnecting = some (i, .swap)) (hopen : m'.openFDs = m.openFDs)
      (hvalid : (m.session i).mSessionFD ≠ sINVALID_SOCKET_FD)
      (htaken : (m'.session i).mSessionFD = sINVALID_SOCKET_FD)
      (hheld' : held' = some (m.session i).mSessionFD) (hnone : constructs = none)
  | close {fd : SocketFD} (hheld : held = some fd) (hheld' : held' = none)
      (hopen : m'.openFDs = m.openFDs.erase fd) (hnone : constructs = none)

variable {m m' : ServerMemory}

lemma DisconnectMoves.fdMoves {slot : ℤ} {pc : DisconnectPC} {pc' : Option DisconnectPC}
    (h : DisconnectMoves m slot pc m' pc') :
    FDMoves m m' pc.removes (pc'.bind DisconnectPC.removes) (some (slot, pc)) none := by
  cases h with
  | swapValid hin hfd =>
    refine .take rfl rfl hfd ?_ rfl rfl
    rw [session_updateSession_self hin.1]
    rfl
  | swapInvalid hin hfd => exact .keep rfl (Or.inl rfl) rfl
  | epollDel oldFD => exact .keep rfl (Or.inr rfl) rfl
  | close oldFD => exact .close rfl rfl rfl rfl
  | recving hin hrecving | notRecving hin hrecving => exact .keep rfl (Or.inl rfl) rfl
  | sending hin hsending | notSending hin hsending => exact .keep rfl (Or.inl rfl) rfl
  | onDisconnected hin => exact .keep rfl (Or.inl rfl) rfl

lemma AcceptMoves.fdMoves {pc : AcceptPC} {next : Next} (h : AcceptMoves m pc m' next) :
    FDMoves m m' (JobPC.accept pc).holdsFD next.pc.holdsFD none (JobPC.accept pc).constructs := by
  cases h with
  | accepted hnonneg hnew => exact .accept hnonneg hnew rfl rfl rfl
  | construct hin => exact .construct rfl rfl rfl rfl
  | close => exact .close rfl rfl rfl rfl
  | wanted | refused | number => exact .keep rfl (Or.inr rfl) rfl
  | allocNone hpool | alloc hpool => exact .keep rfl (Or.inr rfl) rfl
  | interrupted | noClient | notRegistered | onConnected => exact .keep rfl (Or.inl rfl) rfl
  | getSession hin hid => exact .keep rfl (Or.inl rfl) rfl
  | registered hopen hadd => exact .keep rfl (Or.inl rfl) rfl
  | rearmed hmod => exact .keep rfl (Or.inl rfl) rfl
  | notRearmed => exact .keep rfl (Or.inl rfl) rfl

lemma RecvMoves.fdMoves {slot : ℤ} {pc : RecvPC} {next : Next}
    (h : RecvMoves m slot pc m' next) :
    FDMoves m m' (JobPC.recv slot pc).holdsFD next.pc.holdsFD (JobPC.recv slot pc).disconnecting
      none := by
  cases h with
  | disconnect hmoves | disconnectAfterMod hmoves => exact hmoves.fdMoves
  | disconnected hmoves | disconnectedAfterMod hmoves => exact hmoves.fdMoves
  | fdInvalid hfd | fdValid hfd => exact .keep rfl (Or.inl rfl) rfl
  | validSocket hfd | invalidSocket hfd => exact .keep rfl (Or.inl rfl) rfl
  | recvArgs | ended | interrupted | drained => exact .keep rfl (Or.inl rfl) rfl
  | noData | epollModArgs | notRearmed => exact .keep rfl (Or.inl rfl) rfl
  | received hin hb | onRecvReturned hin hb => exact .keep rfl (Or.inl rfl) rfl
  | setReceiveState hin | setReceiveStateAfterMod hin => exact .keep rfl (Or.inl rfl) rfl
  | onRecv hin hused hpos => exact .keep rfl (Or.inl rfl) rfl
  | rearmed hmod => exact .keep rfl (Or.inl rfl) rfl

/-- **What a step of a job does to the descriptors.** -/
theorem JobMoves.fdMoves {pc : JobPC} {next : Next} (h : JobMoves m pc m' next) :
    FDMoves m m' pc.holdsFD next.pc.holdsFD pc.disconnecting pc.constructs := by
  cases h with
  | poll hmoves => cases hmoves <;> exact .keep rfl (Or.inl rfl) rfl
  | accept hmoves => exact hmoves.fdMoves
  | recv hmoves => exact hmoves.fdMoves
  | complete => exact .keep rfl (Or.inl rfl) rfl

/-- **What a step of a thread that sends does to the descriptors.** -/
theorem SendMoves.fdMoves {pc pc' : SendPC} (h : SendMoves m pc m' pc') :
    FDMoves m m' pc.holdsFD pc'.holdsFD pc.disconnecting none := by
  by_cases hpc : ∃ i dpc, pc.disconnecting = some (i, dpc)
  · obtain ⟨i, dpc, hpc⟩ := hpc
    obtain ⟨dpc', hmoves, hpc'⟩ := h.of_disconnecting hpc
    have hheld : pc.holdsFD = dpc.removes := by rw [SendPC.holdsFD, hpc, Option.bind_some]
    have hheld' : pc'.holdsFD = dpc'.bind DisconnectPC.removes := by
      rw [SendPC.holdsFD, hpc']
      cases dpc' <;> rfl
    rw [hheld, hheld', hpc]
    exact hmoves.fdMoves
  · -- a thread that is not in `Disconnect` comes to its swap at most
    have hopen : m'.openFDs = m.openFDs := by
      have hdoSend : ∀ {slot pc₀ pc'}, pc = .doSend slot pc₀ →
          DoSendMoves m slot pc₀ m' pc' → m'.openFDs = m.openFDs := by
        rintro slot pc₀ pc' rfl hmoves
        cases hmoves with
        | disconnect hmoves | disconnected hmoves => exact absurd ⟨_, _, rfl⟩ hpc
        | _ => rfl
      cases h with
      | doSend hmoves | done hmoves => exact hdoSend rfl hmoves
      | disconnect hmoves | disconnected hmoves => exact absurd ⟨_, _, rfl⟩ hpc
      | _ => rfl
    refine .keep hopen (Or.inl ?_) rfl
    rw [SendPC.holdsFD, Option.bind_eq_none_iff]
    rintro ⟨i, dpc⟩ hpc'
    rcases h.disconnecting_cases hpc' with ⟨dpc', hold, -⟩ | ⟨rfl, -⟩
    · exact absurd ⟨i, dpc', hold⟩ hpc
    · rfl

end ServerMemory

namespace ServerRun

variable {n : ℕ} {κ : Type} {s s' : ServerRun n κ}

/-- The descriptor that a thread holds. -/
def threadHolds (s : ServerRun n κ) : Fin n ⊕ κ → Option SocketFD
  | .inl w => (s.job w).holdsFD
  | .inr k => (s.sender k).holdsFD

/-- The descriptor is the socket of a session that has been added, or a thread holds it. -/
def Holds (s : ServerRun n κ) : ℤ ⊕ (Fin n ⊕ κ) → SocketFD → Prop
  | .inl i, fd => s.Added i ∧ (s.session i).mSessionFD = fd ∧ fd ≠ sINVALID_SOCKET_FD
  | .inr t, fd => s.threadHolds t = some fd

/-- Every descriptor that is held is open, and has one holder. -/
def Held (s : ServerRun n κ) : Prop := Leased s.Holds s.memory.openFDs

lemma held_start {memory : ℕ → Session} {maxSessions : ℕ} {uniqueNumber : BitVec 64}
    {listenFD : SocketFD} : (start n κ memory maxSessions uniqueNumber listenFD).Held := by
  have hnone : ∀ x fd, ¬ (start n κ memory maxSessions uniqueNumber listenFD).Holds x fd := by
    rintro (i | w | k) fd h
    · obtain ⟨⟨id, hid, -⟩, -⟩ := h
      cases hid
    · cases h
    · cases h
  exact ⟨fun x fd h => absurd h (hnone x fd), fun x y fd h => absurd h (hnone x fd)⟩

variable [DecidableEq κ] {a : RunStep n κ}

/-- A session that a step adds is one that it constructs. -/
lemma RunMoves.added_cases (hs : s.Rooted) (h : s.RunMoves s' a) {i : ℤ} (hi : s'.Added i) :
    s.Added i ∨ s.constructs a = some (i, (s'.session i).mSessionFD) := by
  have hsame : s'.added = s.added → s.Added i := fun heq => by rwa [Added, heq] at hi
  cases h with
  | quietPool h | quietStart h => exact Or.inl (hsame h.added_eq)
  | send hadded h | disconnect hadded h => exact Or.inl (hsame h.added_eq)
  | sender h => exact Or.inl (hsame h.added_eq)
  | @job w input next h =>
    rcases JobPC.adds_eq_nil_or (s.job w) with hnone | ⟨clientFD, index, id, hpc⟩
    · exact Or.inl (hsame (h.added_of_adds hnone))
    · obtain ⟨hadded, hid, hsession⟩ := h.construct_eq hs hpc
      obtain ⟨id', hid', rfl⟩ := hi
      rw [hadded, List.mem_append] at hid'
      rcases hid' with hid' | hid'
      · exact Or.inl ⟨id', hid', rfl⟩
      · obtain rfl := List.mem_singleton.1 hid'
        rw [hid, hsession]
        refine Or.inr ?_
        rw [constructs, hpc]
        rfl

/-- A session holds the descriptor that it held, or the one with which it is constructed. -/
lemma RunMoves.holds_session (hs : s.Rooted) (h : s.RunMoves s' a) {i : ℤ} {fd : SocketFD}
    (hfd : s'.Holds (.inl i) fd) :
    s.Holds (.inl i) fd ∨ s.constructs a = some (i, fd) := by
  obtain ⟨hi, rfl, hvalid⟩ := hfd
  rcases h.added_cases hs hi with hold | hnew
  · rcases h.mSessionFD_change hold.nonneg with heq | hnew | ⟨hinvalid, -⟩
    · exact Or.inl ⟨hold, heq.symm, hvalid⟩
    · exact Or.inr hnew
    · exact absurd hinvalid hvalid
  · exact Or.inr hnew

/-- A thread that does not move holds what it held, or nothing. -/
lemma RunMoves.threadHolds_of_ne (h : s.RunMoves s' a) {t : Fin n ⊕ κ} (ht : a.thread ≠ some t) :
    s'.threadHolds t = s.threadHolds t ∨ s'.threadHolds t = none := by
  have hquiet : s.Quiet s' → s'.threadHolds t = s.threadHolds t ∨ s'.threadHolds t = none := by
    intro h
    cases t with
    | inl w =>
      exact Or.inl (h.job_congr (f := JobPC.holdsFD) (fun j => by cases j <;> rfl) w)
    | inr k => exact Or.inl (by rw [threadHolds, h.sender_eq, threadHolds])
  have hcall : ∀ {k pc}, pc.holdsFD = none → s.CallMove s' k pc →
      s'.threadHolds t = s.threadHolds t ∨ s'.threadHolds t = none := by
    intro k pc hpc h
    cases t with
    | inl w => exact Or.inl (by rw [threadHolds, ServerRun.job, h.server_eq, threadHolds])
    | inr k' =>
      by_cases heq : k' = k
      · subst heq
        exact Or.inr (by rw [threadHolds, h.sender_self, hpc])
      · exact Or.inl (by rw [threadHolds, h.sender_of_ne heq, threadHolds])
  cases h with
  | quietPool h | quietStart h => exact hquiet h
  | send hadded h | disconnect hadded h => exact hcall rfl h
  | @job w input next h =>
    cases t with
    | inl w' =>
      have hne : w' ≠ w := fun heq => ht (heq ▸ rfl)
      exact Or.inl (by rw [threadHolds, h.job_of_ne hne, threadHolds])
    | inr k => exact Or.inl (by rw [threadHolds, h.sender_eq, threadHolds])
  | @sender k input pc h =>
    cases t with
    | inl w => exact Or.inl (by rw [threadHolds, h.job_eq, threadHolds])
    | inr k' =>
      have hne : k' ≠ k := fun heq => ht (heq ▸ rfl)
      exact Or.inl (by rw [threadHolds, h.sender_of_ne hne, threadHolds])

/-- What the thread that moves does to the descriptors. -/
lemma RunMoves.fdMoves (h : s.RunMoves s' a) {t : Fin n ⊕ κ} (ht : a.thread = some t) :
    ServerMemory.FDMoves s.memory s'.memory (s.threadHolds t) (s'.threadHolds t)
      (s.disconnecting t) (s.constructs a) := by
  cases h with
  | job h =>
    obtain rfl := Option.some.inj ht
    rw [threadHolds, threadHolds, h.job_self]
    exact h.moves.fdMoves
  | sender h =>
    obtain rfl := Option.some.inj ht
    rw [threadHolds, threadHolds, h.sender_self]
    exact h.moves.fdMoves
  | quietPool h | quietStart h => cases ht
  | send hadded h | disconnect hadded h => cases ht

/-- Only a thread opens and closes descriptors. -/
lemma RunMoves.openFDs_eq (h : s.RunMoves s' a) (ha : a.thread = none) :
    s'.memory.openFDs = s.memory.openFDs := by
  cases h with
  | quietPool h | quietStart h => exact h.openFDs_eq
  | send hadded h | disconnect hadded h => rw [memory, h.server_eq]
  | job h | sender h => cases ha

/-- A descriptor that is opened is not negative. -/
lemma RunMoves.openFDs_subset (h : s.RunMoves s' a) {fd : SocketFD}
    (hfd : fd ∈ s'.memory.openFDs) : fd ∈ s.memory.openFDs ∨ 0 ≤ fd := by
  cases ha : a.thread with
  | none => exact Or.inl (h.openFDs_eq ha ▸ hfd)
  | some t =>
    cases h.fdMoves ha with
    | accept hnonneg hnew hopen hheld' hnone =>
      rw [hopen, List.mem_cons] at hfd
      rcases hfd with rfl | hold
      · exact Or.inr hnonneg
      · exact Or.inl hold
    | close hheld hheld' hopen hnone => exact Or.inl (List.mem_of_mem_erase (hopen ▸ hfd))
    | keep hopen hheld hnone => exact Or.inl (hopen ▸ hfd)
    | construct hopen hheld hheld' hconstructs => exact Or.inl (hopen ▸ hfd)
    | take hswap hopen hvalid htaken hheld' hnone => exact Or.inl (hopen ▸ hfd)

/-- **One step.** -/
theorem Held.step (hs : s.Rooted) (hheld : s.Held) (h : s.RunMoves s' a) : s'.Held := by
  -- what the holders that the step is not about hold afterwards
  have hsession : s.constructs a = none → ∀ i fd, s'.Holds (.inl i) fd → s.Holds (.inl i) fd := by
    intro hnone i fd hfd
    refine (h.holds_session hs hfd).resolve_right fun heq => ?_
    rw [hnone] at heq
    cases heq
  have hothers : ∀ t fd, a.thread ≠ some t → s'.Holds (.inr t) fd → s.Holds (.inr t) fd := by
    intro t fd ht hfd
    rcases h.threadHolds_of_ne ht with heq | heq
    · exact heq.symm.trans hfd
    · cases heq.symm.trans hfd
  cases ha : a.thread with
  | none =>
    have hnone : s.constructs a = none := by cases a <;> first | rfl | cases ha
    rw [Held, h.openFDs_eq ha]
    refine hheld.mono ?_
    rintro (i | t) fd hfd
    · exact hsession hnone i fd hfd
    · exact hothers t fd (by rw [ha]; simp) hfd
  | some t =>
    have hne : ∀ {t'}, t' ≠ t → a.thread ≠ some t' := fun hne heq =>
      hne (Option.some.inj (heq.symm.trans ha))
    cases h.fdMoves ha with
    | keep hopen hheld' hnone =>
      rw [Held, hopen]
      refine hheld.mono ?_
      rintro (i | t') fd hfd
      · exact hsession hnone i fd hfd
      · by_cases heq : t' = t
        · subst heq
          rcases hheld' with hnone | hsame
          · cases hnone.symm.trans hfd
          · exact hsame.symm.trans hfd
        · exact hothers t' fd (hne heq) hfd
    | accept hnonneg hnew hopen hheld' hnone =>
      rw [Held, hopen]
      refine hheld.acquire (j := .inr t) hnew ?_
      rintro (i | t') fd hfd
      · exact Or.inl (hsession hnone i fd hfd)
      · by_cases heq : t' = t
        · subst heq
          exact Or.inr ⟨rfl, Option.some.inj (hfd.symm.trans hheld')⟩
        · exact Or.inl (hothers t' fd (hne heq) hfd)
    | @construct i fd hopen hhas hheld' hconstructs =>
      rw [Held, hopen]
      have hgone : ¬ s'.Holds (.inr t) fd := fun hfd => by cases hheld'.symm.trans hfd
      refine hheld.pass (i := .inr t) (j := .inl i) hhas hgone ?_
      rintro (i' | t') fd' hfd
      · rcases h.holds_session hs hfd with hold | hnew
        · exact Or.inl hold
        · obtain ⟨rfl, rfl⟩ := Prod.mk.inj (Option.some.inj (hnew.symm.trans hconstructs))
          exact Or.inr ⟨rfl, rfl⟩
      · by_cases heq : t' = t
        · subst heq
          cases hheld'.symm.trans hfd
        · exact Or.inl (hothers t' fd' (hne heq) hfd)
    | @take i hswap hopen hvalid htaken hheld' hnone =>
      rw [Held, hopen]
      have hi := hs.added_of_disconnecting hswap
      have hgone : ¬ s'.Holds (.inl i) (s.session i).mSessionFD := fun hfd =>
        hvalid (hfd.2.1.symm.trans htaken)
      refine hheld.pass (i := .inl i) (j := .inr t) ⟨hi, rfl, hvalid⟩ hgone ?_
      rintro (i' | t') fd hfd
      · exact Or.inl (hsession hnone i' fd hfd)
      · by_cases heq : t' = t
        · subst heq
          exact Or.inr ⟨rfl, Option.some.inj (hfd.symm.trans hheld')⟩
        · exact Or.inl (hothers t' fd (hne heq) hfd)
    | @close fd hhas hheld' hopen hnone =>
      rw [Held, hopen]
      have hgone : ¬ s'.Holds (.inr t) fd := fun hfd => by cases hheld'.symm.trans hfd
      have hholds : s.Holds (.inr t) fd := hhas
      refine hheld.release hholds hgone ?_
      rintro (i | t') fd' hfd
      · exact hsession hnone i fd' hfd
      · by_cases heq : t' = t
        · subst heq
          cases hheld'.symm.trans hfd
        · exact hothers t' fd' (hne heq) hfd

end ServerRun

/-- **No descriptor has two holders.**  In every run of a server with any number of threads that
send, disconnect and delete sessions, every descriptor that a session or a thread holds is open,
and nobody else holds it. -/
theorem server_held {n : ℕ} {κ δ : Type} [DecidableEq κ] [DecidableEq δ] (memory : ℕ → Session)
    {maxSessions : ℕ} (hmax : maxSessions < 65536) (uniqueNumber : BitVec 64)
    (listenFD : SocketFD) (as : List (DeleteStep n κ δ)) :
    (DeleteRun.machine n κ δ).Always (fun s => s.run.Held)
      (DeleteRun.start n κ δ memory maxSessions uniqueNumber listenFD) as := by
  refine DeleteRun.always_of_run (P := ServerRun.Held) (G := fun _ _ => True)
    (fun hs hheld _ hstep => hheld.step hs (ServerRun.runMoves_of_step hs.steady hstep)) id hmax
    ServerRun.held_start (StepMachine.along_of_forall (fun s a => ?_) _ as)
  cases a <;> trivial

end CoreServer
