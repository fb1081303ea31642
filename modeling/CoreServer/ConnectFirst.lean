import CoreServer.DisconnectThreads

/-!
# Where `OnConnected` stands among the calls

`AcceptJob` registers the receive job of a client and only then calls `OnConnected`, so other
workers may fetch its event and run the receive job in between.  The calls of a session begin with
`OnConnected` exactly in the runs in which, in that window, no worker goes on in `Complete` with
bytes in the buffer, and no thread in `Disconnect` behind the tests of the flags.
-/

namespace CoreServer

/-- The application is given bytes of a session, or told that it is disconnected. -/
def Callback.Later : Callback → Prop
  | onRecv _ _ | onDisconnected _ => True
  | onConnected _ | onRecvReturned _ _ => False

/-- Every `OnRecv` and `OnDisconnected` comes after `OnConnected` for the same session. -/
def ConnectedFirst (cs : List Callback) : Prop :=
  ∀ l c, l ++ [c] <+: cs → c.Later → .onConnected c.sessionID ∈ l

lemma connectedFirst_nil : ConnectedFirst [] := by
  intro l c hpre
  rw [List.prefix_nil] at hpre
  exact absurd hpre (List.append_ne_nil_of_right_ne_nil _ (by simp))

lemma ConnectedFirst.of_prefix {cs cs' : List Callback} (h : ConnectedFirst cs')
    (hpre : cs <+: cs') : ConnectedFirst cs := fun l c hlc => h l c (hlc.trans hpre)

lemma connectedFirst_concat {cs : List Callback} {c : Callback} :
    ConnectedFirst (cs ++ [c]) ↔
      ConnectedFirst cs ∧ (c.Later → .onConnected c.sessionID ∈ cs) := by
  constructor
  · intro h
    exact ⟨h.of_prefix (List.prefix_append _ _), h cs c (List.prefix_refl _)⟩
  · rintro ⟨h, hc⟩ l c' hpre
    rcases List.prefix_concat_iff.1 hpre with heq | hpre
    · obtain ⟨rfl, heq⟩ := List.append_inj' heq rfl
      obtain rfl := List.singleton_inj.1 (List.append_cancel_left heq)
      exact hc
    · exact h l c' hpre

namespace ServerMemory

variable {m m' : ServerMemory} {pc : JobPC} {next : Next}

/-- `AcceptJob` comes to the end of a connection by calling `OnConnected`. -/
lemma JobMoves.connecting (h : JobMoves m pc m' next) {id : SessionID}
    (hpc : pc.connecting = some id) :
    next.pc.connecting = some id ∨ .onConnected id ∈ m'.callbacks := by
  cases h with
  | poll hmoves => cases hpc
  | recv hmoves => cases hpc
  | complete => cases hpc
  | accept hmoves =>
    cases hmoves with
    | onConnected =>
      obtain rfl := Option.some.inj hpc
      exact Or.inr (List.mem_append_right _ (List.mem_singleton_self _))
    | getSession hin hid => exact Or.inl hpc
    | registered hopen hadd => exact Or.inl hpc
    | notRegistered => exact Or.inl hpc
    | accepted hnonneg hnew => cases hpc
    | interrupted | noClient | wanted | refused | close | number | notRearmed => cases hpc
    | allocNone hpool | alloc hpool => cases hpc
    | construct hin => cases hpc
    | rearmed hmod => cases hpc

end ServerMemory

namespace ServerRun

variable {n : ℕ} {κ : Type} {s s' : ServerRun n κ}

/-- `AcceptJob` has still to call `OnConnected` for the session in the slot `i`. -/
def Connecting (s : ServerRun n κ) (i : ℤ) : Prop :=
  ∃ w, (s.job w).connecting = some (s.session i).mSessionID

/-- The session in the slot `i` has bytes in its buffer. -/
def HasData (s : ServerRun n κ) (i : ℤ) : Prop :=
  ∃ usedSize ∈ (s.session i).mRecvJob.mRecvBuffer.getUsedSize, 0 < usedSize

instance (s : ServerRun n κ) (i : ℤ) : Decidable (s.Connecting i) :=
  inferInstanceAs (Decidable (∃ _, _))

instance (s : ServerRun n κ) (i : ℤ) : Decidable (s.HasData i) :=
  match h : (s.session i).mRecvJob.mRecvBuffer.getUsedSize with
  | none => .isFalse fun ⟨_, hused, _⟩ => by
    rw [h] at hused
    cases hused
  | some usedSize => decidable_of_iff (0 < usedSize) (by simp [HasData, h])

/-- The session of a worker that is about to look for bytes in `Complete`. -/
def completing (s : ServerRun n κ) : Fin n ⊕ κ → Option ℤ
  | .inl w =>
    match s.job w with
    | .recv i .usedSize => some i
    | _ => none
  | .inr _ => none

variable [DecidableEq κ]

/-- While `AcceptJob` stands before the `OnConnected` of a session, no worker goes on in `Complete`
with bytes in the buffer of the session, and no thread in its `Disconnect` behind the tests of the
flags. -/
def WaitsForConnect (s : ServerRun n κ) (a : RunStep n κ) : Prop :=
  (s.step a).isSome → ∀ t ∈ a.thread,
    (∀ i ∈ s.completing t, s.HasData i → ¬ s.Connecting i) ∧
      ∀ p ∈ s.disconnecting t, p.2 = .onDisconnected → ¬ s.Connecting p.1

instance (s : ServerRun n κ) (a : RunStep n κ) : Decidable (s.WaitsForConnect a) :=
  inferInstanceAs (Decidable (_ → ∀ t ∈ _, (∀ i ∈ _, _) ∧ ∀ p ∈ _, _))

omit [DecidableEq κ] in
/-- The invariant. -/
structure Greeted (s : ServerRun n κ) : Prop where
  added : ∀ id ∈ s.added, .onConnected id ∈ s.memory.callbacks ∨
    ∃ w, (s.job w).connecting = some id
  connecting : ∀ w id, (s.job w).connecting = some id → .onConnected id ∉ s.memory.callbacks

omit [DecidableEq κ] in
lemma greeted_start {memory : ℕ → Session} {maxSessions : ℕ} {uniqueNumber : BitVec 64}
    {listenFD : SocketFD} : (start n κ memory maxSessions uniqueNumber listenFD).Greeted where
  added id hid := by cases hid
  connecting w id h := by cases h

/-! ## One step -/

variable {a : RunStep n κ}

/-- The application is not told again of what it has been told. -/
lemma RunMoves.callbacks_subset (h : s.RunMoves s' a) :
    s.memory.callbacks ⊆ s'.memory.callbacks := by
  obtain ⟨cs, -, heq⟩ := h.calls
  rw [heq]
  exact List.subset_append_left _ _

omit [DecidableEq κ] in
lemma Quiet.connecting (h : s.Quiet s') {w : Fin n} {id : SessionID} :
    (s'.job w).connecting = some id ↔ (s.job w).connecting = some id := by
  rw [h.job_congr (f := JobPC.connecting) fun j => (execute_cases j).2.1]

omit [DecidableEq κ] in
/-- The session that a step constructs is the one that `AcceptJob` goes on with. -/
lemma JobMove.connecting_of_construct {w : Fin n} {next : Next} (h : s.JobMove s' w next)
    {clientFD : SocketFD} {index : ℤ} {id : SessionID}
    (hpc : s.job w = .accept (.construct clientFD index id)) :
    (s'.job w).connecting = some id := by
  have hmoves := h.moves
  rw [hpc] at hmoves
  cases hmoves with
  | accept hmoves =>
    generalize s'.memory = m' at hmoves
    rw [h.job_self]
    cases hmoves
    rfl

lemma Greeted.added_step (hs : s.Life) (hg : s.Greeted) (h : s.RunMoves s' a) {id : SessionID}
    (hid : id ∈ s'.added) :
    .onConnected id ∈ s'.memory.callbacks ∨ ∃ w, (s'.job w).connecting = some id := by
  have hsub := h.callbacks_subset
  have hkeep : (∀ w, (s.job w).connecting = some id → (s'.job w).connecting = some id) →
      id ∈ s.added → .onConnected id ∈ s'.memory.callbacks ∨
        ∃ w, (s'.job w).connecting = some id := fun hjob hid =>
    (hg.added id hid).imp (fun hc => hsub hc) fun ⟨w, hw⟩ => ⟨w, hjob w hw⟩
  have hquiet : s.Quiet s' → .onConnected id ∈ s'.memory.callbacks ∨
      ∃ w, (s'.job w).connecting = some id := fun h =>
    hkeep (fun w => h.connecting.2) (h.added_eq ▸ hid)
  have hcall : ∀ {k : κ} {pc : SendPC}, s.CallMove s' k pc →
      .onConnected id ∈ s'.memory.callbacks ∨ ∃ w, (s'.job w).connecting = some id := fun h =>
    hkeep (fun w hw => by rw [job, h.server_eq]; exact hw) (h.added_eq ▸ hid)
  cases h with
  | quietPool h | quietStart h => exact hquiet h
  | send hadded h | disconnect hadded h => exact hcall h
  | sender h => exact hkeep (fun w hw => by rw [h.job_eq]; exact hw) (h.added_eq ▸ hid)
  | @job w input next h =>
    have hold : id ∈ s.added → .onConnected id ∈ s'.memory.callbacks ∨
        ∃ w, (s'.job w).connecting = some id := by
      intro hid
      rcases hg.added id hid with hc | ⟨w', hw'⟩
      · exact Or.inl (hsub hc)
      · -- the worker that stands before `OnConnected` makes the call, or stays there
        rcases eq_or_ne w' w with rfl | hne
        · rcases h.moves.connecting hw' with hnext | hc
          · exact Or.inr ⟨w', by rw [h.job_self, hnext]⟩
          · exact Or.inl hc
        · exact Or.inr ⟨w', by rw [h.job_of_ne hne, hw']⟩
    rcases h.added_cases hs with heq | ⟨clientFD, index, id', hpc, heq, -⟩
    · exact hold (heq ▸ hid)
    · -- the session that has just been constructed is still to be greeted
      rw [heq, List.mem_append] at hid
      rcases hid with hid | hid
      · exact hold hid
      · rw [List.mem_singleton.1 hid]
        exact Or.inr ⟨w, h.connecting_of_construct hpc⟩

/-- A session before whose `OnConnected` a worker stands was there before, or is new. -/
lemma RunMoves.connecting_cases (hs : s.Life) (h : s.RunMoves s' a) {w : Fin n} {id : SessionID}
    (hw : (s'.job w).connecting = some id) :
    (s.job w).connecting = some id ∨ id ∉ s.added := by
  have hcall : ∀ {k : κ} {pc : SendPC}, s.CallMove s' k pc → (s.job w).connecting = some id := by
    intro k pc h
    rw [ServerRun.job, h.server_eq] at hw
    exact hw
  cases h with
  | quietPool h | quietStart h => exact Or.inl (h.connecting.1 hw)
  | send hadded h | disconnect hadded h => exact Or.inl (hcall h)
  | sender h => exact Or.inl (by rw [← h.job_eq, hw])
  | @job w' input next h =>
    rcases eq_or_ne w w' with rfl | hne
    · rw [h.job_self] at hw
      cases h.moves.acceptNext.1 with
      | alloc hadds hreserved hnone hi | reserved hadds hreserved hnone =>
        rw [hnone] at hw
        cases hw
      | construct hpc hnone hid =>
        obtain rfl := Option.some.inj (hw.symm.trans (JobPC.connecting_of_registering hid))
        obtain ⟨-, rfl, hunused, -⟩ := h.of_construct hs hpc
        exact Or.inr fun hmem => hunused ⟨id, hmem, rfl⟩
      | connecting hadds hnone hconnecting hregistering =>
        rcases hconnecting with heq | heq
        · rw [heq] at hw
          cases hw
        · exact Or.inl (heq ▸ hw)
    · exact Or.inl (h.job_of_ne hne ▸ hw)

/-- `OnConnected` is called by the worker that stands before it, which leaves there. -/
lemma Greeted.connecting_step (hs : s.Life) (hg : s.Greeted) (h : s.RunMoves s' a) {w : Fin n}
    {id : SessionID} (hw : (s'.job w).connecting = some id) :
    .onConnected id ∉ s'.memory.callbacks := by
  obtain ⟨cs, hcalls, heq⟩ := h.calls
  -- the worker that calls `OnConnected` in this step
  have hnew : .onConnected id ∈ cs → ∃ w', (s.job w').connecting = some id ∧
      (s'.job w').connecting = none := by
    intro hid
    cases hcalls with
    | @onConnected w' sessionID hw hw' =>
      obtain rfl := Callback.onConnected.inj (List.mem_singleton.1 hid)
      exact ⟨w', by rw [hw]; rfl, by rw [hw']; rfl⟩
    | none => cases hid
    | onRecv block hw hused hpos ha => cases List.mem_singleton.1 hid
    | onRecvReturned readSize hw => cases List.mem_singleton.1 hid
    | onDisconnected ht ht' ha => cases List.mem_singleton.1 hid
  rw [heq, List.mem_append]
  rintro (hold | hid)
  · rcases h.connecting_cases hs hw with hw | hunused
    · exact hg.connecting w id hw hold
    · exact hunused (hs.called _ hold)
  · obtain ⟨w', hw', hnone⟩ := hnew hid
    rcases h.connecting_cases hs hw with hw₀ | hunused
    · obtain rfl := hs.connecting_unique hw₀ hw'
      rw [hnone] at hw
      cases hw
    · exact hunused (hs.connecting w' id hw')

/-- **One step keeps the invariant.** -/
theorem Greeted.step (hs : s.Life) (hg : s.Greeted) (h : s.RunMoves s' a) : s'.Greeted where
  added _ := hg.added_step hs h
  connecting _ _ := hg.connecting_step hs h

/-! ## The calls in order -/

omit [DecidableEq κ] in
lemma completing_eq_some {t : Fin n ⊕ κ} {i : ℤ} :
    s.completing t = some i ↔ ∃ w, t = .inl w ∧ s.job w = .recv i .usedSize := by
  constructor
  · intro h
    cases t with
    | inl w =>
      rw [completing] at h
      split at h
      · rename_i hpc
        exact ⟨w, rfl, (Option.some.inj h) ▸ hpc⟩
      · cases h
    | inr k => cases h
  · rintro ⟨w, rfl, hpc⟩
    rw [completing, hpc]

/-- A worker that finds bytes in `Complete` calls `OnRecv`. -/
lemma RunMoves.onRecv_of_hasData (h : s.RunMoves s' a) {t : Fin n ⊕ κ} (ha : a.thread = some t)
    {i : ℤ} (ht : s.completing t = some i) (hdata : s.HasData i) :
    ∃ block, s'.memory.callbacks =
      s.memory.callbacks ++ [.onRecv (s.session i).mSessionID block] := by
  obtain ⟨w, rfl, hpc⟩ := completing_eq_some.1 ht
  obtain ⟨usedSize, hused, hpos⟩ := hdata
  cases h with
  | @job w' input next h =>
    obtain rfl := Sum.inl.inj (Option.some.inj ha)
    have hmoves := h.moves
    rw [hpc] at hmoves
    cases hmoves with
    | recv hmoves =>
      generalize hm' : s'.memory = m' at hmoves
      cases hmoves with
      | noData hused' hle =>
        obtain rfl := Option.some.inj (hused.symm.trans hused')
        omega
      | onRecv hin hused' hpos' => exact ⟨_, rfl⟩
  | _ => cases ha

/-- A thread at the end of `Disconnect` calls `OnDisconnected`. -/
lemma RunMoves.onDisconnected (h : s.RunMoves s' a) {t : Fin n ⊕ κ} (ha : a.thread = some t)
    {i : ℤ} (ht : s.disconnecting t = some (i, .onDisconnected)) :
    s'.memory.callbacks = s.memory.callbacks ++ [.onDisconnected (s.session i).mSessionID] := by
  have hcall : ∀ {dpc'}, ServerMemory.DisconnectMoves s.memory i .onDisconnected s'.memory dpc' →
      s'.memory.callbacks =
        s.memory.callbacks ++ [.onDisconnected (s.session i).mSessionID] := by
    intro dpc' hmoves
    generalize s'.memory = m' at hmoves
    cases hmoves
    rfl
  cases h with
  | job h =>
    obtain rfl := Option.some.inj ha
    obtain ⟨dpc', hmoves, -⟩ := h.moves.of_disconnecting ht
    exact hcall hmoves
  | sender h =>
    obtain rfl := Option.some.inj ha
    obtain ⟨dpc', hmoves, -⟩ := h.moves.of_disconnecting ht
    exact hcall hmoves
  | _ => cases ha

omit [DecidableEq κ] in
/-- The order is broken by a call for a session that is not connected yet. -/
lemma Greeted.not_connecting (hg : s.Greeted) {i : ℤ} {c : Callback}
    (hfirst : ConnectedFirst (s.memory.callbacks ++ [c])) (hc : c.Later)
    (hid : c.sessionID = (s.session i).mSessionID) : ¬ s.Connecting i := by
  rintro ⟨w, hw⟩
  exact hg.connecting w _ hw (hid ▸ (connectedFirst_concat.1 hfirst).2 hc)

/-- **The order of the calls in one step.**  A step that calls the application while
`AcceptJob` stands before `OnConnected` breaks the order, and no other step does. -/
theorem RunMoves.connectedFirst_iff (hs : s.Life) (hg : s.Greeted) (h : s.RunMoves s' a)
    (hstep : (s.step a).isSome) (hfirst : ConnectedFirst s.memory.callbacks) :
    ConnectedFirst s'.memory.callbacks ↔ s.WaitsForConnect a := by
  constructor
  · refine fun hfirst' _ t ha => ⟨fun i hi hdata => ?_, fun ⟨i, dpc⟩ hdpc hpc => ?_⟩
    · obtain ⟨block, heq⟩ := h.onRecv_of_hasData ha hi hdata
      rw [heq] at hfirst'
      exact hg.not_connecting hfirst' trivial rfl
    · subst hpc
      rw [h.onDisconnected ha hdpc] at hfirst'
      exact hg.not_connecting hfirst' trivial rfl
  · intro hwaits
    obtain ⟨cs, hcalls, heq⟩ := h.calls
    rw [heq]
    -- a session that is connected has been greeted
    have hgreeted : ∀ i, s.Added i → ¬ s.Connecting i →
        .onConnected (s.session i).mSessionID ∈ s.memory.callbacks := fun i hi hnot =>
      (hg.added _ (hs.mSessionID_mem hi).1).resolve_right hnot
    cases hcalls with
    | none =>
      rw [List.append_nil]
      exact hfirst
    | onConnected sessionID hw hw' => exact connectedFirst_concat.2 ⟨hfirst, fun hc => hc.elim⟩
    | onRecvReturned readSize hw => exact connectedFirst_concat.2 ⟨hfirst, fun hc => hc.elim⟩
    | @onRecv w i usedSize block hw hused hpos ha =>
      refine connectedFirst_concat.2 ⟨hfirst, fun _ => hgreeted i (hs.running w i _ hw) ?_⟩
      exact (hwaits hstep _ ha).1 i (completing_eq_some.2 ⟨w, rfl, hw⟩) ⟨usedSize, hused, hpos⟩
    | @onDisconnected t i ht ht' ha =>
      refine connectedFirst_concat.2
        ⟨hfirst, fun _ => hgreeted i (hs.added_of_disconnecting ht) ?_⟩
      exact (hwaits hstep _ ha).2 _ ht rfl

end ServerRun

/-- **When `OnConnected` comes first.**  However the threads of a started server interleave, the
calls for every session begin with `OnConnected` exactly when, while `AcceptJob` stands between the
`AddSession` of a session and its `OnConnected`, no worker that has fetched the event of the new
registration goes on in `Complete` with bytes in the buffer, and no thread in `Disconnect` of the
session goes on behind the tests of the flags. -/
theorem server_connectedFirst_iff {n : ℕ} {κ : Type} [DecidableEq κ] (memory : ℕ → Session)
    {maxSessions : ℕ} (hmax : maxSessions < 65536) (uniqueNumber : BitVec 64)
    (listenFD : SocketFD) (as : List (RunStep n κ)) :
    (ServerRun.machine n κ).Always (fun s => ConnectedFirst s.memory.callbacks)
        (ServerRun.start n κ memory maxSessions uniqueNumber listenFD) as ↔
      (ServerRun.machine n κ).Along ServerRun.WaitsForConnect
        (ServerRun.start n κ memory maxSessions uniqueNumber listenFD) as := by
  constructor
  · refine StepMachine.along_of_always (I := fun s => s.Life ∧ s.Greeted)
      (fun s a s' hs h => ?_) (fun s a s' hs h hfirst => ?_) (fun s a hstuck hstep => ?_)
      ⟨ServerRun.life_start hmax, ServerRun.greeted_start⟩
    · exact ⟨hs.1.step h, hs.2.step hs.1 (ServerRun.runMoves_of_step hs.1.inv.steady h)⟩
    · have hmoves := ServerRun.runMoves_of_step hs.1.inv.steady h
      obtain ⟨cs, -, heq⟩ := hmoves.calls
      have hfirst₀ : ConnectedFirst s.memory.callbacks :=
        hfirst.of_prefix (heq ▸ List.prefix_append _ _)
      have hsome : (s.step a).isSome := Option.isSome_of_eq_some h
      exact (hmoves.connectedFirst_iff hs.1 hs.2 hsome hfirst₀).1 hfirst
    · rw [show s.step a = none from hstuck] at hstep
      cases hstep
  · intro hwaits
    refine StepMachine.always_of_along
      (I := fun s => s.Life ∧ s.Greeted ∧ ConnectedFirst s.memory.callbacks)
      (fun s a s' hs ha h => ?_) (fun _ hs => hs.2.2)
      ⟨ServerRun.life_start hmax, ServerRun.greeted_start, connectedFirst_nil⟩ hwaits
    have hmoves := ServerRun.runMoves_of_step hs.1.inv.steady h
    have hsome : (s.step a).isSome := Option.isSome_of_eq_some h
    exact ⟨hs.1.step h, hs.2.1.step hs.1 hmoves,
      (hmoves.connectedFirst_iff hs.1 hs.2.1 hsome hs.2.2).2 ha⟩

/-- The calls for a client that is accepted before its first bytes are received. -/
theorem server_connectedFirst_closeInOnRecv :
    (ServerRun.machine 2 Unit).Always (fun s => ConnectedFirst s.memory.callbacks)
      (ServerRun.start 2 Unit (fun _ => Session.zeroMemory) 2 0 3) ServerRun.closeInOnRecv :=
  (server_connectedFirst_iff _ (by decide) 0 3 _).2 (by decide +kernel)

/-- The first worker fetches the event of a client and runs its receive job while the second
one stands before `OnConnected`. -/
def ServerRun.receiveFirst : List (RunStep 2 Unit) :=
  ServerRun.register ++ ServerRun.fetch ++ [.job 0 .run, .job 0 .run, .pool (.addPush (.inl 0)),
    .pool (.addTest (.inl 0)), .job 0 .run, .job 0 .run, .pool (.loop 0), .pool (.pop 0),
    .job 0 .run, .job 0 .run, .job 0 (.recv (.received [65])), .job 0 .run, .job 0 .run,
    .job 0 (.recv (.failed .EAGAIN)), .job 0 .run]

/-- The application is called with the bytes of a client that it does not know yet. -/
theorem server_receives_before_connect :
    ¬ (ServerRun.machine 2 Unit).Always (fun s => ConnectedFirst s.memory.callbacks)
      (ServerRun.start 2 Unit (fun _ => Session.zeroMemory) 2 0 3) ServerRun.receiveFirst := by
  obtain ⟨s, hrun, hcallbacks⟩ : ∃ s ∈ (ServerRun.machine 2 Unit).exec
      (ServerRun.start 2 Unit (fun _ => Session.zeroMemory) 2 0 3) ServerRun.receiveFirst,
      s.memory.callbacks = [.onRecv 0 [65]] := by
    decide +kernel
  intro halways
  have hfirst : ConnectedFirst s.memory.callbacks := halways _ s (List.prefix_refl _) hrun
  rw [hcallbacks] at hfirst
  cases hfirst [] (.onRecv 0 [65]) (List.prefix_refl _) trivial

end CoreServer
