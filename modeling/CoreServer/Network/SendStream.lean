import CoreServer.Network.Session
import CoreServer.Lib.StepMachine

/-!
# The send stream of a session

`Session::Send`, `Session::DoSend` and `SendJob::Execute`, executed one after another on one
session.  A call gets the outcomes of its `writev`s as a list, one for each turn of the loop
of `DoSend`.  The state carries, besides the members of the session, whether the send job
has been armed, what the socket has accepted, what the application has asked to send and a
record of the `writev` calls.

`DoSend` takes its packets from `mPackets` alone.  What a partial write leaves is put in
`mSendJob.mSendPackets`, which nothing reads, so the stream is intact exactly as long as no
byte is accepted after a `writev` whose count was not the whole offer.
-/

namespace CoreServer

/-- An outcome of `writev`.  A successful call leaves `errno` as an earlier call has set
it. -/
inductive WritevResult where
  | accepted (count : ℕ) (errno : Errno)
  | failed (errno : Errno)
deriving DecidableEq, Repr

namespace WritevResult

/-- The `ssize_t` that the call returns. -/
def value : WritevResult → ℤ
  | accepted count _ => count
  | failed _ => -1

/-- `errno` after the call. -/
def errno : WritevResult → Errno
  | accepted _ e => e
  | failed e => e

/-- The number of bytes that the socket has taken. -/
def count : WritevResult → ℕ
  | accepted count _ => count
  | failed _ => 0

end WritevResult

/-- A `writev` call: the number of bytes offered, and the outcome. -/
structure WritevCall where
  offered : ℕ
  result : WritevResult
deriving DecidableEq, Repr

/-- One session with its socket. -/
structure SendRun (β : Type) where
  session : Session
  armed : Bool
  socket : List β
  sent : List β
  calls : List WritevCall
  effects : List Session.Effect

namespace SendRun

variable {β : Type}

/-- The bytes of a list of packets. -/
def bytesOf (mem : ℤ → β) (packets : List IoVec) : List β :=
  (packets.map (IoVec.bytes mem)).flatten

/-- The first loop of `DoSend`: the sum of the lengths, as `Int32`. -/
def totalSendBytes (packets : List IoVec) : ℤ :=
  packets.foldl (fun total v => toInt32 (total + v.iov_len)) 0

/-- The second loop of `DoSend`: `startOffset` and the packets from `index` on. -/
def cutPackets (result : ℤ) : List IoVec → ℤ × List IoVec
  | [] => (0, [])
  | v :: vs =>
    if toSize result < v.iov_len then
      (toInt32 (toSize (v.iov_len - toSize result)), v :: vs)
    else cutPackets result vs

/-- The third loop of `DoSend`: the packets are added to the send job, the first one from
`startOffset` on. -/
def addRemainder (job : SendJob) (startOffset : ℤ) : List IoVec → SendJob
  | [] => job
  | v :: vs =>
    addRemainder
      (job.addPackets (v.iov_base + startOffset)
        (toSize (v.iov_len - toSize startOffset)).toNat) 0 vs

/-- `Disconnect`. -/
def disconnect (r : SendRun β) : SendRun β :=
  { r with session := r.session.disconnect.1, effects := r.effects ++ r.session.disconnect.2 }

/-- `mIsSending = false`. -/
def clearSending (r : SendRun β) : SendRun β := { r with session := r.session.setSendState false }

/-- `epoll_ctl(mServer->GetSendPollFD(), EPOLL_CTL_MOD, mSessionFD, &event)`: the
registration of an open descriptor is armed. -/
def arm (r : SendRun β) : SendRun β :=
  { r with armed := r.armed || decide (r.session.mSessionFD ≠ sINVALID_SOCKET_FD) }

/-- `writev(mSessionFD, sendPackets.data(), sendPackets.size())` with the outcome `w`. -/
def writev (mem : ℤ → β) (sendPackets : List IoVec) (w : WritevResult) (r : SendRun β) :
    SendRun β :=
  { r with
    socket := r.socket ++ (bytesOf mem sendPackets).take w.count
    calls := r.calls ++ [⟨(bytesOf mem sendPackets).length, w⟩] }

/-- An outcome that the kernel can give for an offer: a count is at least one and at most
the number of bytes offered. -/
def Possible (mem : ℤ → β) (sendPackets : List IoVec) : WritevResult → Prop
  | .accepted count _ => 1 ≤ count ∧ count ≤ (bytesOf mem sendPackets).length
  | .failed _ => True

instance (mem : ℤ → β) (sendPackets : List IoVec) (w : WritevResult) :
    Decidable (Possible mem sendPackets w) :=
  match w with
  | .accepted _ _ => inferInstanceAs (Decidable (_ ∧ _))
  | .failed _ => inferInstanceAs (Decidable True)

/-- The `do … while (true)` loop of `DoSend`, with one outcome for each `writev`.  It
leaves through a `return` (`none`) or through the `break`, with the partial `result`. -/
def writevLoop (mem : ℤ → β) (sendPackets : List IoVec) :
    List WritevResult → SendRun β → Option (SendRun β × Option ℤ)
  | script, r =>
    if r.session.mSessionFD = sINVALID_SOCKET_FD then some (r.clearSending.disconnect, none)
    else
      match script with
      | [] => none
      | w :: script =>
        if Possible mem sendPackets w then
          let result := toInt32 w.value
          let r := r.writev mem sendPackets w
          if result < 0 ∧ w.errno = .EAGAIN then some (r.clearSending.disconnect, none)
          else if result < 0 ∧ w.errno = .EINTR then writevLoop mem sendPackets script r
          else
            let r := if result < 0 then r.clearSending.disconnect else r
            if result = totalSendBytes sendPackets then some (r.clearSending, none)
            else some (r, some result)
        else none

/-- `DoSend`. -/
def doSend (mem : ℤ → β) (script : List WritevResult) (r : SendRun β) : Option (SendRun β) :=
  let sendPackets := r.session.mPackets
  let r := { r with session := { r.session with mPackets := [] } }
  if sendPackets = [] then some r.clearSending
  else
    match writevLoop mem sendPackets script r with
    | none => none
    | some (r, none) => some r
    | some (r, some result) =>
      let (startOffset, packets) := cutPackets result sendPackets
      let job := addRemainder r.session.mSendJob.reset startOffset packets
      some { r with session := { r.session with mSendJob := job } }.arm

/-- `Send`. -/
def send (mem : ℤ → β) (buffer : ℤ) (bufferSize : ℕ) (script : List WritevResult)
    (r : SendRun β) : Option (SendRun β) :=
  if buffer = 0 ∨ bufferSize ≤ 0 then some r
  else
    let packet : IoVec := ⟨buffer, bufferSize⟩
    let r := { r with
      session := { r.session with mPackets := r.session.mPackets ++ [packet] }
      sent := r.sent ++ packet.bytes mem }
    if r.session.mIsSending then some r
    else
      match doSend mem script { r with session := r.session.setSendState true } with
      | none => none
      | some r => some r.arm

/-- `SendJob::Execute`, run because the send job has been armed. -/
def executeSendJob (mem : ℤ → β) (script : List WritevResult) (r : SendRun β) :
    Option (SendRun β) :=
  if r.armed then doSend mem script { r with armed := false } else none

/-- One call on the session. -/
inductive Call where
  | send (buffer : ℤ) (bufferSize : ℕ) (script : List WritevResult)
  | sendJob (script : List WritevResult)
deriving DecidableEq, Repr

/-- The calls on one session, one after another, in a memory that does not change. -/
def machine (mem : ℤ → β) : StepMachine (SendRun β) Call where
  step r
    | .send buffer bufferSize script => r.send mem buffer bufferSize script
    | .sendJob script => r.executeSendJob mem script

/-- A session that has just been constructed. -/
def start (memory : Session) (sessionID : SessionID) (sessionFD : SocketFD) : SendRun β where
  session := memory.construct sessionID sessionFD
  armed := false
  socket := []
  sent := []
  calls := []
  effects := []

/-! ## What the stream depends on -/

section Fields

variable (mem : ℤ → β) (packets : List IoVec) (w : WritevResult) (r : SendRun β)

@[simp] lemma disconnect_socket : r.disconnect.socket = r.socket := rfl
@[simp] lemma disconnect_sent : r.disconnect.sent = r.sent := rfl
@[simp] lemma disconnect_calls : r.disconnect.calls = r.calls := rfl
@[simp] lemma disconnect_fd : r.disconnect.session.mSessionFD = sINVALID_SOCKET_FD := rfl
@[simp] lemma disconnect_packets :
    r.disconnect.session.mPackets = r.session.mPackets := rfl

@[simp] lemma clearSending_socket : r.clearSending.socket = r.socket := rfl
@[simp] lemma clearSending_sent : r.clearSending.sent = r.sent := rfl
@[simp] lemma clearSending_calls : r.clearSending.calls = r.calls := rfl
@[simp] lemma clearSending_fd :
    r.clearSending.session.mSessionFD = r.session.mSessionFD := rfl
@[simp] lemma clearSending_packets :
    r.clearSending.session.mPackets = r.session.mPackets := rfl

@[simp] lemma arm_socket : r.arm.socket = r.socket := rfl
@[simp] lemma arm_sent : r.arm.sent = r.sent := rfl
@[simp] lemma arm_calls : r.arm.calls = r.calls := rfl
@[simp] lemma arm_session : r.arm.session = r.session := rfl

@[simp] lemma writev_socket :
    (writev mem packets w r).socket = r.socket ++ (bytesOf mem packets).take w.count := rfl
@[simp] lemma writev_sent : (writev mem packets w r).sent = r.sent := rfl
@[simp] lemma writev_calls :
    (writev mem packets w r).calls = r.calls ++ [⟨(bytesOf mem packets).length, w⟩] := rfl
@[simp] lemma writev_session : (writev mem packets w r).session = r.session := rfl

end Fields

@[simp] lemma bytesOf_nil (mem : ℤ → β) : bytesOf mem [] = [] := rfl

@[simp] lemma bytesOf_append (mem : ℤ → β) (vs vs' : List IoVec) :
    bytesOf mem (vs ++ vs') = bytesOf mem vs ++ bytesOf mem vs' := by
  simp [bytesOf]

lemma length_bytesOf (mem : ℤ → β) (sendPackets : List IoVec) :
    (bytesOf mem sendPackets).length = (sendPackets.map IoVec.iov_len).sum := by
  simp [bytesOf, List.length_flatten, Function.comp_def]

/-- The total is the sum of the lengths, wrapped round once. -/
lemma totalSendBytes_eq (sendPackets : List IoVec) :
    totalSendBytes sendPackets = toInt32 (sendPackets.map IoVec.iov_len).sum := by
  have hfold : ∀ (vs : List IoVec) (total : ℤ),
      vs.foldl (fun total v => toInt32 (total + v.iov_len)) (toInt32 total) =
        toInt32 (total + (vs.map IoVec.iov_len).sum) := by
    intro vs
    induction vs with
    | nil => simp
    | cons v vs ih =>
      intro total
      have hstep : toInt32 (toInt32 total + v.iov_len) = toInt32 (total + v.iov_len) :=
        Int.bmod_add_bmod
      rw [List.foldl_cons, hstep, ih, List.map_cons, List.sum_cons, Nat.cast_add, Int.add_assoc]
  have hzero := hfold sendPackets 0
  rwa [Int.zero_add] at hzero

/-! ## One turn of the loop -/

/-- Everything that the loop of `DoSend` can do: leave because the socket is gone, leave
after the outcome `w`, or go round again after it. -/
lemma writevLoop_cases {mem : ℤ → β} {packets : List IoVec} {script : List WritevResult}
    {r r' : SendRun β} {res : Option ℤ}
    (h : writevLoop mem packets script r = some (r', res)) :
    (r.session.mSessionFD = sINVALID_SOCKET_FD ∧ r' = r.clearSending.disconnect) ∨
    ∃ w rest, script = w :: rest ∧ r.session.mSessionFD ≠ sINVALID_SOCKET_FD ∧
      Possible mem packets w ∧
      ((toInt32 w.value < 0 ∧ w.errno = .EINTR ∧
          writevLoop mem packets rest (writev mem packets w r) = some (r', res)) ∨
        (toInt32 w.value < 0 ∧ r'.session.mSessionFD = sINVALID_SOCKET_FD ∧
          r'.socket = (writev mem packets w r).socket ∧ r'.sent = r.sent ∧
          r'.calls = (writev mem packets w r).calls ∧
          r'.session.mPackets = r.session.mPackets) ∨
        (0 ≤ toInt32 w.value ∧ toInt32 w.value = totalSendBytes packets ∧
          r' = (writev mem packets w r).clearSending) ∨
        (0 ≤ toInt32 w.value ∧ toInt32 w.value ≠ totalSendBytes packets ∧
          r' = writev mem packets w r)) := by
  unfold writevLoop at h
  split at h
  · rename_i hfd
    simp only [Option.some.injEq, Prod.mk.injEq] at h
    exact Or.inl ⟨hfd, h.1.symm⟩
  · rename_i hfd
    refine Or.inr ?_
    cases script with
    | nil => simp at h
    | cons w rest =>
      simp only at h
      split at h
      · rename_i hposs
        refine ⟨w, rest, rfl, hfd, hposs, ?_⟩
        split at h
        · -- the receiver's buffer is full
          rename_i hagain
          simp only [Option.some.injEq, Prod.mk.injEq] at h
          obtain ⟨rfl, -⟩ := h
          exact Or.inr (Or.inl ⟨hagain.1, rfl, rfl, rfl, rfl, rfl⟩)
        · split at h
          · rename_i hintr
            exact Or.inl ⟨hintr.1, hintr.2, h⟩
          · -- after another error the socket is gone, and the code goes on with the result
            by_cases hneg : toInt32 w.value < 0
            · rw [if_pos hneg] at h
              refine Or.inr (Or.inl ⟨hneg, ?_⟩)
              split at h <;>
              · simp only [Option.some.injEq, Prod.mk.injEq] at h
                obtain ⟨rfl, -⟩ := h
                exact ⟨rfl, rfl, rfl, rfl, rfl⟩
            · rw [if_neg hneg] at h
              split at h
              · rename_i htotal
                simp only [Option.some.injEq, Prod.mk.injEq] at h
                exact Or.inr (Or.inr (Or.inl ⟨Int.not_lt.1 hneg, htotal, h.1.symm⟩))
              · rename_i htotal
                simp only [Option.some.injEq, Prod.mk.injEq] at h
                exact Or.inr (Or.inr (Or.inr ⟨Int.not_lt.1 hneg, htotal, h.1.symm⟩))
      · simp at h

end SendRun

/-! ## When the stream is intact -/

/-- A `writev` after which `DoSend` does not know where the stream stands: the socket has
taken some bytes, but fewer than were offered, or so many that the count does not fit in
an `Int32` and is taken for an interrupted call. -/
def WritevCall.Lossy (c : WritevCall) : Prop :=
  0 < c.result.count ∧
    (c.result.count < c.offered ∨ (toInt32 c.result.value < 0 ∧ c.result.errno = .EINTR))

instance (c : WritevCall) : Decidable c.Lossy := inferInstanceAs (Decidable (_ ∧ _))

/-- No byte is accepted after a lossy `writev`. -/
def NothingAfterLoss (calls : List WritevCall) : Prop :=
  calls.Pairwise fun c d => c.Lossy → d.result.count = 0

instance (calls : List WritevCall) : Decidable (NothingAfterLoss calls) :=
  inferInstanceAs (Decidable (calls.Pairwise _))

lemma NothingAfterLoss.of_prefix {calls calls' : List WritevCall} (h : NothingAfterLoss calls')
    (hpre : calls <+: calls') : NothingAfterLoss calls :=
  List.Pairwise.sublist hpre.sublist h

namespace SendRun

variable {β : Type} {mem : ℤ → β}

/-- The stream is intact, and as long as no `writev` has been lossy and the socket is open,
`pending` is what is still to be sent. -/
structure Intact (pending : List β) (r : SendRun β) : Prop where
  isPrefix : r.socket <+: r.sent
  complete : (∀ c ∈ r.calls, ¬ c.Lossy) → r.session.mSessionFD ≠ sINVALID_SOCKET_FD →
    r.socket ++ pending = r.sent

/-- The outcome of one `writev` for the stream. -/
lemma Intact.writev {packets : List IoVec} {r : SendRun β} {w : WritevResult}
    (h : r.Intact (bytesOf mem packets)) (hfd : r.session.mSessionFD ≠ sINVALID_SOCKET_FD)
    (hok : NothingAfterLoss (SendRun.writev mem packets w r).calls) :
    (SendRun.writev mem packets w r).socket <+: r.sent ∧
      ((∀ c ∈ (SendRun.writev mem packets w r).calls, ¬ c.Lossy) → 0 < w.count →
        (SendRun.writev mem packets w r).socket = r.sent) := by
  rcases Nat.eq_zero_or_pos w.count with hzero | hpos
  · exact ⟨by simpa [hzero] using h.isPrefix, fun _ hpos => by omega⟩
  · -- bytes are accepted, so no earlier call was lossy and the offer is next in the stream
    have hnone : ∀ c ∈ r.calls, ¬ c.Lossy := by
      intro c hc hloss
      have hzero := (List.pairwise_append.1 hok).2.2 c hc _ (List.mem_singleton.2 rfl) hloss
      exact absurd hzero (by simp; omega)
    have hsent := h.complete hnone hfd
    rw [← hsent]
    refine ⟨List.prefix_append_right_inj _ |>.2 (List.take_prefix _ _), fun hall hpos => ?_⟩
    have hlast := hall ⟨_, w⟩ (List.mem_append_right _ (List.mem_singleton.2 rfl))
    have hle : (bytesOf mem packets).length ≤ w.count := by
      by_contra hlt
      exact hlast ⟨hpos, Or.inl (Nat.lt_of_not_le hlt)⟩
    rw [writev_socket, List.take_of_length_le hle]

/-- A successful count is positive, and only a failed call returns a negative number. -/
lemma Possible.pos {packets : List IoVec} {w : WritevResult} (h : Possible mem packets w)
    (hw : 0 ≤ toInt32 w.value) : 0 < w.count := by
  cases w with
  | accepted count e => exact h.1
  | failed e =>
    have hneg : ¬ 0 ≤ toInt32 (-1) := by decide
    exact absurd hw hneg

/-- The loop changes neither what has been asked for nor the queue, and only adds to the
record of the calls. -/
lemma writevLoop_frame {packets : List IoVec} {script : List WritevResult} {r r' : SendRun β}
    {res : Option ℤ} (h : writevLoop mem packets script r = some (r', res)) :
    r'.sent = r.sent ∧ r'.session.mPackets = r.session.mPackets ∧ r.calls <+: r'.calls := by
  induction script generalizing r with
  | nil =>
    rcases writevLoop_cases h with ⟨-, rfl⟩ | ⟨w, rest, hnil, -⟩
    · exact ⟨rfl, rfl, List.prefix_refl _⟩
    · exact absurd hnil (by simp)
  | cons w rest ih =>
    rcases writevLoop_cases h with ⟨-, rfl⟩ | ⟨w', rest', hcons, -, -, hcase⟩
    · exact ⟨rfl, rfl, List.prefix_refl _⟩
    · obtain ⟨rfl, rfl⟩ := List.cons.inj hcons
      have hcalls : r.calls <+: (SendRun.writev mem packets w r).calls := List.prefix_append _ _
      rcases hcase with ⟨-, -, hloop⟩ | ⟨-, -, -, hsent, hc, hp⟩ | ⟨-, -, rfl⟩ | ⟨-, -, rfl⟩
      · obtain ⟨hsent, hp, hc⟩ := ih hloop
        exact ⟨hsent, hp, hcalls.trans hc⟩
      · exact ⟨hsent, hp, hc ▸ hcalls⟩
      · exact ⟨rfl, rfl, hcalls⟩
      · exact ⟨rfl, rfl, hcalls⟩

/-- The loop keeps the stream intact; what it leaves unsent is lost, so nothing is pending
when it ends. -/
lemma Intact.writevLoop {packets : List IoVec} {script : List WritevResult} {r r' : SendRun β}
    {res : Option ℤ} (hr : r.Intact (bytesOf mem packets))
    (h : SendRun.writevLoop mem packets script r = some (r', res))
    (hok : NothingAfterLoss r'.calls) : r'.Intact [] := by
  induction script generalizing r with
  | nil =>
    rcases writevLoop_cases h with ⟨-, rfl⟩ | ⟨w, rest, hnil, -⟩
    · exact ⟨hr.isPrefix, fun _ hfd => absurd rfl hfd⟩
    · exact absurd hnil (by simp)
  | cons w rest ih =>
    rcases writevLoop_cases h with ⟨-, rfl⟩ | ⟨w', rest', hcons, hfd, hposs, hcase⟩
    · exact ⟨hr.isPrefix, fun _ hfd => absurd rfl hfd⟩
    · obtain ⟨rfl, rfl⟩ := List.cons.inj hcons
      rcases hcase with ⟨hneg, hintr, hloop⟩ | ⟨-, hclosed, hsocket, hsent, hcalls, -⟩ |
        ⟨hnn, -, rfl⟩ | ⟨hnn, -, rfl⟩
      · -- the call is repeated: it is lossy if it has accepted anything
        obtain ⟨hpre, -⟩ := hr.writev hfd (hok.of_prefix (writevLoop_frame hloop).2.2)
        refine ih ⟨hpre, fun hall _ => ?_⟩ hloop
        have hzero : w.count = 0 := by
          by_contra hpos
          exact hall ⟨_, w⟩ (List.mem_append_right _ (List.mem_singleton.2 rfl))
            ⟨Nat.pos_of_ne_zero hpos, Or.inr ⟨hneg, hintr⟩⟩
        have hold := hr.complete (fun c hc => hall c (List.mem_append_left _ hc)) hfd
        simpa [hzero] using hold
      · obtain ⟨hpre, -⟩ := hr.writev hfd (hcalls ▸ hok)
        exact ⟨by rw [hsocket, hsent]; exact hpre, fun _ hopen => absurd hclosed hopen⟩
      · obtain ⟨hpre, hall⟩ := hr.writev hfd hok
        exact ⟨hpre, fun hnone _ => by simpa using hall hnone (hposs.pos hnn)⟩
      · obtain ⟨hpre, hall⟩ := hr.writev hfd hok
        exact ⟨hpre, fun hnone _ => by simpa using hall hnone (hposs.pos hnn)⟩

/-- Between two calls on the session: if nothing has been accepted after a loss, the stream
is intact and what is queued is what is still to be sent. -/
def Inv (mem : ℤ → β) (r : SendRun β) : Prop :=
  NothingAfterLoss r.calls → r.Intact (bytesOf mem r.session.mPackets)

lemma Inv.doSend {script : List WritevResult} {r r' : SendRun β} (hr : r.Inv mem)
    (h : SendRun.doSend mem script r = some r') : r'.Inv mem := by
  intro hok
  -- the batch takes the place of the queue, which is empty while the loop runs
  have hbatch : NothingAfterLoss r.calls →
      { r with session := { r.session with mPackets := [] } }.Intact
        (bytesOf mem r.session.mPackets) :=
    fun hok => ⟨(hr hok).isPrefix, (hr hok).complete⟩
  simp only [SendRun.doSend] at h
  split at h
  · rename_i hempty
    obtain rfl := Option.some.inj h
    obtain ⟨hpre, hcomplete⟩ := hr hok
    exact ⟨hpre, by simpa [hempty] using hcomplete⟩
  · split at h
    · simp at h
    · rename_i t hloop
      obtain rfl := Option.some.inj h
      obtain ⟨-, hpackets, hcalls⟩ := writevLoop_frame hloop
      rw [hpackets]
      exact (hbatch (hok.of_prefix hcalls)).writevLoop hloop hok
    · rename_i t result hloop
      obtain rfl := Option.some.inj h
      obtain ⟨-, hpackets, hcalls⟩ := writevLoop_frame hloop
      have ht := (hbatch (hok.of_prefix hcalls)).writevLoop hloop hok
      simp only [arm_session, hpackets]
      exact ⟨ht.isPrefix, ht.complete⟩

lemma Inv.send {buffer : ℤ} {bufferSize : ℕ} {script : List WritevResult} {r r' : SendRun β}
    (hr : r.Inv mem) (h : SendRun.send mem buffer bufferSize script r = some r') :
    r'.Inv mem := by
  simp only [SendRun.send] at h
  split at h
  · obtain rfl := Option.some.inj h
    exact hr
  · -- the new packet goes to the end of the queue and of the stream asked for
    have hqueued : ∀ t : SendRun β, t.socket = r.socket → t.calls = r.calls →
        t.sent = r.sent ++ IoVec.bytes mem ⟨buffer, bufferSize⟩ →
        t.session.mSessionFD = r.session.mSessionFD →
        t.session.mPackets = r.session.mPackets ++ [⟨buffer, bufferSize⟩] → t.Inv mem := by
      intro t hsocket hcalls hsent hfd hpackets hok
      obtain ⟨hpre, hcomplete⟩ := hr (hcalls ▸ hok)
      refine ⟨?_, fun hnone hopen => ?_⟩
      · rw [hsocket, hsent]
        exact hpre.trans (List.prefix_append _ _)
      · rw [hsocket, hsent, hpackets, bytesOf_append, ← List.append_assoc,
          hcomplete (hcalls ▸ hnone) (hfd ▸ hopen)]
        simp [bytesOf]
    split at h
    · obtain rfl := Option.some.inj h
      exact hqueued _ rfl rfl rfl rfl rfl
    · split at h
      · simp at h
      · rename_i t hsend
        obtain rfl := Option.some.inj h
        have ht : t.Inv mem := by
          refine Inv.doSend ?_ hsend
          exact hqueued _ rfl rfl rfl rfl rfl
        exact fun hok => ⟨(ht hok).isPrefix, (ht hok).complete⟩

/-- Every call on the session keeps the invariant. -/
theorem Inv.step {r r' : SendRun β} {c : Call} (hr : r.Inv mem)
    (h : (machine mem).step r c = some r') : r'.Inv mem := by
  cases c with
  | send buffer bufferSize script => exact Inv.send hr h
  | sendJob script =>
    simp only [machine, executeSendJob] at h
    split at h
    · refine Inv.doSend (r := { r with armed := false }) (fun hok => ?_) h
      exact ⟨(hr hok).isPrefix, (hr hok).complete⟩
    · simp at h

lemma inv_start (memory : Session) (sessionID : SessionID) (sessionFD : SocketFD) :
    (start memory sessionID sessionFD : SendRun β).Inv mem :=
  fun _ => ⟨List.prefix_refl _, fun _ _ => rfl⟩

end SendRun

/-- **The send stream of a session.**  In every run of `Send` calls and `SendJob` runs on a
new session in which no `writev` accepts bytes after a lossy one, what the socket has
accepted is a prefix of the buffers given to `Send`, in call order. -/
theorem sendStream_intact_of_nothingAfterLoss {β : Type} (mem : ℤ → β) (memory : Session)
    (sessionID : SessionID) (sessionFD : SocketFD) (calls : List SendRun.Call)
    (r : SendRun β)
    (hrun : (SendRun.machine mem).exec (SendRun.start memory sessionID sessionFD) calls = some r)
    (hok : NothingAfterLoss r.calls) : r.socket <+: r.sent :=
  (StepMachine.exec_invariant (fun _ _ _ hr h => SendRun.Inv.step hr h)
    (SendRun.inv_start memory sessionID sessionFD) hrun hok).isPrefix

/-- A memory whose cells hold their own addresses. -/
def addressMemory : ℤ → Byte := fun a => UInt8.ofNat a.toNat

/-- One `Send` that is interrupted and repeated, one that is written in two parts, and one
behind it in the queue. -/
theorem sendStream_intact_of_interrupted_and_partial :
    ∃ r, (SendRun.machine addressMemory).exec (SendRun.start Session.zeroMemory 0 7)
      [.send 10 3 [.failed .EINTR, .accepted 3 .EINTR], .send 20 3 [.accepted 2 .EINTR],
        .send 30 1 []] = some r ∧ r.socket <+: r.sent :=
  StepMachine.exists_exec_and (fun r => NothingAfterLoss r.calls) (by decide +kernel)
    fun r hrun hok => sendStream_intact_of_nothingAfterLoss addressMemory _ _ _ _ r hrun hok

/-- A `Send` of the bytes 100 and 101 of which one is accepted, a `Send` of the byte 200,
and the run of the send job that the partial write has armed: the byte 101 is skipped. -/
theorem sendStream_skips_after_partial_write :
    ∃ r, (SendRun.machine addressMemory).exec (SendRun.start Session.zeroMemory 0 7)
      [.send 100 2 [.accepted 1 .EAGAIN], .send 200 1 [], .sendJob [.accepted 1 .EAGAIN]] =
        some r ∧ r.socket = [100, 200] ∧ r.sent = [100, 101, 200] ∧ ¬ r.socket <+: r.sent :=
  StepMachine.exists_exec_and
    (fun r => r.socket = [100, 200] ∧ r.sent = [100, 101, 200]) (by decide +kernel)
    fun r _ ⟨hsocket, hsent⟩ => ⟨hsocket, hsent, by rw [hsocket, hsent]; decide⟩

end CoreServer
