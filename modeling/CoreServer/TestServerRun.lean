import CoreServer.ClosedSession
import CoreServer.EchoServer
import CoreServer.ServerStreams

/-!
# The echo server with all its clients

`EchoRun` is one session of `TestServer` (`tests/performance/test_server.cpp`) by itself.  Here the
whole server runs: any number of workers take the jobs from the queue, `AcceptJob` makes sessions,
and the worker that runs the receive job of a session calls `Send` from `OnRecv`.  `TestServer` has
no other thread that sends or disconnects, so its steps are those of `ServerRun` in which the
threads that send are the workers, as far as `OnAccepeted` and `OnRecv` allow them.

What is received from each connection and what is written to it is recorded on the side.
-/

namespace CoreServer

/-- Where the sessions lie: one behind the other, `size` bytes apart, the receive buffer of the
first one at `base`. -/
structure Layout where
  base : ℤ
  size : ℕ
  base_pos : 0 < base
  le_size : BUFFER_SIZE ≤ size

/-- The address of the receive buffer of the session in a slot. -/
def Layout.address (l : Layout) (slot : ℤ) : ℤ := l.base + slot * l.size

/-- The running `TestServer`: the server, and whether the `OnRecv` that a worker is in has called
`Send`. -/
structure TestServerRun (n : ℕ) where
  run : ServerRun n (Fin n)
  sent : Fin n → Bool

/-- The arguments of `OnRecv`. -/
structure OnRecvArgs where
  sessionID : SessionID
  buffer : ℤ
  inputSize : ℤ
deriving DecidableEq, Repr

/-- What has been received from each connection, and written to it. -/
structure Traffic (n : ℕ) where
  arrivals : Arrivals (Fin n)
  written : Option ℕ → List Byte

/-- Nothing has been received or written. -/
def Traffic.none (n : ℕ) : Traffic n := ⟨Arrivals.none (Fin n), fun _ => []⟩

/-- The connections that the traffic goes over. -/
abbrev Traffic.connections {n : ℕ} (h : Traffic n) : Connections (Fin n) := h.arrivals.connections

namespace TestServerRun

variable {n : ℕ}

/-- The memory that packets point into: the receive buffers of the sessions. -/
def mem (l : Layout) (s : TestServerRun n) (a : ℤ) : Byte :=
  (s.run.session ((a - l.base) / l.size)).mRecvJob.mRecvBuffer.mBuffer
    ((a - l.base) % l.size).toNat

/-- The arguments with which `Complete` has called the `OnRecv` that a worker is in.  Nobody else
touches the session meanwhile. -/
def onRecvArgs (l : Layout) (s : TestServerRun n) (w : Fin n) : Option OnRecvArgs :=
  match s.run.job w with
  | .recv slot (.onRecv _) => do
    let session := s.run.session slot
    let inputSize ← session.mRecvJob.mRecvBuffer.getDirectReadSize
    return ⟨session.mSessionID, l.address slot + session.mRecvJob.mRecvBuffer.mFront, inputSize⟩
  | _ => none

/-- The steps that `TestServer` can take: `OnRecv` calls `Send` with its own arguments and then
returns `inputSize`, `OnAccepeted` returns true, and nobody calls `Disconnect`. -/
def Allows (l : Layout) (s : TestServerRun n) : RunStep n (Fin n) → Prop
  | .send w sessionID packet => s.sent w = false ∧ ∃ args ∈ s.onRecvArgs l w,
      sessionID = args.sessionID ∧ packet = ⟨args.buffer, (toSize args.inputSize).toNat⟩
  | .job w (.onRecv readSize) => (s.sent w = true ∧ s.run.sender w = .idle) ∧
      ∃ args ∈ s.onRecvArgs l w, readSize = args.inputSize
  | .job _ (.onAccepeted result) => result = true
  | .disconnect _ _ => False
  | _ => True

instance (l : Layout) (s : TestServerRun n) (a : RunStep n (Fin n)) : Decidable (s.Allows l a) :=
  match a with
  | .send w _ _ => inferInstanceAs (Decidable (_ ∧ ∃ args ∈ s.onRecvArgs l w, _))
  | .job w (.onRecv _) => inferInstanceAs (Decidable (_ ∧ ∃ args ∈ s.onRecvArgs l w, _))
  | .job _ (.onAccepeted _) => inferInstanceAs (Decidable (_ = _))
  | .disconnect _ _ => .isFalse id
  | .job _ .run | .job _ (.epollWait _) | .job _ (.accept _) | .job _ (.epollCtl _)
  | .job _ (.recv _) => .isTrue trivial
  | .pool _ | .start _ | .sender _ _ => .isTrue trivial

/-- Which workers have called `Send` after a step. -/
def sentAfter (s : TestServerRun n) : RunStep n (Fin n) → Fin n → Bool
  | .send w _ _ => Function.update s.sent w true
  | .job w (.onRecv _) => Function.update s.sent w false
  | _ => s.sent

/-- One step. -/
def step (l : Layout) (s : TestServerRun n) (a : RunStep n (Fin n)) : Option (TestServerRun n) :=
  if s.Allows l a then (s.run.step a).map fun run => ⟨run, s.sentAfter a⟩ else none

/-- The machine of the running `TestServer`. -/
def machine (l : Layout) (n : ℕ) : StepMachine (TestServerRun n) (RunStep n (Fin n)) := ⟨step l⟩

/-- The server in `Start`. -/
def start (n : ℕ) (memory : ℕ → Session) (maxSessions : ℕ) (uniqueNumber : BitVec 64)
    (listenFD : SocketFD) : TestServerRun n where
  run := ServerRun.start n (Fin n) memory maxSessions uniqueNumber listenFD
  sent _ := false

/-- `recv` receives from the connection of its descriptor, and `writev` writes to it what the
memory holds at that time. -/
def record (l : Layout) (s : TestServerRun n) (a : RunStep n (Fin n)) (h : Traffic n) :
    Traffic n where
  arrivals := s.run.arrive a h.arrivals
  written :=
    match s.run.writes a with
    | some ⟨_, sendPackets, fd, count⟩ =>
      let c := h.connections.ofFD fd
      Function.update h.written c
        (h.written c ++ (SendRun.bytesOf (s.mem l) sendPackets).take count)
    | none => h.written

/-- The receive job of the session in a slot is registered, or waits for a worker. -/
def Awaits (s : TestServerRun n) (i : ℤ) : Prop :=
  0 < s.run.places (.recv i) ∧ ∀ w, (s.run.job w).receiving ≠ some i

instance (s : TestServerRun n) (i : ℤ) : Decidable (s.Awaits i) :=
  inferInstanceAs (Decidable (_ ∧ _))

variable {l : Layout} {s s' : TestServerRun n} {a : RunStep n (Fin n)} {h : Traffic n}

lemma step_eq_some :
    s.step l a = some s' ↔
      s.Allows l a ∧ s.run.step a = some s'.run ∧ s'.sent = s.sentAfter a := by
  rw [step, Option.ite_none_right_eq_some, Option.map_eq_some_iff]
  refine and_congr_right fun _ => ⟨?_, fun ⟨hstep, hsent⟩ => ⟨s'.run, hstep, by rw [← hsent]⟩⟩
  rintro ⟨run, hstep, rfl⟩
  exact ⟨hstep, rfl⟩

end TestServerRun

/-! ## The sending of a block -/

/-- What `OnRecv` has been given: what the application has taken before, what has been received,
and the packet that points at the difference. -/
structure Block where
  consumed : List Byte
  received : List Byte
  packet : IoVec

/-- The packet of a block, in the memory. -/
structure Block.Valid (b : Block) (mem : ℤ → Byte) : Prop where
  base_pos : 0 < b.packet.iov_base
  len_pos : 0 < b.packet.iov_len
  len_lt : b.packet.iov_len < 2 ^ 31
  received_eq : b.consumed ++ b.packet.bytes mem = b.received

/-- What has been written to the socket of a session for which nobody is in `Send`, of the bytes
that it has been given: all of them, unless a write has been partial or the socket is gone. -/
structure Session.Rests (session : Session) (written given : List Byte) : Prop where
  isPrefix : written <+: given
  queue : session.mIsSending = false → session.mPackets = []
  echoed : session.mIsSending = false → session.mSessionFD ≠ sINVALID_SOCKET_FD → written = given
  cut : session.mIsSending = true → written.length < given.length

/-- Nothing of the block has been written to the socket of the session, which has the packets
`packets` in its queue. -/
structure Session.Keeps (session : Session) (written consumed : List Byte)
    (packets : List IoVec) : Prop where
  queue : session.mPackets = packets
  isPrefix : written <+: consumed
  unwritten : session.mSessionFD ≠ sINVALID_SOCKET_FD → written = consumed

namespace Block

/-- A worker stands in `DoSend` with the packet of the block. -/
def DoSends (b : Block) (session : Session) (written : List Byte) : DoSendPC → Prop
  | .swap => session.mIsSending = true ∧ session.Keeps written b.consumed [b.packet]
  | .checkFD sendPackets => (sendPackets = [b.packet] ∧ session.mIsSending = true) ∧
      session.Keeps written b.consumed []
  | .writevArgs sendPackets => (sendPackets = [b.packet] ∧ session.mIsSending = true) ∧
      session.mSessionFD ≠ sINVALID_SOCKET_FD ∧ session.Keeps written b.consumed []
  | .writev sendPackets fd => (sendPackets = [b.packet] ∧ session.mIsSending = true) ∧
      (session.mSessionFD = fd ∧ fd ≠ sINVALID_SOCKET_FD) ∧ session.Keeps written b.consumed []
  | .clear => session.Keeps written b.received []
  | .giveUp _ => session.Keeps written b.consumed []
  | .disconnect pc _ => (session.mIsSending = false ∧
      (pc ≠ .swap → session.mSessionFD = sINVALID_SOCKET_FD)) ∧
      session.Keeps written b.consumed []
  | .addPackets _ _ => session.Rests written b.received

/-- A worker stands in the `Send` of the block to the session in the slot `i`. -/
def Sends (b : Block) (i : ℤ) (session : Session) (written : List Byte) : SendPC → Prop
  | .idle => session.Rests written b.received
  | .getSession sessionID packet => (sessionID = session.mSessionID ∧ packet = b.packet) ∧
      session.Rests written b.consumed
  | .push slot packet => (slot = i ∧ packet = b.packet) ∧ session.Rests written b.consumed
  | .testAndSet slot => (slot = i ∧ (session.mIsSending = false →
      session.Keeps written b.consumed [b.packet])) ∧
      (session.mIsSending = true → written <+: b.consumed ∧ written.length < b.consumed.length)
  | .doSend slot pc => slot = i ∧ b.DoSends session written pc
  | .disconnect _ _ => False

end Block

/-- What a `writev` takes. -/
def SendPC.takes (mem : ℤ → Byte) : SendPC → SendInput → List Byte
  | doSend _ (.writev sendPackets _), .writev (.accepted count _) =>
    (SendRun.bytesOf mem sendPackets).take count
  | _, _ => []

section Rests

variable {session t : Session} {written given consumed : List Byte} {packets : List IoVec}

/-- A change of a session that keeps its packets and `mIsSending`, and its socket or takes it. -/
lemma Session.Rests.congr (h : session.Rests written given)
    (hsending : t.mIsSending = session.mIsSending) (hpackets : t.mPackets = session.mPackets)
    (hfd : t.mSessionFD = session.mSessionFD ∨ t.mSessionFD = sINVALID_SOCKET_FD) :
    t.Rests written given where
  isPrefix := h.isPrefix
  queue hidle := hpackets.trans (h.queue (hsending.symm.trans hidle))
  echoed hidle hopen := by
    rcases hfd with heq | heq
    · exact h.echoed (hsending.symm.trans hidle) (heq ▸ hopen)
    · exact absurd heq hopen
  cut hsend := h.cut (hsending.symm.trans hsend)

/-- Nothing is written by a change that leaves the queue alone, and the socket or takes it. -/
lemma Session.Keeps.congr (h : session.Keeps written consumed packets)
    (hpackets : t.mPackets = session.mPackets)
    (hfd : t.mSessionFD = session.mSessionFD ∨ t.mSessionFD = sINVALID_SOCKET_FD) :
    t.Keeps written consumed packets where
  queue := hpackets.trans h.queue
  isPrefix := h.isPrefix
  unwritten hopen := by
    rcases hfd with heq | heq
    · exact h.unwritten (heq ▸ hopen)
    · exact absurd heq hopen

/-- A session whose socket is gone rests. -/
lemma Session.Keeps.rests_of_closed (h : session.Keeps written consumed [])
    (hsending : session.mIsSending = false) (hclosed : session.mSessionFD = sINVALID_SOCKET_FD)
    (hle : consumed <+: given) : session.Rests written given where
  isPrefix := h.isPrefix.trans hle
  queue _ := h.queue
  echoed _ hopen := absurd hclosed hopen
  cut hsend := by simp [hsending] at hsend

/-- A session that has written everything rests. -/
lemma Session.Keeps.rests (h : session.Keeps written given [])
    (hsending : session.mIsSending = false) : session.Rests written given where
  isPrefix := h.isPrefix
  queue _ := h.queue
  echoed _ hopen := h.unwritten hopen
  cut hsend := by simp [hsending] at hsend

end Rests

namespace Block

open ServerMemory

variable {b : Block} {mem : ℤ → Byte} {m m' : ServerMemory} {i : ℤ} {written : List Byte}

lemma Valid.bytesOf_eq (hb : b.Valid mem) :
    b.consumed ++ SendRun.bytesOf mem [b.packet] = b.received := by
  rw [← hb.received_eq, SendRun.bytesOf, List.map_singleton, List.flatten_singleton]

lemma Valid.isPrefix (hb : b.Valid mem) : b.consumed <+: b.received := ⟨_, hb.bytesOf_eq⟩

lemma length_bytesOf_packet : (SendRun.bytesOf mem [b.packet]).length = b.packet.iov_len := by
  simp [SendRun.length_bytesOf]

lemma Valid.totalSendBytes_eq (hb : b.Valid mem) :
    SendRun.totalSendBytes [b.packet] = b.packet.iov_len := by
  have hlen := hb.len_lt
  rw [SendRun.totalSendBytes_eq, List.map_singleton, List.sum_singleton, toInt32]
  exact Int.bmod_eq_of_le (by omega) (by omega)

/-- An outcome of a `writev` of the block is an `Int32`. -/
lemma Valid.toInt32_value (hb : b.Valid mem) {fd : SocketFD} {w : WritevResult}
    (hw : m.WritevPossible fd [b.packet] w) : toInt32 w.value = w.value := by
  have hsmall : (SendRun.bytesOf mem [b.packet]).length < 2 ^ 31 := by
    rw [length_bytesOf_packet]
    exact hb.len_lt
  refine EchoRun.toInt32_value hsmall ?_
  cases w with
  | failed errno => trivial
  | accepted count errno =>
    obtain ⟨-, hpos, hle, -⟩ := hw
    exact ⟨hpos, by rwa [SendRun.length_bytesOf]⟩

/-- A `writev` of the block. -/
lemma DoSends.writev (hb : b.Valid mem) {session : Session} {fd : SocketFD} {w : WritevResult}
    (hs : b.DoSends session written (.writev [b.packet] fd))
    (hw : m.WritevPossible fd [b.packet] w) :
    b.DoSends session (written ++ SendPC.takes mem (.doSend i (.writev [b.packet] fd)) (.writev w))
      (DoSendPC.afterWritev [b.packet] w) := by
  have hvalue := hb.toInt32_value hw
  obtain ⟨⟨-, hsending⟩, ⟨rfl, hopen⟩, hkeeps⟩ := hs
  obtain rfl := hkeeps.unwritten hopen
  rw [DoSendPC.afterWritev, hvalue]
  cases w with
  | failed errno =>
    change b.DoSends session (b.consumed ++ []) _
    rw [List.append_nil]
    cases errno with
    | EINTR => exact ⟨⟨rfl, hsending⟩, hkeeps⟩
    | EAGAIN | EPIPE | ECONNRESET | other => exact hkeeps
  | accepted count errno =>
    have hpos : 1 ≤ count := hw.2.1
    have hle : count ≤ ([b.packet].map IoVec.iov_len).sum := hw.2.2.1
    have hnonneg : ¬ ((count : ℤ) < 0) := by omega
    have hreceived := hb.bytesOf_eq
    change b.DoSends session (b.consumed ++ (SendRun.bytesOf mem [b.packet]).take count) _
    simp only [WritevResult.value, hnonneg, if_false, hb.totalSendBytes_eq, Nat.cast_inj]
    split
    · rename_i hall
      have hwhole : b.consumed ++ (SendRun.bytesOf mem [b.packet]).take count = b.received := by
        rwa [List.take_of_length_le (by rw [length_bytesOf_packet, hall])]
      rw [hwhole]
      exact ⟨hkeeps.queue, List.prefix_rfl, fun _ => rfl⟩
    · rename_i hpart
      rw [List.map_singleton, List.sum_singleton] at hle
      have hbusy : ¬ session.mIsSending = false := by simp [hsending]
      refine ⟨?_, fun hidle => absurd hidle hbusy, fun hidle => absurd hidle hbusy, fun _ => ?_⟩
      · rw [← hreceived]
        exact (List.prefix_append_right_inj _).2 (List.take_prefix _ _)
      · rw [← hreceived, List.length_append, List.length_append, List.length_take,
          length_bytesOf_packet]
        omega

/-- `Disconnect` in `DoSend`. -/
lemma DoSends.disconnect (hi : 0 ≤ i) {pc : DisconnectPC}
    {failed : Option (List IoVec)} (hs : b.DoSends (m.session i) written (.disconnect pc failed))
    {pc' : Option DisconnectPC} (h : DisconnectMoves m i pc m' pc') :
    (∀ dpc, pc' = some dpc → b.DoSends (m'.session i) written (.disconnect dpc failed)) ∧
      (pc' = none → (m'.session i).Keeps written b.consumed [] ∧
        (m'.session i).mIsSending = false ∧ (m'.session i).mSessionFD = sINVALID_SOCKET_FD) := by
  obtain ⟨⟨hsending, hclosed⟩, hkeeps⟩ := hs
  have hgone : (m'.session i).mSessionFD = sINVALID_SOCKET_FD := by
    cases h with
    | swapValid hin hfd | swapInvalid hin hfd => rw [session_updateSession_self hi]; rfl
    | epollDel | close => exact hclosed (by simp)
    | recving | notRecving | sending | notSending | onDisconnected => exact hclosed (by simp)
  have hsame : (m'.session i).mPackets = (m.session i).mPackets ∧
      (m'.session i).mIsSending = (m.session i).mIsSending := by
    rcases h.session hi with heq | ⟨-, -, heq⟩ <;> rw [heq] <;> exact ⟨rfl, rfl⟩
  have hkeeps' := hkeeps.congr hsame.1 (Or.inr hgone)
  exact ⟨fun dpc _ => ⟨⟨hsame.2.trans hsending, fun _ => hgone⟩, hkeeps'⟩,
    fun _ => ⟨hkeeps', hsame.2.trans hsending, hgone⟩⟩

/-- **One step of `DoSend` with the block.** -/
lemma DoSends.step (hb : b.Valid mem) (hi : 0 ≤ i) {pc : DoSendPC} {input : SendInput}
    {pc' : Option DoSendPC} (hs : b.DoSends (m.session i) written pc)
    (h : m.doSendStep i pc input = some (m', pc')) :
    (∀ dpc, pc' = some dpc → b.DoSends (m'.session i)
      (written ++ SendPC.takes mem (.doSend i pc) input) dpc) ∧
    (pc' = none → (m'.session i).Rests (written ++ SendPC.takes mem (.doSend i pc) input)
      b.received) := by
  by_cases hpc : ∃ sendPackets fd, pc = .writev sendPackets fd
  · obtain ⟨sendPackets, fd, rfl⟩ := hpc
    obtain ⟨⟨rfl, -⟩, -⟩ := id hs
    cases input with
    | run => cases h
    | writev w =>
      obtain ⟨hw, h⟩ := Option.ite_none_right_eq_some.1 h
      obtain ⟨rfl, rfl⟩ := Prod.mk.inj (Option.some.inj h)
      refine ⟨?_, by simp⟩
      rintro dpc ⟨⟩
      exact hs.writev hb hw
  · have htakes : SendPC.takes mem (.doSend i pc) input = [] := by
      unfold SendPC.takes
      split
      · rename_i heq
        exact absurd ⟨_, _, (SendPC.doSend.inj heq).2⟩ hpc
      · rfl
    rw [htakes, List.append_nil]
    cases doSendMoves_of_step h with
    | writev w hw => exact absurd ⟨_, _, rfl⟩ hpc
    | swapEmpty hin hpackets =>
      rw [hs.2.queue] at hpackets
      cases hpackets
    | swap hin hpackets =>
      refine ⟨?_, by simp⟩
      rintro dpc ⟨⟩
      rw [session_updateSession_self hi]
      exact ⟨⟨hs.2.queue, hs.1⟩, rfl, hs.2.isPrefix, hs.2.unwritten⟩
    | fdInvalid hfd =>
      refine ⟨?_, by simp⟩
      rintro dpc ⟨⟩
      exact hs.2
    | fdValid hfd =>
      refine ⟨?_, by simp⟩
      rintro dpc ⟨⟩
      exact ⟨hs.1, hfd, hs.2⟩
    | writevArgs =>
      refine ⟨?_, by simp⟩
      rintro dpc ⟨⟩
      exact ⟨hs.1, ⟨rfl, hs.2.1⟩, hs.2.2⟩
    | clear hin =>
      refine ⟨by simp, fun _ => ?_⟩
      rw [session_updateSession_self hi]
      have hkeeps : ((m.session i).setSendState false).Keeps written b.received [] :=
        Session.Keeps.congr hs rfl (Or.inl rfl)
      exact hkeeps.rests rfl
    | giveUp hin =>
      refine ⟨?_, by simp⟩
      rintro dpc ⟨⟩
      rw [session_updateSession_self hi]
      exact ⟨⟨rfl, by simp⟩, Session.Keeps.congr hs rfl (Or.inl rfl)⟩
    | disconnect hmoves =>
      refine ⟨?_, by simp⟩
      rintro dpc ⟨⟩
      exact (hs.disconnect hi hmoves).1 _ rfl
    | disconnected hmoves =>
      obtain ⟨hkeeps, hsending, hclosed⟩ := (hs.disconnect hi hmoves).2 rfl
      have hrests := hkeeps.rests_of_closed hsending hclosed hb.isPrefix
      refine ⟨fun dpc hdpc => ?_, fun _ => hrests⟩
      rcases DoSendPC.afterDisconnect_cases hdpc with rfl | ⟨sendPackets, rfl⟩
      · exact ⟨hkeeps.queue, hrests.isPrefix, fun hopen => absurd hclosed hopen⟩
      · exact hrests
    | addPackets job hin =>
      refine ⟨by simp, fun _ => ?_⟩
      rw [session_updateSession_self hi]
      exact Session.Rests.congr hs rfl rfl (Or.inl rfl)

/-- What has been written in `DoSend` is a beginning of what has been given. -/
lemma DoSends.isPrefix {session : Session} {pc : DoSendPC} (hs : b.DoSends session written pc)
    (hb : b.Valid mem) : written <+: b.received := by
  cases pc with
  | swap | checkFD => exact hs.2.isPrefix.trans hb.isPrefix
  | writevArgs | writev => exact hs.2.2.isPrefix.trans hb.isPrefix
  | clear => exact Session.Keeps.isPrefix hs
  | giveUp => exact (Session.Keeps.isPrefix hs).trans hb.isPrefix
  | disconnect => exact hs.2.isPrefix.trans hb.isPrefix
  | addPackets => exact Session.Rests.isPrefix hs

/-- What has been written in `Send` is a beginning of what has been given. -/
lemma Sends.isPrefix {session : Session} {pc : SendPC} (hs : b.Sends i session written pc)
    (hb : b.Valid mem) : written <+: b.received := by
  cases pc with
  | idle => exact Session.Rests.isPrefix hs
  | getSession | push => exact hs.2.isPrefix.trans hb.isPrefix
  | testAndSet slot =>
    refine List.IsPrefix.trans ?_ hb.isPrefix
    cases hsending : session.mIsSending with
    | false => exact (hs.1.2 hsending).isPrefix
    | true => exact (hs.2 hsending).1
  | doSend slot pc => exact hs.2.isPrefix hb
  | disconnect => exact hs.elim

/-- `Send` finds the session of the ID. -/
lemma sendStep_getSession (hid : getIndex (m.session i).mSessionID = i) {packet : IoVec}
    (hbase : packet.iov_base ≠ 0) (hlen : 0 < packet.iov_len) {input : SendInput} {pc' : SendPC}
    (h : m.sendStep (.getSession (m.session i).mSessionID packet) input = some (m', pc')) :
    m' = m ∧ pc' = .push i packet := by
  cases input with
  | writev w => cases h
  | run =>
    obtain ⟨found, hfound, h⟩ := Option.bind_eq_some_iff.1 h
    obtain ⟨-, hfound⟩ := slot_bind_eq_some.1 hfound
    rw [hid, if_neg (not_not.2 rfl)] at hfound
    obtain rfl : some i = found := Option.some.inj hfound
    obtain ⟨rfl, rfl⟩ := Prod.mk.inj (Option.some.inj h)
    exact ⟨rfl, if_neg (by rw [not_or]; exact ⟨hbase, by omega⟩)⟩

/-- **One step of the `Send` of the block.** -/
lemma Sends.step (hb : b.Valid mem) (hi : 0 ≤ i) (hid : getIndex (m.session i).mSessionID = i)
    {pc pc' : SendPC} {input : SendInput} (hs : b.Sends i (m.session i) written pc)
    (h : m.sendStep pc input = some (m', pc')) :
    b.Sends i (m'.session i) (written ++ SendPC.takes mem pc input) pc' := by
  by_cases hpc : ∃ slot dpc, pc = .doSend slot dpc
  · obtain ⟨slot, dpc, rfl⟩ := hpc
    obtain ⟨rfl, hs⟩ := hs
    obtain ⟨⟨m₁, dpc'⟩, hstep, h⟩ := Option.bind_eq_some_iff.1 h
    obtain ⟨hgoes, hreturns⟩ := hs.step hb hi hstep
    cases dpc' with
    | none =>
      obtain ⟨rfl, rfl⟩ := Prod.mk.inj (Option.some.inj h)
      exact hreturns rfl
    | some dpc' =>
      obtain ⟨rfl, rfl⟩ := Prod.mk.inj (Option.some.inj h)
      exact ⟨rfl, hgoes dpc' rfl⟩
  · have htakes : SendPC.takes mem pc input = [] := by
      unfold SendPC.takes
      split
      · exact absurd ⟨_, _, rfl⟩ hpc
      · rfl
    rw [htakes, List.append_nil]
    cases pc with
    | idle => cases h
    | doSend slot dpc => exact absurd ⟨_, _, rfl⟩ hpc
    | disconnect slot dpc => exact hs.elim
    | getSession sessionID packet =>
      obtain ⟨⟨rfl, rfl⟩, hrests⟩ := hs
      obtain ⟨rfl, rfl⟩ := sendStep_getSession hid hb.base_pos.ne' hb.len_pos h
      exact ⟨⟨rfl, rfl⟩, hrests⟩
    | push slot packet =>
      obtain ⟨⟨rfl, rfl⟩, hrests⟩ := hs
      cases sendMoves_of_step h with
      | push hin =>
        rw [session_updateSession_self hi]
        refine ⟨⟨rfl, fun hidle => ⟨?_, hrests.isPrefix, fun hopen => hrests.echoed hidle hopen⟩⟩,
          fun hsend => ⟨hrests.isPrefix, hrests.cut hsend⟩⟩
        exact congrArg (· ++ [b.packet]) (hrests.queue hidle)
    | testAndSet slot =>
      obtain ⟨⟨rfl, hidle⟩, hsend⟩ := hs
      cases sendMoves_of_step h with
      | alreadySet hin hsending =>
        rw [session_updateSession_self hi]
        obtain ⟨hpre, hcut⟩ := hsend hsending
        exact ⟨hpre.trans hb.isPrefix, (by rintro ⟨⟩), (by rintro ⟨⟩),
          fun _ => hcut.trans_le hb.isPrefix.length_le⟩
      | set hin hsending =>
        rw [session_updateSession_self hi]
        exact ⟨rfl, rfl, Session.Keeps.congr (hidle hsending) rfl (Or.inl rfl)⟩

end Block

end CoreServer
