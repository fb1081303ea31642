import CoreServer.Network.SendStream
import CoreServer.RecvDelivery

/-!
# The echo server of the performance test

`TestServer` (`tests/performance/test_server.cpp`) sends back what it receives: its `OnRecv`
calls `Send` with its own arguments and returns `inputSize`.  A session of this server is run
through the rounds of its receive job, and all that it sends it sends from `OnRecv`, on the
thread that runs the job; a send job that a partial write has armed is never run, because no
job polls the send epoll descriptor.

The packet that `Send` queues points into the receive buffer.  It is written before `OnRecv`
returns, or never.
-/

namespace CoreServer

open RecvJob CircularBuffer

/-- `TestServer::OnRecv` on a session that is still in its slot. -/
def TestServer.onRecv (mem : ℤ → Byte) (buffer inputSize : ℤ) (script : List WritevResult)
    (r : SendRun Byte) : Option (SendRun Byte × ℤ) := do
  let r ← r.send mem buffer (toSize inputSize).toNat script
  return (r, inputSize)

/-- A session of the echo server: where its receive job stands, the session with its socket, and
the records of `RecvRun`. -/
structure EchoRun where
  pc : RecvJob.PC
  out : SendRun Byte
  received : List Byte
  consumed : List Byte
  drained : ℕ

/-- What the outside answers.  Whether the descriptor is valid is read from the session, and
`OnRecv` gets the outcomes of the `writev` calls that it leads to. -/
inductive EchoInput where
  | execute
  | socketFD
  | recv (result : RecvResult)
  | onRecv (script : List WritevResult)
  | noData
  | epollCtl (ok : Bool)
  | disconnected
deriving DecidableEq, Repr

/-- The bytes that `recv` has put in the buffer. -/
def EchoInput.bytes : EchoInput → List Byte
  | recv (.received bytes) => bytes
  | _ => []

/-- What a step of `OnRecv` does. -/
lemma RecvRun.onRecv_eq_some {r r' : RecvRun} {readSize : ℤ}
    (h : r.step (.onRecv readSize) = some r') :
    ∃ usedSize block b, r.job.mRecvBuffer.getUsedSize = some usedSize ∧ 0 < usedSize ∧
      inputBlock r.job.mRecvBuffer = some block ∧
      consume r.job.mRecvBuffer usedSize readSize = some b ∧
      r' = { r with
        pc := .rearm
        job := ⟨b⟩
        consumed := r.consumed ++ block.take readSize.toNat
        drained := if (r.consumed ++ block.take readSize.toNat).length = r.received.length
          then (r.consumed ++ block.take readSize.toNat).length else r.drained } := by
  simp only [step, Option.ite_none_right_eq_some, Option.bind_eq_bind, Option.bind_eq_some_iff,
    Option.pure_def, Option.some.injEq] at h
  obtain ⟨-, usedSize, hused, hpos, block, hblock, b, hb, rfl⟩ := h
  exact ⟨usedSize, block, b, hused, hpos, hblock, hb, rfl⟩

/-- An `OnRecv` that returns its `inputSize` is given everything that has not been taken, and takes
it. -/
lemma RecvRun.Stream.onRecv_all {r r' : RecvRun} (hr : r.Stream) {inputSize : ℤ}
    (hsize : r.job.mRecvBuffer.getDirectReadSize = some inputSize)
    (h : r.step (.onRecv inputSize) = some r') :
    inputSize = r.job.mRecvBuffer.used ∧ 0 < r.job.mRecvBuffer.used ∧ r'.Stream ∧
      r'.pc = .rearm ∧ r'.received = r.received ∧ r'.consumed = r.received := by
  obtain rfl : (r.job.mRecvBuffer.used : ℤ) = inputSize := by
    rw [hr.valid.getDirectReadSize, hr.directRead_eq] at hsize
    exact Option.some.inj hsize
  have ha : r.OnRecvInRange (.onRecv (r.job.mRecvBuffer.used : ℤ)) :=
    ⟨by omega, fun size hmem => (Option.some.inj (hsize.symm.trans hmem)).le⟩
  have hstream := hr.step ha h
  obtain ⟨usedSize, block, b, hused, hpos, hblock, -, rfl⟩ := RecvRun.onRecv_eq_some h
  obtain ⟨-, -, -, rfl, hpos, -⟩ := hr.onRecv_args ha hused hpos hblock
  refine ⟨rfl, hpos, hstream, rfl, rfl, ?_⟩
  -- the block is everything that the buffer holds
  change r.consumed ++ r.job.mRecvBuffer.content.take ((r.job.mRecvBuffer.used : ℤ).toNat) = _
  rw [List.take_of_length_le (by simp), hr.content_eq]
  exact (List.prefix_append_drop hr.isPrefix).symm

namespace EchoRun

/-- The receive job of the session. -/
def recv (s : EchoRun) : RecvRun :=
  ⟨s.pc, s.out.session.mRecvJob, s.received, s.consumed, s.drained⟩

/-- The session after a step of its receive job. -/
def withRecv (s : EchoRun) (r : RecvRun) : EchoRun where
  pc := r.pc
  out := { s.out with session := { s.out.session with mRecvJob := r.job } }
  received := r.received
  consumed := r.consumed
  drained := r.drained

/-- One step of `Execute` or `Complete`.  The receive buffer lies at `address`. -/
def step (address : ℤ) (s : EchoRun) : EchoInput → Option EchoRun
  | .execute => (s.recv.step .execute).map s.withRecv
  | .socketFD =>
    (s.recv.step (.socketFD (decide (s.out.session.mSessionFD ≠ sINVALID_SOCKET_FD)))).map
      s.withRecv
  | .recv result => (s.recv.step (.recv result)).map s.withRecv
  | .onRecv script => do
    let b := s.out.session.mRecvJob.mRecvBuffer
    let inputSize ← b.getDirectReadSize
    let mem := fun a => b.mBuffer (a - address).toNat
    let (out, readSize) ← TestServer.onRecv mem (address + b.mFront) inputSize script s.out
    let r ← s.recv.step (.onRecv readSize)
    return withRecv { s with out := out } r
  | .noData => (s.recv.step .noData).map s.withRecv
  -- `epoll_ctl` fails on a descriptor that is not one
  | .epollCtl ok =>
    if ok ∧ s.out.session.mSessionFD = sINVALID_SOCKET_FD then none
    else (s.recv.step (.epollCtl ok)).map s.withRecv
  -- `SetReceiveState(false)` and `Disconnect()`
  | .disconnected => do
    let r ← s.recv.step .disconnected
    let s := s.withRecv r
    return { s with
      out := { s.out with session := s.out.session.setReceiveState false }.disconnect }

/-- The machine of one session. -/
def machine (address : ℤ) : StepMachine EchoRun EchoInput := ⟨step address⟩

/-- A session that has just been constructed and registered. -/
def start (memory : Session) (sessionID : SessionID) (sessionFD : SocketFD) : EchoRun :=
  ⟨.idle, SendRun.start memory sessionID sessionFD, [], [], 0⟩

/-! ## What one `Send` does -/

section Send

open SendRun

variable {mem : ℤ → Byte} {packets : List IoVec} {script : List WritevResult}
  {r r' : SendRun Byte} {res : Option ℤ}

/-- What the loop of `DoSend` can come to, for a batch whose total is an `Int32`: the socket is
gone and nothing has been written, all has been written, or a part. -/
inductive LoopResult (mem : ℤ → Byte) (packets : List IoVec) (r r' : SendRun Byte) :
    Option ℤ → Prop where
  | closed (res : Option ℤ) (fd : r'.session.mSessionFD = sINVALID_SOCKET_FD)
    (sending : r'.session.mIsSending = false) (socket : r'.socket = r.socket) :
    LoopResult mem packets r r' res
  | whole (fd : r.session.mSessionFD ≠ sINVALID_SOCKET_FD)
    (sending : r'.session.mIsSending = false)
    (socket : r'.socket = r.socket ++ bytesOf mem packets) : LoopResult mem packets r r' none
  | part (n : ℤ) (count : ℕ) (lt : count < (bytesOf mem packets).length)
    (fd : r.session.mSessionFD ≠ sINVALID_SOCKET_FD)
    (sending : r'.session.mIsSending = r.session.mIsSending)
    (socket : r'.socket = r.socket ++ (bytesOf mem packets).take count) :
    LoopResult mem packets r r' (some n)

/-- A count that `writev` can return for such a batch is an `Int32`. -/
lemma toInt32_value {w : WritevResult} (hsmall : (bytesOf mem packets).length < 2 ^ 31)
    (hposs : Possible mem packets w) : toInt32 w.value = w.value := by
  refine Int.bmod_eq_of_le ?_ ?_ <;> cases w with
  | accepted count errno =>
    obtain ⟨h₁, h₂⟩ := hposs
    simp only [WritevResult.value]
    omega
  | failed errno => simp [WritevResult.value]

/-- The loop of `DoSend`. -/
lemma loopResult (hsmall : (bytesOf mem packets).length < 2 ^ 31)
    (h : writevLoop mem packets script r = some (r', res)) : LoopResult mem packets r r' res := by
  have htotal : totalSendBytes packets = (bytesOf mem packets).length := by
    rw [totalSendBytes_eq, ← length_bytesOf mem]
    exact Int.bmod_eq_of_le (by omega) (by omega)
  induction script generalizing r with
  | nil =>
    unfold writevLoop at h
    split at h
    · obtain ⟨rfl, rfl⟩ := Prod.mk.inj (Option.some.inj h)
      exact .closed _ rfl rfl rfl
    · cases h
  | cons w script ih =>
    unfold writevLoop at h
    split at h
    · obtain ⟨rfl, rfl⟩ := Prod.mk.inj (Option.some.inj h)
      exact .closed _ rfl rfl rfl
    · rename_i hfd
      simp only [Option.ite_none_right_eq_some] at h
      obtain ⟨hposs, h⟩ := h
      rw [toInt32_value hsmall hposs] at h
      cases w with
      | accepted count errno =>
        obtain ⟨hpos, hle⟩ := hposs
        have hnn : ¬ ((count : ℤ) < 0) := by omega
        simp only [WritevResult.value, hnn, false_and, if_false, htotal] at h
        split at h
        · rename_i hall
          obtain ⟨rfl, rfl⟩ := Prod.mk.inj (Option.some.inj h)
          refine .whole hfd rfl ?_
          simp only [clearSending_socket, writev_socket, WritevResult.count]
          rw [List.take_of_length_le (by omega)]
        · rename_i hpart
          obtain ⟨rfl, rfl⟩ := Prod.mk.inj (Option.some.inj h)
          exact .part _ count (by omega) hfd rfl rfl
      | failed errno =>
        have hsocket : (writev mem packets (.failed errno) r).socket = r.socket := by
          simp [WritevResult.count]
        simp only [WritevResult.value, WritevResult.errno, Int.reduceNeg, Int.neg_neg_iff_pos,
          Int.zero_lt_one, true_and, if_true, htotal] at h
        split at h
        · obtain ⟨rfl, rfl⟩ := Prod.mk.inj (Option.some.inj h)
          exact .closed _ rfl rfl hsocket
        · split at h
          · -- interrupted: the call is repeated
            cases ih h with
            | closed res fd sending socket => exact .closed _ fd sending (socket.trans hsocket)
            | whole fd sending socket =>
              rw [hsocket] at socket
              exact .whole fd sending socket
            | part n count lt fd sending socket =>
              rw [hsocket] at socket
              exact .part n count lt fd sending socket
          · split at h <;>
            · obtain ⟨rfl, rfl⟩ := Prod.mk.inj (Option.some.inj h)
              exact .closed _ rfl rfl hsocket

/-- What a `Send` of a block can come to: the block is queued behind an unfinished write, the
socket is gone, the whole block has been written, or a part of it, after which the session stays
in the state of sending. -/
inductive SendResult (block : List Byte) (r r' : SendRun Byte) : Prop where
  | queued (before : r.session.mIsSending = true) (sending : r'.session.mIsSending = true)
    (socket : r'.socket = r.socket)
  | closed (before : r.session.mIsSending = false)
    (fd : r'.session.mSessionFD = sINVALID_SOCKET_FD)
    (sending : r'.session.mIsSending = false) (packets : r'.session.mPackets = [])
    (socket : r'.socket = r.socket)
  | whole (before : r.session.mIsSending = false)
    (fd : r.session.mSessionFD ≠ sINVALID_SOCKET_FD)
    (sending : r'.session.mIsSending = false) (packets : r'.session.mPackets = [])
    (socket : r'.socket = r.socket ++ block)
  | part (count : ℕ) (lt : count < block.length) (before : r.session.mIsSending = false)
    (fd : r.session.mSessionFD ≠ sINVALID_SOCKET_FD)
    (sending : r'.session.mIsSending = true) (socket : r'.socket = r.socket ++ block.take count)

/-- A `Send` of a block of less than 2 GiB on a session whose queue is empty unless it is
sending. -/
lemma sendResult {buffer : ℤ} {bufferSize : ℕ} (hbuffer : buffer ≠ 0) (hpos : 0 < bufferSize)
    (hsmall : bufferSize < 2 ^ 31)
    (hclean : r.session.mIsSending = false → r.session.mPackets = [])
    (h : r.send mem buffer bufferSize script = some r') :
    SendResult (IoVec.bytes mem ⟨buffer, bufferSize⟩) r r' := by
  simp only [SendRun.send] at h
  rw [if_neg (by omega)] at h
  split at h
  · rename_i hsending
    obtain rfl := Option.some.inj h
    exact .queued hsending hsending rfl
  · rename_i hidle
    have hidle : r.session.mIsSending = false := Bool.eq_false_iff.2 hidle
    have hpackets : r.session.mPackets ++ [⟨buffer, bufferSize⟩] = [⟨buffer, bufferSize⟩] := by
      rw [hclean hidle, List.nil_append]
    have hbytes : bytesOf mem [⟨buffer, bufferSize⟩] = IoVec.bytes mem ⟨buffer, bufferSize⟩ := by
      simp [bytesOf]
    split at h
    · cases h
    · rename_i u hu
      obtain rfl := Option.some.inj h
      simp only [SendRun.doSend, Session.setSendState, hpackets, List.cons_ne_nil,
        if_false] at hu
      split at hu
      · cases hu
      · rename_i v hloop
        obtain rfl := Option.some.inj hu
        obtain ⟨-, hqueue, -⟩ := writevLoop_frame hloop
        cases loopResult (by rw [hbytes]; simpa using hsmall) hloop with
        | closed res fd sending socket => exact .closed hidle fd sending hqueue socket
        | whole fd sending socket => exact .whole hidle fd sending hqueue (hbytes ▸ socket)
      · rename_i v n hloop
        obtain rfl := Option.some.inj hu
        obtain ⟨-, hqueue, -⟩ := writevLoop_frame hloop
        cases loopResult (by rw [hbytes]; simpa using hsmall) hloop with
        | closed res fd sending socket => exact .closed hidle fd sending hqueue socket
        | part n count lt fd sending socket =>
          exact .part count (hbytes ▸ lt) hidle fd sending (hbytes ▸ socket)

/-- While the session is in the state of sending, `Send` only queues. -/
lemma send_of_sending {buffer : ℤ} {bufferSize : ℕ} (hsending : r.session.mIsSending = true)
    (h : r.send mem buffer bufferSize script = some r') :
    r'.session.mIsSending = true ∧ r'.socket = r.socket := by
  simp only [SendRun.send] at h
  split at h
  · exact Option.some.inj h ▸ ⟨hsending, rfl⟩
  · exact Option.some.inj h ▸ ⟨hsending, rfl⟩

end Send

/-! ## Whole runs -/

/-- After `OnRecv`, and until the next `recv`, nothing is left to read. -/
def Drained : RecvJob.PC → Prop
  | .idle | .rearm | .rearmFailed => True
  | _ => False

/-- What has been written is the beginning of what `OnRecv` has been given; it is all of it as
long as no write has been partial and the socket is open, and never again all of it after a
partial write. -/
structure Inv (s : EchoRun) : Prop where
  stream : s.recv.Stream
  drained : Drained s.pc → s.consumed = s.received
  isPrefix : s.out.socket <+: s.consumed
  queue : s.out.session.mIsSending = false → s.out.session.mPackets = []
  echoed : s.out.session.mIsSending = false → s.out.session.mSessionFD ≠ sINVALID_SOCKET_FD →
    s.out.socket = s.consumed
  cut : s.out.session.mIsSending = true → s.out.socket.length < s.consumed.length

variable {address : ℤ} {s s' : EchoRun}

lemma inv_start {memory : Session} (hb : memory.mRecvJob.mRecvBuffer.Valid)
    (hempty : memory.mRecvJob.mRecvBuffer.mFront = memory.mRecvJob.mRecvBuffer.mRear)
    (sessionID : SessionID) (sessionFD : SocketFD) : (start memory sessionID sessionFD).Inv where
  stream := RecvRun.stream_startWith hb hempty
  drained _ := rfl
  isPrefix := List.prefix_refl _
  queue _ := rfl
  echoed _ _ := rfl
  cut := nofun

/-- A step of the receive job that does not call `OnRecv`. -/
lemma Inv.withRecv (hs : s.Inv) {r : RecvRun} {a : Input} (ha : s.recv.OnRecvInRange a)
    (hstep : s.recv.step a = some r) (hconsumed : r.consumed = s.consumed)
    (hdrained : Drained r.pc → r.consumed = r.received) : (s.withRecv r).Inv where
  stream := hs.stream.step ha hstep
  drained := hdrained
  isPrefix := hs.isPrefix.trans (hconsumed ▸ List.prefix_refl _)
  queue := hs.queue
  echoed h h' := (hs.echoed h h').trans hconsumed.symm
  cut h := (hs.cut h).trans_eq (congrArg List.length hconsumed.symm)

/-- A call of `recv` gives the application nothing. -/
lemma recv_step {r r' : RecvRun} {result : RecvResult} (h : r.step (.recv result) = some r') :
    ¬ Drained r'.pc ∧ r'.consumed = r.consumed := by
  constructor
  · simp only [RecvRun.step, Option.ite_none_right_eq_some] at h
    obtain ⟨-, h⟩ := h
    cases result with
    | received bytes =>
      obtain ⟨b, -, h⟩ := Option.bind_eq_some_iff.1 h
      obtain rfl := Option.some.inj h
      exact id
    | closed =>
      obtain rfl := Option.some.inj h
      exact id
    | failed errno =>
      cases errno <;>
      · obtain rfl := Option.some.inj h
        exact id
  · rcases RecvRun.step_cases h with ⟨-, -, hc, -⟩ | ⟨_, _, -, -, rfl⟩ |
      ⟨_, _, _, _, ha, -⟩
    · exact hc
    · rfl
    · cases ha

lemma Inv.recvStep (hs : s.Inv) {result : RecvResult} {r : RecvRun}
    (h : s.recv.step (.recv result) = some r) : (s.withRecv r).Inv := by
  obtain ⟨hpc, hconsumed⟩ := recv_step h
  have ha : s.recv.OnRecvInRange (.recv result) := trivial
  exact hs.withRecv ha h hconsumed fun hd => absurd hd hpc

/-- The packet that is queued for the front of the buffer points at everything that has been
received and not been given to `OnRecv`. -/
lemma Inv.packet_bytes (hs : s.Inv) (address : ℤ) :
    IoVec.bytes (fun a => s.out.session.mRecvJob.mRecvBuffer.mBuffer (a - address).toNat)
      ⟨address + s.out.session.mRecvJob.mRecvBuffer.mFront,
        s.out.session.mRecvJob.mRecvBuffer.used⟩ = s.received.drop s.consumed.length := by
  have hvalid : s.out.session.mRecvJob.mRecvBuffer.Valid := hs.stream.valid
  have hle : s.out.session.mRecvJob.mRecvBuffer.mFront ≤
      s.out.session.mRecvJob.mRecvBuffer.mRear := hs.stream.front_le
  have hcontent : s.out.session.mRecvJob.mRecvBuffer.content =
      s.received.drop s.consumed.length := hs.stream.content_eq
  have hused : s.out.session.mRecvJob.mRecvBuffer.used =
      (s.out.session.mRecvJob.mRecvBuffer.mRear -
        s.out.session.mRecvJob.mRecvBuffer.mFront).toNat := by simp [used, hle]
  have hfront := hvalid.front_nonneg
  have hrear := hvalid.rear_lt
  rw [← hcontent, content, Circular.ring_eq_slice (by omega), IoVec.bytes_eq_map, Circular.slice]
  refine List.map_congr_left fun i _ => ?_
  change s.out.session.mRecvJob.mRecvBuffer.mBuffer
    (address + s.out.session.mRecvJob.mRecvBuffer.mFront + i - address).toNat = _
  congr 1
  omega

/-- The round of an `OnRecv`: it is given all that has been received and not been given yet, and
sends it. -/
lemma Inv.onRecv (hs : s.Inv) (haddress : 0 < address) {script : List WritevResult}
    (h : s.step address (.onRecv script) = some s') :
    s'.recv.Stream ∧ s'.pc = .rearm ∧ s'.received = s.received ∧ s'.consumed = s.received ∧
      ∃ out, SendResult (s.received.drop s.consumed.length) s.out out ∧
        s'.out.socket = out.socket ∧ s'.out.session.mIsSending = out.session.mIsSending ∧
        s'.out.session.mPackets = out.session.mPackets ∧
        s'.out.session.mSessionFD = out.session.mSessionFD := by
  simp only [step, Option.bind_eq_bind, Option.bind_eq_some_iff, Option.pure_def,
    Option.some.injEq] at h
  obtain ⟨inputSize, hsize, ⟨out, readSize⟩, hout, r, hr, rfl⟩ := h
  simp only [TestServer.onRecv, Option.bind_eq_bind, Option.bind_eq_some_iff, Option.pure_def,
    Option.some.injEq, Prod.mk.injEq] at hout
  obtain ⟨out, hsend, rfl, rfl⟩ := hout
  have hvalid : s.out.session.mRecvJob.mRecvBuffer.Valid := hs.stream.valid
  have hlt := hvalid.used_lt
  have hfront := hvalid.front_nonneg
  have hbuffer := BUFFER_SIZE_eq
  obtain ⟨rfl, hpos, hstream, hpc, hreceived, hconsumed⟩ := hs.stream.onRecv_all hsize hr
  have hpos : 0 < s.out.session.mRecvJob.mRecvBuffer.used := hpos
  change s.out.send _ _ (toSize (s.out.session.mRecvJob.mRecvBuffer.used : ℤ)).toNat _ = _ at hsend
  have hsize' : (toSize (s.out.session.mRecvJob.mRecvBuffer.used : ℤ)).toNat =
      s.out.session.mRecvJob.mRecvBuffer.used := by
    simp only [toSize]
    omega
  rw [hsize'] at hsend
  have hsent := sendResult (by omega) hpos (by omega) hs.queue hsend
  rw [hs.packet_bytes address] at hsent
  exact ⟨hstream, hpc, hreceived, hconsumed, out, hsent, rfl, rfl, rfl, rfl⟩

lemma Inv.afterOnRecv (hs : s.Inv) (haddress : 0 < address) {script : List WritevResult}
    (h : s.step address (.onRecv script) = some s') : s'.Inv := by
  obtain ⟨hstream, -, hreceived, hconsumed, out, hsent, hsocket, hsending, hpackets, hfd⟩ :=
    hs.onRecv haddress h
  have hall : s.consumed ++ s.received.drop s.consumed.length = s.received :=
    (List.prefix_append_drop hs.stream.isPrefix).symm
  have hpre : s.consumed <+: s.received := hs.stream.isPrefix
  refine ⟨hstream, fun _ => hconsumed.trans hreceived.symm, ?_, ?_, ?_, ?_⟩
  · rw [hsocket, hconsumed]
    cases hsent with
    | queued before sending socket => exact socket ▸ hs.isPrefix.trans hpre
    | closed before fd sending packets socket => exact socket ▸ hs.isPrefix.trans hpre
    | whole before fd sending packets socket => rw [socket, hs.echoed before fd, hall]
    | part count lt before fd sending socket =>
      have hpart : s.consumed ++ (s.received.drop s.consumed.length).take count <+:
          s.consumed ++ s.received.drop s.consumed.length :=
        (List.prefix_append_right_inj _).2 (List.take_prefix _ _)
      rw [socket, hs.echoed before fd]
      rwa [hall] at hpart
  · rw [hsending, hpackets]
    intro hidle
    cases hsent with
    | queued before sending socket => simp [sending] at hidle
    | closed before fd sending packets socket => exact packets
    | whole before fd sending packets socket => exact packets
    | part count lt before fd sending socket => simp [sending] at hidle
  · rw [hsending, hfd, hsocket, hconsumed]
    intro hidle hopen
    cases hsent with
    | queued before sending socket => simp [sending] at hidle
    | closed before fd sending packets socket => exact absurd fd hopen
    | whole before fd sending packets socket => rw [socket, hs.echoed before fd, hall]
    | part count lt before fd sending socket => simp [sending] at hidle
  · rw [hsending, hsocket, hconsumed]
    intro hstuck
    cases hsent with
    | queued before sending socket => exact socket ▸ (hs.cut before).trans_le hpre.length_le
    | closed before fd sending packets socket => simp [sending] at hstuck
    | whole before fd sending packets socket => simp [sending] at hstuck
    | part count lt before fd sending socket =>
      rw [socket, hs.echoed before fd, List.length_append, List.length_take]
      rw [List.length_drop] at lt ⊢
      omega

/-- The steps that neither receive nor deliver. -/
def Quiet : Input → Prop
  | .recv _ | .onRecv _ => False
  | _ => True

/-- Such a step changes neither the buffer nor the records, and comes to a place where nothing is
left to read only from such a place, or because nothing is left. -/
lemma quiet_step {r r' : RecvRun} {a : Input} (ha : Quiet a) (h : r.step a = some r') :
    r'.job = r.job ∧ r'.received = r.received ∧ r'.consumed = r.consumed ∧
      (Drained r'.pc → Drained r.pc ∨ ∃ n ≤ 0, r.job.mRecvBuffer.getUsedSize = some n) := by
  cases a with
  | execute =>
    obtain ⟨-, h⟩ := Option.ite_none_right_eq_some.1 h
    obtain rfl := Option.some.inj h
    exact ⟨rfl, rfl, rfl, False.elim⟩
  | socketFD valid =>
    simp only [RecvRun.step] at h
    split at h
    · obtain rfl := Option.some.inj h
      refine ⟨rfl, rfl, rfl, ?_⟩
      cases valid <;> exact False.elim
    · obtain rfl := Option.some.inj h
      refine ⟨rfl, rfl, rfl, ?_⟩
      cases valid <;> exact False.elim
    · cases h
  | recv result => exact ha.elim
  | onRecv readSize => exact ha.elim
  | noData =>
    obtain ⟨-, h⟩ := Option.ite_none_right_eq_some.1 h
    obtain ⟨usedSize, hused, h⟩ := Option.bind_eq_some_iff.1 h
    obtain ⟨hle, h⟩ := Option.ite_none_left_eq_some.1 h
    obtain rfl := Option.some.inj h
    exact ⟨rfl, rfl, rfl, fun _ => .inr ⟨usedSize, not_lt.1 hle, hused⟩⟩
  | epollCtl ok =>
    obtain ⟨hpc, h⟩ := Option.ite_none_right_eq_some.1 h
    obtain rfl := Option.some.inj h
    exact ⟨rfl, rfl, rfl, fun _ => .inl (by rw [hpc]; trivial)⟩
  | disconnected =>
    obtain ⟨-, h⟩ := Option.ite_none_right_eq_some.1 h
    obtain rfl := Option.some.inj h
    exact ⟨rfl, rfl, rfl, False.elim⟩

lemma Inv.quiet (hs : s.Inv) {r : RecvRun} {a : Input} (ha : Quiet a)
    (h : s.recv.step a = some r) : (s.withRecv r).Inv := by
  obtain ⟨-, hreceived, hconsumed, hdrained⟩ := quiet_step ha h
  have hin : s.recv.OnRecvInRange a := by cases a <;> trivial
  refine hs.withRecv hin h hconsumed fun hd => ?_
  rw [hreceived, hconsumed]
  rcases hdrained hd with hpc | ⟨n, hn, hused⟩
  · exact hs.drained hpc
  · rw [hs.stream.valid.getUsedSize] at hused
    have hzero := hs.stream.used_eq
    have heq := Option.some.inj hused
    exact hs.stream.isPrefix.eq_of_length_le (by omega)

/-- **One step** keeps the invariant. -/
theorem Inv.step (hs : s.Inv) (haddress : 0 < address) {a : EchoInput}
    (h : s.step address a = some s') : s'.Inv := by
  cases a with
  | execute =>
    obtain ⟨r, hr, rfl⟩ := Option.map_eq_some_iff.1 h
    exact hs.quiet (a := .execute) trivial hr
  | socketFD =>
    obtain ⟨r, hr, rfl⟩ := Option.map_eq_some_iff.1 h
    exact hs.quiet (a := .socketFD _) trivial hr
  | recv result =>
    obtain ⟨r, hr, rfl⟩ := Option.map_eq_some_iff.1 h
    exact hs.recvStep hr
  | onRecv script => exact hs.afterOnRecv haddress h
  | noData =>
    obtain ⟨r, hr, rfl⟩ := Option.map_eq_some_iff.1 h
    exact hs.quiet (a := .noData) trivial hr
  | epollCtl ok =>
    obtain ⟨-, h⟩ := Option.ite_none_left_eq_some.1 h
    obtain ⟨r, hr, rfl⟩ := Option.map_eq_some_iff.1 h
    exact hs.quiet (a := .epollCtl ok) trivial hr
  | disconnected =>
    obtain ⟨r, hr, h⟩ := Option.bind_eq_some_iff.1 h
    obtain rfl := Option.some.inj h
    obtain ⟨h₁, h₂, h₃, h₄, -, h₅⟩ := hs.quiet (a := .disconnected) trivial hr
    exact ⟨h₁, h₂, h₃, h₄, fun _ hopen => absurd rfl hopen, h₅⟩

/-! ## What a step adds to the streams -/

/-- What a call of `recv` adds. -/
lemma received_of_recv {r r' : RecvRun} {result : RecvResult}
    (h : r.step (.recv result) = some r') :
    r'.received = r.received ++ (EchoInput.recv result).bytes := by
  obtain ⟨-, h⟩ := Option.ite_none_right_eq_some.1 h
  cases result with
  | received bytes =>
    obtain ⟨b, -, h⟩ := Option.bind_eq_some_iff.1 h
    exact Option.some.inj h ▸ rfl
  | closed => exact Option.some.inj h ▸ (List.append_nil _).symm
  | failed errno => cases errno <;> exact Option.some.inj h ▸ (List.append_nil _).symm

/-- Only `OnRecv` writes, and only `recv` receives. -/
lemma frame_of_ne_onRecv {a : EchoInput} (ha : ∀ script, a ≠ .onRecv script)
    (h : s.step address a = some s') :
    s'.received = s.received ++ a.bytes ∧ s'.out.socket = s.out.socket ∧
      s'.out.session.mIsSending = s.out.session.mIsSending := by
  have hquiet : ∀ {b : Input} {r : RecvRun}, Quiet b → s.recv.step b = some r →
      r.received = s.received ++ [] :=
    fun hb hr => (quiet_step hb hr).2.1.trans (List.append_nil _).symm
  cases a with
  | onRecv script => exact absurd rfl (ha script)
  | execute =>
    obtain ⟨r, hr, rfl⟩ := Option.map_eq_some_iff.1 h
    exact ⟨hquiet (b := .execute) trivial hr, rfl, rfl⟩
  | socketFD =>
    obtain ⟨r, hr, rfl⟩ := Option.map_eq_some_iff.1 h
    exact ⟨hquiet (b := .socketFD _) trivial hr, rfl, rfl⟩
  | recv result =>
    obtain ⟨r, hr, rfl⟩ := Option.map_eq_some_iff.1 h
    exact ⟨received_of_recv hr, rfl, rfl⟩
  | noData =>
    obtain ⟨r, hr, rfl⟩ := Option.map_eq_some_iff.1 h
    exact ⟨hquiet (b := .noData) trivial hr, rfl, rfl⟩
  | epollCtl ok =>
    obtain ⟨-, h⟩ := Option.ite_none_left_eq_some.1 h
    obtain ⟨r, hr, rfl⟩ := Option.map_eq_some_iff.1 h
    exact ⟨hquiet (b := .epollCtl ok) trivial hr, rfl, rfl⟩
  | disconnected =>
    obtain ⟨r, hr, h⟩ := Option.bind_eq_some_iff.1 h
    obtain rfl := Option.some.inj h
    exact ⟨hquiet (b := .disconnected) trivial hr, rfl, rfl⟩

/-- What has been received and what has been written is only added to. -/
lemma Inv.grows (hs : s.Inv) (haddress : 0 < address) {a : EchoInput}
    (h : s.step address a = some s') :
    s'.received = s.received ++ a.bytes ∧ s.out.socket <+: s'.out.socket := by
  by_cases ha : ∃ script, a = .onRecv script
  · obtain ⟨script, rfl⟩ := ha
    obtain ⟨-, -, hreceived, -, out, hsent, hsocket, -, -, -⟩ := hs.onRecv haddress h
    refine ⟨hreceived.trans (List.append_nil _).symm, hsocket ▸ ?_⟩
    cases hsent with
    | queued before sending socket => exact socket ▸ List.prefix_rfl
    | closed before fd sending packets socket => exact socket ▸ List.prefix_rfl
    | whole before fd sending packets socket => exact socket ▸ List.prefix_append _ _
    | part count lt before fd sending socket => exact socket ▸ List.prefix_append _ _
  · obtain ⟨hreceived, hsocket, -⟩ := frame_of_ne_onRecv (not_exists.1 ha) h
    exact ⟨hreceived, hsocket ▸ List.prefix_rfl⟩

/-- A session that is in the state of sending stays in it, and nothing more is written to its
socket. -/
lemma stuck_step {a : EchoInput} (h : s.step address a = some s')
    (hsending : s.out.session.mIsSending = true) :
    s'.out.session.mIsSending = true ∧ s'.out.socket = s.out.socket := by
  by_cases ha : ∃ script, a = .onRecv script
  · obtain ⟨script, rfl⟩ := ha
    simp only [step, TestServer.onRecv, Option.bind_eq_bind, Option.bind_eq_some_iff,
      Option.pure_def, Option.some.injEq] at h
    obtain ⟨inputSize, -, ⟨out, readSize⟩, ⟨out', hsend, hout⟩, r, -, rfl⟩ := h
    obtain ⟨rfl, rfl⟩ := Prod.mk.inj hout
    have hqueued := send_of_sending hsending hsend
    exact hqueued
  · obtain ⟨-, hsocket, hsend⟩ := frame_of_ne_onRecv (not_exists.1 ha) h
    exact ⟨hsend.trans hsending, hsocket⟩

end EchoRun

open EchoRun

/-- **The echo server echoes.**  However `recv` and `writev` cut the streams up, and whichever
errors they return, what a session of the echo server whose receive buffer is empty at first writes
to its socket is the beginning of what it has received from it.  Between two rounds it is all of it,
as long as no write has been partial and the socket has not been closed. -/
theorem testServer_echoes {memory : Session} (hb : memory.mRecvJob.mRecvBuffer.Valid)
    (hempty : memory.mRecvJob.mRecvBuffer.mFront = memory.mRecvJob.mRecvBuffer.mRear)
    (sessionID : SessionID) (sessionFD : SocketFD) {address : ℤ} (haddress : 0 < address)
    {as : List EchoInput} {s : EchoRun}
    (hrun : (EchoRun.machine address).exec (EchoRun.start memory sessionID sessionFD) as = some s) :
    s.out.socket <+: s.received ∧
      (s.pc = .idle → s.out.session.mIsSending = false →
        s.out.session.mSessionFD ≠ sINVALID_SOCKET_FD → s.out.socket = s.received) := by
  have hs : s.Inv := StepMachine.exec_invariant (M := EchoRun.machine address)
    (fun _ _ _ hs h => hs.step haddress h) (EchoRun.inv_start hb hempty sessionID sessionFD) hrun
  refine ⟨hs.isPrefix.trans hs.stream.isPrefix, fun hpc hidle hopen => ?_⟩
  rw [hs.echoed hidle hopen, hs.drained (by rw [hpc]; trivial)]

/-- Two rounds: a write that is interrupted first, and two blocks that are echoed together. -/
def echoTwoRounds : List EchoInput :=
  [.execute, .socketFD, .recv (.received [1, 2, 3]), .socketFD, .recv (.failed .EAGAIN),
    .onRecv [.failed .EINTR, .accepted 3 .EINTR], .epollCtl true, .execute, .socketFD,
    .recv (.received [4]), .socketFD, .recv (.received [5, 6]), .socketFD,
    .recv (.failed .EAGAIN), .onRecv [.accepted 3 .EINTR], .epollCtl true]

theorem testServer_echoes_twoRounds : ∃ s,
    (EchoRun.machine 100).exec (EchoRun.start Session.zeroMemory 0 7) echoTwoRounds = some s ∧
      s.received = [1, 2, 3, 4, 5, 6] ∧ s.out.socket = s.received :=
  StepMachine.exists_exec_and
    (fun s => s.received = [1, 2, 3, 4, 5, 6] ∧ s.pc = .idle ∧
      s.out.session.mIsSending = false ∧ s.out.session.mSessionFD ≠ sINVALID_SOCKET_FD)
    (by decide +kernel) fun _ hrun ⟨hreceived, hpc, hidle, hopen⟩ =>
      ⟨hreceived, (testServer_echoes (valid_reset RecvBuffer.zeroMemory) rfl 0 7 (by decide)
        hrun).2 hpc hidle hopen⟩

/-- **A partial write silences the echo.**  Once a session of the echo server is left in the state
of sending, which a partial write does, nothing that it receives afterwards is ever written,
whatever its memory holds. -/
theorem testServer_silent_after_partial_write {address : ℤ} {bs : List EchoInput} {s t : EchoRun}
    (hsending : s.out.session.mIsSending = true)
    (hrest : (EchoRun.machine address).exec s bs = some t) :
    t.out.session.mIsSending = true ∧ t.out.socket = s.out.socket :=
  StepMachine.exec_invariant (M := EchoRun.machine address)
    (I := fun t => t.out.session.mIsSending = true ∧ t.out.socket = s.out.socket)
    (fun _ _ _ ⟨hsend, hsocket⟩ h =>
      have hstuck := stuck_step h hsend
      ⟨hstuck.1, hstuck.2.trans hsocket⟩)
    ⟨hsending, rfl⟩ hrest

/-- One byte of three is written, and then nothing of the next block, although the session stays
registered. -/
theorem testServer_silent_after_partial_write_twoRounds : ∃ s t,
    (EchoRun.machine 100).exec (EchoRun.start Session.zeroMemory 0 7)
        [.execute, .socketFD, .recv (.received [1, 2, 3]), .socketFD, .recv (.failed .EAGAIN),
          .onRecv [.accepted 1 .EINTR]] = some s ∧
      (EchoRun.machine 100).exec s
        [.epollCtl true, .execute, .socketFD, .recv (.received [4]), .socketFD,
          .recv (.failed .EAGAIN), .onRecv [], .epollCtl true] = some t ∧
      (t.pc = .idle ∧ t.received = [1, 2, 3, 4]) ∧ t.out.socket = [1] := by
  have htest : ∃ s ∈ (EchoRun.machine 100).exec (EchoRun.start Session.zeroMemory 0 7)
        [.execute, .socketFD, .recv (.received [1, 2, 3]), .socketFD, .recv (.failed .EAGAIN),
          .onRecv [.accepted 1 .EINTR]],
      (s.out.session.mIsSending = true ∧ s.out.socket = [1]) ∧
        ∃ t ∈ (EchoRun.machine 100).exec s
          [.epollCtl true, .execute, .socketFD, .recv (.received [4]), .socketFD,
            .recv (.failed .EAGAIN), .onRecv [], .epollCtl true],
          t.pc = .idle ∧ t.received = [1, 2, 3, 4] := by decide +kernel
  obtain ⟨s, hrun, ⟨hsending, hsocket⟩, t, hrest, ht⟩ := htest
  have hsilent := testServer_silent_after_partial_write hsending hrest
  exact ⟨s, t, hrun, hrest, ht, hsilent.2.trans hsocket⟩

end CoreServer
