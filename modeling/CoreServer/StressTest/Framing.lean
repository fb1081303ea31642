import CoreServer.StressTest.Session
import CoreServer.Lib.StepMachine

/-!
# The framing of the stress test

A packet may be cut anywhere by `recv`, and a part of it then waits in `mRecvBuffer`.  However a
stream of ping packets is cut into pieces, the packets that have been taken out are those of the
stream, and the rest is in the buffer (`session_framed`).  The invariant says so with the number of
whole packets in what has been received.
-/

namespace CoreServer

namespace Test

open CircularBuffer

/-! ## Runs of a session -/

/-- A call, with what the system calls in it return. -/
inductive SessionCall where
  | recv (outcome : RecvOutcome) (clock : ℕ → BitVec 64)
  | send (outcome : SendOutcome)

/-- The bytes that `recv` has put in the buffer. -/
def RecvOutcome.bytes : RecvOutcome → List Int8
  | received bytes => bytes
  | closed | failed => []

def SessionCall.bytes : SessionCall → List Int8
  | recv outcome _ => outcome.bytes
  | send _ => []

/-- A session, all the bytes that it has received, the answers that it has written, and all the
bytes that it has sent. -/
structure SessionRun where
  session : Session
  received : List Int8
  replies : List Reply
  sent : List Int8

namespace SessionRun

/-- The session has been constructed. -/
def start (memory : Session) (clientFD : SOCKET) (tick : BitVec 64) : Option SessionRun := do
  let session ← Session.construct memory clientFD tick
  return ⟨session, [], [], []⟩

/-- One call. -/
def step (debug : Bool) (p : SessionRun) : SessionCall → Option SessionRun
  | .recv outcome clock => do
    let r ← p.session.doRecv debug clock outcome
    return { p with
      session := r.session
      received := p.received ++ outcome.bytes
      replies := p.replies ++ r.replies }
  | .send outcome => do
    let r ← p.session.doSend outcome
    return { p with session := r.session, sent := p.sent ++ r.sent }

/-- The machine of the calls of one session. -/
def machine (debug : Bool) : StepMachine SessionRun SessionCall := ⟨step debug⟩

/-- What the kernel can return: from `recv` at least one byte, and never more than it is offered. -/
def Possible (p : SessionRun) : SessionCall → Prop
  | .recv (.received bytes) _ =>
    ∃ size ∈ p.session.mRecvBuffer.getDirectWriteSize,
      1 ≤ bytes.length ∧ (bytes.length : ℤ) ≤ size
  | .send (.sent size) =>
    ∃ sendSize ∈ p.session.mSendBuffer.getDirectReadSize, (size : ℤ) ≤ sendSize
  | _ => True

/-- A call in which the kernel returns what it can returns, too. -/
def Returns (debug : Bool) (p : SessionRun) (call : SessionCall) : Prop :=
  p.Possible call → ∃ p', p.step debug call = some p'

/-- Of the packets of the stream, those that are whole have been answered, and what is left is in
the buffer. -/
def Framed (packets : List PingPacket) (p : SessionRun) : Prop :=
  p.replies.length = p.received.length / sPING_PACKET_SIZE ∧
    p.session.mRecvBuffer.content =
      p.received.drop (p.received.length / sPING_PACKET_SIZE * sPING_PACKET_SIZE) ∧
    p.replies.map (fun r => r.packet.mSendTick) =
      (packets.take (p.received.length / sPING_PACKET_SIZE)).map PingPacket.mSendTick

/-! ### Pieces of a stream -/

/-- The number of whole packets in some bytes. -/
def whole (bytes : List Int8) : ℕ := bytes.length / sPING_PACKET_SIZE

/-- The bytes behind the whole packets. -/
def rest (bytes : List Int8) : List Int8 := bytes.drop (whole bytes * sPING_PACKET_SIZE)

/-- A piece from the beginning of a stream is some whole packets and the beginning of one. -/
lemma exists_of_prefix_stream {packets : List PingPacket} {bytes : List Int8}
    (h : bytes <+: stream packets) : ∃ packet tail,
      bytes = stream (packets.take (whole bytes)) ++ tail ∧ tail.length < sPING_PACKET_SIZE ∧
        tail <+: PingPacket.wire packet := by
  have hpos : 0 < sPING_PACKET_SIZE := by decide
  induction packets generalizing bytes with
  | nil =>
    obtain rfl : bytes = [] := List.prefix_nil.1 h
    exact ⟨⟨0⟩, [], rfl, hpos, List.nil_prefix⟩
  | cons first packets ih =>
    rw [stream, List.flatMap_cons] at h
    rcases Nat.lt_or_ge bytes.length sPING_PACKET_SIZE with hlt | hge
    · refine ⟨first, bytes, ?_, hlt, ?_⟩
      · rw [whole, Nat.div_eq_of_lt hlt]
        rfl
      · exact List.prefix_of_prefix_length_le h (List.prefix_append _ _)
          (by rw [first.length_wire]; exact hlt.le)
    · have hfirst : first.wire <+: bytes :=
        List.prefix_of_prefix_length_le (List.prefix_append _ _) h
          (by rw [first.length_wire]; exact hge)
      obtain ⟨bytes, rfl⟩ := hfirst
      obtain ⟨packet, tail, hbytes, hlt, htail⟩ := ih ((List.prefix_append_right_inj _).1 h)
      refine ⟨packet, tail, ?_, hlt, htail⟩
      rw [whole, List.length_append, first.length_wire, Nat.add_div_left _ hpos,
        List.take_succ_cons, stream, List.flatMap_cons, List.append_assoc]
      exact congrArg (first.wire ++ ·) hbytes

/-- The packets of a longer piece are those of a shorter one and some others. -/
lemma stream_take_of_le (packets : List PingPacket) {k n : ℕ} (h : k ≤ n) :
    stream (packets.take n) = stream (packets.take k) ++ stream ((packets.take n).drop k) := by
  have htake : (packets.take n).take k = packets.take k := by
    rw [List.take_take, Nat.min_eq_left h]
  rw [← htake]
  conv_lhs => rw [← List.take_append_drop k (packets.take n)]
  rw [stream, List.flatMap_append]
  rfl

/-- A piece from the beginning of a stream is cut behind its whole packets. -/
lemma pieces {packets : List PingPacket} {bytes : List Int8} (h : bytes <+: stream packets) :
    (packets.take (whole bytes)).length = whole bytes ∧
      bytes = stream (packets.take (whole bytes)) ++ rest bytes ∧
      (rest bytes).length < sPING_PACKET_SIZE ∧
      ∃ packet, rest bytes <+: PingPacket.wire packet := by
  have hpos : 0 < sPING_PACKET_SIZE := by decide
  obtain ⟨packet, tail, hbytes, hlt, htail⟩ := exists_of_prefix_stream h
  have hle := h.length_le
  rw [length_stream] at hle
  have hwhole : (packets.take (whole bytes)).length = whole bytes := by
    rw [List.length_take]
    exact Nat.min_eq_left (Nat.div_le_of_le_mul (by rwa [Nat.mul_comm]))
  have hdrop : ∀ k, bytes = stream (packets.take k) ++ tail → (packets.take k).length = k →
      bytes.drop (k * sPING_PACKET_SIZE) = tail := by
    intro k hk hlen
    rw [hk, List.drop_left' (by rw [length_stream, hlen])]
  have hrest : rest bytes = tail := hdrop _ hbytes hwhole
  exact ⟨hwhole, hrest ▸ hbytes, hrest ▸ hlt, packet, hrest ▸ htail⟩

/-! ### Every run -/

/-- The invariant. -/
structure Inv (packets : List PingPacket) (p : SessionRun) : Prop where
  valid : p.session.Valid
  isPrefix : p.received <+: stream packets
  answered : p.replies.map Reply.packet = packets.take (whole p.received)
  content : p.session.mRecvBuffer.content = rest p.received

lemma Inv.framed {packets : List PingPacket} {p : SessionRun} (hp : p.Inv packets) :
    p.Framed packets := by
  have hlength := congrArg List.length hp.answered
  rw [List.length_map, (pieces hp.isPrefix).1] at hlength
  refine ⟨hlength, hp.content, ?_⟩
  have hticks := congrArg (List.map PingPacket.mSendTick) hp.answered
  rwa [List.map_map] at hticks

/-- What `recv` returns goes on with the stream. -/
def Continues (packets : List PingPacket) (p : SessionRun) (call : SessionCall) : Prop :=
  p.received ++ call.bytes <+: stream packets

variable {packets : List PingPacket} {p p' : SessionRun} {debug : Bool}

/-- The bytes that go through the loop are whole packets and the beginning of one. -/
lemma Inv.content_stored (hp : p.Inv packets) {bytes : List Int8}
    (hbytes : p.received ++ bytes <+: stream packets)
    (hle : bytes.length ≤ p.session.mRecvBuffer.directWrite) :
    (p.session.stored bytes).mRecvBuffer.content =
      stream ((packets.take (whole (p.received ++ bytes))).drop (whole p.received)) ++
        rest (p.received ++ bytes) := by
  have hroom := hp.valid.recv.used_add_directWrite_lt
  have hmono : whole p.received ≤ whole (p.received ++ bytes) :=
    Nat.div_le_div_right (by rw [List.length_append]; omega)
  obtain ⟨-, hold, -, -⟩ := pieces hp.isPrefix
  obtain ⟨-, hnew, -, -⟩ := pieces hbytes
  rw [stream_take_of_le packets hmono, List.append_assoc] at hnew
  conv_lhs at hnew => rw [hold]
  rw [List.append_assoc] at hnew
  rw [← List.append_cancel_left hnew]
  change (p.session.mRecvBuffer.store bytes).content = _
  rw [hp.valid.recv.content_store (by omega), hp.valid.recv.stored_of_le hle, hp.content]

/-- **`DoRecv`** answers the packets that have become whole. -/
theorem Inv.doRecv (hp : p.Inv packets) {bytes : List Int8} {clock : ℕ → BitVec 64}
    (hbytes : p.received ++ bytes <+: stream packets) (hpos : 1 ≤ bytes.length)
    (hle : bytes.length ≤ p.session.mRecvBuffer.directWrite) :
    ∃ replies mRecvBuffer mSendBuffer,
      p.session.doRecv debug clock (.received bytes) =
        some ⟨true, [], replies, ⟨p.session.mSocket, mRecvBuffer, mSendBuffer⟩⟩ ∧
      mRecvBuffer.Valid ∧ mSendBuffer.Valid ∧
      replies.map Reply.packet =
        (packets.take (whole (p.received ++ bytes))).drop (whole p.received) ∧
      mRecvBuffer.content = rest (p.received ++ bytes) ∧
      Session.Answers p.session.mSendBuffer replies mSendBuffer := by
  have hcontent := hp.content_stored hbytes hle
  obtain ⟨-, -, hlt, packet, hrest⟩ := pieces hbytes
  have hlength := congrArg List.length hcontent
  rw [length_content, List.length_append, length_stream] at hlength
  have hfuel : ((packets.take (whole (p.received ++ bytes))).drop (whole p.received)).length <
      (p.session.stored bytes).mRecvBuffer.used + 1 := by
    have hsize : sPING_PACKET_SIZE = 12 := rfl
    rw [hsize] at hlength
    omega
  obtain ⟨replies, s, hloop, hs, hsocket, hpackets, hleft, hanswers⟩ :
      ∃ replies s, Session.recvLoop debug _ clock (p.session.stored bytes) =
        some (replies, s) ∧ _ :=
    Session.recvLoop_stream (hp.valid.stored bytes) hcontent hrest hlt hfuel
  obtain ⟨mSocket, mRecvBuffer, mSendBuffer⟩ := s
  obtain rfl : mSocket = p.session.mSocket := hsocket
  refine ⟨replies, Session.cleared mRecvBuffer, mSendBuffer, ?_, Session.valid_cleared hs.recv,
    hs.send, hpackets, ?_, hanswers⟩
  · rw [Session.doRecv_received hp.valid hpos hle, hloop, Option.bind_some,
      Session.resetIfEmpty_eq hs.recv, Option.map_some]
  · rw [Session.content_cleared, hleft]

/-- Everything that a call can do while a stream is received. -/
inductive Moves (packets : List PingPacket) (p : SessionRun) : SessionCall → SessionRun → Prop
  | received {bytes : List Int8} {clock : ℕ → BitVec 64} {replies : List Reply}
      {mRecvBuffer mSendBuffer : RingBuffer} (hbytes : p.received ++ bytes <+: stream packets)
      (hrecv : mRecvBuffer.Valid) (hsend : mSendBuffer.Valid)
      (hpackets : replies.map Reply.packet =
        (packets.take (whole (p.received ++ bytes))).drop (whole p.received))
      (hcontent : mRecvBuffer.content = rest (p.received ++ bytes))
      (hanswers : Session.Answers p.session.mSendBuffer replies mSendBuffer) :
    Moves packets p (.recv (.received bytes) clock)
      ⟨⟨p.session.mSocket, mRecvBuffer, mSendBuffer⟩, p.received ++ bytes, p.replies ++ replies,
        p.sent⟩
  | closed {clock : ℕ → BitVec 64} : Moves packets p (.recv .closed clock) p
  | failed {clock : ℕ → BitVec 64} : Moves packets p (.recv .failed clock) p
  | send {outcome : SendOutcome} {r : SendResult} (hmoves : p.session.SendMoves outcome r) :
    Moves packets p (.send outcome) { p with session := r.session, sent := p.sent ++ r.sent }

/-- **One step.** -/
theorem Inv.moves_of_step (hp : p.Inv packets) {call : SessionCall}
    (hcall : p.Continues packets call) (h : p.step debug call = some p') :
    p.Moves packets call p' := by
  cases call with
  | recv outcome clock =>
    obtain ⟨r, hr, h⟩ := Option.bind_eq_some_iff.1 h
    obtain rfl := Option.some.inj h
    cases outcome with
    | received bytes =>
      have hbytes : p.received ++ bytes <+: stream packets := hcall
      obtain ⟨hpos, hle⟩ := Session.received_of_doRecv hp.valid hr
      obtain ⟨replies, mRecvBuffer, mSendBuffer, hrecv, hvalid, hvalid', hpackets, hcontent,
        hanswers⟩ := hp.doRecv hbytes hpos hle
      obtain rfl := Option.some.inj (hr.symm.trans hrecv)
      exact .received hbytes hvalid hvalid' hpackets hcontent hanswers
    | closed =>
      obtain rfl := Option.some.inj hr
      simp only [RecvOutcome.bytes, List.append_nil]
      exact .closed
    | failed =>
      obtain rfl := Option.some.inj hr
      simp only [RecvOutcome.bytes, List.append_nil]
      exact .failed
  | send outcome =>
    obtain ⟨r, hr, h⟩ := Option.bind_eq_some_iff.1 h
    exact Option.some.inj h ▸ .send (Session.sendMoves_of_doSend hp.valid hr)

/-- **One step keeps the invariant.** -/
theorem Inv.step (hp : p.Inv packets) {call : SessionCall} (hcall : p.Continues packets call)
    (h : p.step debug call = some p') : p'.Inv packets := by
  cases hp.moves_of_step hcall h with
  | @received bytes _ replies _ _ hbytes hrecv hsend hpackets hcontent _ =>
    refine ⟨⟨hrecv, hsend⟩, hbytes, ?_, hcontent⟩
    -- the packets before and those that have become whole
    have hmono : whole p.received ≤ whole (p.received ++ bytes) :=
      Nat.div_le_div_right (by rw [List.length_append]; omega)
    change (p.replies ++ replies).map Reply.packet = packets.take (whole (p.received ++ bytes))
    rw [List.map_append, hp.answered, hpackets, ← Nat.min_eq_left hmono, ← List.take_take,
      Nat.min_eq_left hmono, List.take_append_drop]
  | closed | failed => exact hp
  | send hmoves =>
    cases hmoves with
    | empty | failed | nothing => exact ⟨hp.valid, hp.isPrefix, hp.answered, hp.content⟩
    | sent hused hpos hle =>
      exact ⟨⟨hp.valid.recv, Session.valid_cleared (hp.valid.send.advanceFront _)⟩, hp.isPrefix,
        hp.answered, hp.content⟩

/-- No call of a session gets stuck. -/
lemma Inv.returns (hp : p.Inv packets) {call : SessionCall} (hcall : p.Continues packets call) :
    p.Returns debug call := by
  intro hpossible
  cases call with
  | recv outcome clock =>
    cases outcome with
    | received bytes =>
      have hbytes : p.received ++ bytes <+: stream packets := hcall
      obtain ⟨size, hsize, hpos, hle⟩ := hpossible
      obtain rfl := Option.some.inj (hp.valid.recv.getDirectWriteSize.symm.trans hsize)
      obtain ⟨_, _, _, hrecv, -⟩ :
          ∃ _ _ _, p.session.doRecv debug clock (.received bytes) = _ ∧ _ :=
        hp.doRecv hbytes hpos (by exact_mod_cast hle)
      exact ⟨_, Option.bind_eq_some_iff.2 ⟨_, hrecv, rfl⟩⟩
    | closed | failed => exact ⟨_, rfl⟩
  | send outcome =>
    have hle : ∀ size, outcome = .sent size → size ≤ p.session.mSendBuffer.directRead := by
      rintro size rfl
      obtain ⟨sendSize, hsendSize, hle⟩ := hpossible
      obtain rfl := Option.some.inj (hp.valid.send.getDirectReadSize.symm.trans hsendSize)
      exact_mod_cast hle
    obtain ⟨r, hr⟩ := Session.exists_doSend hp.valid hle
    exact ⟨_, Option.bind_eq_some_iff.2 ⟨r, hr, rfl⟩⟩

/-- What `recv` returns in a run is one piece of the stream after the other. -/
lemma along_continues {calls : List SessionCall}
    (hcalls : p.received ++ calls.flatMap SessionCall.bytes <+: stream packets) :
    (machine debug).Along (Continues packets) p calls := by
  induction calls generalizing p with
  | nil => trivial
  | cons call calls ih =>
    rw [List.flatMap_cons, ← List.append_assoc] at hcalls
    refine ⟨(List.prefix_append _ _).trans hcalls, fun p' h => ih ?_⟩
    have hreceived : p'.received = p.received ++ call.bytes := by
      cases call with
      | recv outcome clock =>
        obtain ⟨r, -, h⟩ := Option.bind_eq_some_iff.1 h
        exact (Option.some.inj h) ▸ rfl
      | send outcome =>
        obtain ⟨r, -, h⟩ := Option.bind_eq_some_iff.1 h
        exact (Option.some.inj h) ▸ (List.append_nil _).symm
    rwa [hreceived]

/-- A session that has been constructed. -/
lemma exists_start (memory : Session) (clientFD : SOCKET) (tick : BitVec 64) :
    ∃ p, start memory clientFD tick = some p ∧ (∀ packets, p.Inv packets) ∧ p.received = [] ∧
      p.replies = [] ∧ p.sent = [] ∧
      p.session.mRecvBuffer = RingBuffer.construct memory.mRecvBuffer ∧
      p.session.mSendBuffer = queue (queue (RingBuffer.construct memory.mSendBuffer)
        PacketHeader.ping.toChars) (PingPacket.toChars ⟨tick⟩) := by
  obtain ⟨session, hconstruct, hvalid, -, hrecv, hsend⟩ :=
    Session.exists_construct memory clientFD tick
  refine ⟨⟨session, [], [], []⟩, ?_, fun packets => ⟨hvalid, List.nil_prefix, ?_, ?_⟩, rfl, rfl,
    rfl, hrecv, hsend⟩
  · rw [start, hconstruct]
    rfl
  · simp [whole]
  · rw [hrecv]
    exact (content_reset memory.mRecvBuffer).trans List.drop_nil.symm

end SessionRun

open SessionRun

/-- **The packets do not depend on how the stream is cut.**  In every run of a session of the stress
test that receives a stream of ping packets, in pieces of any length, and sends any number of bytes
in between, the packets that have been answered after each call are those that are whole in what has
been received, the receive buffer holds the bytes behind them, and no call gets stuck. -/
theorem session_framed (debug : Bool) (memory : Session) (clientFD : SOCKET) (tick : BitVec 64)
    {packets : List PingPacket} {calls : List SessionCall}
    (hcalls : calls.flatMap SessionCall.bytes <+: stream packets) :
    ∃ p, start memory clientFD tick = some p ∧
      (machine debug).Always (Framed packets) p calls ∧
      (machine debug).Along (Returns debug) p calls := by
  obtain ⟨p, hstart, hp, hreceived, -⟩ := exists_start memory clientFD tick
  have hcontinues : (machine debug).Along (Continues packets) p calls :=
    along_continues (by rwa [hreceived, List.nil_append])
  exact ⟨p, hstart,
    StepMachine.always_of_along (fun _ _ _ hp hcall h => hp.step hcall h) (fun _ hp => hp.framed)
      (hp packets) hcontinues,
    StepMachine.along_of_along (fun _ _ _ hp hcall h => hp.step hcall h)
      (fun _ _ hp hcall => hp.returns hcall) (hp packets) hcontinues⟩

/-- Two packets are received in three pieces, with a `send` in between. -/
def SessionRun.cutStream : List SessionCall :=
  [.recv (.received ((stream [⟨1⟩, ⟨2⟩]).take 3)) fun _ => 5, .send (.sent 12),
    .recv (.received (((stream [⟨1⟩, ⟨2⟩]).drop 3).take 14)) fun _ => 6,
    .recv (.received ((stream [⟨1⟩, ⟨2⟩]).drop 17)) fun _ => 7]

/-- Both packets of `cutStream` are answered. -/
theorem session_framed_cutStream :
    (∃ p ∈ start Session.zeroMemory 3 0, ∃ p' ∈ (machine true).exec p cutStream,
      p'.replies.map (fun r => r.packet.mSendTick) = [1, 2]) ∧
    ∃ p, start Session.zeroMemory 3 0 = some p ∧
      (machine true).Always (Framed [⟨1⟩, ⟨2⟩]) p cutStream ∧
      (machine true).Along (Returns true) p cutStream :=
  ⟨by decide +kernel, session_framed true Session.zeroMemory 3 0 (by decide +kernel)⟩

end Test

end CoreServer
