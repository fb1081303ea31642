import CoreServer.StressTest.Replies
import CoreServer.EchoServer

/-!
# The stress test against the echo server

The client of the stress test answers each ping packet that it receives, and the echo server
(both use port 7799) sends back what it receives.  A client and its session are run together,
in any order; each direction of the connection delivers its bytes in order, in pieces of any
length, and both sides may meet any error.

The ring buffer of the client loses bytes when a packet is split at its end or when it is full.
The file shows that this does not happen here, because one packet goes round
(`pingLoop_one_packet`), and that the packet is lost for good after a partial write of the server
(`pingLoop_stops_after_partial_write`).
-/

namespace CoreServer

namespace Test

open CircularBuffer SessionRun

/-- A `char` of the client is the byte of the same bits. -/
def toBytes (chars : List Int8) : List Byte := chars.map Int8.toUInt8

/-- A client of the stress test and its session on the echo server. -/
structure PingLoop where
  client : SessionRun
  server : EchoRun

/-- A step of either side. -/
inductive PingInput where
  | client (call : SessionCall)
  | server (input : EchoInput)

/-- The ping packets that have been written to `mSendBuffer`: the one of the constructor and the
answers. -/
def SessionRun.pings (tick : BitVec 64) (p : SessionRun) : List PingPacket :=
  ⟨tick⟩ :: p.replies.map Reply.answer

namespace PingLoop

/-- What `recv` returns on one side goes on with what the other side has sent. -/
def Delivers (s : PingLoop) : PingInput → Prop
  | .client call => toBytes (s.client.received ++ call.bytes) <+: s.server.out.socket
  | .server input => s.server.received ++ input.bytes <+: toBytes s.client.sent

instance (s : PingLoop) : DecidablePred s.Delivers
  | .client _ => inferInstanceAs (Decidable (_ <+: _))
  | .server _ => inferInstanceAs (Decidable (_ <+: _))

/-- One step of either side. -/
def step (debug : Bool) (address : ℤ) (s : PingLoop) (a : PingInput) : Option PingLoop :=
  if s.Delivers a then
    match a with
    | .client call => (s.client.step debug call).map fun client => { s with client := client }
    | .server input => (s.server.step address input).map fun server => { s with server := server }
  else none

/-- The machine of the two. -/
def machine (debug : Bool) (address : ℤ) : StepMachine PingLoop PingInput := ⟨step debug address⟩

/-- One packet is under way.  Its bytes are in the buffer of the client that receives it, on the way
to the client, in the session of the server, on the way to the server, and in the buffer of the
client that sends it; and the packets that have come back are those that have been sent, each of
them with the tick of the answer before it. -/
structure OnePacket (tick : BitVec 64) (s : PingLoop) : Prop where
  echoed : s.client.replies.map Reply.packet =
    (s.client.pings tick).take s.client.replies.length
  written : s.client.sent ++ s.client.session.mSendBuffer.content = stream (s.client.pings tick)
  inOrder : toBytes s.client.received <+: s.server.out.socket ∧
    s.server.out.socket <+: s.server.received ∧ s.server.received <+: toBytes s.client.sent
  inFlight : s.client.session.mRecvBuffer.used +
    (s.server.out.socket.length - s.client.received.length) +
    (s.server.received.length - s.server.out.socket.length) +
    (s.client.sent.length - s.server.received.length) +
    s.client.session.mSendBuffer.used = sPING_PACKET_SIZE

/-- No call of the client gets stuck, and no `assert` of it fails. -/
def ClientReturns (debug : Bool) (s : PingLoop) : PingInput → Prop
  | .client call => s.Delivers (.client call) → s.client.Returns debug call
  | .server _ => True

end PingLoop

/-! ## The client alone -/

lemma toBytes_prefix_iff {chars chars' : List Int8} :
    toBytes chars <+: toBytes chars' ↔ chars <+: chars' :=
  List.prefix_map_iff_of_injective fun a b h => by simpa using congrArg UInt8.toInt8 h

@[simp] lemma length_toBytes (chars : List Int8) : (toBytes chars).length = chars.length :=
  List.length_map _

namespace SessionRun

variable {packets packets' : List PingPacket} {p p' : SessionRun} {tick : BitVec 64}

@[simp] lemma length_pings : (p.pings tick).length = p.replies.length + 1 := by simp [pings]

/-- The packets that have been received do not depend on those that come after them. -/
lemma Inv.mono (hp : p.Inv packets) (h : packets <+: packets') : p.Inv packets' := by
  obtain ⟨more, rfl⟩ := h
  have hle : whole p.received ≤ packets.length := by
    rw [← (pieces hp.isPrefix).1]
    exact List.length_take_le' _ _
  refine ⟨hp.valid, hp.isPrefix.trans ?_, ?_, hp.content⟩
  · rw [stream, stream, List.flatMap_append]
    exact List.prefix_append _ _
  · rw [hp.answered, List.take_append_of_le_length hle]

/-- The invariant of a client of the echo server: what it has written is its ping packets, and an
empty `mSendBuffer` has room for a packet before its end. -/
structure Pinging (tick : BitVec 64) (p : SessionRun) : Prop extends p.Inv (p.pings tick) where
  written : p.sent ++ p.session.mSendBuffer.content = stream (p.pings tick)
  room : p.session.mSendBuffer.used = 0 → sPING_PACKET_SIZE ≤ p.session.mSendBuffer.directWrite

/-- The number of the packets that have been answered. -/
lemma Inv.length_replies (hp : p.Inv packets) : p.replies.length = whole p.received := by
  have hlength := congrArg List.length hp.answered
  rwa [List.length_map, (pieces hp.isPrefix).1] at hlength

lemma Pinging.sent_prefix (hp : p.Pinging tick) : p.sent <+: stream (p.pings tick) :=
  hp.written ▸ List.prefix_append _ _

/-- What comes back from the server is the beginning of what has been sent. -/
lemma Pinging.continues (hp : p.Pinging tick) {call : SessionCall}
    (hback : p.received ++ call.bytes <+: p.sent) : p.Continues (p.pings tick) call :=
  hback.trans hp.sent_prefix

/-- A call by which no packet becomes whole leaves `mSendBuffer` as it is, and the last packet
becomes whole only when everything has been sent. -/
lemma Pinging.replies_of_recv (hp : p.Pinging tick) {bytes : List Int8} {replies : List Reply}
    {mSendBuffer : RingBuffer} (hback : p.received ++ bytes <+: p.sent)
    (hpackets : replies.map Reply.packet =
      ((p.pings tick).take (whole (p.received ++ bytes))).drop (whole p.received))
    (hanswers : Session.Answers p.session.mSendBuffer replies mSendBuffer) :
    (replies = [] ∧ mSendBuffer = p.session.mSendBuffer) ∨
      ∃ r, replies = [r] ∧ r.after = mSendBuffer ∧ p.session.mSendBuffer.content = [] ∧
        p.sent = stream (p.pings tick) ∧ mSendBuffer.Valid ∧
        mSendBuffer.content = r.answer.wire := by
  have hsize : sPING_PACKET_SIZE = 12 := rfl
  have hreplies := hp.length_replies
  have hlength := congrArg List.length hpackets
  rw [List.length_map, List.length_drop, List.length_take, length_pings, hreplies] at hlength
  have hle := (hback.trans hp.sent_prefix).length_le
  rw [length_stream, length_pings, hreplies, hsize] at hle
  rcases replies with _ | ⟨r, replies⟩
  · exact .inl ⟨rfl, hanswers⟩
  · have hwhole : whole (p.received ++ bytes) ≤ whole p.received + 1 := by
      rw [whole, hsize]
      omega
    rw [List.length_cons] at hlength
    obtain rfl : replies = [] := List.length_eq_zero_iff.1 (by omega)
    -- all that has been sent has come back
    have hall : stream (p.pings tick) = p.received ++ bytes := by
      refine ((hback.trans hp.sent_prefix).eq_of_length_le ?_).symm
      rw [length_stream, length_pings, hreplies, hsize]
      have hlast : whole p.received + 1 ≤ whole (p.received ++ bytes) := by omega
      rw [whole, whole, hsize] at hlast
      rw [whole, hsize]
      omega
    have hsent : p.sent = stream (p.pings tick) :=
      hp.sent_prefix.eq_of_length_le (hall ▸ hback.length_le)
    have hcontent : p.session.mSendBuffer.content = [] := by
      have hwritten := hp.written
      rw [hsent] at hwritten
      exact List.append_right_eq_self.1 hwritten
    have hused : p.session.mSendBuffer.used = 0 := by rw [← length_content, hcontent]; rfl
    have hr := hanswers.written hp.valid.send r List.mem_cons_self
    obtain ⟨hbefore, -, rfl⟩ := hanswers
    have hadded := hr.whole_of_le (hbefore ▸ hp.room hused)
    rw [hbefore, hcontent] at hadded
    refine .inr ⟨r, rfl, rfl, hcontent, hsent, ?_, hadded⟩
    rw [hr.after_eq]
    exact valid_queue (valid_queue hr.valid _) _

/-- The invariant after some more answers. -/
lemma Pinging.of_replies (replies : List Reply) (hp' : p'.Inv (p.pings tick))
    (hreplies : p'.replies = p.replies ++ replies)
    (hwritten : p'.sent ++ p'.session.mSendBuffer.content =
      stream (p.pings tick ++ replies.map Reply.answer))
    (hroom : p'.session.mSendBuffer.used = 0 →
      sPING_PACKET_SIZE ≤ p'.session.mSendBuffer.directWrite) : p'.Pinging tick := by
  have hpings : p'.pings tick = p.pings tick ++ replies.map Reply.answer := by
    rw [pings, pings, hreplies, List.map_append, List.cons_append]
  exact ⟨hp'.mono (hpings ▸ List.prefix_append _ _), hpings ▸ hwritten, hroom⟩

/-- A buffer that has been cleared has room for a packet before its end if it is empty. -/
lemma room_cleared {b : RingBuffer} (h : (Session.cleared b).used = 0) :
    sPING_PACKET_SIZE ≤ (Session.cleared b).directWrite := by
  have hempty : b.used = 0 := by
    rwa [← length_content, Session.content_cleared, length_content] at h
  rw [Session.cleared, if_pos hempty, directWrite_reset]
  decide

/-- **One call of the client** keeps its invariant. -/
theorem Pinging.step (hp : p.Pinging tick) {debug : Bool} {call : SessionCall}
    (hback : p.received ++ call.bytes <+: p.sent) (h : p.step debug call = some p') :
    p'.Pinging tick ∧ p'.received = p.received ++ call.bytes ∧ p.sent <+: p'.sent ∧
      p.replies <+: p'.replies := by
  have hcall := hp.continues hback
  have hp' := hp.toInv.step hcall h
  cases hp.moves_of_step hcall h with
  | received hbytes hrecv hsend hpackets hcontent hanswers =>
    refine ⟨?_, rfl, List.prefix_rfl, List.prefix_append _ _⟩
    rcases hp.replies_of_recv hback hpackets hanswers with ⟨rfl, rfl⟩ |
      ⟨r, rfl, rfl, hempty, hsent, hvalid, hadded⟩
    · have hwritten := hp.written
      rw [← List.append_nil (p.pings tick)] at hwritten
      exact .of_replies [] hp' rfl hwritten hp.room
    · refine .of_replies [r] hp' rfl ?_ fun hnone => ?_
      · rw [hsent, hadded, stream, stream, List.flatMap_append, List.map_singleton,
          List.flatMap_singleton]
      · have hlength := congrArg List.length hadded
        rw [length_content, PingPacket.length_wire] at hlength
        exact absurd (hlength.symm.trans hnone) (by decide)
  | closed | failed => exact ⟨hp, (List.append_nil _).symm, List.prefix_rfl, List.prefix_rfl⟩
  | send hmoves =>
    refine ⟨?_, (List.append_nil _).symm, List.prefix_append _ _, List.prefix_rfl⟩
    cases hmoves with
    | empty | failed | nothing =>
      exact ⟨hp', (List.append_nil p.sent).symm ▸ hp.written, hp.room⟩
    | @sent hused size hpos hle =>
      refine ⟨hp', ?_, room_cleared⟩
      -- the bytes go from the buffer to the server
      change p.sent ++ p.session.mSendBuffer.content.take size ++ (Session.cleared _).content = _
      rw [Session.content_cleared, hp.valid.send.content_advanceFront
        (hle.trans hp.valid.send.directRead_le), List.append_assoc, List.take_append_drop]
      exact hp.written

/-- A client that has been constructed. -/
lemma exists_start_pinging (memory : Session) (clientFD : SOCKET) (tick : BitVec 64) :
    ∃ p, start memory clientFD tick = some p ∧ p.Pinging tick ∧ p.received = [] ∧ p.sent = [] := by
  obtain ⟨p, hstart, hp, hreceived, hreplies, hsent, -, hsend⟩ :=
    exists_start memory clientFD tick
  -- the constructor writes like an answer to an empty buffer
  have hwritten : Reply.Written ⟨⟨0⟩, ⟨tick⟩, memory.mSendBuffer.reset, p.session.mSendBuffer⟩ :=
    ⟨valid_reset memory.mSendBuffer, hsend⟩
  have hwhole := hwritten.whole_of_le (by rw [directWrite_reset]; decide)
  dsimp only at hwhole
  rw [content_reset, List.nil_append] at hwhole
  refine ⟨p, hstart, ⟨hp _, ?_, fun hnone => ?_⟩, hreceived, hsent⟩
  · simp [pings, hsent, hwhole, hreplies, stream]
  · have hlength := congrArg List.length hwhole
    rw [length_content, PingPacket.length_wire] at hlength
    exact absurd (hlength.symm.trans hnone) (by decide)

end SessionRun

/-! ## The two together -/

namespace PingLoop

variable {tick : BitVec 64} {s s' : PingLoop} {debug : Bool} {address : ℤ}

/-- The invariant. -/
structure Inv (tick : BitVec 64) (s : PingLoop) : Prop where
  client : s.client.Pinging tick
  server : s.server.Inv
  toClient : toBytes s.client.received <+: s.server.out.socket
  toServer : s.server.received <+: toBytes s.client.sent

/-- What the server has written is what the client has sent. -/
lemma Inv.socket_prefix (hs : s.Inv tick) : s.server.out.socket <+: toBytes s.client.sent :=
  (hs.server.isPrefix.trans hs.server.stream.isPrefix).trans hs.toServer

/-- What comes back to the client is what it has sent. -/
lemma Inv.back (hs : s.Inv tick) {call : SessionCall} (h : s.Delivers (.client call)) :
    s.client.received ++ call.bytes <+: s.client.sent :=
  toBytes_prefix_iff.1 (h.trans hs.socket_prefix)

/-- **One step of either side** keeps the invariant. -/
theorem Inv.step (hs : s.Inv tick) (haddress : 0 < address) {a : PingInput}
    (h : s.step debug address a = some s') :
    s'.Inv tick ∧ s.client.replies <+: s'.client.replies := by
  obtain ⟨hdelivers, h⟩ := Option.ite_none_right_eq_some.1 h
  cases a with
  | client call =>
    obtain ⟨client, hclient, rfl⟩ := Option.map_eq_some_iff.1 h
    obtain ⟨hp, hreceived, hsent, hreplies⟩ := hs.client.step (hs.back hdelivers) hclient
    exact ⟨⟨hp, hs.server, hreceived ▸ hdelivers,
      hs.toServer.trans (toBytes_prefix_iff.2 hsent)⟩, hreplies⟩
  | server input =>
    obtain ⟨server, hserver, rfl⟩ := Option.map_eq_some_iff.1 h
    obtain ⟨hreceived, hsocket⟩ := hs.server.grows haddress hserver
    exact ⟨⟨hs.client, hs.server.step haddress hserver, hs.toClient.trans hsocket,
      hreceived ▸ hdelivers⟩, List.prefix_rfl⟩

/-- After a partial write the server writes nothing more. -/
lemma stuck_step {a : PingInput} (h : s.step debug address a = some s')
    (hsending : s.server.out.session.mIsSending = true) :
    s'.server.out.session.mIsSending = true ∧ s'.server.out.socket = s.server.out.socket := by
  obtain ⟨-, h⟩ := Option.ite_none_right_eq_some.1 h
  cases a with
  | client call =>
    obtain ⟨client, -, rfl⟩ := Option.map_eq_some_iff.1 h
    exact ⟨hsending, rfl⟩
  | server input =>
    obtain ⟨server, hserver, rfl⟩ := Option.map_eq_some_iff.1 h
    exact EchoRun.stuck_step hserver hsending

/-- One packet is under way. -/
lemma Inv.onePacket (hs : s.Inv tick) : s.OnePacket tick := by
  have hp := hs.client
  have hreplies := hp.length_replies
  have hsocket : s.server.out.socket <+: s.server.received :=
    hs.server.isPrefix.trans hs.server.stream.isPrefix
  refine ⟨by rw [hreplies, hp.answered], hp.written, ⟨hs.toClient, hsocket, hs.toServer⟩, ?_⟩
  have hheld := congrArg List.length hp.content
  have hwritten := congrArg List.length hp.written
  have htoClient := hs.toClient.length_le
  have hbetween := hsocket.length_le
  have htoServer := hs.toServer.length_le
  rw [length_toBytes] at htoClient htoServer
  have hcut := Nat.div_mul_le_self s.client.received.length sPING_PACKET_SIZE
  rw [length_content, rest, List.length_drop] at hheld
  rw [List.length_append, length_content, length_stream, length_pings, hreplies,
    Nat.succ_mul] at hwritten
  rw [whole] at hheld hwritten
  omega

lemma Inv.clientReturns (hs : s.Inv tick) (a : PingInput) : s.ClientReturns debug a := by
  cases a with
  | client call => exact fun h => hs.client.returns (hs.client.continues (hs.back h))
  | server input => trivial

/-- A client that has been constructed, and a session that has been constructed and registered. -/
lemma exists_start (memory : Session) (clientFD : SOCKET) (tick : BitVec 64)
    {serverMemory : CoreServer.Session} (hb : serverMemory.mRecvJob.mRecvBuffer.Valid)
    (hempty : serverMemory.mRecvJob.mRecvBuffer.mFront = serverMemory.mRecvJob.mRecvBuffer.mRear)
    (sessionID : SessionID) (sessionFD : SocketFD) :
    ∃ client, SessionRun.start memory clientFD tick = some client ∧
      Inv tick ⟨client, EchoRun.start serverMemory sessionID sessionFD⟩ := by
  obtain ⟨client, hstart, hp, hreceived, -⟩ :=
    SessionRun.exists_start_pinging memory clientFD tick
  refine ⟨client, hstart, hp, EchoRun.inv_start hb hempty sessionID sessionFD, ?_, List.nil_prefix⟩
  change toBytes client.received <+: _
  rw [hreceived]
  exact List.nil_prefix

/-- After a partial write the server has not written all that the client has sent, so the packet
that is under way does not come back. -/
lemma Inv.replies_eq (hs : s.Inv tick) (hs' : s'.Inv tick)
    (hsending : s.server.out.session.mIsSending = true)
    (hsocket : s'.server.out.socket = s.server.out.socket)
    (hreplies : s.client.replies <+: s'.client.replies) :
    s'.client.replies = s.client.replies := by
  refine (hreplies.eq_of_length_le ?_).symm
  have hcut := hs.server.cut hsending
  have hconsumed := (hs.server.stream.isPrefix.trans hs.toServer).length_le
  have hsent := hs.client.sent_prefix.length_le
  have hback := hs'.toClient.length_le
  have hsize : sPING_PACKET_SIZE = 12 := rfl
  have hlength := hs'.client.length_replies
  rw [length_toBytes] at hconsumed hback
  rw [length_stream, length_pings, hsize] at hsent
  rw [hsocket] at hback
  rw [whole, hsize] at hlength
  change s.server.consumed.length ≤ _ at hconsumed
  omega

end PingLoop

open PingLoop

/-- **One packet goes round.**  In every run of a client of the stress test against a session of the
echo server whose receive buffer is empty at first, in any order of the steps, however the streams
are cut and whichever errors either side meets, exactly one ping packet is under way.  The packets
that come back are those that have been sent, in this order and each of them once, so the tick in a
packet is the one at which it has been written; every answer is written as a whole, and no call of
the client gets stuck. -/
theorem pingLoop_one_packet (debug : Bool) (memory : Session) (clientFD : SOCKET)
    (tick : BitVec 64) (serverMemory : CoreServer.Session)
    (hb : serverMemory.mRecvJob.mRecvBuffer.Valid)
    (hempty : serverMemory.mRecvJob.mRecvBuffer.mFront = serverMemory.mRecvJob.mRecvBuffer.mRear)
    (sessionID : SessionID) (sessionFD : SocketFD) {address : ℤ} (haddress : 0 < address)
    (as : List PingInput) :
    ∃ client, SessionRun.start memory clientFD tick = some client ∧
      (PingLoop.machine debug address).Always (OnePacket tick)
        ⟨client, EchoRun.start serverMemory sessionID sessionFD⟩ as ∧
      (PingLoop.machine debug address).Along (ClientReturns debug)
        ⟨client, EchoRun.start serverMemory sessionID sessionFD⟩ as := by
  obtain ⟨client, hstart, hs⟩ :=
    PingLoop.exists_start memory clientFD tick hb hempty sessionID sessionFD
  exact ⟨client, hstart,
    StepMachine.always_of_invariant (fun _ _ _ hs h => (hs.step haddress h).1)
      (fun _ hs => hs.onePacket) hs as,
    StepMachine.along_of_invariant (fun _ _ _ hs h => (hs.step haddress h).1)
      (fun _ a hs => hs.clientReturns a) hs as⟩

/-- The first packet goes to the server in two pieces and comes back in two pieces; the answer is
sent. -/
def PingLoop.roundTrip : List PingInput :=
  [.client (.send (.sent 7)), .server .execute, .server .socketFD,
    .server (.recv (.received (toBytes ((PingPacket.wire ⟨1⟩).take 7)))), .server .socketFD,
    .server (.recv (.failed .EAGAIN)), .server (.onRecv [.accepted 7 .EINTR]),
    .server (.epollCtl true), .client (.recv (.received ((PingPacket.wire ⟨1⟩).take 3)) fun _ => 0),
    .client (.send (.sent 5)), .server .execute, .server .socketFD,
    .server (.recv (.received (toBytes ((PingPacket.wire ⟨1⟩).drop 7)))), .server .socketFD,
    .server (.recv (.failed .EAGAIN)), .server (.onRecv [.accepted 5 .EINTR]),
    .server (.epollCtl true),
    .client (.recv (.received ((PingPacket.wire ⟨1⟩).drop 3)) fun _ => 2),
    .client (.send (.sent 12))]

theorem pingLoop_one_packet_roundTrip : ∃ client,
    SessionRun.start Session.zeroMemory 3 1 = some client ∧
      (∃ s ∈ (PingLoop.machine true 100).exec
          ⟨client, EchoRun.start CoreServer.Session.zeroMemory 0 7⟩ PingLoop.roundTrip,
        s.client.replies.map Reply.answer = [⟨2⟩]) ∧
      (PingLoop.machine true 100).Always (OnePacket 1)
        ⟨client, EchoRun.start CoreServer.Session.zeroMemory 0 7⟩ PingLoop.roundTrip := by
  have htest : ∀ client ∈ SessionRun.start Session.zeroMemory 3 1,
      ∃ s ∈ (PingLoop.machine true 100).exec
          ⟨client, EchoRun.start CoreServer.Session.zeroMemory 0 7⟩ PingLoop.roundTrip,
        s.client.replies.map Reply.answer = [⟨2⟩] := by decide +kernel
  obtain ⟨client, hstart, halways, -⟩ := pingLoop_one_packet true Session.zeroMemory 3 1
    CoreServer.Session.zeroMemory (valid_reset RecvBuffer.zeroMemory) rfl 0 7
    (by decide : (0 : ℤ) < 100) PingLoop.roundTrip
  exact ⟨client, hstart, htest client hstart, halways⟩

/-- **A partial write stops the client for good.**  In every run of a client of the stress test
against a session of the echo server whose receive buffer is empty at first, once this session is
left in the state of sending, which a partial write does, the client answers no further packet. -/
theorem pingLoop_stops_after_partial_write {debug : Bool} {memory : Session} {clientFD : SOCKET}
    {tick : BitVec 64} {client : SessionRun}
    (hstart : SessionRun.start memory clientFD tick = some client)
    (serverMemory : CoreServer.Session) (hb : serverMemory.mRecvJob.mRecvBuffer.Valid)
    (hempty : serverMemory.mRecvJob.mRecvBuffer.mFront = serverMemory.mRecvJob.mRecvBuffer.mRear)
    (sessionID : SessionID) (sessionFD : SocketFD) {address : ℤ} (haddress : 0 < address)
    {as bs : List PingInput} {s t : PingLoop}
    (hrun : (PingLoop.machine debug address).exec
      ⟨client, EchoRun.start serverMemory sessionID sessionFD⟩ as = some s)
    (hsending : s.server.out.session.mIsSending = true)
    (hrest : (PingLoop.machine debug address).exec s bs = some t) :
    t.client.replies = s.client.replies := by
  obtain ⟨client', hstart', hs₀⟩ :=
    PingLoop.exists_start memory clientFD tick hb hempty sessionID sessionFD
  obtain rfl := Option.some.inj (hstart.symm.trans hstart')
  have hs : s.Inv tick := StepMachine.exec_invariant (M := PingLoop.machine debug address)
    (fun _ _ _ hs h => (hs.step haddress h).1) hs₀ hrun
  -- the server writes nothing more
  have ht : t.Inv tick ∧ t.server.out.session.mIsSending = true ∧
      t.server.out.socket = s.server.out.socket ∧ s.client.replies <+: t.client.replies :=
    StepMachine.exec_invariant (M := PingLoop.machine debug address)
      (I := fun t => t.Inv tick ∧ t.server.out.session.mIsSending = true ∧
        t.server.out.socket = s.server.out.socket ∧ s.client.replies <+: t.client.replies)
      (fun _ _ _ ⟨ht, hsend, hsocket, hreplies⟩ h =>
        have hstep := ht.step haddress h
        have hstuck := PingLoop.stuck_step h hsend
        ⟨hstep.1, hstuck.1, hstuck.2.trans hsocket, hreplies.trans hstep.2⟩)
      ⟨hs, hsending, rfl, List.prefix_rfl⟩ hrest
  exact hs.replies_eq ht.1 hsending ht.2.2.1 ht.2.2.2

/-- Of the twelve bytes of the first packet the server writes back five.  The client receives them,
and the server goes on waiting for input. -/
def PingLoop.partialWrite : List PingInput :=
  [.client (.send (.sent 12)), .server .execute, .server .socketFD,
    .server (.recv (.received (toBytes (PingPacket.wire ⟨1⟩)))), .server .socketFD,
    .server (.recv (.failed .EAGAIN)), .server (.onRecv [.accepted 5 .EINTR])]

theorem pingLoop_stops_after_partial_write_one : ∃ client s t,
    SessionRun.start Session.zeroMemory 3 1 = some client ∧
      (PingLoop.machine true 100).exec
        ⟨client, EchoRun.start CoreServer.Session.zeroMemory 0 7⟩ PingLoop.partialWrite = some s ∧
      (PingLoop.machine true 100).exec s
        [.server (.epollCtl true),
          .client (.recv (.received ((PingPacket.wire ⟨1⟩).take 5)) fun _ => 2)] = some t ∧
      t.client.received.length = 5 ∧ t.client.replies = s.client.replies := by
  have htest : ∃ client ∈ SessionRun.start Session.zeroMemory 3 1,
      ∃ s ∈ (PingLoop.machine true 100).exec
          ⟨client, EchoRun.start CoreServer.Session.zeroMemory 0 7⟩ PingLoop.partialWrite,
        s.server.out.session.mIsSending = true ∧
        ∃ t ∈ (PingLoop.machine true 100).exec s
          [.server (.epollCtl true),
            .client (.recv (.received ((PingPacket.wire ⟨1⟩).take 5)) fun _ => 2)],
          t.client.received.length = 5 := by decide +kernel
  obtain ⟨client, hstart, s, hrun, hsending, t, hrest, ht⟩ := htest
  exact ⟨client, s, t, hstart, hrun, hrest, ht,
    pingLoop_stops_after_partial_write hstart CoreServer.Session.zeroMemory
      (valid_reset RecvBuffer.zeroMemory) rfl 0 7 (by decide) hrun hsending hrest⟩

end Test

end CoreServer
