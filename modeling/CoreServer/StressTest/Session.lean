import CoreServer.Network.RecvBufferOps
import CoreServer.Network.RecvBufferReads
import CoreServer.Lib.LittleEndian

/-!
# The session of the stress test (`exe-StressTest/Session.cpp`)

A client that answers every ping packet that it receives with a ping packet of its own.  `DoRecv`
puts what `recv` returns in `mRecvBuffer` and takes every whole packet out; each of them is answered
with two `Write`s to `mSendBuffer`, which `DoSend` empties.  `assert` aborts in a debug build only.

The file says what each call does to a session whose buffers are in range: `Session.RecvMoves` and
`Session.SendMoves` on any bytes, and `Session.recvLoop_stream` on a piece of a stream of packets.
-/

namespace CoreServer

namespace Test

open CircularBuffer

/-! ## Packets -/

/-- `SOCKET`, a number of 64 bits. -/
abbrev SOCKET := ℕ

/-- `INVALID_SOCKET`, which is `~0`. -/
def INVALID_SOCKET : SOCKET := 2 ^ 64 - 1

/-- `ePacketID::PING`. -/
def PING : BitVec 16 := 0

/-- `sizeof(PacketHeader)`. -/
def sPACKET_HEADER_SIZE : ℕ := 4

/-- `sizeof(PingPacket)`. -/
def sizeofPingPacket : ℕ := 8

def sPING_PACKET_SIZE : ℕ := sPACKET_HEADER_SIZE + sizeofPingPacket

/-- `PacketHeader`; every value of 16 bits may be read as an `ePacketID`. -/
structure PacketHeader where
  mSize : BitVec 16
  mID : BitVec 16
deriving DecidableEq, Repr

structure PingPacket where
  mSendTick : BitVec 64
deriving DecidableEq, Repr

/-- A number of `n` bytes as it lies in memory. -/
def chars (n x : ℕ) : List Int8 := (LittleEndian.encode n x).map UInt8.toInt8

/-- The number that lies in memory. -/
def number (bytes : List Int8) : ℕ := LittleEndian.decode (bytes.map Int8.toUInt8)

/-- The bytes at `(char*)&header`. -/
def PacketHeader.toChars (header : PacketHeader) : List Int8 :=
  chars 2 header.mSize.toNat ++ chars 2 header.mID.toNat

/-- The header whose bytes have been copied to `(char*)&header`. -/
def PacketHeader.ofChars (bytes : List Int8) : PacketHeader :=
  ⟨BitVec.ofNat 16 (number (bytes.take 2)), BitVec.ofNat 16 (number ((bytes.drop 2).take 2))⟩

/-- The bytes at `(char*)&packet`. -/
def PingPacket.toChars (packet : PingPacket) : List Int8 := chars 8 packet.mSendTick.toNat

/-- The packet whose bytes have been copied to `(char*)&packet`. -/
def PingPacket.ofChars (bytes : List Int8) : PingPacket := ⟨BitVec.ofNat 64 (number bytes)⟩

/-- `{sPING_PACKET_SIZE, ePacketID::PING}`. -/
def PacketHeader.ping : PacketHeader := ⟨BitVec.ofNat 16 sPING_PACKET_SIZE, PING⟩

/-- A ping packet on the wire. -/
def PingPacket.wire (packet : PingPacket) : List Int8 :=
  PacketHeader.ping.toChars ++ packet.toChars

/-- Ping packets one after the other. -/
def stream (packets : List PingPacket) : List Int8 := packets.flatMap PingPacket.wire

/-! ## The session -/

structure Session where
  mSocket : SOCKET
  mRecvBuffer : RingBuffer
  mSendBuffer : RingBuffer

/-- What `recv` returns: bytes, zero, or `SOCKET_ERROR`. -/
inductive RecvOutcome where
  | received (bytes : List Int8)
  | closed
  | failed
deriving DecidableEq, Repr

/-- What `send` returns: the number of bytes that it has taken, or `SOCKET_ERROR`. -/
inductive SendOutcome where
  | sent (size : ℕ)
  | failed
deriving DecidableEq, Repr

/-- A packet that `DoRecv` has taken out, the packet that it answers, and `mSendBuffer` before and
after the two `Write`s. -/
structure Reply where
  packet : PingPacket
  answer : PingPacket
  before : RingBuffer
  after : RingBuffer

/-- What `DoRecv` returns, the sockets that it has closed, its answers, and the session. -/
structure RecvResult where
  result : Bool
  closed : List SOCKET
  replies : List Reply
  session : Session

/-- What `DoSend` returns, the sockets that it has closed, the bytes that it has sent, and the
session. -/
structure SendResult where
  result : Bool
  closed : List SOCKET
  sent : List Int8
  session : Session

/-- `assert(condition)`. -/
def assertion (debug : Bool) (condition : Prop) [Decidable condition] : Option Unit :=
  if debug = true ∧ ¬ condition then none else some ()

/-- The `Write`s of a header and of a packet, whose results are not tested. -/
def writePacket (b : RingBuffer) (header : PacketHeader) (packet : PingPacket) :
    Option RingBuffer := do
  let (_, b) ← b.write header.toChars sPACKET_HEADER_SIZE
  let (_, b) ← b.write packet.toChars sizeofPingPacket
  return b

namespace Session

/-- `Session::Session`, on an object with any memory, at the tick `tick`. -/
def construct (memory : Session) (clientFD : SOCKET) (tick : BitVec 64) : Option Session := do
  let mSendBuffer ← writePacket (RingBuffer.construct memory.mSendBuffer) .ping ⟨tick⟩
  return ⟨clientFD, RingBuffer.construct memory.mRecvBuffer, mSendBuffer⟩

/-- The object whose memory is all zero. -/
def zeroMemory : Session := ⟨0, ⟨0, 0, fun _ => 0⟩, ⟨0, 0, fun _ => 0⟩⟩

/-- The loop of `DoRecv`, if it ends after fewer than `fuel` packets: the answers and the session.
`clock` is what the calls of `QueryPerformanceCounter` return. -/
def recvLoop (debug : Bool) : ℕ → (ℕ → BitVec 64) → Session → Option (List Reply × Session)
  | 0, _, _ => none
  | fuel + 1, clock, s => do
    let bufferUsedSize ← s.mRecvBuffer.getUsedSize
    if bufferUsedSize < sPACKET_HEADER_SIZE then return ([], s)
    else
      let (peekSize, bytes) ← s.mRecvBuffer.peek sPACKET_HEADER_SIZE
      let header := PacketHeader.ofChars bytes
      assertion debug (peekSize = sPACKET_HEADER_SIZE)
      assertion debug (header.mID = PING)
      assertion debug (header.mSize.toNat = sPING_PACKET_SIZE)
      if bufferUsedSize < header.mSize.toNat then return ([], s)
      else
        let mRecvBuffer ← s.mRecvBuffer.moveReadOffset sPACKET_HEADER_SIZE
        let (readSize, bytes, mRecvBuffer) ← mRecvBuffer.read sizeofPingPacket
        assertion debug (readSize = sizeofPingPacket)
        let packet := PingPacket.ofChars bytes
        let curTick := clock 0
        let mSendBuffer ← writePacket s.mSendBuffer header ⟨curTick⟩
        let (replies, s') ← recvLoop debug fuel (fun i => clock (i + 1))
          ⟨s.mSocket, mRecvBuffer, mSendBuffer⟩
        return (⟨packet, ⟨curTick⟩, s.mSendBuffer, mSendBuffer⟩ :: replies, s')

/-- `Reset`, if nothing is left in the buffer. -/
def resetIfEmpty (b : RingBuffer) : Option RingBuffer := do
  let usedSize ← b.getUsedSize
  return if usedSize = 0 then b.reset else b

/-- `DoRecv`.  `recv` returns at most as many bytes as it is offered room for, and at least one. -/
def doRecv (debug : Bool) (clock : ℕ → BitVec 64) (s : Session) :
    RecvOutcome → Option RecvResult
  | .closed => some ⟨false, [s.mSocket], [], s⟩
  | .failed => some ⟨false, [s.mSocket], [], s⟩
  | .received bytes => do
    let size ← s.mRecvBuffer.getDirectWriteSize
    if 1 ≤ bytes.length ∧ (bytes.length : ℤ) ≤ size then
      let mBuffer ← memcpyIn s.mRecvBuffer.mBuffer s.mRecvBuffer.mRear bytes bytes.length
      let mRecvBuffer ← moveWriteOffset { s.mRecvBuffer with mBuffer := mBuffer } bytes.length
      let usedSize ← mRecvBuffer.getUsedSize
      let (replies, s) ← recvLoop debug (usedSize.toNat + 1) clock
        { s with mRecvBuffer := mRecvBuffer }
      let mRecvBuffer ← resetIfEmpty s.mRecvBuffer
      return ⟨true, [], replies, { s with mRecvBuffer := mRecvBuffer }⟩
    else none

/-- `DoSend`.  `send` takes at most as many bytes as it is offered. -/
def doSend (s : Session) (outcome : SendOutcome) : Option SendResult := do
  let usedSize ← s.mSendBuffer.getUsedSize
  if usedSize = 0 then return ⟨false, [], [], s⟩
  else
    let sendSize ← s.mSendBuffer.getDirectReadSize
    match outcome with
    | .failed => return ⟨false, [s.mSocket], [], s⟩
    | .sent size =>
      if (size : ℤ) ≤ sendSize then
        if size = 0 then return ⟨false, [], [], s⟩
        else
          let bytes ← memcpyOut s.mSendBuffer.mBuffer s.mSendBuffer.mFront size
          let mSendBuffer ← s.mSendBuffer.moveReadOffset size
          let mSendBuffer ← resetIfEmpty mSendBuffer
          return ⟨true, [], bytes, { s with mSendBuffer := mSendBuffer }⟩
      else none

end Session

/-! ## Packets that are read back -/

@[simp] lemma length_chars (n x : ℕ) : (chars n x).length = n := by simp [chars]

lemma number_chars {n x : ℕ} (h : x < 256 ^ n) : number (chars n x) = x := by
  have hbytes : ((LittleEndian.encode n x).map UInt8.toInt8).map Int8.toUInt8 =
      LittleEndian.encode n x := by
    rw [List.map_map]
    exact List.map_id'' (fun byte => by simp) _
  rw [number, chars, hbytes, LittleEndian.decode_encode h]

@[simp] lemma PacketHeader.length_toChars (header : PacketHeader) :
    header.toChars.length = sPACKET_HEADER_SIZE := by
  simp [toChars, sPACKET_HEADER_SIZE]

@[simp] lemma PingPacket.length_toChars (packet : PingPacket) :
    packet.toChars.length = sizeofPingPacket := by
  simp [toChars, sizeofPingPacket]

lemma PacketHeader.ofChars_toChars (header : PacketHeader) : ofChars header.toChars = header := by
  have hsize := number_chars (n := 2) header.mSize.isLt
  have hID := number_chars (n := 2) header.mID.isLt
  have htake : header.toChars.take 2 = chars 2 header.mSize.toNat :=
    List.take_left' (length_chars 2 _)
  have hdrop : (header.toChars.drop 2).take 2 = chars 2 header.mID.toNat := by
    rw [toChars, List.drop_left' (length_chars 2 _), List.take_of_length_le (by simp)]
  rw [ofChars, htake, hdrop, hsize, hID, BitVec.ofNat_toNat, BitVec.ofNat_toNat]
  simp

lemma PingPacket.ofChars_toChars (packet : PingPacket) : ofChars packet.toChars = packet := by
  have htick := number_chars (n := 8) packet.mSendTick.isLt
  rw [ofChars, toChars, htick, BitVec.ofNat_toNat]
  simp

@[simp] lemma PingPacket.length_wire (packet : PingPacket) :
    packet.wire.length = sPING_PACKET_SIZE := by
  simp [wire, sPING_PACKET_SIZE]

@[simp] lemma length_stream (packets : List PingPacket) :
    (stream packets).length = packets.length * sPING_PACKET_SIZE := by
  simp [stream, List.length_flatMap]

/-! ## The calls of a session whose buffers are in range -/

/-- The buffer after a `Write` of which it is not known whether it is accepted. -/
def queue (b : RingBuffer) (input : List Int8) : RingBuffer :=
  if b.used + input.length < BUFFER_SIZE then b.store input else b

section Queue

variable {b : RingBuffer} {input : List Int8}

lemma queue_of_lt (hroom : b.used + input.length < BUFFER_SIZE) : queue b input = b.store input :=
  if_pos hroom

lemma queue_of_ge (hroom : BUFFER_SIZE ≤ b.used + input.length) : queue b input = b :=
  if_neg (Nat.not_lt.2 hroom)

lemma valid_queue (h : b.Valid) (input : List Int8) : (queue b input).Valid := by
  unfold queue
  split
  · exact h.store input
  · exact h

lemma used_queue (h : b.Valid) (hroom : b.used + input.length < BUFFER_SIZE) :
    (queue b input).used = b.used + input.length := by
  rw [queue_of_lt hroom, h.used_store hroom]

lemma content_queue (h : b.Valid) (hroom : b.used + input.length < BUFFER_SIZE) :
    (queue b input).content = b.content ++ b.stored input := by
  rw [queue_of_lt hroom, h.content_store hroom]

lemma used_le_queue (h : b.Valid) (input : List Int8) : b.used ≤ (queue b input).used := by
  rcases Nat.lt_or_ge (b.used + input.length) BUFFER_SIZE with hroom | hfull
  · rw [used_queue h hroom]
    exact Nat.le_add_right _ _
  · rw [queue_of_ge hfull]

/-- Nothing is left empty by a `Write` of a few bytes. -/
lemma used_queue_ne_zero (h : b.Valid) (hpos : 0 < input.length)
    (hlt : input.length < BUFFER_SIZE) : (queue b input).used ≠ 0 := by
  rcases Nat.lt_or_ge (b.used + input.length) BUFFER_SIZE with hroom | hfull
  · rw [used_queue h hroom]
    omega
  · rw [queue_of_ge hfull]
    omega

end Queue

lemma write_eq_queue {b : RingBuffer} (h : b.Valid) {input : List Int8} {size : ℕ}
    (hsize : input.length = size) :
    ∃ accepted, b.write input size = some (accepted, queue b input) := by
  subst hsize
  rw [h.write, queue]
  split
  · exact ⟨_, rfl⟩
  · exact ⟨_, rfl⟩

lemma writePacket_eq {b : RingBuffer} (h : b.Valid) (header : PacketHeader) (packet : PingPacket) :
    writePacket b header packet = some (queue (queue b header.toChars) packet.toChars) := by
  obtain ⟨_, hheader⟩ := write_eq_queue h header.length_toChars
  obtain ⟨_, hpacket⟩ := write_eq_queue (valid_queue h header.toChars) packet.length_toChars
  simp only [writePacket, hheader, hpacket, Option.bind_eq_bind, Option.bind_some, Option.pure_def]

namespace Session

/-- The offsets of both buffers are in range. -/
structure Valid (s : Session) : Prop where
  recv : s.mRecvBuffer.Valid
  send : s.mSendBuffer.Valid

/-- The header that `DoRecv` peeks. -/
def header (s : Session) : PacketHeader :=
  .ofChars (s.mRecvBuffer.content.take sPACKET_HEADER_SIZE)

/-- The packet behind the header. -/
def packet (s : Session) : PingPacket :=
  .ofChars ((s.mRecvBuffer.content.drop sPACKET_HEADER_SIZE).take sizeofPingPacket)

/-- The session after one round of the loop that takes a packet out. -/
def answered (s : Session) (curTick : BitVec 64) : Session where
  mSocket := s.mSocket
  mRecvBuffer := s.mRecvBuffer.advanceFront
    (sPACKET_HEADER_SIZE + min (s.mRecvBuffer.used - sPACKET_HEADER_SIZE) sizeofPingPacket)
  mSendBuffer := queue (queue s.mSendBuffer s.header.toChars) (PingPacket.toChars ⟨curTick⟩)

/-- The answer of that round. -/
def reply (s : Session) (curTick : BitVec 64) : Reply :=
  ⟨s.packet, ⟨curTick⟩, s.mSendBuffer, (s.answered curTick).mSendBuffer⟩

variable {s : Session} {debug : Bool} {fuel : ℕ} {clock : ℕ → BitVec 64}

lemma Valid.answered (h : s.Valid) (curTick : BitVec 64) : (s.answered curTick).Valid :=
  ⟨h.recv.advanceFront _, valid_queue (valid_queue h.send _) _⟩

/-- A session that has been constructed has a packet to send. -/
lemma exists_construct (memory : Session) (clientFD : SOCKET) (tick : BitVec 64) :
    ∃ s, construct memory clientFD tick = some s ∧ s.Valid ∧ s.mSocket = clientFD ∧
      s.mRecvBuffer = RingBuffer.construct memory.mRecvBuffer ∧
      s.mSendBuffer = queue (queue (RingBuffer.construct memory.mSendBuffer)
        PacketHeader.ping.toChars) (PingPacket.toChars ⟨tick⟩) := by
  have hvalid : (RingBuffer.construct memory.mSendBuffer).Valid := valid_reset _
  obtain ⟨mSendBuffer, hsend⟩ : ∃ b, b = queue (queue (RingBuffer.construct memory.mSendBuffer)
      PacketHeader.ping.toChars) (PingPacket.toChars ⟨tick⟩) := ⟨_, rfl⟩
  have hvalid' : mSendBuffer.Valid := hsend ▸ valid_queue (valid_queue hvalid _) _
  refine ⟨⟨clientFD, RingBuffer.construct memory.mRecvBuffer, mSendBuffer⟩, ?_,
    ⟨valid_reset _, hvalid'⟩, rfl, rfl, hsend⟩
  rw [construct, writePacket_eq hvalid, hsend]
  rfl

lemma assertion_of {condition : Prop} [Decidable condition] (h : condition) :
    assertion debug condition = some () := if_neg fun hfails => hfails.2 h

lemma recvLoop_of_lt (h : s.Valid) (hlt : s.mRecvBuffer.used < sPACKET_HEADER_SIZE) :
    recvLoop debug (fuel + 1) clock s = some ([], s) := by
  rw [recvLoop, h.recv.getUsedSize, Option.bind_eq_bind, Option.bind_some, if_pos (by omega)]
  rfl

/-- **One round of the loop.** -/
theorem recvLoop_succ (h : s.Valid) (hge : sPACKET_HEADER_SIZE ≤ s.mRecvBuffer.used) :
    recvLoop debug (fuel + 1) clock s =
      (assertion debug (s.header.mID = PING)).bind fun _ =>
      (assertion debug (s.header.mSize.toNat = sPING_PACKET_SIZE)).bind fun _ =>
      if s.mRecvBuffer.used < s.header.mSize.toNat then some ([], s)
      else
        (assertion debug (min (s.mRecvBuffer.used - sPACKET_HEADER_SIZE) sizeofPingPacket =
          sizeofPingPacket)).bind fun _ =>
        (recvLoop debug fuel (fun i => clock (i + 1)) (s.answered (clock 0))).map fun r =>
          (s.reply (clock 0) :: r.1, r.2) := by
  have hpeek : min s.mRecvBuffer.used sPACKET_HEADER_SIZE = sPACKET_HEADER_SIZE :=
    Nat.min_eq_right hge
  have hread := (h.recv.advanceFront sPACKET_HEADER_SIZE).read sizeofPingPacket
  rw [h.recv.used_advanceFront hge, h.recv.content_advanceFront hge] at hread
  simp only [recvLoop, h.recv.getUsedSize, h.recv.peek, h.recv.moveReadOffset hge, hread,
    writePacket_eq h.send, Option.bind_eq_bind, Option.bind_some, Option.pure_def,
    assertion_of hpeek, Nat.cast_lt, Nat.cast_inj, if_neg (Nat.not_lt.2 hge), Option.map_eq_bind,
    advanceFront_advanceFront]
  rfl

/-! ### Any bytes -/

/-- The tests of the loop: a header, and as many bytes as it says. -/
def HasPacket (s : Session) : Prop :=
  sPACKET_HEADER_SIZE ≤ s.mRecvBuffer.used ∧ s.header.mSize.toNat ≤ s.mRecvBuffer.used

/-- What one round of the loop can do. -/
lemma recvLoop_cases (h : s.Valid) {r : List Reply × Session}
    (hloop : recvLoop debug (fuel + 1) clock s = some r) :
    (¬ s.HasPacket ∧ r = ([], s)) ∨
      (s.HasPacket ∧ ∃ r', recvLoop debug fuel (fun i => clock (i + 1)) (s.answered (clock 0)) =
        some r' ∧ r = (s.reply (clock 0) :: r'.1, r'.2)) := by
  rcases Nat.lt_or_ge s.mRecvBuffer.used sPACKET_HEADER_SIZE with hshort | hge
  · rw [recvLoop_of_lt h hshort] at hloop
    exact Or.inl ⟨fun hpacket => Nat.not_le.2 hshort hpacket.1, (Option.some.inj hloop).symm⟩
  · rw [recvLoop_succ h hge] at hloop
    obtain ⟨_, -, hloop⟩ := Option.bind_eq_some_iff.1 hloop
    obtain ⟨_, -, hloop⟩ := Option.bind_eq_some_iff.1 hloop
    split at hloop
    · rename_i hpartial
      exact Or.inl ⟨fun hpacket => Nat.not_le.2 hpartial hpacket.2, (Option.some.inj hloop).symm⟩
    · rename_i hwhole
      obtain ⟨_, -, hloop⟩ := Option.bind_eq_some_iff.1 hloop
      obtain ⟨r', hrest, hr⟩ := Option.map_eq_some_iff.1 hloop
      exact Or.inr ⟨⟨hge, Nat.not_lt.1 hwhole⟩, r', hrest, hr.symm⟩

/-- An answer leaves something to send. -/
lemma Valid.used_answered (h : s.Valid) (curTick : BitVec 64) :
    s.mSendBuffer.used ≤ (s.answered curTick).mSendBuffer.used ∧
      (s.answered curTick).mSendBuffer.used ≠ 0 := by
  have hheader := used_le_queue h.send s.header.toChars
  have hpacket := used_le_queue (valid_queue h.send s.header.toChars)
    (PingPacket.toChars ⟨curTick⟩)
  have hpos : (queue s.mSendBuffer s.header.toChars).used ≠ 0 :=
    used_queue_ne_zero h.send (by rw [PacketHeader.length_toChars]; decide)
      (by rw [PacketHeader.length_toChars]; decide)
  change _ ≤ (queue (queue _ _) _).used ∧ (queue (queue _ _) _).used ≠ 0
  omega

/-- **A run of the loop on any bytes.**  The loop keeps the socket and what is to be sent. -/
theorem recvLoop_kept (h : s.Valid) {r : List Reply × Session}
    (hloop : recvLoop debug fuel clock s = some r) :
    r.2.Valid ∧ r.2.mSocket = s.mSocket ∧ s.mSendBuffer.used ≤ r.2.mSendBuffer.used := by
  induction fuel generalizing s clock r with
  | zero => nomatch hloop
  | succ fuel ih =>
    rcases recvLoop_cases h hloop with ⟨-, rfl⟩ | ⟨-, r', hrest, rfl⟩
    · exact ⟨h, rfl, le_rfl⟩
    · obtain ⟨hvalid, hsocket, hle⟩ := ih (h.answered (clock 0)) hrest
      exact ⟨hvalid, hsocket, (h.used_answered (clock 0)).1.trans hle⟩

/-- The loop leaves nothing to send if there was nothing and it has answered nothing. -/
lemma recvLoop_used_eq_zero_iff (h : s.Valid) {r : List Reply × Session}
    (hloop : recvLoop debug (fuel + 1) clock s = some r) :
    r.2.mSendBuffer.used = 0 ↔ s.mSendBuffer.used = 0 ∧ ¬ s.HasPacket := by
  rcases recvLoop_cases h hloop with ⟨hpacket, rfl⟩ | ⟨hpacket, r', hrest, rfl⟩
  · exact (and_iff_left hpacket).symm
  · have hle := (recvLoop_kept (h.answered (clock 0)) hrest).2.2
    have hpos := (h.used_answered (clock 0)).2
    refine iff_of_false ?_ fun hnone => hnone.2 hpacket
    change r'.2.mSendBuffer.used ≠ 0
    omega

/-! ### A whole packet, and the beginning of one -/

lemma header_of_content {header : PacketHeader} {rest : List Int8}
    (hcontent : s.mRecvBuffer.content = header.toChars ++ rest) : s.header = header := by
  rw [Session.header, hcontent, List.take_left' header.length_toChars, PacketHeader.ofChars_toChars]

/-- A whole packet is taken out and answered. -/
lemma recvLoop_packet (h : s.Valid) {packet : PingPacket} {rest : List Int8}
    (hcontent : s.mRecvBuffer.content = packet.wire ++ rest) :
    recvLoop debug (fuel + 1) clock s =
      (recvLoop debug fuel (fun i => clock (i + 1)) (s.answered (clock 0))).map fun r =>
        (s.reply (clock 0) :: r.1, r.2) := by
  have hused : s.mRecvBuffer.used = sPING_PACKET_SIZE + rest.length := by
    rw [← length_content, hcontent, List.length_append, packet.length_wire]
  have hsizes : sPING_PACKET_SIZE = sPACKET_HEADER_SIZE + sizeofPingPacket := rfl
  have hheader : s.header = .ping := by
    rw [PingPacket.wire, List.append_assoc] at hcontent
    exact header_of_content hcontent
  have hmSize : s.header.mSize.toNat = sPING_PACKET_SIZE := by rw [hheader]; rfl
  have hread : min (s.mRecvBuffer.used - sPACKET_HEADER_SIZE) sizeofPingPacket =
      sizeofPingPacket := by
    omega
  rw [recvLoop_succ h (by omega), assertion_of (by rw [hheader]; rfl), assertion_of hmSize,
    assertion_of hread, hmSize]
  simp only [Option.bind_some, if_neg (show ¬ s.mRecvBuffer.used < sPING_PACKET_SIZE by omega)]

lemma packet_of_content {packet : PingPacket} {rest : List Int8}
    (hcontent : s.mRecvBuffer.content = packet.wire ++ rest) : s.packet = packet := by
  rw [Session.packet, hcontent, PingPacket.wire, List.append_assoc,
    List.drop_left' (PacketHeader.length_toChars _), List.take_left' packet.length_toChars,
    PingPacket.ofChars_toChars]

lemma content_answered (h : s.Valid) {packet : PingPacket} {rest : List Int8}
    (hcontent : s.mRecvBuffer.content = packet.wire ++ rest) (curTick : BitVec 64) :
    (s.answered curTick).mRecvBuffer.content = rest := by
  have hused : s.mRecvBuffer.used = sPING_PACKET_SIZE + rest.length := by
    rw [← length_content, hcontent, List.length_append, packet.length_wire]
  have hsizes : sPING_PACKET_SIZE = sPACKET_HEADER_SIZE + sizeofPingPacket := rfl
  have hread : sPACKET_HEADER_SIZE +
      min (s.mRecvBuffer.used - sPACKET_HEADER_SIZE) sizeofPingPacket = sPING_PACKET_SIZE := by
    omega
  change (s.mRecvBuffer.advanceFront _).content = rest
  rw [hread, h.recv.content_advanceFront (by omega), hcontent,
    List.drop_left' packet.length_wire]

/-- The beginning of a packet stays in the buffer. -/
lemma recvLoop_rest (h : s.Valid) {packet : PingPacket}
    (hcontent : s.mRecvBuffer.content <+: packet.wire)
    (hlt : s.mRecvBuffer.used < sPING_PACKET_SIZE) :
    recvLoop debug (fuel + 1) clock s = some ([], s) := by
  rcases Nat.lt_or_ge s.mRecvBuffer.used sPACKET_HEADER_SIZE with hshort | hge
  · exact recvLoop_of_lt h hshort
  · have hheader : s.header = .ping := by
      -- the header is whole
      have hprefix : PacketHeader.ping.toChars <+: s.mRecvBuffer.content :=
        List.prefix_of_prefix_length_le (List.prefix_append _ _) hcontent
          (by rw [PacketHeader.length_toChars, length_content]; exact hge)
      obtain ⟨rest, hrest⟩ := hprefix
      exact header_of_content hrest.symm
    have hmSize : s.header.mSize.toNat = sPING_PACKET_SIZE := by rw [hheader]; rfl
    rw [recvLoop_succ h hge, assertion_of (by rw [hheader]; rfl), assertion_of hmSize, hmSize]
    simp only [Option.bind_some, if_pos hlt]

/-- The answers to some packets, from `mSendBuffer` before the first one to the one after the last
one. -/
def Answers : RingBuffer → List Reply → RingBuffer → Prop
  | b, [], b' => b' = b
  | b, r :: replies, b' =>
    r.before = b ∧ r.after = queue (queue b PacketHeader.ping.toChars) r.answer.toChars ∧
      Answers r.after replies b'

/-- **A run of the loop.**  The packets that are whole are taken out and answered. -/
theorem recvLoop_stream (h : s.Valid) {packets : List PingPacket} {packet : PingPacket}
    {rest : List Int8} (hcontent : s.mRecvBuffer.content = stream packets ++ rest)
    (hrest : rest <+: packet.wire) (hlt : rest.length < sPING_PACKET_SIZE)
    (hfuel : packets.length < fuel) :
    ∃ replies s', recvLoop debug fuel clock s = some (replies, s') ∧ s'.Valid ∧
      s'.mSocket = s.mSocket ∧ replies.map Reply.packet = packets ∧
      s'.mRecvBuffer.content = rest ∧ Answers s.mSendBuffer replies s'.mSendBuffer := by
  induction packets generalizing s fuel clock with
  | nil =>
    obtain ⟨fuel, rfl⟩ := Nat.exists_eq_succ_of_ne_zero (Nat.ne_zero_of_lt hfuel)
    have hall : s.mRecvBuffer.content = rest := hcontent
    have hused : s.mRecvBuffer.used = rest.length := by rw [← length_content, hall]
    exact ⟨[], s, recvLoop_rest h (hall ▸ hrest) (by omega), h, rfl, rfl, hall, rfl⟩
  | cons first packets ih =>
    obtain ⟨fuel, rfl⟩ := Nat.exists_eq_succ_of_ne_zero (Nat.ne_zero_of_lt hfuel)
    rw [stream, List.flatMap_cons, List.append_assoc] at hcontent
    obtain ⟨replies, s', hloop, h', hsocket, hpackets, hcontent', hanswers⟩ :
        ∃ replies s', recvLoop debug fuel (fun i => clock (i + 1)) (s.answered (clock 0)) =
          some (replies, s') ∧ _ :=
      ih (h.answered (clock 0)) (content_answered h hcontent (clock 0)) (by simpa using hfuel)
    refine ⟨s.reply (clock 0) :: replies, s', ?_, h', hsocket, ?_, hcontent', rfl, ?_, hanswers⟩
    · rw [recvLoop_packet h hcontent, hloop]
      rfl
    · rw [List.map_cons, hpackets]
      exact congrArg (· :: packets) (packet_of_content hcontent)
    · have hheader : s.header = .ping := by
        rw [PingPacket.wire, List.append_assoc] at hcontent
        exact header_of_content hcontent
      rw [← hheader]
      rfl

/-! ### `DoRecv` and `DoSend` -/

/-- The buffer after `Reset`, if nothing was left in it. -/
def cleared (b : RingBuffer) : RingBuffer := if b.used = 0 then b.reset else b

lemma resetIfEmpty_eq {b : RingBuffer} (h : b.Valid) : resetIfEmpty b = some (cleared b) := by
  simp only [resetIfEmpty, cleared, h.getUsedSize, Option.bind_eq_bind, Option.bind_some,
    Option.pure_def, Nat.cast_eq_zero]

lemma valid_cleared {b : RingBuffer} (h : b.Valid) : (cleared b).Valid := by
  unfold cleared
  split
  · exact valid_reset b
  · exact h

@[simp] lemma content_cleared (b : RingBuffer) : (cleared b).content = b.content := by
  unfold cleared
  split
  · have hnil : b.content = [] := List.length_eq_zero_iff.1 (by rwa [length_content])
    rw [content_reset, hnil]
  · rfl

/-- The session after `recv` has put bytes in the room that it is offered. -/
def stored (s : Session) (bytes : List Int8) : Session :=
  { s with mRecvBuffer := s.mRecvBuffer.store bytes }

lemma Valid.stored (h : s.Valid) (bytes : List Int8) : (s.stored bytes).Valid :=
  ⟨h.recv.store bytes, h.send⟩

/-- `recv` has returned bytes: they go through the loop. -/
lemma doRecv_received (h : s.Valid) {bytes : List Int8} (hpos : 1 ≤ bytes.length)
    (hle : bytes.length ≤ s.mRecvBuffer.directWrite) :
    doRecv debug clock s (.received bytes) =
      (recvLoop debug ((s.stored bytes).mRecvBuffer.used + 1) clock (s.stored bytes)).bind fun r =>
        (resetIfEmpty r.2.mRecvBuffer).map fun mRecvBuffer =>
          ⟨true, [], r.1, { r.2 with mRecvBuffer := mRecvBuffer }⟩ := by
  obtain ⟨mBuffer, hcopy, hmove⟩ := Option.bind_eq_some_iff.1 (h.recv.step_moveWrite hle)
  simp only [doRecv, h.recv.getDirectWriteSize, Option.bind_eq_bind, Option.bind_some, Nat.cast_le,
    hpos, hle, and_self, if_true, hcopy, hmove, (h.recv.store bytes).getUsedSize,
    Int.toNat_natCast, Option.map_eq_bind]
  rfl

/-- What `recv` returns is bytes that fit in the room that it is offered. -/
lemma received_of_doRecv (h : s.Valid) {bytes : List Int8} {r : RecvResult}
    (hrecv : doRecv debug clock s (.received bytes) = some r) :
    1 ≤ bytes.length ∧ bytes.length ≤ s.mRecvBuffer.directWrite := by
  rw [doRecv, h.recv.getDirectWriteSize, Option.bind_eq_bind, Option.bind_some] at hrecv
  obtain ⟨hlen, -⟩ := Option.ite_none_right_eq_some.1 hrecv
  exact ⟨hlen.1, by exact_mod_cast hlen.2⟩

/-- The bytes that `recv` has returned make up, with those in the buffer, what the loop answers. -/
def Completes (s : Session) : RecvOutcome → Prop
  | .received bytes =>
    let stored := s.mRecvBuffer.content ++ bytes
    sPACKET_HEADER_SIZE ≤ stored.length ∧
      (PacketHeader.ofChars (stored.take sPACKET_HEADER_SIZE)).mSize.toNat ≤ stored.length
  | .closed | .failed => False

instance (s : Session) : DecidablePred s.Completes
  | .received _ => inferInstanceAs (Decidable (_ ∧ _))
  | .closed | .failed => inferInstanceAs (Decidable False)

lemma hasPacket_stored_iff (h : s.Valid) {bytes : List Int8}
    (hle : bytes.length ≤ s.mRecvBuffer.directWrite) :
    (s.stored bytes).HasPacket ↔ s.Completes (.received bytes) := by
  have hfree := h.recv.used_add_directWrite_lt
  have hcontent : (s.stored bytes).mRecvBuffer.content = s.mRecvBuffer.content ++ bytes := by
    change (s.mRecvBuffer.store bytes).content = _
    rw [h.recv.content_store (by omega), h.recv.stored_of_le hle]
  rw [HasPacket, Session.header, ← length_content, hcontent]
  rfl

/-- Everything that `DoRecv` can do. -/
inductive RecvMoves (s : Session) : RecvOutcome → RecvResult → Prop
  | closed : RecvMoves s .closed ⟨false, [s.mSocket], [], s⟩
  | failed : RecvMoves s .failed ⟨false, [s.mSocket], [], s⟩
  | received {bytes : List Int8} {replies : List Reply} {s' : Session} (hs' : s'.Valid)
      (hsocket : s'.mSocket = s.mSocket)
      (hused : s'.mSendBuffer.used = 0 ↔
        s.mSendBuffer.used = 0 ∧ ¬ s.Completes (.received bytes)) :
    RecvMoves s (.received bytes) ⟨true, [], replies, s'⟩

theorem recvMoves_of_doRecv (h : s.Valid) {outcome : RecvOutcome} {r : RecvResult}
    (hrecv : doRecv debug clock s outcome = some r) : s.RecvMoves outcome r := by
  cases outcome with
  | closed => exact Option.some.inj hrecv ▸ .closed
  | failed => exact Option.some.inj hrecv ▸ .failed
  | received bytes =>
    obtain ⟨hpos, hle⟩ := received_of_doRecv h hrecv
    rw [doRecv_received h hpos hle] at hrecv
    obtain ⟨r', hloop, hrecv⟩ := Option.bind_eq_some_iff.1 hrecv
    obtain ⟨hvalid, hsocket, -⟩ := recvLoop_kept (h.stored bytes) hloop
    have hused := recvLoop_used_eq_zero_iff (h.stored bytes) hloop
    rw [hasPacket_stored_iff h hle] at hused
    rw [resetIfEmpty_eq hvalid.recv, Option.map_some] at hrecv
    exact Option.some.inj hrecv ▸ .received ⟨valid_cleared hvalid.recv, hvalid.send⟩ hsocket hused

/-- Everything that `DoSend` can do. -/
inductive SendMoves (s : Session) : SendOutcome → SendResult → Prop
  | empty {outcome : SendOutcome} (hused : s.mSendBuffer.used = 0) :
    SendMoves s outcome ⟨false, [], [], s⟩
  | failed (hused : s.mSendBuffer.used ≠ 0) : SendMoves s .failed ⟨false, [s.mSocket], [], s⟩
  | nothing (hused : s.mSendBuffer.used ≠ 0) : SendMoves s (.sent 0) ⟨false, [], [], s⟩
  | sent (hused : s.mSendBuffer.used ≠ 0) {size : ℕ} (hpos : size ≠ 0)
      (hle : size ≤ s.mSendBuffer.directRead) :
    SendMoves s (.sent size) ⟨true, [], s.mSendBuffer.content.take size,
      { s with mSendBuffer := cleared (s.mSendBuffer.advanceFront size) }⟩

lemma doSend_eq (h : s.Valid) (outcome : SendOutcome) :
    doSend s outcome =
      if s.mSendBuffer.used = 0 then some ⟨false, [], [], s⟩
      else match outcome with
        | .failed => some ⟨false, [s.mSocket], [], s⟩
        | .sent size =>
          if size ≤ s.mSendBuffer.directRead then
            if size = 0 then some ⟨false, [], [], s⟩
            else some ⟨true, [], s.mSendBuffer.content.take size,
              { s with mSendBuffer := cleared (s.mSendBuffer.advanceFront size) }⟩
          else none := by
  simp only [doSend, h.send.getUsedSize, h.send.getDirectReadSize, Option.bind_eq_bind,
    Option.bind_some, Nat.cast_eq_zero, Nat.cast_le, Option.pure_def]
  split
  · rfl
  · cases outcome with
    | failed => rfl
    | sent size =>
      by_cases hle : size ≤ s.mSendBuffer.directRead
      · have hmove := h.send.moveReadOffset (hle.trans h.send.directRead_le)
        simp only [hle, if_true, h.send.block hle, hmove, Option.bind_some,
          resetIfEmpty_eq (h.send.advanceFront size)]
      · simp only [hle, if_false]

/-- `DoSend` returns whenever `send` takes no more than it is offered. -/
lemma exists_doSend (h : s.Valid) {outcome : SendOutcome}
    (hle : ∀ size, outcome = .sent size → size ≤ s.mSendBuffer.directRead) :
    ∃ r, doSend s outcome = some r := by
  rw [doSend_eq h]
  split
  · exact ⟨_, rfl⟩
  · cases outcome with
    | failed => exact ⟨_, rfl⟩
    | sent size =>
      simp only [if_pos (hle size rfl)]
      split
      · exact ⟨_, rfl⟩
      · exact ⟨_, rfl⟩

theorem sendMoves_of_doSend (h : s.Valid) {outcome : SendOutcome} {r : SendResult}
    (hsend : doSend s outcome = some r) : s.SendMoves outcome r := by
  rw [doSend_eq h] at hsend
  split at hsend
  · exact Option.some.inj hsend ▸ .empty ‹_›
  · cases outcome with
    | failed => exact Option.some.inj hsend ▸ .failed ‹_›
    | sent size =>
      obtain ⟨hle, hsend⟩ := Option.ite_none_right_eq_some.1 hsend
      split at hsend
      · subst size
        exact Option.some.inj hsend ▸ .nothing ‹_›
      · exact Option.some.inj hsend ▸ .sent ‹_› ‹_› hle

end Session

end Test

end CoreServer
