import CoreServer.StressTest.Framing

/-!
# The answers of the stress test

An answer is written to `mSendBuffer` by two `Write`s, whose results are ignored.  If the first one
is accepted and the second one is not, a header without its packet is sent; and a `Write` that is
split at the end of the array loses a byte.  The file shows for which buffers an answer is added as
a whole or not at all (`Reply.whole_iff`), and that what is sent is whole packets exactly as long as
all answers are of this kind (`session_repliesWhole_iff`).
-/

namespace CoreServer

namespace Test

open CircularBuffer

/-- The answer has been added to the buffer completely, or not at all. -/
def Reply.Whole (r : Reply) : Prop :=
  r.after.content = r.before.content ++ r.answer.wire ∨ r.after.content = r.before.content

/-- There is room for the header and the packet and both `Write`s are harmless, or there is no room
for the header. -/
def Reply.Fits (r : Reply) : Prop :=
  (r.before.used + sPING_PACKET_SIZE < BUFFER_SIZE ∧
      r.before.WriteHarmless PacketHeader.ping.toChars ∧
      (queue r.before PacketHeader.ping.toChars).WriteHarmless r.answer.toChars) ∨
    BUFFER_SIZE ≤ r.before.used + sPACKET_HEADER_SIZE

/-- The answer is what the `Write`s of a header and of a packet make of the buffer. -/
structure Reply.Written (r : Reply) : Prop where
  valid : r.before.Valid
  after_eq : r.after = queue (queue r.before PacketHeader.ping.toChars) r.answer.toChars

namespace SessionRun

/-- Every answer has been added completely or not at all. -/
def RepliesWhole (p : SessionRun) : Prop := ∀ r ∈ p.replies, r.Whole

/-- The buffer of every answer has had room for it, or has been full. -/
def RepliesFit (p : SessionRun) : Prop := ∀ r ∈ p.replies, r.Fits

/-- What has been sent is the beginning of whole packets. -/
def SentWhole (p : SessionRun) : Prop := ∃ answers, p.sent <+: stream answers

end SessionRun

/-! ## One answer -/

namespace Reply

variable {r : Reply}

/-- A full buffer stays as it is. -/
lemma Written.after_of_full (h : r.Written)
    (hfull : BUFFER_SIZE ≤ r.before.used + sPACKET_HEADER_SIZE) : r.after = r.before := by
  have hsizes : sPACKET_HEADER_SIZE ≤ sizeofPingPacket := by decide
  have hheader : queue r.before PacketHeader.ping.toChars = r.before :=
    queue_of_ge (by rwa [PacketHeader.length_toChars])
  rw [h.after_eq, hheader]
  exact queue_of_ge (by rw [PingPacket.length_toChars]; omega)

/-- If there is room for the header only, it is added without its packet. -/
lemma Written.used_of_partial (h : r.Written)
    (hheader : r.before.used + sPACKET_HEADER_SIZE < BUFFER_SIZE)
    (hpacket : BUFFER_SIZE ≤ r.before.used + sPING_PACKET_SIZE) :
    r.after.used = r.before.used + sPACKET_HEADER_SIZE := by
  have hsizes : sPING_PACKET_SIZE = sPACKET_HEADER_SIZE + sizeofPingPacket := rfl
  have hused : (queue r.before PacketHeader.ping.toChars).used =
      r.before.used + sPACKET_HEADER_SIZE := by
    have hroom := PacketHeader.length_toChars PacketHeader.ping ▸ hheader
    rw [used_queue h.valid hroom, PacketHeader.length_toChars]
  rw [h.after_eq, queue_of_ge (by rw [hused, PingPacket.length_toChars]; omega), hused]

/-- If there is room for a packet, there is room for its header. -/
lemma header_room (hroom : r.before.used + sPING_PACKET_SIZE < BUFFER_SIZE) :
    r.before.used + PacketHeader.ping.toChars.length < BUFFER_SIZE := by
  have hsizes : sPING_PACKET_SIZE = sPACKET_HEADER_SIZE + sizeofPingPacket := rfl
  rw [PacketHeader.length_toChars]
  omega

/-- Then there is room for the rest behind the header, too. -/
lemma Written.packet_room (h : r.Written)
    (hroom : r.before.used + sPING_PACKET_SIZE < BUFFER_SIZE) :
    (queue r.before PacketHeader.ping.toChars).used + r.answer.toChars.length < BUFFER_SIZE := by
  have hsizes : sPING_PACKET_SIZE = sPACKET_HEADER_SIZE + sizeofPingPacket := rfl
  rw [used_queue h.valid (header_room hroom), PacketHeader.length_toChars,
    PingPacket.length_toChars]
  omega

/-- The bytes that are added if there is room for all of them. -/
lemma Written.content_of_room (h : r.Written)
    (hroom : r.before.used + sPING_PACKET_SIZE < BUFFER_SIZE) :
    r.after.content = r.before.content ++ (r.before.stored PacketHeader.ping.toChars ++
      (queue r.before PacketHeader.ping.toChars).stored r.answer.toChars) := by
  rw [h.after_eq, content_queue (valid_queue h.valid _) (h.packet_room hroom),
    content_queue h.valid (header_room hroom), List.append_assoc]

/-- If there is room for all of it, an answer is whole if both `Write`s are harmless. -/
lemma Written.whole_iff_of_room (h : r.Written)
    (hroom : r.before.used + sPING_PACKET_SIZE < BUFFER_SIZE) :
    r.after.content = r.before.content ++ r.answer.wire ↔
      r.before.WriteHarmless PacketHeader.ping.toChars ∧
        (queue r.before PacketHeader.ping.toChars).WriteHarmless r.answer.toChars := by
  rw [h.content_of_room hroom, List.append_cancel_left_eq, PingPacket.wire,
    ← h.valid.stored_eq_iff (header_room hroom),
    ← (valid_queue h.valid _).stored_eq_iff (h.packet_room hroom)]
  constructor
  · exact fun heq => List.append_inj heq (length_stored _)
  · rintro ⟨hheader, hpacket⟩
    rw [hheader, hpacket]

/-- An answer that fits in the direct size is whole. -/
lemma Written.whole_of_le (h : r.Written) (hle : sPING_PACKET_SIZE ≤ r.before.directWrite) :
    r.after.content = r.before.content ++ r.answer.wire := by
  have hsizes : sPING_PACKET_SIZE = sPACKET_HEADER_SIZE + sizeofPingPacket := rfl
  have hfree := h.valid.used_add_directWrite_lt
  have hroom : r.before.used + sPING_PACKET_SIZE < BUFFER_SIZE := by omega
  have hheader : PacketHeader.ping.toChars.length ≤ r.before.directWrite := by
    rw [PacketHeader.length_toChars]
    omega
  have hstore := h.valid.directWrite_store hheader
  refine (h.whole_iff_of_room hroom).2 ⟨Or.inl hheader, Or.inl ?_⟩
  rw [queue_of_lt (header_room hroom), PingPacket.length_toChars]
  rw [PacketHeader.length_toChars] at hstore
  omega

/-- **When an answer is added completely or not at all.** -/
theorem Written.whole_iff (h : r.Written) : r.Whole ↔ r.Fits := by
  have hsizes : sPING_PACKET_SIZE = sPACKET_HEADER_SIZE + sizeofPingPacket := rfl
  have hpos : 0 < sPACKET_HEADER_SIZE ∧ 0 < sizeofPingPacket := by decide
  -- what is whole has the length of a packet or adds nothing
  have hlength : r.Whole → r.after.used = r.before.used + sPING_PACKET_SIZE ∨
      r.after.used = r.before.used := by
    refine Or.imp (fun hwhole => ?_) fun hsame => ?_
    · rw [← length_content, hwhole, List.length_append, PingPacket.length_wire, length_content]
    · rw [← length_content, hsame, length_content]
  rcases Nat.lt_or_ge (r.before.used + sPACKET_HEADER_SIZE) BUFFER_SIZE with hheader | hfull
  · rcases Nat.lt_or_ge (r.before.used + sPING_PACKET_SIZE) BUFFER_SIZE with hroom | hpartial
    · rw [Fits, or_iff_left (by omega), and_iff_right hroom, ← h.whole_iff_of_room hroom, Whole,
        or_iff_left]
      intro hsame
      have hlen := congrArg List.length (h.content_of_room hroom)
      rw [hsame, List.length_append, List.length_append, length_stored, length_stored,
        PacketHeader.length_toChars, PingPacket.length_toChars] at hlen
      omega
    · have hused := h.used_of_partial hheader hpartial
      constructor
      · intro hwhole
        rcases hlength hwhole with hlen | hlen <;> omega
      · rintro (⟨hroom, -⟩ | hfull) <;> omega
  · exact iff_of_true (Or.inr (by rw [h.after_of_full hfull])) (Or.inr hfull)

end Reply

/-! ## The answers of one `DoRecv` -/

namespace Session

/-- Each answer is written to what the one before has left. -/
lemma Answers.written {b b' : RingBuffer} {replies : List Reply} (h : Answers b replies b')
    (hb : b.Valid) : ∀ r ∈ replies, r.Written := by
  induction replies generalizing b with
  | nil => nofun
  | cons first replies ih =>
    obtain ⟨rfl, hafter, hrest⟩ := h
    intro r hr
    rcases List.mem_cons.1 hr with rfl | hr
    · exact ⟨hb, hafter⟩
    · exact ih hrest (hafter ▸ valid_queue (valid_queue hb _) _) r hr

/-- Answers that fit add whole packets. -/
lemma Answers.content {b b' : RingBuffer} {replies : List Reply} (h : Answers b replies b')
    (hb : b.Valid) (hfit : ∀ r ∈ replies, r.Fits) :
    ∃ answers, b'.content = b.content ++ stream answers := by
  induction replies generalizing b with
  | nil =>
    obtain rfl : b' = b := h
    exact ⟨[], (List.append_nil _).symm⟩
  | cons first replies ih =>
    have hwritten := h.written hb first List.mem_cons_self
    obtain ⟨rfl, hafter, hrest⟩ := h
    obtain ⟨answers, hcontent⟩ := ih hrest (hafter ▸ valid_queue (valid_queue hb _) _)
      fun r hr => hfit r (List.mem_cons_of_mem _ hr)
    rcases hwritten.whole_iff.2 (hfit first List.mem_cons_self) with hwhole | hsame
    · refine ⟨first.answer :: answers, ?_⟩
      rw [hcontent, hwhole, List.append_assoc]
      rfl
    · exact ⟨answers, by rw [hcontent, hsame]⟩

end Session

namespace SessionRun

variable {packets : List PingPacket} {p p' : SessionRun} {debug : Bool}

/-! ## Every run -/

/-- The invariant: as long as all answers fit, what has been sent and what is in the buffer are
whole packets. -/
structure Answered (packets : List PingPacket) (p : SessionRun) : Prop extends p.Inv packets where
  written : ∀ r ∈ p.replies, r.Written
  whole : p.RepliesFit → ∃ answers, p.sent ++ p.session.mSendBuffer.content = stream answers

/-- The answers are whole, and what is sent is whole packets, exactly if the answers fit. -/
lemma Answered.whole_iff (hp : p.Answered packets) :
    p.RepliesWhole ∧ p.SentWhole ↔ p.RepliesFit := by
  have hwhole : p.RepliesWhole ↔ p.RepliesFit :=
    forall₂_congr fun r hr => (hp.written r hr).whole_iff
  rw [hwhole, and_iff_left_iff_imp]
  intro hfit
  obtain ⟨answers, hanswers⟩ := hp.whole hfit
  exact ⟨answers, hanswers ▸ List.prefix_append _ _⟩

/-- **One step keeps the invariant.** -/
theorem Answered.step (hp : p.Answered packets) {call : SessionCall}
    (hcall : p.Continues packets call) (h : p.step debug call = some p') : p'.Answered packets := by
  suffices hrest : (∀ r ∈ p'.replies, r.Written) ∧ (p'.RepliesFit →
      ∃ answers, p'.sent ++ p'.session.mSendBuffer.content = stream answers) from
    ⟨hp.toInv.step hcall h, hrest.1, hrest.2⟩
  cases hp.moves_of_step hcall h with
  | @received _ _ _ _ mSendBuffer _ _ _ _ _ hanswers =>
    refine ⟨fun r hr => ?_, fun hfit => ?_⟩
    · rcases List.mem_append.1 hr with hold | hnew
      · exact hp.written r hold
      · exact hanswers.written hp.valid.send r hnew
    · obtain ⟨answers, hwhole⟩ := hp.whole fun r hr => hfit r (List.mem_append_left _ hr)
      obtain ⟨answers', hcontent⟩ := hanswers.content hp.valid.send
        fun r hr => hfit r (List.mem_append_right _ hr)
      refine ⟨answers ++ answers', ?_⟩
      change p.sent ++ mSendBuffer.content = stream (answers ++ answers')
      rw [hcontent, ← List.append_assoc, hwhole, stream, stream, stream, List.flatMap_append]
  | closed | failed => exact ⟨hp.written, hp.whole⟩
  | send hmoves =>
    refine ⟨hp.written, fun hfit => ?_⟩
    obtain ⟨answers, hwhole⟩ := hp.whole hfit
    refine ⟨answers, ?_⟩
    cases hmoves with
    | empty | failed | nothing => simpa using hwhole
    | @sent hused size hpos hle =>
      -- the bytes go from the buffer to the peer
      change p.sent ++ p.session.mSendBuffer.content.take size ++ (Session.cleared _).content = _
      rw [Session.content_cleared, hp.valid.send.content_advanceFront
        (hle.trans hp.valid.send.directRead_le), List.append_assoc, List.take_append_drop, hwhole]

/-- A session that has been constructed has a whole packet to send. -/
lemma exists_start_answered (memory : Session) (clientFD : SOCKET) (tick : BitVec 64) :
    ∃ p, start memory clientFD tick = some p ∧ (∀ packets, p.Answered packets) ∧
      p.received = [] := by
  obtain ⟨p, hstart, hp, hreceived, hreplies, hsent, -, hsend⟩ :=
    exists_start memory clientFD tick
  refine ⟨p, hstart, fun packets => ⟨hp packets, ?_, fun _ => ⟨[⟨tick⟩], ?_⟩⟩, hreceived⟩
  · rw [hreplies]
    nofun
  · -- the constructor writes like an answer to an empty buffer
    have hreset := valid_reset memory.mSendBuffer
    have hwritten : Reply.Written ⟨⟨0⟩, ⟨tick⟩, memory.mSendBuffer.reset, p.session.mSendBuffer⟩ :=
      ⟨hreset, hsend⟩
    have hwhole := hwritten.whole_of_le (by rw [directWrite_reset]; decide)
    dsimp only at hwhole
    rw [hsent, hwhole, content_reset]
    simp [stream]

end SessionRun

open SessionRun

/-- **When the stress test sends whole packets.**  In every run of a session that receives a stream
of ping packets, in pieces of any length, and sends any number of bytes in between, all the answers
so far have been added completely or not at all, and what has been sent is the beginning of whole
packets, exactly if every answer has found room for all of it, in which both `Write`s are harmless,
or no room for its header. -/
theorem session_repliesWhole_iff (debug : Bool) (memory : Session) (clientFD : SOCKET)
    (tick : BitVec 64) {packets : List PingPacket} {calls : List SessionCall}
    (hcalls : calls.flatMap SessionCall.bytes <+: stream packets) :
    ∃ p, start memory clientFD tick = some p ∧
      (machine debug).Always (fun p => p.RepliesWhole ∧ p.SentWhole ↔ p.RepliesFit) p calls := by
  obtain ⟨p, hstart, hp, hreceived⟩ := exists_start_answered memory clientFD tick
  have hcontinues : (machine debug).Along (Continues packets) p calls :=
    along_continues (by rwa [hreceived, List.nil_append])
  exact ⟨p, hstart, StepMachine.always_of_along (fun _ _ _ hp hcall h => hp.step hcall h)
    (fun _ hp => hp.whole_iff) (hp packets) hcontinues⟩

/-- The answers to `cutStream` are whole. -/
theorem session_repliesWhole_cutStream :
    ∃ p, start Session.zeroMemory 3 0 = some p ∧
      (machine true).Always (fun p => p.RepliesWhole ∧ p.SentWhole ↔ p.RepliesFit) p cutStream :=
  session_repliesWhole_iff true Session.zeroMemory 3 0
    (by decide +kernel : cutStream.flatMap SessionCall.bytes <+: stream [⟨1⟩, ⟨2⟩])

/-- If there are eleven bytes more than whole packets in the buffer, all answers that fit are added:
the buffer is not full before there is room for a header only. -/
lemma Session.Answers.used_of_fits {b b' : RingBuffer} {replies : List Reply}
    (h : Session.Answers b replies b') (hb : b.Valid) (hused : b.used % 12 = 11)
    (hfit : ∀ r ∈ replies, r.Fits) : b'.Valid ∧ b'.used = b.used + replies.length * 12 := by
  have hN := BUFFER_SIZE_eq
  have hsizes : sPING_PACKET_SIZE = 12 ∧ sPACKET_HEADER_SIZE = 4 := ⟨rfl, rfl⟩
  induction replies generalizing b with
  | nil =>
    obtain rfl : b' = b := h
    exact ⟨hb, by simp⟩
  | cons first replies ih =>
    have hwritten := h.written hb first List.mem_cons_self
    obtain ⟨rfl, hafter, hrest⟩ := h
    have hlt := hb.used_lt
    have hroom : first.before.used + sPING_PACKET_SIZE < BUFFER_SIZE := by
      rcases hfit first List.mem_cons_self with ⟨hroom, -⟩ | hfull <;> omega
    have hlen := congrArg List.length (hwritten.content_of_room hroom)
    rw [List.length_append, List.length_append, length_stored, length_stored, length_content,
      length_content, PacketHeader.length_toChars, PingPacket.length_toChars] at hlen
    have hused' : first.after.used = first.before.used + 12 := hlen
    obtain ⟨hvalid, hend⟩ := ih hrest (hafter ▸ valid_queue (valid_queue hb _) _) (by omega)
      fun r hr => hfit r (List.mem_cons_of_mem _ hr)
    refine ⟨hvalid, ?_⟩
    rw [hend, List.length_cons]
    omega

/-- One byte is sent, and as many packets arrive at once as fit in the buffer: the last answer gets
no more than its header in. -/
theorem session_queues_header_only :
    ∃ p, start Session.zeroMemory 3 0 = some p ∧
      ¬ (machine true).Always (fun p => p.RepliesWhole ∧ p.SentWhole) p
        [.send (.sent 1), .recv (.received (stream (List.replicate 87381 ⟨0⟩))) fun _ => 0] := by
  have hN := BUFFER_SIZE_eq
  obtain ⟨p, hstart, hp, -⟩ := exists_start_answered Session.zeroMemory 3 0
  -- the run is not evaluated: the list of packets gets a name
  obtain ⟨packets, hpackets⟩ : ∃ packets : List PingPacket, packets = List.replicate 87381 ⟨0⟩ :=
    ⟨_, rfl⟩
  have hlen : packets.length = 87381 := by rw [hpackets, List.length_replicate]
  rw [← hpackets]
  obtain ⟨p₁, hsend, hreceived, hdw, hused⟩ : ∃ p₁, p.step true (.send (.sent 1)) = some p₁ ∧
      p₁.received = [] ∧ p₁.session.mRecvBuffer.directWrite = 1048575 ∧
      p₁.session.mSendBuffer.used = 11 := by
    obtain ⟨p', hstart', p₁, h⟩ : ∃ p ∈ start Session.zeroMemory 3 0,
        ∃ p₁ ∈ p.step true (.send (.sent 1)), p₁.received = [] ∧
          p₁.session.mRecvBuffer.directWrite = 1048575 ∧ p₁.session.mSendBuffer.used = 11 := by
      decide +kernel
    obtain rfl := Option.some.inj (hstart.symm.trans hstart')
    exact ⟨p₁, h⟩
  have hsends : p.Continues packets (.send (.sent 1)) := by
    simpa [Continues, SessionCall.bytes] using (hp packets).isPrefix
  have hp₁ : p₁.Answered packets := (hp packets).step hsends hsend
  have hbytes : p₁.received ++ stream packets <+: stream packets := by
    rw [hreceived, List.nil_append]
  have hlength : (stream packets).length = 1048572 := by
    rw [length_stream, hlen]
    rfl
  obtain ⟨replies, mRecvBuffer, mSendBuffer, hrecv, -, -, hreplies, -, hanswers⟩ :
      ∃ replies mRecvBuffer mSendBuffer,
        p₁.session.doRecv true (fun _ => 0) (.received (stream packets)) =
          some ⟨true, [], replies, ⟨_, mRecvBuffer, mSendBuffer⟩⟩ ∧ _ :=
    hp₁.doRecv hbytes (by omega) (by omega)
  have hcount : replies.length = 87381 := by
    have hmap := congrArg List.length hreplies
    rw [hreceived, List.nil_append, List.length_map, List.length_drop, List.length_take, hlen,
      whole, whole, hlength] at hmap
    exact hmap
  have hstep : p₁.step true (.recv (.received (stream packets)) fun _ => 0) = some _ :=
    Option.bind_eq_some_iff.2 ⟨_, hrecv, rfl⟩
  refine ⟨p, hstart, fun halways => ?_⟩
  obtain ⟨hwhole, -⟩ := halways _ _ (List.prefix_refl _)
    ((StepMachine.exec_cons_of_step hsend).trans (StepMachine.exec_cons_of_step hstep))
  -- if all the answers were whole, they would not fit in the buffer
  have hfit : ∀ r ∈ replies, r.Fits := fun r hr =>
    (hanswers.written hp₁.valid.send r hr).whole_iff.1 (hwhole r (List.mem_append_right _ hr))
  obtain ⟨hvalid, hend⟩ := hanswers.used_of_fits hp₁.valid.send (by omega) hfit
  have hlt := hvalid.used_lt
  omega

end Test

end CoreServer
