import CoreServer.LockedPool
import CoreServer.SessionLife

/-!
# The server with all its mutexes

`ServerRun` takes every locked section of a running server as one step: those of the pool, the one
of `SessionGroup::AllocSession`, and those of `Session::Send` and `Session::DoSend` on `mPackets`.
Here the pool is the machine of `LockedPool`, and the other sections are what the code has, too: the
guard takes the mutex, the container is accessed, and the guard gives the mutex back, with any steps
of the other threads in between.  `emplace_back` and `swap` read the vector first and then write it.

The machine refines `ServerRun`, so what holds of its runs holds with the mutexes, too.  No thread
holds two of them at a time, so none waits for another one for good.
-/

namespace CoreServer

/-- Where a worker stands in `AllocSession`. -/
inductive AllocPC where
  /-- Before the guard takes `mStackMutex`. -/
  | lock
  /-- Before `mSessionIndexPool.empty()`. -/
  | empty
  /-- Before `mSessionIndexPool.top()`. -/
  | top
  /-- Before `mSessionIndexPool.pop()`. -/
  | pop (index : ℤ)
  /-- Before the guard gives `mStackMutex` back and `AllocSession` returns `index`. -/
  | unlock (index : ℤ)
deriving DecidableEq, Repr

/-- The descriptor for which a worker is going to call `AllocSession`. -/
def JobPC.allocates : JobPC → Option SocketFD
  | accept (.alloc clientFD) => some clientFD
  | _ => Option.none

/-- Where a worker stands in the job that it runs: outside of `AllocSession`, or in it. -/
inductive LockedJobPC where
  | job (pc : JobPC) (h : pc.allocates = none)
  | alloc (clientFD : SocketFD) (pc : AllocPC)
deriving DecidableEq

/-- A section on `mPackets`. -/
inductive PacketSection where
  /-- In `Send`, `mPackets.emplace_back(packet)`. -/
  | emplaceBack (packet : IoVec)
  /-- In `DoSend`, `sendPackets.swap(mPackets)`. -/
  | swap
deriving DecidableEq, Repr

/-- Where a thread stands in a section on `mPackets`. -/
inductive PacketPC where
  /-- Before the guard takes `mPacketMutex`. -/
  | lock
  /-- Before the vector is read. -/
  | read
  /-- Before the vector is written, which has held `packets`. -/
  | write (packets : List IoVec)
  /-- Before the guard gives `mPacketMutex` back. -/
  | unlock (packets : List IoVec)
deriving DecidableEq, Repr

/-- The session and the section that a thread is going to begin. -/
def SendPC.locks : SendPC → Option (ℤ × PacketSection)
  | push slot packet => some (slot, .emplaceBack packet)
  | doSend slot .swap => some (slot, .swap)
  | _ => none

/-- Where a thread that sends stands: outside of the sections on `mPackets`, or in one. -/
inductive LockedSendPC where
  | send (pc : SendPC) (h : pc.locks = none)
  | locked (slot : ℤ) (sec : PacketSection) (pc : PacketPC)
deriving DecidableEq

namespace LockedJobPC

/-- The place `pc`, with `AllocSession` at its beginning. -/
def enter (pc : JobPC) : LockedJobPC :=
  match h : pc.allocates with
  | none => .job pc h
  | some clientFD => .alloc clientFD .lock

/-- `AllocSession` is done from `pop` on, or from `empty` on where the stack is empty. -/
def atomic : LockedJobPC → JobPC
  | job pc _ => pc
  | alloc clientFD (.unlock index) => .accept (.number clientFD index)
  | alloc clientFD _ => .accept (.alloc clientFD)

/-- The worker stands between `Lock` and `Unlock` of the `mStackMutex` of the group. -/
def inside : LockedJobPC → Bool
  | alloc _ .lock => false
  | alloc _ _ => true
  | job _ _ => false

/-- What a worker in `AllocSession` has seen of the stack is so. -/
def Sees (indices : List ℤ) : LockedJobPC → Prop
  | alloc _ .top => indices ≠ []
  | alloc _ (.pop index) => indices.head? = some index
  | _ => True

end LockedJobPC

namespace PacketSection

/-- Where a thread stands that is going to begin the section. -/
def begins (slot : ℤ) : PacketSection → SendPC
  | emplaceBack packet => .push slot packet
  | swap => .doSend slot .swap

/-- What the section writes to a vector that has held `packets`. -/
def writes : PacketSection → List IoVec → List IoVec
  | emplaceBack packet, packets => packets ++ [packet]
  | swap, _ => []

/-- Where a thread goes on behind the section. -/
def ends (slot : ℤ) : PacketSection → List IoVec → SendPC
  | emplaceBack _, _ => .testAndSet slot
  | swap, packets => .doSend slot (if packets = [] then .clear else .checkFD packets)

lemma ends_ne_begins (sec : PacketSection) (slot : ℤ) (packets : List IoVec)
    (sec' : PacketSection) (slot' : ℤ) : sec.ends slot packets ≠ sec'.begins slot' := by
  cases sec with
  | emplaceBack packet => cases sec' <;> simp [ends, begins]
  | swap =>
    cases sec' with
    | emplaceBack packet => simp [ends, begins]
    | swap =>
      simp only [ends, begins]
      split <;> simp

end PacketSection

namespace LockedSendPC

/-- The place `pc`, with a section on `mPackets` at its beginning. -/
def enter (pc : SendPC) : LockedSendPC :=
  match h : pc.locks with
  | none => .send pc h
  | some (slot, sec) => .locked slot sec .lock

/-- A section is done from the access on that writes the vector. -/
def atomic : LockedSendPC → SendPC
  | send pc _ => pc
  | locked slot sec (.unlock packets) => sec.ends slot packets
  | locked slot sec _ => sec.begins slot

/-- The thread stands between `Lock` and `Unlock` of the `mPacketMutex` of the session. -/
def inside (slot : ℤ) : LockedSendPC → Bool
  | locked _ _ .lock => false
  | locked slot' _ _ => slot' = slot
  | send _ _ => false

/-- What a thread in a section has seen of the vector is so. -/
def Sees (m : ServerMemory) : LockedSendPC → Prop
  | locked slot _ (.write packets) => (m.session slot).mPackets = packets
  | _ => True

end LockedSendPC

/-- The members of `ServerRun` with the mutexes of the pool, of the session group and of the
session in each slot. -/
structure LockedServer (n : ℕ) (κ : Type) where
  pool : LockedPool n Unit ServerJob
  memory : ServerMemory
  mStackMutex : Mutex (Fin n)
  mPacketMutex : ℤ → Mutex κ
  job : Fin n → LockedJobPC
  starting : StartPC
  sender : κ → LockedSendPC
  added : List SessionID

/-- A step: of the pool, of the job of a worker, of `Start`, a call of `Server::Send` or of
`Disconnect`, or a step of a thread in one of these calls. -/
inductive LockedRunStep (n : ℕ) (κ : Type) where
  | pool (a : LockedPool.Step n Unit ServerJob)
  | job (worker : Fin n) (input : JobInput)
  | start (ok : Bool)
  | send (sender : κ) (sessionID : SessionID) (packet : IoVec)
  | disconnect (sender : κ) (slot : ℤ)
  | sender (sender : κ) (input : SendInput)
deriving DecidableEq, Repr

/-- The steps of the pool that the code of the pool takes by itself. -/
def LockedPool.Step.internal {n : ℕ} {κ J : Type} : LockedPool.Step n κ J → Bool
  | .worker _ | .idleReadFails _ | .addJob _ => true
  | _ => false

namespace LockedServer

variable {n : ℕ} {κ : Type}

/-- A session has been constructed in the slot `i`. -/
def Added (s : LockedServer n κ) (i : ℤ) : Prop := ∃ id ∈ s.added, getIndex id = i

instance (s : LockedServer n κ) (i : ℤ) : Decidable (s.Added i) :=
  decidable_of_iff (i ∈ s.added.map getIndex) List.mem_map

/-- The worker `w` goes on at `pc` in its job. -/
def gotoJob (s : LockedServer n κ) (w : Fin n) (pc : LockedJobPC) : LockedServer n κ :=
  { s with job := Function.update s.job w pc }

/-- A worker that has popped a job starts to execute it. -/
def begin (job : Fin n → LockedJobPC) (w : Fin n) :
    LockedPool.WorkerPC ServerJob → Fin n → LockedJobPC
  | .execute j => Function.update job w (.enter j.execute)
  | _ => job

/-- The mutexes of the sessions behind a step of a job that stands at `pc`: the constructor of a
`Session` constructs its own. -/
def constructs (mutex : ℤ → Mutex κ) : JobPC → ℤ → Mutex κ
  | .accept (.construct _ index _) => Function.update mutex index Mutex.construct
  | _ => mutex

/-- The step of the pool that the step of a job takes with it. -/
def next (s : LockedServer n κ) (w : Fin n) : Next → Option (LockedServer n κ)
  | .goto pc => some (s.gotoJob w (.enter pc))
  | .addJob job pc => do
    let pool ← s.pool.step (.callAddJob (.inl w) job)
    return { s with pool := pool }.gotoJob w (.enter pc)
  | .executeReturns result pc => do
    let pool ← s.pool.step (.executeReturns w result)
    return { s with pool := pool }.gotoJob w (.enter (if result then pc else .none))
  | .completeReturns => do
    let pool ← s.pool.step (.completeReturns w)
    return { s with pool := pool }.gotoJob w (.enter .none)

/-- A worker goes on in `AllocSession`. -/
def stepAlloc (s : LockedServer n κ) (w : Fin n) (clientFD : SocketFD) :
    AllocPC → Option (LockedServer n κ)
  | .lock => do
    let m ← s.mStackMutex.lock w
    return { s with mStackMutex := m }.gotoJob w (.alloc clientFD .empty)
  | .empty =>
    some (s.gotoJob w (.alloc clientFD
      (if s.memory.group.mSessionIndexPool.isEmpty then .unlock sINVALID_ID else .top)))
  -- `top` and `pop` of an empty stack have no defined behaviour
  | .top =>
    match s.memory.group.mSessionIndexPool with
    | [] => none
    | index :: _ => some (s.gotoJob w (.alloc clientFD (.pop index)))
  | .pop index =>
    match s.memory.group.mSessionIndexPool with
    | [] => none
    | _ :: indices =>
      some ({ s with memory := { s.memory with group := { s.memory.group with
        mSessionIndexPool := indices } } }.gotoJob w (.alloc clientFD (.unlock index)))
  | .unlock index =>
    some ({ s with mStackMutex := s.mStackMutex.unlock }.gotoJob w
      (.enter (.accept (.number clientFD index))))

section Machine

variable [DecidableEq κ]

/-- The thread `k` goes on at `pc`. -/
def gotoSender (s : LockedServer n κ) (k : κ) (pc : LockedSendPC) : LockedServer n κ :=
  { s with sender := Function.update s.sender k pc }

/-- A thread goes on in a section on the `mPackets` of the session in a slot. -/
def stepPackets (s : LockedServer n κ) (k : κ) (slot : ℤ) (sec : PacketSection) :
    PacketPC → Option (LockedServer n κ)
  | .lock => do
    let m ← (s.mPacketMutex slot).lock k
    return { s with mPacketMutex := Function.update s.mPacketMutex slot m }.gotoSender k
      (.locked slot sec .read)
  | .read => do
    let session ← s.memory.group.slot slot
    return s.gotoSender k (.locked slot sec (.write session.mPackets))
  | .write packets => do
    let memory ← s.memory.modifySession slot fun session =>
      { session with mPackets := sec.writes packets }
    return { s with memory := memory }.gotoSender k (.locked slot sec (.unlock packets))
  | .unlock packets =>
    some ({ s with mPacketMutex :=
      Function.update s.mPacketMutex slot (s.mPacketMutex slot).unlock }.gotoSender k
        (.enter (sec.ends slot packets)))

/-- One step. -/
def step (s : LockedServer n κ) : LockedRunStep n κ → Option (LockedServer n κ)
  | .pool a =>
    if a.internal then do
      let pool ← s.pool.step a
      return { s with
        pool := pool
        job := match a with
          | .worker w => begin s.job w (pool.worker w)
          | _ => s.job }
    else none
  | .job w input =>
    if s.pool.adding (.inl w) = none then
      match s.job w with
      | .job pc _ => do
        let (memory, next) ← s.memory.jobStep pc input
        { s with
          memory := memory
          mPacketMutex := constructs s.mPacketMutex pc
          added := s.added ++ pc.adds }.next w next
      | .alloc clientFD pc => if input = .run then s.stepAlloc w clientFD pc else none
    else none
  | .start ok =>
    match s.starting with
    | .addJob => do
      let pool ← s.pool.step (.callAddJob (.inr ()) .poll)
      return { s with pool := pool, starting := .epollAdd }
    | .epollAdd =>
      if s.pool.adding (.inr ()) = none then do
        let memory ← s.memory.epollAdd s.memory.mListenFD .accept ok
        return { s with memory := memory, starting := .returned }
      else none
    | .returned => none
  | .send k sessionID packet =>
    if s.sender k = .enter .idle ∧ sessionID ∈ s.added then
      some (s.gotoSender k (.enter (.getSession sessionID packet)))
    else none
  | .disconnect k slot =>
    if s.sender k = .enter .idle ∧ s.Added slot then
      some (s.gotoSender k (.enter (.disconnect slot .swap)))
    else none
  | .sender k input =>
    match s.sender k with
    | .send pc _ => do
      let (memory, pc) ← s.memory.sendStep pc input
      return { s with memory := memory }.gotoSender k (.enter pc)
    | .locked slot sec pc => if input = .run then s.stepPackets k slot sec pc else none

/-- The machine of a server with all its mutexes. -/
def machine (n : ℕ) (κ : Type) [DecidableEq κ] :
    StepMachine (LockedServer n κ) (LockedRunStep n κ) := ⟨step⟩

end Machine

/-- The server in `Start`, and no thread that sends. -/
def start (n : ℕ) (κ : Type) (memory : ℕ → Session) (maxSessions : ℕ) (uniqueNumber : BitVec 64)
    (listenFD : SocketFD) : LockedServer n κ where
  pool := LockedPool.start n Unit ServerJob
  memory := (ServerRun.start n κ memory maxSessions uniqueNumber listenFD).memory
  mStackMutex := Mutex.construct
  mPacketMutex _ := Mutex.construct
  job _ := .enter .none
  starting := .addJob
  sender _ := .enter .idle
  added := []

/-! ## What a state stands for -/

/-- Where a worker stands for the pool with one-step sections: it has begun its job as soon as the
queue has given it away. -/
def atomicJob (s : LockedServer n κ) (w : Fin n) : JobPC :=
  match s.pool.worker w with
  | .popUnlock (some j) => j.execute
  | _ => (s.job w).atomic

/-- The server whose sections are one step each. -/
def atomic (s : LockedServer n κ) : ServerRun n κ where
  server :=
    { pool := s.pool.atomic
      memory := s.memory
      job := s.atomicJob
      sender := fun _ => none
      starting := s.starting }
  sender k := (s.sender k).atomic
  added := s.added

/-- The steps with one-step sections that a step of a job is seen as. -/
def seeJob (s : LockedServer n κ) (w : Fin n) (input : JobInput) : List (RunStep n κ) :=
  match s.job w with
  | .job _ _ => [.job w input]
  | .alloc _ .empty => if s.memory.group.mSessionIndexPool.isEmpty then [.job w input] else []
  | .alloc _ (.pop _) => [.job w input]
  | .alloc _ _ => []

/-- The same for a step of a thread that sends. -/
def seeSender (s : LockedServer n κ) (k : κ) (input : SendInput) : List (RunStep n κ) :=
  match s.sender k with
  | .send _ _ => [.sender k input]
  | .locked _ _ (.write _) => [.sender k input]
  | .locked _ _ _ => []

/-- The steps with one-step sections that a step is seen as. -/
def see (s : LockedServer n κ) : LockedRunStep n κ → List (RunStep n κ)
  | .pool a => (s.pool.see a).map .pool
  | .job w input => s.seeJob w input
  | .start ok => [.start ok]
  | .send k sessionID packet => [.send k sessionID packet]
  | .disconnect k slot => [.disconnect k slot]
  | .sender k input => s.seeSender k input

end LockedServer

end CoreServer
