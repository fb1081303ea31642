import CoreServer.DisconnectThreads

/-!
# The server with threads that delete sessions

A running server in which any number of threads call `Server::DeleteSession` (`Server.cpp`,
`Network/SessionGroup.cpp`) besides all that `ServerRun` does.  Such a call accesses what other
threads can see twice: it compares the ID in the slot, and it pushes the index in `FreeSession`.
A slot can then be used again, while other threads still have a pointer to it.
-/

namespace CoreServer

/-- Where a thread stands in `Server::DeleteSession`. -/
inductive DeletePC where
  | idle
  /-- Before `session->GetSessionID() != sessionID`. -/
  | check (sessionID : SessionID)
  /-- Before `FreeSession`. -/
  | free (index : ℤ)
deriving DecidableEq, Repr

/-- The server with the threads that send, and where the threads that delete stand. -/
structure DeleteRun (n : ℕ) (κ δ : Type) where
  run : ServerRun n κ
  deleter : δ → DeletePC

/-- A step of the server, a call of `DeleteSession`, or a step of a thread in such a call. -/
inductive DeleteStep (n : ℕ) (κ δ : Type) where
  | run (a : RunStep n κ)
  | delete (deleter : δ) (sessionID : SessionID)
  | deleter (deleter : δ)
deriving DecidableEq, Repr

/-- `FreeSession`. -/
def ServerRun.freeSession {n : ℕ} {κ : Type} (s : ServerRun n κ) (index : ℤ) : ServerRun n κ :=
  { s with server := { s.server with
    memory := { s.memory with group := s.memory.group.freeSession index } } }

namespace DeleteRun

variable {n : ℕ} {κ δ : Type} [DecidableEq κ] [DecidableEq δ]

/-- One step. -/
def step (s : DeleteRun n κ δ) : DeleteStep n κ δ → Option (DeleteRun n κ δ)
  | .run a => do
    let run ← s.run.step a
    return { s with run := run }
  | .delete d sessionID =>
    if s.deleter d = .idle then
      some { s with deleter := Function.update s.deleter d (.check sessionID) }
    else none
  | .deleter d =>
    match s.deleter d with
    | .idle => none
    | .check sessionID => do
      let session ← s.run.memory.group.slot (getIndex sessionID)
      return ⟨s.run, Function.update s.deleter d
        (if session.mSessionID ≠ sessionID then .idle else .free (getIndex sessionID))⟩
    | .free index =>
      some ⟨s.run.freeSession index, Function.update s.deleter d .idle⟩

/-- The machine of a server with threads that send and threads that delete. -/
def machine (n : ℕ) (κ δ : Type) [DecidableEq κ] [DecidableEq δ] :
    StepMachine (DeleteRun n κ δ) (DeleteStep n κ δ) := ⟨step⟩

omit [DecidableEq κ] [DecidableEq δ] in
/-- The server in `Start`, and no thread that sends or deletes. -/
def start (n : ℕ) (κ δ : Type) (memory : ℕ → Session) (maxSessions : ℕ)
    (uniqueNumber : BitVec 64) (listenFD : SocketFD) : DeleteRun n κ δ where
  run := ServerRun.start n κ memory maxSessions uniqueNumber listenFD
  deleter _ := .idle

variable {s s' : DeleteRun n κ δ} {a : DeleteStep n κ δ}

omit [DecidableEq δ] in
/-- Everything that a step can do to the server. -/
inductive Moves (s s' : DeleteRun n κ δ) : DeleteStep n κ δ → Prop
  | run {a : RunStep n κ} (h : s.run.RunMoves s'.run a) (hstep : s.run.step a = some s'.run) :
    Moves s s' (.run a)
  | call {d : δ} {sessionID : SessionID} (hrun : s'.run = s.run) : Moves s s' (.delete d sessionID)
  | check {d : δ} (hrun : s'.run = s.run) : Moves s s' (.deleter d)
  | free {d : δ} (index : ℤ) (hrun : s'.run = s.run.freeSession index) : Moves s s' (.deleter d)

/-- **Every step is one of the moves.** -/
theorem moves_of_step (hs : s.run.Rooted) (h : s.step a = some s') : s.Moves s' a := by
  cases a with
  | run a =>
    obtain ⟨run, hstep, h⟩ := Option.bind_eq_some_iff.1 h
    obtain rfl := Option.some.inj h
    exact .run (ServerRun.runMoves_of_step hs.steady hstep) hstep
  | delete d sessionID =>
    obtain ⟨-, h⟩ := Option.ite_none_right_eq_some.1 h
    obtain rfl := Option.some.inj h
    exact .call rfl
  | deleter d =>
    simp only [step] at h
    split at h
    · cases h
    · obtain ⟨session, -, h⟩ := Option.bind_eq_some_iff.1 h
      obtain rfl := Option.some.inj h
      exact .check rfl
    · obtain rfl := Option.some.inj h
      exact .free _ rfl

omit [DecidableEq κ] in
/-- A slot that is freed stays what it was. -/
lemma rooted_freeSession {r : ServerRun n κ} (hr : r.Rooted) (index : ℤ) :
    (r.freeSession index).Rooted :=
  ⟨⟨hr.steady.running, hr.steady.id_ok, hr.steady.max_lt⟩, hr.named, hr.placed, hr.running,
    hr.sending, hr.lookedUp, hr.connecting, hr.pointer⟩

/-- **One step keeps the sessions rooted.** -/
theorem rooted_step (hs : s.run.Rooted) (h : s.step a = some s') : s'.run.Rooted := by
  cases moves_of_step hs h with
  | run hmoves hstep => exact hs.step hstep
  | call hrun | check hrun => exact hrun ▸ hs
  | free index hrun => exact hrun ▸ rooted_freeSession hs index

end DeleteRun

end CoreServer
