import CoreServer.Logger
import CoreServer.Lock
import Mathlib.Logic.Embedding.Basic

/-!
# Threads that log (`Logger.cpp`)

`Emit` calls `Write` on one sink after the other.  `FileSink::Write` takes `mFileMutex`, opens the
file if it is not open, prints one line to the `FILE`, flushes it and gives the mutex back; the
library may write a part of what has been printed at any time before.  If the file cannot be
opened, the message is dropped, and the next call tries again.

The threads call `Log` and `SetLevel` on any loggers and share the sinks.  No two file sinks have
the same path, different paths lead to different files, and what is written to an open file arrives
there.
-/

namespace CoreServer

/-- Where a thread stands in `FileSink::Write` while it holds `mFileMutex`. -/
inductive WriteStage where
  | ensureFileOpen
  | println
  | fflush
  | unlock
deriving DecidableEq, Repr

/-- Where a thread stands: outside `Emit`, in its loop with the sinks that are left, or in
`FileSink::Write`. -/
inductive LogPC (ι : Type) where
  | idle
  | emit (r : LogRecord) (sinks : List (LogSink ι))
  | write (stage : WriteStage) (r : LogRecord) (index : ι) (sinks : List (LogSink ι))
deriving DecidableEq, Repr

/-- `FileSink`.  An open `mFileHandle` holds what has been printed and not been written yet. -/
structure FileSink (τ : Type) where
  mFilePath : Text
  mAppend : Bool
  mFileMutex : Mutex τ
  mFileHandle : Option Text
deriving DecidableEq, Repr

/-- A file sink, its file if there is one, the directories that have been made, and the calls of
`Write` whose messages have been dropped and printed. -/
structure SinkRun (τ : Type) extends FileSink τ where
  file : Option Text
  mkdirs : List Text
  dropped : List (τ × LogRecord)
  written : List (τ × LogRecord)
deriving DecidableEq, Repr

/-- The sinks, the loggers, the threads and the console, the messages that it has shown, and the
calls of `Log` of each thread, with the logger as it was. -/
structure LogRun (τ κ ι : Type) where
  sinks : ι → SinkRun τ
  loggers : κ → Logger ι
  pc : τ → LogPC ι
  stdout : Text
  stderr : Text
  shown : List (τ × LogRecord)
  called : τ → List (Logger ι × LogRecord)

/-- A thread calls `Log`, at a time, or `SetLevel`; a thread goes on, and `fopen` succeeds or fails
if it is called; the library writes a part of what has been printed. -/
inductive LogStep (τ κ ι : Type) where
  | log (thread : τ) (logger : κ) (level : eLogLevel) (now message : Text)
  | setLevel (logger : κ) (level : eLogLevel)
  | run (thread : τ) (fopen : Bool)
  | spill (index : ι) (size : ℕ)
deriving DecidableEq, Repr

/-- `mFilePath.substr(0, mFilePath.find_last_of('/'))`, if there is a slash. -/
def directory (path : Text) : Option Text :=
  match path.reverse.dropWhile (· ≠ '/') with
  | [] => none
  | _ :: rest => some rest.reverse

/-- What `fopen` leaves in a file in the modes `"a"` and `"w"`. -/
def opened (append : Bool) (file : Option Text) : Text := if append then file.getD [] else []

namespace FileSink

variable {τ : Type}

/-- `FileSink(filePath, append)`. -/
def construct (filePath : Text) (append : Bool) : FileSink τ :=
  ⟨filePath, append, Mutex.construct, none⟩

end FileSink

namespace SinkRun

variable {τ : Type}

/-- `EnsureFileOpen`. -/
def ensureFileOpen (fopen : Bool) (f : SinkRun τ) : SinkRun τ :=
  match f.mFileHandle with
  | some _ => f
  | none =>
    let f := { f with mkdirs := f.mkdirs ++ (directory f.mFilePath).toList }
    if fopen then { f with mFileHandle := some [], file := some (opened f.mAppend f.file) } else f

/-- The first `size` characters that have been printed are written to the file. -/
def spill (size : ℕ) (f : SinkRun τ) : Option (SinkRun τ) := do
  let buffer ← f.mFileHandle
  let text ← f.file
  return { f with mFileHandle := some (buffer.drop size), file := some (text ++ buffer.take size) }

/-- `fmt::println`. -/
def println (t : τ) (r : LogRecord) (f : SinkRun τ) : Option (SinkRun τ) := do
  let buffer ← f.mFileHandle
  return { f with mFileHandle := some (buffer ++ r.line), written := f.written ++ [(t, r)] }

/-- `fflush`. -/
def fflush (f : SinkRun τ) : Option (SinkRun τ) := do
  let buffer ← f.mFileHandle
  f.spill buffer.length

end SinkRun

namespace LogRun

variable {τ κ ι : Type} [DecidableEq τ] [DecidableEq ι]

def goto (s : LogRun τ κ ι) (t : τ) (pc : LogPC ι) : LogRun τ κ ι :=
  { s with pc := Function.update s.pc t pc }

def setSink (s : LogRun τ κ ι) (i : ι) (f : SinkRun τ) : LogRun τ κ ι :=
  { s with sinks := Function.update s.sinks i f }

/-- `ConsoleSink::Write`. -/
def printConsole (s : LogRun τ κ ι) (t : τ) (r : LogRecord) : LogRun τ κ ι :=
  let s := { s with shown := s.shown ++ [(t, r)] }
  if eLogLevel.Error.toNat ≤ r.level.toNat then { s with stderr := s.stderr ++ r.line }
  else { s with stdout := s.stdout ++ r.line }

/-- A thread goes on. -/
def run (s : LogRun τ κ ι) (t : τ) (fopen : Bool) : Option (LogRun τ κ ι) :=
  match s.pc t with
  | .idle => none
  | .emit _ [] => some (s.goto t .idle)
  | .emit r (.console :: sinks) => some ((s.printConsole t r).goto t (.emit r sinks))
  | .emit r (.file i :: sinks) => do
    let m ← (s.sinks i).mFileMutex.lock t
    return (s.setSink i { s.sinks i with mFileMutex := m }).goto t
      (.write .ensureFileOpen r i sinks)
  | .write .ensureFileOpen r i sinks =>
    let f := (s.sinks i).ensureFileOpen fopen
    match f.mFileHandle with
    | none =>
      some ((s.setSink i { f with dropped := f.dropped ++ [(t, r)] }).goto t
        (.write .unlock r i sinks))
    | some _ => some ((s.setSink i f).goto t (.write .println r i sinks))
  | .write .println r i sinks => do
    let f ← (s.sinks i).println t r
    return (s.setSink i f).goto t (.write .fflush r i sinks)
  | .write .fflush r i sinks => do
    let f ← (s.sinks i).fflush
    return (s.setSink i f).goto t (.write .unlock r i sinks)
  | .write .unlock r i sinks =>
    some ((s.setSink i { s.sinks i with mFileMutex := (s.sinks i).mFileMutex.unlock }).goto t
      (.emit r sinks))

/-- One step. -/
def step [DecidableEq κ] (s : LogRun τ κ ι) : LogStep τ κ ι → Option (LogRun τ κ ι)
  | .log t k level now message =>
    match s.pc t with
    | .idle =>
      let logger := s.loggers k
      let r : LogRecord := ⟨level, now, logger.mName, message⟩
      let s := { s with called := Function.update s.called t (s.called t ++ [(logger, r)]) }
      if logger.Filters level then some s else some (s.goto t (.emit r logger.mSinks))
    | _ => none
  | .setLevel k level =>
    some { s with loggers := Function.update s.loggers k ((s.loggers k).setLevel level) }
  | .run t fopen => s.run t fopen
  | .spill i size => ((s.sinks i).spill size).map (s.setSink i)

/-- The machine of the threads that log. -/
def machine (τ κ ι : Type) [DecidableEq τ] [DecidableEq κ] [DecidableEq ι] :
    StepMachine (LogRun τ κ ι) (LogStep τ κ ι) := ⟨step⟩

/-- Sinks on different paths and loggers that have been constructed, files, and threads that have
not logged anything. -/
def start (filePath : ι ↪ Text) (append : ι → Bool) (files : Text → Option Text)
    (name : κ → Text) (sinks : κ → List (LogSink ι)) : LogRun τ κ ι where
  sinks i := ⟨FileSink.construct (filePath i) (append i), files (filePath i), [], [], []⟩
  loggers k := Logger.construct (name k) (sinks k)
  pc _ := .idle
  stdout := []
  stderr := []
  shown := []
  called _ := []

/-! ## What the sinks have been given -/

/-- The calls of `Write` on a sink that have been carried out. -/
def taken (s : LogRun τ κ ι) : LogSink ι → List (τ × LogRecord)
  | .console => s.shown
  | .file i => (s.sinks i).dropped ++ (s.sinks i).written

/-- The calls of one thread. -/
def ofThread (t : τ) (calls : List (τ × LogRecord)) : List LogRecord :=
  (calls.filter fun call => call.1 = t).map Prod.snd

/-- What a call of `Log` has to give to a sink: nothing if the message is filtered, and otherwise
the message as often as the logger has the sink. -/
def asks (sink : LogSink ι) (call : Logger ι × LogRecord) : List LogRecord :=
  if call.1.Filters call.2.level then [] else List.replicate (call.1.mSinks.count sink) call.2

/-- What a thread has to give to a sink. -/
def asked (s : LogRun τ κ ι) (t : τ) (sink : LogSink ι) : List LogRecord :=
  (s.called t).flatMap (asks sink)

end LogRun

/-- What a thread still has to give to a sink in the call that it is in. -/
def LogPC.left {ι : Type} [DecidableEq ι] (sink : LogSink ι) : LogPC ι → List LogRecord
  | idle => []
  | emit r sinks => List.replicate (sinks.count sink) r
  | write stage r i sinks =>
    (if sink = .file i ∧ (stage = .ensureFileOpen ∨ stage = .println) then [r] else []) ++
      List.replicate (sinks.count sink) r

/-- Where a thread stands in `Write` on a sink. -/
def LogPC.stage {ι : Type} [DecidableEq ι] (i : ι) : LogPC ι → Option WriteStage
  | write stage _ index _ => if index = i then some stage else none
  | idle | emit _ _ => none

/-- The file has been opened once, if at all, and then holds what was in it and whole lines, in the
order of the calls; only of the last line a part may not have been written yet. -/
structure SinkRun.Lines {τ : Type} (append : Bool) (old : Option Text) (f : SinkRun τ) : Prop where
  mAppend : f.mAppend = append
  closed : f.mFileHandle = none → f.file = old ∧ f.written = []
  isOpen : ∀ buffer, f.mFileHandle = some buffer → ∃ text, f.file = some text ∧
    text ++ buffer = opened append old ++ f.written.flatMap (fun call => call.2.line) ∧
    (buffer = [] ∨ ∃ calls call, f.written = calls ++ [call] ∧ buffer <:+ call.2.line)

namespace LogRun

variable {τ κ ι : Type} [DecidableEq τ] [DecidableEq ι]

/-- Every file holds whole lines when its mutex is free, and every sink has been given the messages
of each thread in the order of its calls; those that a file sink has dropped come before all that it
has written. -/
structure Logged (append : ι → Bool) (files : ι → Option Text) (s : LogRun τ κ ι) : Prop where
  lines : ∀ i, (s.sinks i).Lines (append i) (files i)
  flushed : ∀ i, (s.sinks i).mFileMutex.mMutex = none →
    ∀ buffer, (s.sinks i).mFileHandle = some buffer → buffer = []
  inOrder : ∀ t sink, ofThread t (s.taken sink) ++ (s.pc t).left sink = s.asked t sink

end LogRun

/-! ## One sink -/

namespace SinkRun

variable {τ : Type} {t : τ} {f f' : SinkRun τ} {append : Bool} {old : Option Text}

/-- What a step of the thread `t` may do to a sink and to the place where the thread stands in
`Write` on it. -/
inductive Moves (t : τ) (f : SinkRun τ) : Option WriteStage → SinkRun τ → Option WriteStage → Prop
  | nothing (stage : Option WriteStage) : Moves t f stage f stage
  | lock {m : Mutex τ} (h : f.mFileMutex.lock t = some m) :
    Moves t f none { f with mFileMutex := m } (some .ensureFileOpen)
  | drop (r : LogRecord) {fopen : Bool} (h : (f.ensureFileOpen fopen).mFileHandle = none) :
    Moves t f (some .ensureFileOpen)
      { f.ensureFileOpen fopen with dropped := (f.ensureFileOpen fopen).dropped ++ [(t, r)] }
      (some .unlock)
  | ensureFileOpen {fopen : Bool} (h : (f.ensureFileOpen fopen).mFileHandle ≠ none) :
    Moves t f (some .ensureFileOpen) (f.ensureFileOpen fopen) (some .println)
  | println {r : LogRecord} {f' : SinkRun τ} (h : f.println t r = some f') :
    Moves t f (some .println) f' (some .fflush)
  | fflush {f' : SinkRun τ} (h : f.fflush = some f') : Moves t f (some .fflush) f' (some .unlock)
  | unlock : Moves t f (some .unlock) { f with mFileMutex := f.mFileMutex.unlock } none

/-- Opening the file changes neither the mutex nor the records. -/
lemma ensureFileOpen_cases (fopen : Bool) (f : SinkRun τ) :
    (f.ensureFileOpen fopen).mFileMutex = f.mFileMutex ∧
      (f.ensureFileOpen fopen).dropped = f.dropped ∧
      (f.ensureFileOpen fopen).written = f.written ∧
      (f.ensureFileOpen fopen).mAppend = f.mAppend ∧
      ((f.ensureFileOpen fopen).mFileHandle = f.mFileHandle ∧
          (f.ensureFileOpen fopen).file = f.file ∨
        f.mFileHandle = none ∧ (f.ensureFileOpen fopen).mFileHandle = some [] ∧
          (f.ensureFileOpen fopen).file = some (opened f.mAppend f.file)) := by
  unfold ensureFileOpen
  split
  · exact ⟨rfl, rfl, rfl, rfl, .inl ⟨rfl, rfl⟩⟩
  · rename_i hclosed
    cases fopen with
    | false => exact ⟨rfl, rfl, rfl, rfl, .inl ⟨rfl, rfl⟩⟩
    | true => exact ⟨rfl, rfl, rfl, rfl, .inr ⟨hclosed, rfl, rfl⟩⟩

lemma Lines.ensureFileOpen (h : f.Lines append old) (fopen : Bool) :
    (f.ensureFileOpen fopen).Lines append old := by
  obtain ⟨-, -, hwritten, hmode, hcase⟩ := ensureFileOpen_cases fopen f
  rcases hcase with ⟨hhandle, hfile⟩ | ⟨hclosed, hhandle, hfile⟩
  · exact ⟨hmode.trans h.mAppend, by rw [hhandle, hfile, hwritten]; exact h.closed,
      by rw [hhandle, hfile, hwritten]; exact h.isOpen⟩
  · obtain ⟨hold, hnone⟩ := h.closed hclosed
    refine ⟨hmode.trans h.mAppend, by simp [hhandle], fun buffer hbuffer => ?_⟩
    obtain rfl : [] = buffer := Option.some.inj (hhandle.symm.trans hbuffer)
    refine ⟨_, hfile, ?_, .inl rfl⟩
    rw [hwritten, hnone, h.mAppend, hold, List.append_nil, List.flatMap_nil, List.append_nil]

lemma spill_eq_some {size : ℕ} (h : f.spill size = some f') :
    ∃ buffer text, f.mFileHandle = some buffer ∧ f.file = some text ∧
      f' = { f with mFileHandle := some (buffer.drop size)
                    file := some (text ++ buffer.take size) } := by
  simp only [spill, Option.bind_eq_bind, Option.bind_eq_some_iff, Option.pure_def,
    Option.some.injEq] at h
  obtain ⟨buffer, hbuffer, text, htext, rfl⟩ := h
  exact ⟨buffer, text, hbuffer, htext, rfl⟩

lemma Lines.spill (h : f.Lines append old) {size : ℕ} (hspill : f.spill size = some f') :
    f'.Lines append old := by
  obtain ⟨buffer, text, hbuffer, htext, rfl⟩ := spill_eq_some hspill
  obtain ⟨text', htext', hall, hlast⟩ := h.isOpen buffer hbuffer
  obtain rfl : text = text' := Option.some.inj (htext.symm.trans htext')
  refine ⟨h.mAppend, by simp, fun buffer' hbuffer' => ?_⟩
  obtain rfl := Option.some.inj hbuffer'
  refine ⟨_, rfl, by rw [List.append_assoc, List.take_append_drop, hall], ?_⟩
  rcases hlast with rfl | ⟨calls, call, hcalls, hsuffix⟩
  · exact .inl List.drop_nil
  · exact .inr ⟨calls, call, hcalls, (List.drop_suffix _ _).trans hsuffix⟩

/-- A line is printed behind whole lines. -/
lemma Lines.println (h : f.Lines append old) (hflushed : ∀ buffer, f.mFileHandle = some buffer →
    buffer = []) {r : LogRecord} (hprintln : f.println t r = some f') : f'.Lines append old := by
  simp only [SinkRun.println, Option.bind_eq_bind, Option.bind_eq_some_iff, Option.pure_def,
    Option.some.injEq] at hprintln
  obtain ⟨buffer, hbuffer, rfl⟩ := hprintln
  obtain ⟨text, htext, hall, -⟩ := h.isOpen buffer hbuffer
  obtain rfl := hflushed buffer hbuffer
  refine ⟨h.mAppend, by simp, fun buffer' hbuffer' => ?_⟩
  obtain rfl := Option.some.inj hbuffer'
  refine ⟨text, htext, ?_, .inr ⟨_, _, rfl, List.suffix_rfl⟩⟩
  rw [List.append_nil] at hall
  rw [hall, List.flatMap_append, List.flatMap_singleton, List.nil_append, List.append_assoc]

/-- Where each thread stands is compatible with the state of the sink. -/
structure Sound (append : Bool) (old : Option Text) (f : SinkRun τ)
    (stage : τ → Option WriteStage) : Prop where
  lines : f.Lines append old
  guards : f.mFileMutex.Guards fun t => (stage t).isSome
  printed : ∀ buffer, f.mFileHandle = some buffer → buffer ≠ [] → ∃ t, stage t = some .fflush

variable {stage : τ → Option WriteStage} {stage' : Option WriteStage}

/-- No other thread has printed anything. -/
lemma Sound.flushed (h : Sound append old f stage) (ht : (stage t).isSome)
    (hne : stage t ≠ some .fflush) : ∀ buffer, f.mFileHandle = some buffer → buffer = [] := by
  intro buffer hbuffer
  by_contra hrest
  obtain ⟨t', ht'⟩ := h.printed buffer hbuffer hrest
  obtain rfl := h.guards.unique ht (u := t') (by simp [ht'])
  exact hne ht'

/-- If nothing is left in the buffer, no thread has to flush it. -/
lemma Sound.of_flushed (hlines : f.Lines append old)
    (hguards : f.mFileMutex.Guards fun t => (stage t).isSome)
    (hflushed : ∀ buffer, f.mFileHandle = some buffer → buffer = []) :
    Sound append old f stage :=
  ⟨hlines, hguards, fun buffer hbuffer hrest => absurd (hflushed buffer hbuffer) hrest⟩

/-- **The library writes a part** of what has been printed. -/
theorem Sound.spill (h : Sound append old f stage) {size : ℕ} (hspill : f.spill size = some f') :
    Sound append old f' stage := by
  have hlines := h.lines.spill hspill
  obtain ⟨buffer, text, hbuffer, -, rfl⟩ := spill_eq_some hspill
  refine ⟨hlines, h.guards, fun buffer' hbuffer' hrest => h.printed buffer hbuffer ?_⟩
  rintro rfl
  obtain rfl := Option.some.inj hbuffer'
  exact hrest List.drop_nil

variable [DecidableEq τ]

/-- A thread that stays in `Write` keeps the mutex. -/
lemma Sound.stays (h : Sound append old f stage) (ht : (stage t).isSome) (hstage' : stage'.isSome) :
    f.mFileMutex.Guards fun t' => (Function.update stage t stage' t').isSome :=
  h.guards.congr fun t' => by
    rcases eq_or_ne t' t with rfl | hne
    · rw [Function.update_self, ht, hstage']
    · rw [Function.update_of_ne hne]

/-- **One step of a thread** keeps a sink sound. -/
theorem Sound.moves (h : Sound append old f stage) (hmoves : Moves t f (stage t) f' stage') :
    Sound append old f' (Function.update stage t stage') := by
  generalize hstage : stage t = before at hmoves
  cases hmoves with
  | nothing => rwa [← hstage, Function.update_eq_self]
  | @lock m hlock =>
    refine ⟨⟨h.lines.mAppend, h.lines.closed, h.lines.isOpen⟩, ?_, fun buffer hbuffer hrest => ?_⟩
    · exact h.guards.lock hlock (by simp) fun t' hne => by rw [Function.update_of_ne hne]
    · obtain ⟨t', ht'⟩ := h.printed buffer hbuffer hrest
      have hne : t' ≠ t := by
        rintro rfl
        rw [hstage] at ht'
        cases ht'
      exact ⟨t', by rwa [Function.update_of_ne hne]⟩
  | @drop r fopen hclosed =>
    have hlines := h.lines.ensureFileOpen fopen
    obtain ⟨hmutex, -⟩ := ensureFileOpen_cases fopen f
    refine .of_flushed ⟨hlines.mAppend, hlines.closed, hlines.isOpen⟩ ?_ (by simp [hclosed])
    change ((f.ensureFileOpen fopen).mFileMutex).Guards _
    exact hmutex ▸ h.stays (by simp [hstage]) rfl
  | @ensureFileOpen fopen hopen =>
    obtain ⟨hmutex, -, -, -, hcase⟩ := ensureFileOpen_cases fopen f
    refine .of_flushed (h.lines.ensureFileOpen fopen) (hmutex ▸ h.stays (by simp [hstage]) rfl) ?_
    rcases hcase with ⟨hhandle, -⟩ | ⟨-, hhandle, -⟩
    · rw [hhandle]
      exact h.flushed (t := t) (by simp [hstage]) (by simp [hstage])
    · simp [hhandle]
  | @println r _ hprintln =>
    have hlines := h.lines.println (h.flushed (t := t) (by simp [hstage]) (by simp [hstage]))
      hprintln
    obtain ⟨buffer, -, hprinted⟩ := Option.bind_eq_some_iff.1 hprintln
    obtain rfl := Option.some.inj hprinted
    exact ⟨hlines, h.stays (by simp [hstage]) rfl, fun _ _ _ => ⟨t, Function.update_self ..⟩⟩
  | fflush hfflush =>
    obtain ⟨buffer, hbuffer, hspill⟩ := Option.bind_eq_some_iff.1 hfflush
    have hlines := h.lines.spill hspill
    obtain ⟨buffer', text, hbuffer', -, rfl⟩ := spill_eq_some hspill
    obtain rfl := Option.some.inj (hbuffer.symm.trans hbuffer')
    exact .of_flushed hlines (h.stays (by simp [hstage]) rfl) (by simp)
  | unlock =>
    refine .of_flushed ⟨h.lines.mAppend, h.lines.closed, h.lines.isOpen⟩ ?_
      (h.flushed (t := t) (by simp [hstage]) (by simp [hstage]))
    exact h.guards.unlock (t := t) (by simp [hstage]) (by simp)
      fun t' hne => by rw [Function.update_of_ne hne]

end SinkRun

/-! ## One step -/

namespace LogRun

open SinkRun

variable {τ κ ι : Type} [DecidableEq τ] [DecidableEq ι] {s s' : LogRun τ κ ι} {t t' : τ}

lemma ofThread_append (t : τ) (calls calls' : List (τ × LogRecord)) :
    ofThread t (calls ++ calls') = ofThread t calls ++ ofThread t calls' := by
  simp [ofThread]

lemma ofThread_map_self (t : τ) (rs : List LogRecord) : ofThread t (rs.map (Prod.mk t)) = rs := by
  induction rs with
  | nil => rfl
  | cons r rs ih => simpa [ofThread] using ih

lemma ofThread_map_of_ne (h : t' ≠ t) (rs : List LogRecord) :
    ofThread t' (rs.map (Prod.mk t)) = [] := by
  induction rs with
  | nil => rfl
  | cons r rs ih => simp [ofThread, h.symm]

/-- What a step of a thread does: it goes to `pc`, may do something to the sink at which it stands,
and gives it what it does not have to give to it any more. -/
structure RunMoves (s s' : LogRun τ κ ι) (t : τ) (pc : LogPC ι) : Prop where
  pc_eq : s'.pc = Function.update s.pc t pc
  called : s'.called = s.called
  sinks : ∀ i, SinkRun.Moves t (s.sinks i) ((s.pc t).stage i) (s'.sinks i) (pc.stage i)
  taken : ∀ sink, ∃ rs, s'.taken sink = s.taken sink ++ rs.map (Prod.mk t) ∧
    (s.pc t).left sink = rs ++ pc.left sink

/-- A step that does nothing to the sinks. -/
lemma RunMoves.of_sinks_eq {pc : LogPC ι} (hpc : s'.pc = Function.update s.pc t pc)
    (hcalled : s'.called = s.called) (hsinks : s'.sinks = s.sinks)
    (hstage : ∀ i, (s.pc t).stage i = pc.stage i)
    (htaken : ∀ sink, ∃ rs, s'.taken sink = s.taken sink ++ rs.map (Prod.mk t) ∧
      (s.pc t).left sink = rs ++ pc.left sink) : RunMoves s s' t pc :=
  ⟨hpc, hcalled, fun i => by rw [hsinks, hstage]; exact .nothing _, htaken⟩

/-- A step at the sink `i`. -/
lemma RunMoves.of_sink {i : ι} {f : SinkRun τ} {pc : LogPC ι}
    (hmoves : SinkRun.Moves t (s.sinks i) ((s.pc t).stage i) f (pc.stage i))
    (hstage : ∀ j, j ≠ i → (s.pc t).stage j = pc.stage j)
    (hgiven : ∃ rs, f.dropped ++ f.written =
      (s.sinks i).dropped ++ (s.sinks i).written ++ rs.map (Prod.mk t) ∧
        (s.pc t).left (.file i) = rs ++ pc.left (.file i))
    (hleft : ∀ sink, sink ≠ .file i → (s.pc t).left sink = pc.left sink) :
    RunMoves s ((s.setSink i f).goto t pc) t pc := by
  refine ⟨rfl, rfl, fun j => ?_, fun sink => ?_⟩
  · rcases eq_or_ne j i with rfl | hne
    · change SinkRun.Moves t _ _ (Function.update s.sinks j f j) _
      rwa [Function.update_self]
    · change SinkRun.Moves t _ _ (Function.update s.sinks i f j) _
      rw [Function.update_of_ne hne, hstage j hne]
      exact .nothing _
  · rcases eq_or_ne sink (.file i) with rfl | hne
    · change ∃ rs, (Function.update s.sinks i f i).dropped ++
        (Function.update s.sinks i f i).written = _ ∧ _
      rwa [Function.update_self]
    · refine ⟨[], ?_, hleft sink hne⟩
      cases sink with
      | console => exact (List.append_nil _).symm
      | file j =>
        have hj : j ≠ i := fun hj => hne (congrArg LogSink.file hj)
        change (Function.update s.sinks i f j).dropped ++
          (Function.update s.sinks i f j).written = _
        rw [Function.update_of_ne hj, List.map_nil, List.append_nil]
        rfl

lemma stage_write_self (stage : WriteStage) (r : LogRecord) (i : ι) (sinks : List (LogSink ι)) :
    (LogPC.write stage r i sinks).stage i = some stage := if_pos rfl

lemma stage_write_of_ne {i j : ι} (h : j ≠ i) (stage : WriteStage) (r : LogRecord)
    (sinks : List (LogSink ι)) : (LogPC.write stage r i sinks).stage j = none := if_neg h.symm

lemma left_write_of_ne {i : ι} {sink : LogSink ι} (h : sink ≠ .file i) (stage : WriteStage)
    (r : LogRecord) (sinks : List (LogSink ι)) :
    (LogPC.write stage r i sinks).left sink = List.replicate (sinks.count sink) r := by
  simp [LogPC.left, h]

omit [DecidableEq τ] [DecidableEq ι] in
lemma printConsole_eq (s : LogRun τ κ ι) (t : τ) (r : LogRecord) : ∃ stdout stderr,
    s.printConsole t r =
      { s with shown := s.shown ++ [(t, r)], stdout := stdout, stderr := stderr } := by
  unfold printConsole
  dsimp only
  split
  · exact ⟨_, _, rfl⟩
  · exact ⟨_, _, rfl⟩

/-- A step inside `Write` on the sink `i`. -/
lemma RunMoves.of_write {i : ι} {f : SinkRun τ} {r : LogRecord} {sinks : List (LogSink ι)}
    {stage stage' : WriteStage} (hpc : s.pc t = .write stage r i sinks)
    (hmoves : SinkRun.Moves t (s.sinks i) (some stage) f (some stage'))
    (hgiven : ∃ rs, f.dropped ++ f.written =
      (s.sinks i).dropped ++ (s.sinks i).written ++ rs.map (Prod.mk t) ∧
        (LogPC.write stage r i sinks).left (.file i) =
          rs ++ (LogPC.write stage' r i sinks).left (.file i)) :
    RunMoves s ((s.setSink i f).goto t (.write stage' r i sinks)) t (.write stage' r i sinks) := by
  refine .of_sink ?_ (fun j hne => ?_) (hpc ▸ hgiven) fun sink hne => ?_
  · rw [hpc, stage_write_self, stage_write_self]
    exact hmoves
  · rw [hpc, stage_write_of_ne hne, stage_write_of_ne hne]
  · rw [hpc, left_write_of_ne hne, left_write_of_ne hne]

section Stages

variable {r : LogRecord} {i : ι} {sinks : List (LogSink ι)} {f : SinkRun τ}

/-- `Emit` returns. -/
lemma moves_return (hpc : s.pc t = .emit r []) : RunMoves s (s.goto t .idle) t .idle := by
  refine .of_sinks_eq rfl rfl rfl (fun i => ?_) fun sink => ⟨[], (List.append_nil _).symm, ?_⟩
  · rw [hpc]
    rfl
  · rw [hpc]
    rfl

/-- `ConsoleSink::Write`. -/
lemma moves_console (hpc : s.pc t = .emit r (.console :: sinks)) :
    RunMoves s ((s.printConsole t r).goto t (.emit r sinks)) t (.emit r sinks) := by
  obtain ⟨stdout, stderr, hprint⟩ := printConsole_eq s t r
  rw [hprint]
  refine .of_sinks_eq rfl rfl rfl (fun i => ?_) fun sink => ?_
  · rw [hpc]
    rfl
  · rw [hpc]
    cases sink with
    | console => exact ⟨[r], rfl, by simp [LogPC.left, List.replicate_succ]⟩
    | file i => exact ⟨[], (List.append_nil _).symm, by simp [LogPC.left]⟩

/-- `FileSink::Write` takes the mutex. -/
lemma moves_lock {m : Mutex τ} (hpc : s.pc t = .emit r (.file i :: sinks))
    (hlock : (s.sinks i).mFileMutex.lock t = some m) :
    RunMoves s ((s.setSink i { s.sinks i with mFileMutex := m }).goto t
      (.write .ensureFileOpen r i sinks)) t (.write .ensureFileOpen r i sinks) := by
  refine .of_sink ?_ (fun j hne => ?_) ⟨[], (List.append_nil _).symm, ?_⟩ fun sink hne => ?_
  · rw [hpc, stage_write_self]
    exact .lock hlock
  · rw [hpc, stage_write_of_ne hne]
    rfl
  · rw [hpc]
    simp [LogPC.left, List.replicate_succ]
  · rw [hpc, left_write_of_ne hne]
    simp [LogPC.left, hne.symm]

/-- The file cannot be opened. -/
lemma moves_drop {fopen : Bool} (hpc : s.pc t = .write .ensureFileOpen r i sinks)
    (hclosed : (s.sinks i).mFileHandle = none → (s.sinks i).written = [])
    (hnone : ((s.sinks i).ensureFileOpen fopen).mFileHandle = none) :
    RunMoves s ((s.setSink i { (s.sinks i).ensureFileOpen fopen with
      dropped := ((s.sinks i).ensureFileOpen fopen).dropped ++ [(t, r)] }).goto t
        (.write .unlock r i sinks)) t (.write .unlock r i sinks) := by
  obtain ⟨-, hdropped, hwritten, -, hcase⟩ := ensureFileOpen_cases fopen (s.sinks i)
  -- nothing has been written to a file that is not open
  have hold : (s.sinks i).mFileHandle = none := by
    rcases hcase with ⟨hhandle, -⟩ | ⟨hold, -⟩
    · exact hhandle ▸ hnone
    · exact hold
  refine .of_write hpc (.drop r hnone) ⟨[r], ?_, by simp [LogPC.left]⟩
  rw [hwritten, hdropped, hclosed hold, List.append_nil, List.append_nil]
  rfl

/-- The file is open. -/
lemma moves_open {fopen : Bool} (hpc : s.pc t = .write .ensureFileOpen r i sinks)
    (hopen : ((s.sinks i).ensureFileOpen fopen).mFileHandle ≠ none) :
    RunMoves s ((s.setSink i ((s.sinks i).ensureFileOpen fopen)).goto t
      (.write .println r i sinks)) t (.write .println r i sinks) := by
  obtain ⟨-, hdropped, hwritten, -⟩ := ensureFileOpen_cases fopen (s.sinks i)
  refine .of_write hpc (.ensureFileOpen hopen) ⟨[], ?_, by simp [LogPC.left]⟩
  rw [hdropped, hwritten, List.map_nil, List.append_nil]

/-- The line is printed. -/
lemma moves_println (hpc : s.pc t = .write .println r i sinks)
    (hprintln : (s.sinks i).println t r = some f) :
    RunMoves s ((s.setSink i f).goto t (.write .fflush r i sinks)) t
      (.write .fflush r i sinks) := by
  refine .of_write hpc (.println hprintln) ⟨[r], ?_, by simp [LogPC.left]⟩
  obtain ⟨buffer, -, hprinted⟩ := Option.bind_eq_some_iff.1 hprintln
  obtain rfl := Option.some.inj hprinted
  exact (List.append_assoc ..).symm

/-- The rest of the line is written. -/
lemma moves_fflush (hpc : s.pc t = .write .fflush r i sinks)
    (hfflush : (s.sinks i).fflush = some f) :
    RunMoves s ((s.setSink i f).goto t (.write .unlock r i sinks)) t
      (.write .unlock r i sinks) := by
  refine .of_write hpc (.fflush hfflush) ⟨[], ?_, by simp [LogPC.left]⟩
  obtain ⟨buffer, -, hspill⟩ := Option.bind_eq_some_iff.1 hfflush
  obtain ⟨_, _, -, -, rfl⟩ := spill_eq_some hspill
  exact (List.append_nil _).symm

/-- `FileSink::Write` gives the mutex back. -/
lemma moves_unlock (hpc : s.pc t = .write .unlock r i sinks) :
    RunMoves s ((s.setSink i { s.sinks i with
      mFileMutex := (s.sinks i).mFileMutex.unlock }).goto t (.emit r sinks)) t
        (.emit r sinks) := by
  refine .of_sink ?_ (fun j hne => ?_) ⟨[], (List.append_nil _).symm, ?_⟩ fun sink hne => ?_
  · rw [hpc, stage_write_self]
    exact .unlock
  · rw [hpc, stage_write_of_ne hne]
    rfl
  · rw [hpc]
    simp [LogPC.left]
  · rw [hpc, left_write_of_ne hne]
    rfl

end Stages

/-- **What a thread does** when it goes on. -/
theorem moves_of_run (hclosed : ∀ i, (s.sinks i).mFileHandle = none → (s.sinks i).written = [])
    {fopen : Bool} (h : s.run t fopen = some s') : ∃ pc, RunMoves s s' t pc := by
  unfold run at h
  split at h
  · cases h
  · rename_i r hpc
    exact ⟨_, Option.some.inj h ▸ moves_return hpc⟩
  · rename_i r sinks hpc
    exact ⟨_, Option.some.inj h ▸ moves_console hpc⟩
  · rename_i r i sinks hpc
    obtain ⟨m, hlock, h⟩ := Option.bind_eq_some_iff.1 h
    exact ⟨_, Option.some.inj h ▸ moves_lock hpc hlock⟩
  · rename_i r i sinks hpc
    dsimp only at h
    split at h
    · rename_i hnone
      exact ⟨_, Option.some.inj h ▸ moves_drop hpc (hclosed i) hnone⟩
    · rename_i hopen
      exact ⟨_, Option.some.inj h ▸ moves_open hpc (by simp [hopen])⟩
  · rename_i r i sinks hpc
    obtain ⟨f, hprintln, h⟩ := Option.bind_eq_some_iff.1 h
    exact ⟨_, Option.some.inj h ▸ moves_println hpc hprintln⟩
  · rename_i r i sinks hpc
    obtain ⟨f, hfflush, h⟩ := Option.bind_eq_some_iff.1 h
    exact ⟨_, Option.some.inj h ▸ moves_fflush hpc hfflush⟩
  · rename_i r i sinks hpc
    exact ⟨_, Option.some.inj h ▸ moves_unlock hpc⟩

/-! ## Every run -/

/-- The invariant. -/
structure Inv (append : ι → Bool) (files : ι → Option Text) (s : LogRun τ κ ι) : Prop where
  sinks : ∀ i, Sound (append i) (files i) (s.sinks i) fun t => (s.pc t).stage i
  inOrder : ∀ t sink, ofThread t (s.taken sink) ++ (s.pc t).left sink = s.asked t sink

variable {append : ι → Bool} {files : ι → Option Text}

lemma inv_start (filePath : ι ↪ Text) (append : ι → Bool) (files : Text → Option Text)
    (name : κ → Text) (sinks : κ → List (LogSink ι)) :
    (start filePath append files name sinks : LogRun τ κ ι).Inv append
      fun i => files (filePath i) where
  sinks i := by
    refine .of_flushed ⟨rfl, fun _ => ⟨rfl, rfl⟩, nofun⟩ (fun t => ?_) nofun
    exact iff_of_false nofun nofun
  inOrder t sink := by
    cases sink with
    | console => rfl
    | file i => rfl

lemma Inv.run (hs : s.Inv append files) {fopen : Bool} (h : s.run t fopen = some s') :
    s'.Inv append files := by
  obtain ⟨pc, hpc, hcalled, hsinks, htaken⟩ :=
    moves_of_run (fun i hclosed => ((hs.sinks i).lines.closed hclosed).2) h
  refine ⟨fun i => ?_, fun t' sink => ?_⟩
  · have hstage : (fun t' => (s'.pc t').stage i) =
        Function.update (fun t' => (s.pc t').stage i) t (pc.stage i) := by
      rw [hpc]
      exact Function.comp_update (LogPC.stage i) s.pc t pc
    rw [hstage]
    exact (hs.sinks i).moves (hsinks i)
  · obtain ⟨rs, hgiven, hleft⟩ := htaken sink
    have hasked : s'.asked t' sink = s.asked t' sink := by rw [asked, asked, hcalled]
    have hbefore := hs.inOrder t' sink
    rw [hasked, ← hbefore, hgiven, ofThread_append, hpc]
    rcases eq_or_ne t' t with rfl | hne
    · rw [ofThread_map_self, Function.update_self, List.append_assoc, hleft]
    · rw [ofThread_map_of_ne hne, Function.update_of_ne hne, List.append_nil]

/-- A thread calls `Log`. -/
lemma Inv.log (hs : s.Inv append files) (hpc : s.pc t = .idle) (logger : Logger ι) (r : LogRecord)
    (pc : LogPC ι) (hstage : ∀ i, pc.stage i = none)
    (hleft : ∀ sink, pc.left sink = asks sink (logger, r)) :
    ({ s with called := Function.update s.called t (s.called t ++ [(logger, r)]) }.goto t pc).Inv
      append files := by
  refine ⟨fun i => ?_, fun t' sink => ?_⟩
  · have hsame : (fun t' => (Function.update s.pc t pc t').stage i) =
        fun t' => (s.pc t').stage i := by
      funext t'
      rcases eq_or_ne t' t with rfl | hne
      · rw [Function.update_self, hpc, hstage]
        rfl
      · rw [Function.update_of_ne hne]
    have hsink := hs.sinks i
    rwa [← hsame] at hsink
  · have hbefore := hs.inOrder t' sink
    change ofThread t' (s.taken sink) ++ (Function.update s.pc t pc t').left sink =
      (Function.update s.called t (s.called t ++ [(logger, r)]) t').flatMap _
    rcases eq_or_ne t' t with rfl | hne
    · rw [hpc] at hbefore
      rw [Function.update_self, Function.update_self, List.flatMap_append, List.flatMap_singleton,
        hleft]
      exact congrArg (· ++ asks sink (logger, r)) ((List.append_nil _).symm.trans hbefore)
    · rw [Function.update_of_ne hne, Function.update_of_ne hne]
      exact hbefore

/-- **One step** keeps the invariant. -/
theorem Inv.step [DecidableEq κ] (hs : s.Inv append files) {a : LogStep τ κ ι}
    (h : s.step a = some s') : s'.Inv append files := by
  cases a with
  | log t k level now message =>
    simp only [LogRun.step] at h
    split at h
    · rename_i hpc
      split at h
      · rename_i hfilters
        have hstays : Function.update s.pc t .idle = s.pc := by
          rw [← hpc, Function.update_eq_self]
        have hlog := hs.log hpc (s.loggers k) ⟨level, now, (s.loggers k).mName, message⟩ .idle
          (fun _ => rfl) (fun _ => (if_pos hfilters).symm)
        rw [goto, hstays] at hlog
        exact Option.some.inj h ▸ hlog
      · rename_i hpasses
        exact Option.some.inj h ▸ hs.log hpc (s.loggers k) _ _ (fun _ => rfl)
          (fun _ => (if_neg hpasses).symm)
    · cases h
  | setLevel k level => exact Option.some.inj h ▸ ⟨hs.sinks, hs.inOrder⟩
  | run t fopen => exact hs.run h
  | spill i size =>
    obtain ⟨f, hspill, rfl⟩ := Option.map_eq_some_iff.1 h
    have htaken : ∀ sink, (s.setSink i f).taken sink = s.taken sink := by
      obtain ⟨_, _, -, -, rfl⟩ := spill_eq_some hspill
      intro sink
      cases sink with
      | console => rfl
      | file j =>
        simp only [taken, setSink, Function.update_apply]
        split
        · subst j
          rfl
        · rfl
    refine ⟨fun j => ?_, fun t sink => (htaken sink).symm ▸ hs.inOrder t sink⟩
    change Sound (append j) (files j) (Function.update s.sinks i f j) _
    rcases eq_or_ne j i with rfl | hne
    · rw [Function.update_self]
      exact (hs.sinks j).spill hspill
    · rw [Function.update_of_ne hne]
      exact hs.sinks j

end LogRun

open LogRun

/-- The first `fopen` fails and its message is dropped; then the level is lowered and two threads
log, and a part of the line of the second one is written before it is flushed. -/
example :
    let filePath : Unit ↪ Text := ⟨fun _ => "./tmp/x.log".toList, fun _ _ _ => rfl⟩
    ∃ s ∈ (LogRun.machine Bool Unit Unit).exec
        (LogRun.start filePath (fun _ => true) (fun _ => some ['o', '\n']) (fun _ => ['n'])
          fun _ => [.file ()])
        [.log true () .Info ['t'] ['a'], .run true true, .run true false, .run true true,
          .run true true, .log false () .Debug ['t'] ['b'], .setLevel () .Debug,
          .log false () .Debug ['t'] ['c'], .run false true, .run false true, .run false true,
          .spill () 5],
      (s.sinks ()).mkdirs = ["./tmp".toList, "./tmp".toList] ∧
        (s.sinks ()).dropped = [(true, ⟨.Info, ['t'], ['n'], ['a']⟩)] ∧
        (s.sinks ()).file = some ("o\n[t] [".toList) ∧
        (s.sinks ()).mFileHandle = some ("DEBUG] [n] c\n".toList) := by decide +kernel

end CoreServer
