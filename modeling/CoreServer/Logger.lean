import CoreServer.Lib.Delimited

/-!
# The logger (`core/Logger.hpp`)

A `Logger` passes the messages whose level is not below its own to its sinks, which it shares with
other loggers.  A sink gets a record, and the file sinks write it as one line.

The time is read from the clock, and the message has been formatted by the library; both are what
the record says they are.
-/

namespace CoreServer

/-- `core::String`. -/
abbrev Text := List Char

inductive eLogLevel where
  | Trace
  | Debug
  | Info
  | Warn
  | Error
  | Critical
  | Off
deriving DecidableEq, Repr

/-- `ToLevelName`. -/
def toLevelName : eLogLevel → Text
  | .Trace => "TRACE".toList
  | .Debug => "DEBUG".toList
  | .Info => "INFO".toList
  | .Warn => "WARN".toList
  | .Error => "ERROR".toList
  | .Critical => "CRITICAL".toList
  | .Off => "OFF".toList

/-- The number of a level in the enumeration. -/
def eLogLevel.toNat : eLogLevel → ℕ
  | Trace => 0
  | Debug => 1
  | Info => 2
  | Warn => 3
  | Error => 4
  | Critical => 5
  | Off => 6

/-- The arguments of `ILogSink::Write`. -/
structure LogRecord where
  level : eLogLevel
  timestampIso8601 : Text
  loggerName : Text
  formattedMessage : Text
deriving DecidableEq, Repr

namespace LogRecord

/-- `"[{}] [{}] {}"`, or `"[{}] [{}] [{}] {}"` if the logger has a name. -/
def body (r : LogRecord) : Text :=
  if r.loggerName.isEmpty then
    '[' :: (r.timestampIso8601 ++ ']' :: ' ' :: '[' :: (toLevelName r.level ++ ']' :: ' ' ::
      r.formattedMessage))
  else
    '[' :: (r.timestampIso8601 ++ ']' :: ' ' :: '[' :: (toLevelName r.level ++ ']' :: ' ' :: '[' ::
      (r.loggerName ++ ']' :: ' ' :: r.formattedMessage)))

/-- What `fmt::println` prints. -/
def line (r : LogRecord) : Text := r.body ++ ['\n']

end LogRecord

/-- A sink of a logger: a `FileSink`, or the `ConsoleSink`, which has no state. -/
inductive LogSink (ι : Type) where
  | console
  | file (index : ι)
deriving DecidableEq, Repr

/-- `Logger`. -/
structure Logger (ι : Type) where
  mName : Text
  mLevel : eLogLevel
  mSinks : List (LogSink ι)
deriving DecidableEq, Repr

namespace Logger

variable {ι : Type}

/-- `Logger(name, sinks)`. -/
def construct (name : Text) (sinks : List (LogSink ι)) : Logger ι := ⟨name, .Info, sinks⟩

/-- `SetLevel`. -/
def setLevel (logger : Logger ι) (level : eLogLevel) : Logger ι := { logger with mLevel := level }

/-- The test in `Log`: the message is dropped. -/
def Filters (logger : Logger ι) (level : eLogLevel) : Prop :=
  level.toNat < logger.mLevel.toNat ∨ logger.mLevel = .Off

instance (logger : Logger ι) : DecidablePred logger.Filters :=
  fun _ => inferInstanceAs (Decidable (_ ∨ _))

end Logger

/-! ## Reading a log back -/

namespace LogRecord

variable {r r' : LogRecord}

end LogRecord

/-- With and without a name, a line does not tell its record. -/
example : LogRecord.line ⟨.Info, ['t'], [], "[a] b".toList⟩ =
    LogRecord.line ⟨.Info, ['t'], ['a'], ['b']⟩ := by decide

end CoreServer
