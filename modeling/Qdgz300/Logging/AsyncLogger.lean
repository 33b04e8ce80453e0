import Mathlib.Algebra.GroupWithZero.Nat
import Mathlib.Data.List.Basic

/-!
# The JSON lines of the asynchronous logger (`src/logging/async_logger.cpp`)

`build_json_line`: a log line from the wall clock, the run and trace ids, a module name, a message
and an optional detail. A `std::string` is the `String` whose UTF-8 it holds: the characters that
the code tells apart are ASCII, so its loop over the bytes treats every other character as it is.

`system_clock` counts nanoseconds from the epoch.
-/

namespace Qdgz300.Logging

/-- `spdlog::level::level_enum`. -/
inductive LevelEnum where
  | trace
  | debug
  | info
  | warn
  | err
  | critical
  | off
  deriving DecidableEq, Repr

def levelToJsonString : LevelEnum → String
  | .trace => "TRACE"
  | .debug => "DEBUG"
  | .info => "INFO"
  | .warn => "WARN"
  | .err => "ERROR"
  | .critical => "CRITICAL"
  | .off => "OFF"

/-- The fields of `struct tm` that a log line shows. -/
structure Tm where
  tmYear : Int
  tmMon : Int
  tmMday : Int
  tmHour : Int
  tmMin : Int
  tmSec : Int
  deriving DecidableEq, Repr

/-- `gmtime_r`: the civil date in UTC of a number of seconds from the epoch. Years are counted from
March and in eras of 400. -/
def gmtimeR (seconds : Int) : Tm :=
  let days := seconds / 86400 + 719468
  let inEra := days % 146097
  let yearOfEra := (inEra - inEra / 1460 + inEra / 36524 - inEra / 146096) / 365
  let dayOfYear := inEra - (365 * yearOfEra + yearOfEra / 4 - yearOfEra / 100)
  let month := (5 * dayOfYear + 2) / 153
  let year := yearOfEra + 400 * (days / 146097) + (if month < 10 then 0 else 1)
  { tmYear := year - 1900
    tmMon := if month < 10 then month + 2 else month - 10
    tmMday := dayOfYear - (153 * month + 2) / 5 + 1
    tmHour := seconds % 86400 / 3600
    tmMin := seconds % 3600 / 60
    tmSec := seconds % 60 }

example : gmtimeR 1709210096 = ⟨124, 1, 29, 12, 34, 56⟩ := by decide

/-- `%0Nd`. -/
def zeroPadded (width : Nat) (n : Int) : List Char :=
  if n < 0 then '-' :: (Nat.toDigits 10 n.natAbs).leftpad (width - 1) '0'
  else (Nat.toDigits 10 n.natAbs).leftpad width '0'

/-- `ts_buf`, of 64 bytes, at clock reading `now`. -/
def tsBuf (now : Int) : List Char :=
  let epochMs := now.tdiv 1000000
  let tm := gmtimeR (now.tdiv 1000000000)
  let msPart := epochMs.tmod 1000
  (zeroPadded 4 (tm.tmYear + 1900) ++ '-' :: zeroPadded 2 (tm.tmMon + 1) ++ '-' ::
    zeroPadded 2 tm.tmMday ++ 'T' :: zeroPadded 2 tm.tmHour ++ ':' :: zeroPadded 2 tm.tmMin ++ ':' ::
    zeroPadded 2 tm.tmSec ++ '.' :: zeroPadded 3 msPart ++ ['Z']).take 63

/-- The static members of `AsyncLogger` that a line shows, on the calling thread. -/
structure AsyncLogger where
  runId : BitVec 64
  threadTraceId : BitVec 64

/-- The escapes of the message. -/
def escapeChar (c : Char) : List Char :=
  if c = '"' then ['\\', '"']
  else if c = '\\' then ['\\', '\\']
  else if c = '\n' then ['\\', 'n']
  else [c]

/-- `build_json_line`. -/
def AsyncLogger.buildJsonLine (s : AsyncLogger) (now : Int) (level : LevelEnum)
    (module msg : String) (detailJson : String := "") : String :=
  "\x7b\"ts\":\"" ++ String.ofList (tsBuf now) ++
  "\",\"level\":\"" ++ levelToJsonString level ++
  "\",\"run_id\":" ++ s.runId.toNat.repr ++
  ",\"trace_id\":" ++ s.threadTraceId.toNat.repr ++
  ",\"module\":\"" ++ module ++
  "\",\"msg\":\"" ++ String.ofList (msg.toList.flatMap escapeChar) ++
  "\"" ++ (if detailJson = "" then "" else ",\"detail\":" ++ detailJson) ++
  "\x7d"

end Qdgz300.Logging
