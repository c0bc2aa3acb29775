import Lightpath.Controller.Settings
import Lightpath.Text.Pattern

/-!
# Logging

Records below a threshold are not written. Every line carries the name of the controller, so that lines of
several controllers can be told apart; the name is part of the pattern of the line. The libraries below the
controller are held to warnings.
-/

namespace Lightpath.Controller

/-- How records are written: from a threshold on, under the name of the controller, and perhaps also to a
file. -/
structure Logging where
  threshold : LogLevel
  controllerId : String
  file : Option String
  deriving DecidableEq, Repr

/-- A record of a logger; the root logger has no name. -/
structure Record where
  logger : String
  level : LogLevel
  text : String
  deriving DecidableEq, Repr

/-- The loggers of the libraries that are held to warnings. -/
def quietLoggers : List String :=
  ["redis", "urllib3", "requests", "uvicorn.access"]

/-- The level of these loggers. -/
def quietLevel : LogLevel := .warning

namespace Logging

/-- The logging of the settings, with another threshold or file where they are given. An empty name is no
file. -/
def ofSettings (settings : Settings) (threshold : Option LogLevel) (file : Option String) : Logging :=
  let file := match file with
    | some f => some f
    | none => settings.logFile
  ⟨threshold.getD settings.logLevel, settings.controllerId, if file = some "" then none else file⟩

/-- Whether a logger is another one or below it. -/
def isUnder (logger parent : String) : Bool :=
  logger == parent || (parent.toList ++ ['.']).isPrefixOf logger.toList

/-- The level below which a logger drops records. -/
def levelOf (l : Logging) (logger : String) : LogLevel :=
  if quietLoggers.any (isUnder logger) then quietLevel else l.threshold

/-- Whether a record is written: neither its logger nor the threshold drops it. -/
def writes (l : Logging) (r : Record) : Bool :=
  decide ((l.levelOf r.logger).number ≤ r.level.number ∧ l.threshold.number ≤ r.level.number)

/-- The name of a logger in a line. -/
def shownLogger (logger : String) : String :=
  if logger = "" then "root" else logger

/-- The pattern of a line, of which the name of the controller is a part. -/
def pattern (l : Logging) : String :=
  "%(asctime)s - " ++ l.controllerId ++ " - %(name)s - %(levelname)s - %(message)s"

/-- The values that a pattern may ask for. -/
def valueOf (time : String) (r : Record) : String → Option String
  | "asctime" => some time
  | "name" => some (shownLogger r.logger)
  | "levelname" => some r.level.name
  | "levelno" => some (toString r.level.number)
  | "message" => some r.text
  | _ => none

/-- The text of a record that was made at a time. There is none if the name of the controller spoils the
pattern. -/
def render (l : Logging) (time : String) (r : Record) : Option String :=
  (Text.fill (valueOf time r) l.pattern.toList).map String.ofList

/-- The records that tell how logging is set up. -/
def announcements (l : Logging) : List Record :=
  ⟨"", .info, "Logging configured with level: " ++ l.threshold.name⟩ ::
    (match l.file with
      | some f => [⟨"", .info, "Logging to file: " ++ f⟩]
      | none => [])

/-- The lines that are written for some records, after those that tell how logging is set up. -/
def lines (l : Logging) (time : String) (records : List Record) : List String :=
  (((l.announcements ++ records).filter l.writes).filterMap (l.render time)).flatMap fun text =>
    text.splitOn "\n"

/-- The thresholds of the outputs: one for the console and one for the file. -/
def outputs (l : Logging) : List LogLevel :=
  l.threshold :: (match l.file with
    | some _ => [l.threshold]
    | none => [])

end Logging

end Lightpath.Controller
