import BoundedJobs.Text.Capital
import BoundedJobs.Timestamp.Basic
import BoundedJobs.Value.Dump
import BoundedJobs.Value.Moment

/-!
# Log lines

A line is written when its level is at least the level that is set; the level `silent` is above
all lines. A name that is no level can be set too. It has no place in the order, so while it is set
nothing is written.

* `Log.Level` — the levels in their order, with their names;
* `Log.format` — a line: the moment, the level, the message, and the data as JSON if there are
  any;
* `Log.line?` — the line that a message leaves behind under a set level, if any;
* `Log.formatAt` — a line at the moment that any value stands for;
* `Log.request` — the line that a message at any level leaves behind. There are lines at four of
  them; a message that goes to something else that every object can be asked for is accepted and
  leaves no line.

A line can fail to be written: at a moment outside the range of dates, on a clock that shows none,
or with data that JSON refuses.
-/

namespace BoundedJobs

namespace Log

/-- The levels, from the most talkative one to the one that writes nothing, and whatever else is
named as one. -/
inductive Level where
  | debug
  | info
  | warn
  | error
  | silent
  | unknown (name : String)
  deriving DecidableEq, Inhabited

namespace Level

/-- The levels that have a place in the order. -/
def all : List Level := [debug, info, warn, error, silent]

def name : Level → String
  | debug => "debug"
  | info => "info"
  | warn => "warn"
  | error => "error"
  | silent => "silent"
  | unknown name => name

/-- The name of a level as it stands in a line. -/
def mark : Level → String
  | debug => "DEBUG"
  | info => "INFO"
  | warn => "WARN"
  | error => "ERROR"
  | silent => "SILENT"
  | unknown name => Text.capitals name

/-- The place of a level in the order of levels. -/
def rank? : Level → Option Nat
  | debug => some 0
  | info => some 1
  | warn => some 2
  | error => some 3
  | silent => some 4
  | unknown _ => none

/-- Whether there are lines at a level. -/
def hasLines : Level → Bool
  | silent | unknown _ => false
  | _ => true

/-- The level with a name. -/
def ofName? (text : String) : Option Level := all.find? (·.name == text)

/-- What a text names where a level is asked for. -/
def ofText (text : String) : Level := (ofName? text).getD (unknown text)

/-- The level that a fresh process starts with, given the text of its environment variable. -/
def initial (given : Option String) : Level := (given.bind ofName?).getD info

end Level

/-- Whether a line of a level is written while `threshold` is set. -/
def Level.shows (threshold level : Level) : Bool :=
  match threshold.rank?, level.rank? with
  | some bound, some rank => bound ≤ rank
  | _, _ => false

/-- A log line. Data that show no field are left out. -/
def format (clock : Number) (level : Level) (message : String) (data : Value) :
    Except Fault String := do
  let moment ← Timestamp.text clock
  let base := moment ++ " [" ++ level.mark ++ "] " ++ message
  let fields ← data.shownFields
  if fields = 0 then return base
  else do
    let tree ← data.dump
    return base ++ " " ++ (tree.getD .null).compact

/-- The line that a message leaves behind, if its level is written at all. -/
def line? (clock : Number) (threshold level : Level) (message : String) (data : Value) :
    Except Fault (Option String) :=
  if threshold.shows level then some <$> format clock level message data else .ok none

/-- The refusal of a message at a level that has no lines. -/
def noLines : Fault := Fault.wrongType "The level has no lines"

/-- The names under which every object can be asked for something that has no effect. -/
def commonNames : List String :=
  ["constructor", "hasOwnProperty", "isPrototypeOf", "propertyIsEnumerable", "toLocaleString",
   "toString", "valueOf", "__lookupGetter__", "__lookupSetter__"]

/-- A log line at the moment that a value stands for. -/
def formatAt (clock : Value) (level : Level) (message : String) (data : Value) :
    Except Fault String := do
  let moment ← clock.toMoment
  format moment level message data

/-- The line that a message at any level leaves behind, if its level is written at all. The clock is
only looked at for a line that is written. -/
def request (clock : Value) (threshold level : Level) (message : String) (data : Value) :
    Except Fault (Option String) :=
  if level.hasLines then
    if threshold.shows level then some <$> formatAt clock level message data else .ok none
  else if commonNames.contains level.name then .ok none
  else .error noLines

/-- The data of a line about an error. -/
def errorData (error : Value) : Value := .object [("error", error)]

end Log

end BoundedJobs
