import TypedQuery.Value.Basic

/-!
# Logs

A log entry has a severity. A threshold, given by the name of a level, lets the entries pass that
are at most as verbose; a name that is no level lets none pass.

* `levelNames`: the levels, from the least to the most verbose;
* `Severity.passes`: whether a threshold lets an entry pass;
* `Log`: the entries that a log has kept.
-/

namespace TypedQuery

/-- The names of the levels, from the least to the most verbose. -/
def levelNames : List String := ["silent", "error", "warn", "info", "debug"]

def isLevelName (name : String) : Bool := levelNames.contains name

inductive Severity
  | error
  | warn
  | info
  | debug
  deriving DecidableEq

namespace Severity

def all : List Severity := [.error, .warn, .info, .debug]

def name : Severity → String
  | .error => "error"
  | .warn => "warn"
  | .info => "info"
  | .debug => "debug"

def ofName? (name : String) : Option Severity := all.find? fun s => s.name = name

/-- The place of a severity among the levels. -/
def rank : Severity → Nat
  | .error => 1
  | .warn => 2
  | .info => 3
  | .debug => 4

theorem idxOf?_name (s : Severity) : levelNames.idxOf? s.name = some s.rank := by
  cases s <;> decide

/-- Whether a threshold lets an entry of this severity pass. -/
def passes (s : Severity) (threshold : String) : Bool :=
  match levelNames.idxOf? threshold with
  | some limit => s.rank ≤ limit
  | none => false

end Severity

/-- An entry, without the scope of the log that it goes to. -/
structure LogEntry where
  severity : Severity
  message : String
  data : Option (Members Value)

/-- The line in which a console shows an entry. -/
def LogEntry.line (entry : LogEntry) (scope : String) : String :=
  "[" ++ scope ++ "] " ++ entry.message

abbrev Log := List LogEntry

namespace Log

/-- The entries that a threshold lets pass. -/
def atThreshold (threshold : String) (log : Log) : Log :=
  log.filter fun entry => entry.severity.passes threshold

/-- Adds an entry if the threshold lets it pass. -/
def record (threshold : String) (log : Log) (entry : LogEntry) : Log :=
  if entry.severity.passes threshold then log ++ [entry] else log

theorem foldl_record (threshold : String) (entries log : Log) :
    entries.foldl (record threshold) log = log ++ atThreshold threshold entries := by
  induction entries generalizing log with
  | nil => simp [atThreshold]
  | cons entry rest ih =>
    rw [List.foldl_cons, ih]
    unfold record atThreshold
    by_cases h : entry.severity.passes threshold = true
    · simp [h]
    · simp [h]

end Log

end TypedQuery
