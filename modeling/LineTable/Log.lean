/-
Log records.

A query says what it noticed in a list of records, oldest first.  A level shows
the records that are at least as severe as itself.
-/

namespace LineTable
namespace Log

inductive Level where
  | warn
  | info
  | debug
deriving DecidableEq, Repr

namespace Level

def name : Level → String
  | warn => "WARN"
  | info => "INFO"
  | debug => "DEBUG"

/-- Lower is more severe. -/
def rank : Level → Nat
  | warn => 0
  | info => 1
  | debug => 2

end Level

structure Record where
  level : Level
  message : String
deriving DecidableEq, Repr

def Record.text (r : Record) : String := r.level.name ++ " " ++ r.message

/-- Whether a log limited to `limit` shows a record. -/
def Record.shown (limit : Level) (r : Record) : Bool := r.level.rank ≤ limit.rank

end Log

/-- What was noticed, oldest first. -/
abbrev Log := List Log.Record

namespace Log

/-- The lines that a log limited to `limit` shows. -/
def lines (limit : Level) (log : Log) : List String :=
  (log.filter (Record.shown limit)).map Record.text

end Log
end LineTable
