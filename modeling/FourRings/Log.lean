import FourRings.Text.Hex

/-!
# The log

Records carry a level, the part of the machine that speaks and a message. `LogRecord.line` is their
one written form. `Logger` is the switch behind which records are kept: nothing is logged before it
is installed, it is installed once, and from then on it lets everything but traces through.
-/

namespace FourRings

/-- How much a record matters, the gravest first. -/
inductive LogLevel where
  | error
  | warn
  | info
  | debug
  | trace
deriving DecidableEq, Repr

namespace LogLevel

def all : List LogLevel := [.error, .warn, .info, .debug, .trace]

def name : LogLevel → String
  | .error => "ERROR"
  | .warn => "WARN"
  | .info => "INFO"
  | .debug => "DEBUG"
  | .trace => "TRACE"

def rank : LogLevel → Nat
  | .error => 1
  | .warn => 2
  | .info => 3
  | .debug => 4
  | .trace => 5

/-- The least grave level that the machine still logs. -/
def threshold : LogLevel := .debug

/-- Whether records of the level pass the threshold. -/
def Enabled (l : LogLevel) : Prop := l.rank ≤ threshold.rank

instance (l : LogLevel) : Decidable l.Enabled :=
  inferInstanceAs (Decidable (l.rank ≤ threshold.rank))

end LogLevel

/-- One record of the log. -/
structure LogRecord where
  level : LogLevel
  target : String
  message : String
deriving DecidableEq, Repr

/-- A record as a line: level in five columns and target in brackets, then the message. -/
def LogRecord.line (r : LogRecord) : String :=
  "[" ++ Text.padRight 5 r.level.name ++ " " ++ r.target ++ "] " ++ r.message ++ "\n"

/-! ### The parts of the machine that speak -/

namespace LogTarget

/-- The global table. -/
def table : String := "ringos::kernel::gdt"

/-- The call gates. -/
def gates : String := "ringos::kernel::gate"

/-- The boot sequence. -/
def boot : String := "ringos::kernel::ring"

/-- The core, as it takes control back from a ring. -/
def core : String := "ringos::kernel::ring::ring0"

end LogTarget

/-- Where records go: nowhere until a logger is installed. -/
structure Logger where
  /-- The least grave level logged, once a logger is installed. -/
  level : Option LogLevel := none
deriving DecidableEq, Repr

namespace Logger

/-- What is reported when a second logger is installed. -/
def alreadyInstalled : String :=
  "attempted to set a logger after the logging system was already initialized"

/-- Installs the logger, unless one is there. -/
def install (l : Logger) : Except String Logger :=
  match l.level with
  | none => .ok ⟨some LogLevel.threshold⟩
  | some _ => .error alreadyInstalled

/-- The name of the least grave level logged. -/
def levelName (l : Logger) : String :=
  match l.level with
  | none => "OFF"
  | some level => level.name

end Logger

end FourRings
