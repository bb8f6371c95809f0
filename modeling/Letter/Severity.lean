/-!
# Severities

Records of the log have a severity, and are shown from a rank on.
-/

namespace Letter

/-- How much a record matters. -/
inductive Severity where
  | debug
  | info
  | warning
  | error
  | critical
  deriving DecidableEq, Repr

namespace Severity

/-- The rank of a severity, which grows with what matters. -/
def rank : Severity → Nat
  | debug => 10
  | info => 20
  | warning => 30
  | error => 40
  | critical => 50

/-- The name of a severity. -/
def name : Severity → String
  | debug => "DEBUG"
  | info => "INFO"
  | warning => "WARNING"
  | error => "ERROR"
  | critical => "CRITICAL"

/-- The severities that can be asked for by an option. -/
def choices : List Severity := [debug, info, warning, error]

/-- The severity of a given name that can be asked for by an option. -/
def ofChoice? (s : String) : Option Severity := choices.find? fun v => v.name == s

end Severity

/-- Why a name gives no rank: it belongs to the log, but to no severity. -/
inductive ThresholdError where
  /-- The name is that of the form in which records are written by default. -/
  | form
  /-- The name is that of the table of all forms. -/
  | formTable
  deriving DecidableEq, Repr

/-- The text of an error: it shows what the name stands for. -/
def ThresholdError.message : ThresholdError → String
  | form => "Unknown level: '%(levelname)s:%(name)s:%(message)s'"
  | formTable =>
    "Level not an integer or a valid string: "
      ++ "\x7b'%': (<class 'logging.PercentStyle'>, '%(levelname)s:%(name)s:%(message)s'), "
      ++ "'\x7b': (<class 'logging.StrFormatStyle'>, "
      ++ "'\x7blevelname\x7d:\x7bname\x7d:\x7bmessage\x7d'), "
      ++ "'$': (<class 'logging.StringTemplateStyle'>, "
      ++ "'$\x7blevelname\x7d:$\x7bname\x7d:$\x7bmessage\x7d')\x7d"

/-- The rank from which records are shown, by its name in capitals; under `NOTSET` all are
shown, and a name that the log does not know stands for warnings. -/
def Severity.thresholdOf : String → Except ThresholdError Nat
  | "NOTSET" => .ok 0
  | "DEBUG" => .ok debug.rank
  | "INFO" => .ok info.rank
  | "ERROR" => .ok error.rank
  | "CRITICAL" | "FATAL" => .ok critical.rank
  | "BASIC_FORMAT" => .error .form
  | "_STYLES" => .error .formTable
  | _ => .ok warning.rank

end Letter
