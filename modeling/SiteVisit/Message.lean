import SiteVisit.Fault

namespace SiteVisit

inductive Severity
  | info : Severity
  | warn : Severity
  | error : Severity
  | codeError : Severity
  deriving DecidableEq, Repr

def Severity.name : Severity → String
  | .info => "info"
  | .warn => "warn"
  | .error => "error"
  | .codeError => "codeError"

structure Message where
  severity : Severity
  text : String
  deriving DecidableEq, Repr

def textsOf (severity : Severity) (messages : List Message) : List String :=
  (messages.filter (·.severity == severity)).map (·.text)

def hasErrors (messages : List Message) : Bool :=
  messages.any fun m => m.severity == .error || m.severity == .codeError

/-- A computation that reports messages and may end with a fault. -/
abbrev Reporting := ExceptT Fault (StateM (List Message))

namespace Reporting

def report (severity : Severity) (text : String) : Reporting Unit :=
  modifyGet fun messages => ((), messages ++ [⟨severity, text⟩])

def info (text : String) : Reporting Unit := report .info text

def warn (text : String) : Reporting Unit := report .warn text

def error (text : String) : Reporting Unit := report .error text

def ofExcept {α : Type} : Except Fault α → Reporting α
  | .ok a => pure a
  | .error f => throw f

def outcome {α : Type} (action : Reporting α) (messages : List Message) :
    Except Fault α × List Message :=
  action.run.run messages

end Reporting

/-- The message that tells of a fault: problems are errors of the data, anything else is an
internal error and named. -/
def Fault.asMessage : Fault → Message
  | .problem p => ⟨.error, p.message⟩
  | .misuse m => ⟨.codeError, m.name ++ ": " ++ m.message⟩
  | .defect d => ⟨.codeError, d.name ++ ": " ++ d.message⟩

def collecting {α : Type} (action : Reporting α) (messages : List Message) :
    Option α × List Message :=
  match action.outcome messages with
  | (.ok a, messages) => (some a, messages)
  | (.error f, messages) => (none, messages ++ [f.asMessage])

end SiteVisit
