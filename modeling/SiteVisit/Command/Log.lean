import SiteVisit.Message

namespace SiteVisit.Command

inductive Level
  | info : Level
  | warning : Level
  | error : Level
  deriving DecidableEq, Repr

def Level.name : Level → String
  | info => "INFO"
  | warning => "WARNING"
  | error => "ERROR"

structure LogEntry where
  level : Level
  text : String
  deriving DecidableEq, Repr

namespace LogEntry

def info (text : String) : LogEntry := ⟨.info, text⟩

def warning (text : String) : LogEntry := ⟨.warning, text⟩

def error (text : String) : LogEntry := ⟨.error, text⟩

def ofMessage (m : Message) : LogEntry :=
  match m.severity with
  | .info => info m.text
  | .warn => warning m.text
  | .error => error m.text
  | .codeError => error ("internal error: " ++ m.text)

end LogEntry
end SiteVisit.Command
