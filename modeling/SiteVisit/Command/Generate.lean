import SiteVisit.Command.Arguments
import SiteVisit.Command.Render
import SiteVisit.Visit.Export

namespace SiteVisit.Command

structure GenerateArguments where
  input : String
  config : Option String
  exportDirectory : Option String
  verbosity : Nat
  /-- The documents to be written, in the order of their kinds. -/
  jobs : List (Documents.Kind × String)
  deriving DecidableEq, Repr

structure Finished where
  code : Nat
  log : List LogEntry
  files : Files

namespace Generate

def flag (kind : Documents.Kind) : String := "--" ++ kind.name

def outputOption (kind : Documents.Kind) : String := flag kind ++ "-out"

def options : List OptionForm :=
  Documents.Kind.all.flatMap (fun kind => [⟨[flag kind], false⟩, ⟨[outputOption kind], true⟩]) ++
    [⟨["--config"], true⟩, ⟨["--export-dir"], true⟩, ⟨["-v", "--verbose"], false⟩]

def jobs (g : Given) : List (Documents.Kind × String) :=
  Documents.Kind.all.filterMap fun kind =>
    match g.value? (outputOption kind) with
    | some output => some (kind, Text.path output)
    | none => if g.has (flag kind) then some (kind, kind.standardFile) else none

def parse (args : List String) : Except Refusal GenerateArguments := do
  let (input, g) ← readArguments options args
  let jobs := jobs g
  if jobs.isEmpty then .error (.fault (.noOutputs (Documents.Kind.all.map flag)))
  return {
    input := Text.path input, config := (g.value? "--config").map Text.path
    exportDirectory := (g.value? "--export-dir").map Text.path
    verbosity := g.count "--verbose", jobs }

def writeTables (s : System) (v : Visit) (directory : String) (f : Files) :
    Except Fault (List LogEntry × Files) := do
  let meetings := Text.inDirectory directory "meetings.csv"
  let participants := Text.inDirectory directory "participants.csv"
  let (made, t) := Worktree.makeDirectories s.disk { files := f } directory
    (s.disk.way directory ++ [s.disk.real directory])
  made
  let (written, t) := t.write s.disk meetings (.table v.meetingsTable)
  written
  let (written, t) := t.write s.disk participants (.table v.participantsTable)
  written
  return ([.info ("Wrote meetings CSV to " ++ meetings),
    .info ("Wrote participants CSV to " ++ participants)], t.files)

def write (s : System) (render : Rendering) (args : GenerateArguments) (settings : Settings)
    (v : Visit) (f : Files) : Except Fault Finished := do
  let (tables, f) ← match args.exportDirectory with
    | none => pure ([], f)
    | some directory => writeTables s v directory f
  let (outcomes, f) := render v settings.documents f (args.jobs.map fun (k, out) => .ofKind k out)
  let log := tables ++ outcomes.flatMap Outcome.log ++ reportFailures outcomes
  match (failed outcomes).length with
  | 0 => return ⟨0, log, f⟩
  | n => return ⟨1, log ++ [.error (Text.decimal n ++ " of " ++ Text.decimal outcomes.length ++
      " documents failed")], f⟩

/-- Reads the settings and the input, and goes on with them if they can be read. A fault that nobody
foresaw ends the command without a result. -/
def withInput (s : System) (config : Option String) (input : String) (env : Environment) (f : Files)
    (act : Settings → Except Fault Finished) : Except Fault Finished :=
  match Settings.load config env (f.configAt s) s with
  | .error e =>
    if e.isBadValue then .ok ⟨1, [.error ("Failed to load config: " ++ e.message)], f⟩ else .error e
  | .ok settings =>
    match f.look s.disk input with
    | .error e => .error e
    | .ok .absent => .ok ⟨1, [.error ("Input file not found: " ++ input)], f⟩
    | .ok _ => act settings

def runWith (s : System) (render : Rendering) (args : GenerateArguments) (env : Environment)
    (f : Files) : Except Fault Finished :=
  withInput s args.config args.input env f fun settings =>
    match collecting (f.load s args.input settings.loadOptions) [] with
    | (none, messages) =>
      .ok ⟨1, messages.map .ofMessage ++ [.error ("Failed to load " ++ args.input)], f⟩
    | (some v, messages) => do
      let done ← write s render args settings v f
      return { done with log := messages.map .ofMessage ++ done.log }

def run (args : GenerateArguments) (env : Environment) (f : Files) (s : System := .standard) :
    Except Fault Finished :=
  runWith s (fun v settings f jobs => renderAll v settings f jobs s.disk) args env f

end Generate
end SiteVisit.Command
