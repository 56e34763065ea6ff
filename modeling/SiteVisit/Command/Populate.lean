import SiteVisit.Command.Generate
import SiteVisit.Store.Place

namespace SiteVisit.Command

structure PopulateArguments where
  input : String
  config : Option String
  storePath : Option String
  verbosity : Nat
  deriving DecidableEq, Repr

namespace Populate

def options : List OptionForm :=
  [⟨["--db-path"], true⟩, ⟨["--config"], true⟩, ⟨["-v", "--verbose"], false⟩]

def parse (args : List String) : Except Refusal PopulateArguments := do
  let (input, g) ← readArguments options args
  return {
    input := Text.path input, config := (g.value? "--config").map Text.path
    storePath := (g.value? "--db-path").map Text.path, verbosity := g.count "--verbose" }

def refusal? (s : System) (f : Files) (path : String) : Option Fault :=
  match (Worktree.makeDirectories s.disk { files := f } (Text.parentPath path) (s.disk.way path)).1,
    s.disk.refusal? .create path with
  | .error e, _ => some e
  | .ok (), some e => some (.defect (if (Fault.defect e).isBadValue then e else .unopenable))
  | .ok (), none => none

def populate (s : System) (args : PopulateArguments) (settings : Settings) (path : String)
    (f : Files) : Except Fault Unit × List Message × Files :=
  match (f.load s args.input settings.loadOptions).outcome [], refusal? s f path with
  | (.error e, messages), _ => (.error e, messages, f)
  | (.ok _, messages), some e => (.error e, messages, f)
  | (.ok v, messages), none =>
    -- The store is looked for by its path as it is written, also where a disk has links.
    let (result, messages, f) := Store.populateIn f .store FileContent.isStore path v
      settings.timezone messages s.zones.timezones
    (result.map fun _ => (), messages, f)

def success (path : String) (messages : List Message) : List LogEntry :=
  (if hasErrors messages then
    [.warning ("Database populated with " ++ Text.decimal (textsOf .error messages).length ++
      " reported problems")] else []) ++
  [.info ("Successfully populated database at " ++ path)]

def run (args : PopulateArguments) (env : Environment) (f : Files) (s : System := .standard) :
    Except Fault Finished :=
  Generate.withInput s args.config args.input env f fun settings =>
    let path := args.storePath.getD settings.storePath
    let (result, messages, f) := populate s args settings path f
    let (done, messages) := collecting (Reporting.ofExcept result) messages
    let log := messages.map LogEntry.ofMessage
    match done with
    | none => .ok ⟨1, log ++ [.error ("Failed to populate " ++ path)], f⟩
    | some () => .ok ⟨0, log ++ success path messages, f⟩

end Populate
end SiteVisit.Command
