import SiteVisit.Command.Populate
import SiteVisit.Workbook.Read

/-!
The command line. The first argument names a command and the others are its arguments. The files
that the command finds stand on the standard input as plain data, a mapping with a field for each
path. The log goes to the standard error, and the files that the command writes are shown on the
standard output.
-/

namespace SiteVisit.Command

def FileContent.ofDatum : Datum → FileContent
  | .list sheets => .workbook (Workbook.ofDatum (.list sheets))
  | .text s => .config (.text s)
  | v => .config (.values v)

def Files.ofDatum : Datum → Files
  | .record fields _ => ⟨fields.map fun (path, v) => (Text.path path, .ofDatum v)⟩
  | _ => {}

def FileContent.shown? : FileContent → Option String
  | document d => some d.plainText
  | table csv => some csv
  | store s => some ("\n".intercalate (s.counts.map fun (name, n) => name ++ " " ++ Text.decimal n))
  | _ => none

def runNamed? (name : String) (args : List String) (env : Environment) (f : Files) :
    Option (Except Refusal (Except Fault Finished)) :=
  match name with
  | "documents" => some ((Generate.parse args).map (Generate.run · env f))
  | "store" => some ((Populate.parse args).map (Populate.run · env f))
  | _ => none

def readEnvironment : IO Environment := do
  return {
    config := ← IO.getEnv "VISIT_CONFIG"
    storePath := ← IO.getEnv "VISIT_DB_PATH"
    timezone := ← IO.getEnv "VISIT_TIMEZONE"
    maxWorkers := ← IO.getEnv "VISIT_MAX_WORKERS" }

def readFiles : IO Files := do
  match Yaml.read (← (← IO.getStdin).readToEnd) with
  | .ok v => return .ofDatum v
  | .error _ => return {}

def Finished.show (r : Finished) : IO UInt32 := do
  for e in r.log do
    IO.eprintln (e.level.name ++ " " ++ e.text)
  for (path, content) in r.files.files do
    if let some text := content.shown? then
      IO.println (path ++ ":\n" ++ text)
  return r.code.toUInt32

end SiteVisit.Command

open SiteVisit.Command in
def main (args : List String) : IO UInt32 := do
  match runNamed? (args.headD "") args.tail (← readEnvironment) (← readFiles) with
  | none =>
    IO.eprintln "error: the command is documents or store"
    return 2
  | some (.error .help) => return 0
  | some (.error (.fault f)) =>
    IO.eprintln ("error: " ++ f.message)
    return 2
  | some (.ok (.error f)) =>
    IO.eprintln f.message
    return 1
  | some (.ok (.ok done)) => done.show
