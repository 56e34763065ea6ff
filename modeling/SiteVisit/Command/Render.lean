import SiteVisit.Command.Files
import SiteVisit.Command.Log
import SiteVisit.Documents.Kind

namespace SiteVisit.Command

structure Job where
  name : String
  output : String
  generate : Visit → DocumentSettings → Reporting Documents.Document

def Job.ofKind (kind : Documents.Kind) (output : String) : Job :=
  { name := kind.name, output, generate := kind.generate }

structure Outcome where
  name : String
  output : String
  messages : List Message
  succeeded : Bool
  deriving DecidableEq, Repr

section

variable (disk : Disk) (v : Visit) (settings : DocumentSettings)

def Job.run (job : Job) (t : Worktree FileContent) : Outcome × Worktree FileContent :=
  match collecting (job.generate v settings) [] with
  | (none, messages) => (⟨job.name, job.output, messages, false⟩, t)
  | (some d, messages) =>
    let (saved, t) := save disk t job.output d
    let (done, messages) := collecting (Reporting.ofExcept saved) messages
    (⟨job.name, job.output, messages, done.isSome⟩, t)

def runAll (t : Worktree FileContent) : List Job → List Outcome × Worktree FileContent
  | [] => ([], t)
  | job :: rest =>
    let (outcome, t) := job.run disk v settings t
    let (outcomes, t) := runAll t rest
    (outcome :: outcomes, t)

end

abbrev Rendering := Visit → DocumentSettings → Files → List Job → List Outcome × Files

def renderAll (v : Visit) (settings : DocumentSettings) (f : Files) (jobs : List Job)
    (disk : Disk := .plain) : List Outcome × Files :=
  let (outcomes, t) := runAll disk v settings { files := f } jobs
  (outcomes, t.files)

namespace Outcome

def log (o : Outcome) : List LogEntry :=
  o.messages.map .ofMessage ++
    if o.succeeded then [.info ("Wrote " ++ o.name ++ " itinerary to " ++ o.output)] else []

def failure (o : Outcome) : LogEntry :=
  .error (o.name ++ " itinerary failed with " ++
    if (textsOf .codeError o.messages).isEmpty then "a data error" else "an internal error")

end Outcome

def failed (outcomes : List Outcome) : List Outcome := outcomes.filter (!·.succeeded)

def reportFailures (outcomes : List Outcome) : List LogEntry := (failed outcomes).map (·.failure)

end SiteVisit.Command
