import SiteVisit.Datum
import SiteVisit.Text.Pattern

/-!
Everything that can go wrong, by its cause, and the one place where causes get their wording.

A `Problem` is a fault of the workbook that the person who edited it can mend. A mapping problem
also says where it was met; a place that is known already is never replaced. A `Misuse` is a
setting or a specification that makes no sense. A `Defect` is anything else.
-/

namespace SiteVisit

open Text (quoted)

/-- How a column is asked for: by its exact header or by a pattern that one header has to fit. -/
inductive Selector
  | header (name : String) : Selector
  | pattern (p : Text.Pattern) : Selector
  deriving DecidableEq, Repr

def Selector.shown : Selector → String
  | .header name => quoted name
  | .pattern p => "/" ++ p.source ++ "/"

structure Place where
  field : Option String := none
  row : Option Int := none
  sheet : Option String := none
  deriving DecidableEq, Repr

namespace Place

def fill (p q : Place) : Place :=
  ⟨p.field.orElse fun _ => q.field, p.row.orElse fun _ => q.row, p.sheet.orElse fun _ => q.sheet⟩

def parts (p : Place) : List String :=
  ((p.sheet.filter (· != "")).map fun s => "sheet '" ++ s ++ "'").toList ++
    (p.row.map fun n => "row " ++ Text.signedDecimal n).toList ++
    ((p.field.filter (· != "")).map fun f => "field '" ++ f ++ "'").toList

end Place

inductive MappingCause
  | fieldNotFound (selector : Selector) : MappingCause
  | ambiguousField (selector : Selector) (candidates : List String) : MappingCause
  | unmappedValue (value : Datum) : MappingCause
  | unparseableTime (label : String) : MappingCause
  | splicedCollision (key : String) : MappingCause
  | splicedKind (kind : String) : MappingCause
  | other (message : String) : MappingCause

def MappingCause.message : MappingCause → String
  | .fieldNotFound s => "column " ++ s.shown ++ " not found"
  | .ambiguousField s candidates =>
    "multiple columns match " ++ s.shown ++ ": " ++ ", ".intercalate candidates ++
      "; use a more specific expression"
  | .unmappedValue v => "unmapped value: " ++ v.spelled
  | .unparseableTime label => "could not interpret time: " ++ quoted label
  | .splicedCollision key =>
    "spliced field " ++ quoted key ++ " collides with an existing field"
  | .splicedKind kind => "spliced mapper must produce a mapping, got " ++ kind
  | .other message => message

structure MappingProblem where
  cause : MappingCause
  place : Place := {}

namespace MappingProblem

def message (p : MappingProblem) : String :=
  match p.place.parts with
  | [] => p.cause.message
  | parts => ", ".intercalate parts ++ ": " ++ p.cause.message

def located (p : MappingProblem) (place : Place) : MappingProblem :=
  { p with place := p.place.fill place }

end MappingProblem

inductive MarkupProblem
  | malformed : MarkupProblem
  | unexpectedText (text context : String) : MarkupProblem
  | unexpectedTag (tag context : String) : MarkupProblem
  | other (message : String) : MarkupProblem
  deriving DecidableEq, Repr

def MarkupProblem.message : MarkupProblem → String
  | .malformed => "malformed rich text markup"
  | .unexpectedText text context =>
    "unexpected text " ++ quoted (Text.trim text) ++ " in " ++ context
  | .unexpectedTag tag context => "unexpected tag <" ++ tag ++ "> in " ++ context
  | .other message => message

inductive Problem
  | mapping (p : MappingProblem) : Problem
  | markup (p : MarkupProblem) : Problem
  | noCandidate (name role : String) : Problem
  | ambiguousCandidate (name role : String) (candidates : List String) : Problem
  | duplicateKey (key : Datum) (context : String) : Problem
  | unknownRole (role participant : String) : Problem
  | missingZoomRoom (room meeting : String) : Problem
  | missingRoleRow (label : String) (row : Int) (sheet : String) : Problem
  | missingSheet (name : String) (available : List String) : Problem
  | other (message : String) : Problem

def ifNamed (s : String) (phrase : String) : String := if s.isEmpty then "" else phrase

def Problem.message : Problem → String
  | .mapping p => p.message
  | .markup p => p.message
  | .noCandidate name role =>
    "no participant with last name " ++ quoted name ++ " for role " ++ quoted role
  | .ambiguousCandidate name role candidates =>
    "multiple participants with last name " ++ quoted name ++ " for role " ++ quoted role ++ ": " ++
      ", ".intercalate candidates
  | .duplicateKey key context => "duplicate key " ++ key.spelled ++ ifNamed context (" in " ++ context)
  | .unknownRole role participant =>
    "unknown team member role " ++ quoted role ++
      ifNamed participant (" (assigned to " ++ participant ++ ")")
  | .missingZoomRoom room meeting =>
    "missing zoom room " ++ quoted room ++ ifNamed meeting (" referenced by " ++ quoted meeting)
  | .missingRoleRow label row sheet =>
    "role matrix " ++ label ++ " row " ++ Text.signedDecimal row ++ " not found" ++
      ifNamed sheet (" on sheet " ++ quoted sheet)
  | .missingSheet name available =>
    let names := ", ".intercalate available
    "worksheet " ++ quoted name ++ " not found; available: " ++
      (if names.isEmpty then "none" else names)
  | .other message => message

inductive Misuse
  | emptyPipeline : Misuse
  | unknownMapper (value : Datum) : Misuse
  | misplacedField (kind : String) : Misuse
  | clock (fault : Calendar.ClockFault) : Misuse
  | unknownTimezone (name : String) : Misuse
  | roleSourceKind : Misuse
  | unknownRoleSource (type : String) : Misuse
  | sheetsKind : Misuse
  | configSyntax (path : String) : Misuse
  | configKind (path : String) : Misuse
  | momentWithoutZone : Misuse
  | storeNotFound (path : String) : Misuse

def Misuse.message : Misuse → String
  | .emptyPipeline => "Pipeline requires at least one step"
  | .unknownMapper v => "did not understand mapper: " ++ v.spelled
  | .misplacedField kind => kind ++ " is only valid as a field of a nested mapper"
  | .clock fault => fault.message
  | .unknownTimezone name => "Unknown timezone: " ++ name
  | .roleSourceKind => "team_role_source must be a mapping with a 'type' key."
  | .unknownRoleSource type => "Unknown team_role_source type: " ++ type
  | .sheetsKind => "sheets must be a mapping of meetings/participants/zoom_rooms names."
  | .configSyntax path => "Failed to parse YAML config at " ++ path
  | .configKind path => "Config at " ++ path ++ " must be a mapping."
  | .momentWithoutZone => "now must be timezone-aware"
  | .storeNotFound path => "Database not found at " ++ path ++ "; run populate_database.py first."

def Misuse.name : Misuse → String
  | .unknownMapper _ | .misplacedField _ => "TypeError"
  | .storeNotFound _ => "FileNotFoundError"
  | _ => "ValueError"

inductive Defect
  /-- A value was asked for a part that its kind does not have. -/
  | noSuchPart : Defect
  /-- A value of this kind cannot be used in this way. -/
  | wrongKind : Defect
  | missingKey (key : String) : Defect
  | badMoment : Defect
  | badNumber : Defect
  /-- A moment or a number leaves its range. -/
  | outOfRange : Defect
  /-- A number has no whole part. -/
  | notANumber : Defect
  | notUnique (column : String) : Defect
  /-- A file is where a directory is needed. -/
  | fileInTheWay (path : String) : Defect
  /-- A file is where a directory above the needed one would be. -/
  | notADirectory (path : String) : Defect
  | isADirectory (path : String) : Defect
  /-- A path is longer than a system takes, or a name in it is. -/
  | longName (path : String) : Defect
  /-- A store cannot be opened where a directory is. -/
  | unopenable : Defect
  /-- A file holds something else than a store. -/
  | notAStore : Defect
  /-- A file holds something else than a workbook. -/
  | notAWorkbook : Defect
  /-- A file holds something else than text. -/
  | notText : Defect
  /-- A text holds characters that a document cannot hold. -/
  | unwritable : Defect
  /-- A failure of the toolkit itself. -/
  | toolkit (message : String) : Defect
  /-- A failure that came from outside, by its name and text. -/
  | foreign (name text : String) : Defect
  deriving DecidableEq, Repr

def Defect.name : Defect → String
  | .noSuchPart => "AttributeError"
  | .wrongKind => "TypeError"
  | .missingKey _ => "KeyError"
  | .badMoment | .badNumber | .notANumber | .unwritable => "ValueError"
  | .outOfRange => "OverflowError"
  | .notUnique _ => "IntegrityError"
  | .fileInTheWay _ => "FileExistsError"
  | .notADirectory _ => "NotADirectoryError"
  | .isADirectory _ => "IsADirectoryError"
  | .longName _ => "OSError"
  | .unopenable => "OperationalError"
  | .notAStore => "DatabaseError"
  | .notAWorkbook => "InvalidFileException"
  | .notText => "UnicodeDecodeError"
  | .toolkit _ => "VisitError"
  | .foreign name _ => name

def Defect.message : Defect → String
  | .noSuchPart => "no such attribute"
  | .wrongKind => "unsupported operand"
  | .missingKey key => quoted key
  | .badMoment => "Invalid isoformat string"
  | .badNumber => "invalid literal"
  | .outOfRange => "date value out of range"
  | .notANumber => "cannot convert float NaN to integer"
  | .notUnique column => "UNIQUE constraint failed: " ++ column
  | .fileInTheWay path => "[Errno 17] File exists: " ++ quoted path
  | .notADirectory path => "[Errno 20] Not a directory: " ++ quoted path
  | .isADirectory path => "[Errno 21] Is a directory: " ++ quoted path
  | .longName path => "[Errno 36] File name too long: " ++ quoted path
  | .unopenable => "unable to open database file"
  | .notAStore => "file is not a database"
  | .notAWorkbook => "not a workbook"
  | .notText => "invalid start byte"
  | .unwritable =>
    "All strings must be XML compatible: Unicode or ASCII, no NULL bytes or control characters"
  | .toolkit message => message
  | .foreign _ text => text

inductive Fault
  | problem (p : Problem) : Fault
  | misuse (m : Misuse) : Fault
  | defect (d : Defect) : Fault

instance : Inhabited Fault := ⟨.defect .wrongKind⟩

namespace Fault

def message : Fault → String
  | .problem p => p.message
  | .misuse m => m.message
  | .defect d => d.message

/-- Whether a value, rather than its kind or a place, is what is wrong. -/
def isBadValue : Fault → Bool
  | .problem _ => false
  | .misuse m => m.name == "ValueError"
  | .defect .notText => true
  | .defect d => d.name == "ValueError"

def ofMapping (cause : MappingCause) : Fault := .problem (.mapping ⟨cause, {}⟩)

def located (place : Place) : Fault → Fault
  | .problem (.mapping p) => .problem (.mapping (p.located place))
  | f => f

end Fault

def locating {α : Type} (place : Place) : Except Fault α → Except Fault α
  | .ok a => .ok a
  | .error f => .error (f.located place)

end SiteVisit
