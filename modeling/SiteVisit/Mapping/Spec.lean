import SiteVisit.Fault

/-!
Mapping specifications: how the value of a field comes from a labelled row.

A specification is a tree. The tagged forms say what they are; the shorthand forms are written
by authors and stand for tagged ones: a text for a column, a pattern for the one column that
fits it, a list for a pipeline, a table for a nested record and a function for itself.
-/

namespace SiteVisit

abbrev Transform := Datum → Except Fault Datum

abbrev Derivation := List (String × Datum) → Except Fault Datum

inductive Spec
  | column (name : String) (required : Bool) : Spec
  | pattern (p : Text.Pattern) (required : Bool) : Spec
  | rowFunction (f : Transform) : Spec
  /-- The steps of a pipeline, of which there is at least one. -/
  | pipeline (first : Spec) (others : List Spec) : Spec
  | nested (fields : List (String × Spec)) : Spec
  /-- A field that is computed from the other fields of its record. -/
  | derived (f : Derivation) : Spec
  /-- A mapping whose fields become fields of the record around it. -/
  | splice (inner : Spec) : Spec
  | header (name : String) : Spec
  | regex (p : Text.Pattern) : Spec
  | steps (items : List Spec) : Spec
  | table (fields : List (String × Spec)) : Spec
  | function (f : Transform) : Spec
  /-- A plain value, which is no specification. -/
  | plain (value : Datum) : Spec

instance : Inhabited Spec := ⟨.plain .null⟩

namespace Spec

def pipelineOf : List Spec → Except Fault Spec
  | [] => .error (.misuse .emptyPipeline)
  | s :: rest => .ok (.pipeline s rest)

mutual

/-- What can be found wrong with a specification before a row is seen. The fields of a table are
looked at as well; the steps of a list are left until they are reached. -/
def check : Spec → Except Fault Unit
  | .steps [] => .error (.misuse .emptyPipeline)
  | .table fields => checkFields fields
  | .plain v => .error (.misuse (.unknownMapper v))
  | _ => .ok ()

def checkFields : List (String × Spec) → Except Fault Unit
  | [] => .ok ()
  | (_, s) :: rest => do check s; checkFields rest

end

mutual

def elaborated : Spec → Spec
  | .header name => .column name true
  | .regex p => .pattern p true
  | .steps [] => .steps []
  | .steps (s :: rest) => .pipeline (elaborated s) (elaboratedSteps rest)
  | .table fields => .nested (elaboratedFields fields)
  | .function f => .rowFunction f
  | .pipeline s rest => .pipeline (elaborated s) (elaboratedSteps rest)
  | .nested fields => .nested (elaboratedFields fields)
  | .splice s => .splice (elaborated s)
  | s => s

def elaboratedSteps : List Spec → List Spec
  | [] => []
  | s :: rest => elaborated s :: elaboratedSteps rest

def elaboratedFields : List (String × Spec) → List (String × Spec)
  | [] => []
  | (key, s) :: rest => (key, elaborated s) :: elaboratedFields rest

end

def derivations (fields : List (String × Spec)) : List (String × Derivation) :=
  fields.filterMap fun
    | (key, .derived f) => some (key, f)
    | _ => none

end Spec
end SiteVisit
