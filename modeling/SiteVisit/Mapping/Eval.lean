import SiteVisit.Mapping.Spec

namespace SiteVisit

def Datum.clean : Datum → Datum
  | .null => .text ""
  | .text s => .text (Text.trim s)
  | v => v

def matchingHeaders (p : Text.Pattern) (fields : List (String × Datum)) : List String :=
  (fields.map (·.1)).filter p.isIn

def selectHeader (required : Bool) (name : String) (v : Datum) : Except Fault Datum :=
  let found := match v with
    | .record fields _ => field? fields name
    | _ => none
  match found with
  | some v => .ok v.clean
  | none =>
    if required then .error (.ofMapping (.fieldNotFound (.header name))) else .ok (.text "")

def selectPattern (required : Bool) (p : Text.Pattern) : Transform
  | .record fields markup =>
    match matchingHeaders p fields with
    | [] => if required then .error (.ofMapping (.fieldNotFound (.pattern p))) else .ok (.text "")
    | [name] => selectHeader required name (.record fields markup)
    | names => .error (.ofMapping (.ambiguousField (.pattern p) names))
  | _ => .error (.defect .noSuchPart)

def select (required : Bool) : Selector → Transform
  | .header name => selectHeader required name
  | .pattern p => selectPattern required p

abbrev Slots := List (String × Option Datum)

def Slots.known (slots : Slots) : List (String × Datum) :=
  slots.filterMap fun (key, v) => v.map (key, ·)

/-- Adds the fields of a spliced mapping. A field that is declared or present is not replaced. -/
def Slots.splice (declared : List String) (slots : Slots) :
    List (String × Datum) → Except Fault Slots
  | [] => .ok slots
  | (key, v) :: rest =>
    if declared.contains key || slots.any (·.1 == key) then
      .error (.ofMapping (.splicedCollision key))
    else Slots.splice declared (slots ++ [(key, some v)]) rest

def Slots.derive (slots : Slots) : List (String × Derivation) → Except Fault Slots
  | [] => .ok slots
  | (key, f) :: rest => do
    let v ← f slots.known
    Slots.derive (setField key (some v) slots) rest

def isSpliced (key : String) : Spec → Bool
  | .splice _ => true
  | _ => key.toList.head? == some '$'

def fieldName (key : String) : String :=
  match key.toList with
  | '$' :: rest => String.ofList rest
  | _ => key

def Slots.put (declared : List String) (key : String) (spliced : Bool) (slots : Slots) (v : Datum) :
    Except Fault Slots :=
  if spliced then
    match v with
    | .record fields _ => Slots.splice declared slots fields
    | v => .error (.ofMapping (.splicedKind v.kind))
  else .ok (slots ++ [(key, some v)])

namespace Spec

mutual

def eval : Spec → Transform
  | .column name required, v => selectHeader required name v
  | .header name, v => selectHeader true name v
  | .pattern p required, v => selectPattern required p v
  | .regex p, v => selectPattern true p v
  | .rowFunction f, v => f v
  | .function f, v => f v
  | .pipeline s rest, v => do evalSteps rest (← eval s v)
  | .steps [], _ => .error (.misuse .emptyPipeline)
  | .steps (s :: rest), v => do evalSteps rest (← eval s v)
  | .nested fields, v => do
    let slots ← evalFields (fields.map (·.1)) fields v []
    return .record (← slots.derive (derivations fields)).known []
  | .table fields, v => do
    checkFields fields
    let slots ← evalFields (fields.map (·.1)) fields v []
    return .record (← slots.derive (derivations fields)).known []
  | .derived _, _ => .error (.misuse (.misplacedField "Derived"))
  | .splice _, _ => .error (.misuse (.misplacedField "Splice"))
  | .plain v, _ => .error (.misuse (.unknownMapper v))

def evalSteps : List Spec → Transform
  | [], v => .ok v
  | s :: rest, v => do evalSteps rest (← eval s v)

def evalFields (declared : List String) :
    List (String × Spec) → Datum → Slots → Except Fault Slots
  | [], _, slots => .ok slots
  | (key, .derived _) :: rest, v, slots => evalFields declared rest v (slots ++ [(key, none)])
  | (key, s) :: rest, v, slots => do
    let slots ← locating { field := fieldName key } do
      let value ← match s with
        | .splice inner => eval inner v
        | s => eval s v
      slots.put declared key (isSpliced key s) value
    evalFields declared rest v slots

end

end Spec

structure NumberedRow where
  number : Option Int
  value : Datum

/-- Maps rows one after the other; problems are located by the number of the row, or by its
position if it has none. -/
def mapRowsFrom (spec : Spec) (sheet : Option String) (position : Int) :
    List NumberedRow → Except Fault (List Datum)
  | [] => .ok []
  | row :: rest => do
    let v ← locating { row := some (row.number.getD position), sheet } (spec.eval row.value)
    return v :: (← mapRowsFrom spec sheet (position + 1) rest)

def mapRows (spec : Spec) (sheet : Option String) (rows : List NumberedRow) :
    Except Fault (List Datum) := do
  spec.check
  mapRowsFrom spec sheet 1 rows

def index {α κ : Type} [BEq κ] (key : α → κ) (asDatum : κ → Datum) (context : String)
    (items : List α) : Except Fault (List (κ × α)) :=
  items.foldlM (fun found item =>
    if found.any (·.1 == key item) then
      .error (.problem (.duplicateKey (asDatum (key item)) context))
    else .ok (found ++ [(key item, item)])) []

def groupBy {α κ : Type} [BEq κ] (key : α → κ) (items : List α) : List (κ × List α) :=
  items.foldl (fun groups item =>
    if groups.any (·.1 == key item) then
      groups.map fun (k, members) => (k, if k == key item then members ++ [item] else members)
    else groups ++ [(key item, [item])]) []

end SiteVisit
