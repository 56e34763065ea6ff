import SiteVisit.Text.Separated

namespace SiteVisit.Text

def realSteps (cs : List Char) : List (List Char) :=
  (splitAt '/' cs).filter fun s => !s.isEmpty && s != ['.']

def root : List Char → List Char
  | '/' :: '/' :: '/' :: _ => ['/']
  | '/' :: '/' :: _ => ['/', '/']
  | '/' :: _ => ['/']
  | _ => []

def pathChars (cs : List Char) : List Char :=
  match root cs ++ ['/'].intercalate (realSteps cs) with
  | [] => ['.']
  | p => p

def path (s : String) : String := String.ofList (pathChars s.toList)

def inDirectory (directory file : String) : String := path (directory ++ "/" ++ file)

def parentPath (s : String) : String :=
  match root s.toList ++ ['/'].intercalate (realSteps s.toList).dropLast with
  | [] => "."
  | p => String.ofList p

def stepFrom (rooted : Bool) (here : List (List Char)) (step : List Char) : List (List Char) :=
  if step != ['.', '.'] then step :: here
  else
    match here with
    | [] => if rooted then [] else [step]
    | last :: before => if last == ['.', '.'] then step :: here else before

def stationsFrom (rooted : Bool) : List (List Char) → List (List Char) → List (List (List Char))
  | _, [] => []
  | here, step :: rest =>
    let here := stepFrom rooted here step
    here :: stationsFrom rooted here rest

/-- The places that a path leads through, the last of which is the one that it leads to, by their
straight paths. Links are not known here. -/
def stations (s : String) : List String :=
  let start := root s.toList
  (stationsFrom (!start.isEmpty) [] (realSteps s.toList)).map fun steps =>
    match start ++ ['/'].intercalate steps.reverse with
    | [] => "."
    | p => String.ofList p

/-- Whether a path leads to a directory that exists anywhere: the present one, those above it and
the root. -/
def isStanding (s : String) : Bool := (realSteps s.toList).all (· == ['.', '.'])

end SiteVisit.Text
