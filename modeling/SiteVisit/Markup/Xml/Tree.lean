import SiteVisit.Markup.Xml.Token

/-!
The content of an element as a tree: character data, and elements by the local part of their
names. Tags have to be nested, the attributes of a tag have to differ, and every namespace label
has to be bound.
-/

namespace SiteVisit.Markup.Xml

inductive Node
  | text (chars : List Char) : Node
  | element (name : List Char) (children : List Node) : Node
  deriving Repr

def addText (c : Char) : List Node → List Node
  | .text cs :: nodes => .text (c :: cs) :: nodes
  | nodes => .text [c] :: nodes

structure Right where
  nodes : List Node
  outer : List (QName × List Node)

def build? : List Token → Option Right
  | [] => some ⟨[], []⟩
  | .text c :: tokens => (build? tokens).map fun r => { r with nodes := addText c r.nodes }
  | .closing name :: tokens => (build? tokens).map fun r => ⟨[], (name, r.nodes) :: r.outer⟩
  | .opening name _ :: tokens =>
    (build? tokens).bind fun r =>
      match r.outer with
      | (closed, after) :: outer =>
        if closed = name then some ⟨.element name.base r.nodes :: after, outer⟩ else none
      | [] => none

abbrev Scope := List (List Char × List Char)

def boundLabel? (name : QName) : Option (List Char) :=
  if name.space = "xmlns".toList then some name.base
  else if name.space = [] ∧ name.base = "xmlns".toList then some []
  else none

def xmlSpace : List Char := "http://www.w3.org/XML/1998/namespace".toList

def xmlnsSpace : List Char := "http://www.w3.org/2000/xmlns/".toList

/-- Whether a label may be bound to a namespace. The label xml and its namespace belong to each
other, neither xmlns nor its namespace can be bound, and only the default may be unbound. -/
def mayBind (label space : List Char) : Bool :=
  label != "xmlns".toList && (label == "xml".toList) == (space == xmlSpace) &&
    space != xmlnsSpace && (label.isEmpty || !space.isEmpty) && !space.contains '\x7d'

def bind? (scope : Scope) : List (QName × List Char) → Option Scope
  | [] => some scope
  | (name, value) :: rest =>
    match boundLabel? name with
    | none => bind? scope rest
    | some label =>
      if mayBind label value then (bind? scope rest).map ((label, value) :: ·) else none

def Scope.find? (scope : Scope) (label : List Char) : Option (List Char) :=
  if label = "xml".toList then some xmlSpace else scope.lookup label

def isBound (scope : Scope) (name : QName) : Bool :=
  name.space.isEmpty || (scope.find? name.space).isSome

def fullNames (scope : Scope) (attributes : List (QName × List Char)) :
    List (Option (List Char) × List Char) :=
  (attributes.filter fun (name, _) => (boundLabel? name).isNone).map fun (name, _) =>
    (if name.space.isEmpty then none else scope.find? name.space, name.base)

def distinct {α : Type} [BEq α] : List α → Bool
  | [] => true
  | a :: rest => !rest.contains a && distinct rest

def enter? (scope : Scope) (name : QName) (attributes : List (QName × List Char)) : Option Scope := do
  let inner ← bind? scope attributes
  if distinct (attributes.map (·.1)) && isBound inner name &&
      (attributes.all fun (a, _) => (boundLabel? a).isSome || isBound inner a) &&
      distinct (fullNames inner attributes) then some inner else none

def namesKeepRules : List Scope → List Token → Bool
  | _, [] => true
  | scopes, .text _ :: tokens => namesKeepRules scopes tokens
  | scopes, .closing _ :: tokens => namesKeepRules (scopes.drop 1) tokens
  | scopes, .opening name attributes :: tokens =>
    match enter? (scopes.head?.getD []) name attributes with
    | some inner => namesKeepRules (inner :: scopes) tokens
    | none => false

def nodes? (cs : List Char) : Option (List Node) := do
  let tokens ← tokens? cs
  let r ← build? tokens
  if r.outer.isEmpty && namesKeepRules [] tokens then some r.nodes else none

end SiteVisit.Markup.Xml
