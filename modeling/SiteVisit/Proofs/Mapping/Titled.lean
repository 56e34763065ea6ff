import SiteVisit.Mapping.Transform
import SiteVisit.Proofs.Mapping.Nested
import SiteVisit.Workbook.Records

namespace SiteVisit

/-- Whether a name does not begin as the names of headers without a text do. -/
def isTitle (name : String) : Bool := !emptyHeader.toList.isPrefixOf name.toList

def titledFields {α : Type} (fields : List (String × α)) : List (String × α) :=
  fields.filter fun f => isTitle f.1

def Datum.titled : Datum → Datum
  | .record fields markup => .record (titledFields fields) (titledFields markup)
  | v => v

def NumberedRow.titled (row : NumberedRow) : NumberedRow := ⟨row.number, row.value.titled⟩

section Fields

variable {α : Type} {key : String} {fields : List (String × α)}

@[simp] theorem titledFields_cons (f : String × α) (fields : List (String × α)) :
    titledFields (f :: fields) =
      if isTitle f.1 then f :: titledFields fields else titledFields fields := by
  simp only [titledFields, List.filter_cons]

theorem titledFields_append {more : List (String × α)} (h : ∀ f ∈ more, isTitle f.1 = false) :
    titledFields (fields ++ more) = titledFields fields := by
  have hmore : more.filter (fun f => isTitle f.1) = [] :=
    List.filter_eq_nil_iff.mpr fun f hf => by simp [h f hf]
  simp only [titledFields, List.filter_append, hmore, List.append_nil]

theorem field?_titledFields (h : isTitle key) (fields : List (String × α)) :
    field? (titledFields fields) key = field? fields key := by
  induction fields with
  | nil => rfl
  | cons f rest ih =>
    simp only [field?, titledFields_cons] at ih ⊢
    by_cases hf : f.1 = key
    · simp [hf, h]
    · split <;> simpa [hf] using ih

theorem titledFields_setField (key : String) (value : α) (fields : List (String × α)) :
    titledFields (setField key value fields) =
      if isTitle key then setField key value (titledFields fields) else titledFields fields := by
  induction fields with
  | nil => exact titledFields_cons (key, value) []
  | cons f rest ih =>
    obtain ⟨k, y⟩ := f
    by_cases hk : k = key
    · subst hk
      by_cases hkey : isTitle k <;> simp [setField_cons, hkey]
    · by_cases hkey : isTitle k
      · simp only [setField_cons, beq_iff_eq, hk, if_false, titledFields_cons, hkey, if_true, ih]
        split <;> rfl
      · simp only [setField_cons, beq_iff_eq, hk, if_false, titledFields_cons, hkey, ih]
        simp

theorem titledFields_fieldsOf (pairs : List (String × α)) :
    titledFields (fieldsOf pairs) = fieldsOf (titledFields pairs) := by
  have hgo : ∀ fields : List (String × α),
      titledFields (pairs.foldl (fun fields p => setField p.1 p.2 fields) fields) =
        (titledFields pairs).foldl (fun fields p => setField p.1 p.2 fields)
          (titledFields fields) := by
    induction pairs with
    | nil => exact fun _ => rfl
    | cons p pairs ih =>
      intro fields
      rw [List.foldl_cons, ih, titledFields_setField, titledFields_cons]
      split <;> rfl
  exact hgo []

end Fields

section Selecting

variable {name : String} {required : Bool} {p : Text.Pattern}

theorem selectHeader_titled (h : isTitle name) (v : Datum) :
    selectHeader required name v.titled = selectHeader required name v := by
  cases v with
  | record fields markup => simp only [Datum.titled, selectHeader, field?_titledFields h]
  | _ => rfl

theorem matchingHeaders_titledFields (hp : ∀ name, p.isIn name → isTitle name)
    (fields : List (String × Datum)) :
    matchingHeaders p (titledFields fields) = matchingHeaders p fields := by
  induction fields with
  | nil => rfl
  | cons f rest ih =>
    simp only [matchingHeaders, titledFields_cons] at ih ⊢
    by_cases hf : isTitle f.1
    · simp only [hf, if_true, List.map_cons, List.filter_cons, ih]
    · have hnot : p.isIn f.1 = false := by
        rw [← Bool.not_eq_true]
        exact fun hin => hf (hp _ hin)
      simp only [hf, Bool.false_eq_true, if_false, List.map_cons, List.filter_cons, hnot, ih]

theorem selectPattern_titled (hp : ∀ name, p.isIn name → isTitle name) (v : Datum) :
    selectPattern required p v.titled = selectPattern required p v := by
  cases v with
  | record fields markup =>
    simp only [Datum.titled, selectPattern, matchingHeaders_titledFields hp]
    split
    · rfl
    · next name hnames =>
      have hname : name ∈ matchingHeaders p fields := by rw [hnames]; exact List.mem_singleton_self _
      exact selectHeader_titled (hp name (List.mem_filter.mp hname).2) (.record fields markup)
    · rfl
  | _ => rfl

theorem markupOf_titled (h : isTitle name) (v : Datum) :
    Transform.markupOf name v.titled = Transform.markupOf name v := by
  cases v with
  | record fields markup => simp only [Datum.titled, Transform.markupOf, field?_titledFields h]
  | _ => rfl

end Selecting

namespace Text.Pattern

theorem occurs_start (ignoreCase : Bool) (as : List Atom) (cs : List Char) :
    occurs ignoreCase (.start :: as) false cs = false := by
  induction cs with
  | nil => rfl
  | cons c cs ih => simp only [occurs, fits, Bool.false_and, Bool.false_or, ih]

theorem head_of_isIn {p : Pattern} {a : Char} {as : List Atom} (h : p.atoms = .start :: .char a :: as)
    {s : String} (hs : p.isIn s) :
    ∃ c cs, s.toList = c :: cs ∧ sameChar p.ignoreCase a c := by
  rw [isIn, h] at hs
  cases hcs : s.toList with
  | nil =>
    rw [hcs] at hs
    cases hs
  | cons c cs =>
    simp only [hcs, occurs, occurs_start, fits, Bool.true_and, Bool.or_false,
      Bool.and_eq_true] at hs
    exact ⟨c, cs, rfl, hs.1⟩

end Text.Pattern

namespace Spec

theorem evalFields_congr {declared : List String} {fields : List (String × Spec)} {v w : Datum}
    (h : ∀ field ∈ fields, field.2.isDerived = false → field.2.body.eval v = field.2.body.eval w)
    (slots : Slots) : evalFields declared fields v slots = evalFields declared fields w slots := by
  induction fields generalizing slots with
  | nil => rfl
  | cons field rest ih =>
    obtain ⟨key, s⟩ := field
    obtain ⟨hs, hrest⟩ := List.forall_mem_cons.mp h
    cases hderived : s.isDerived with
    | true =>
      cases s with
      | derived f =>
        simp only [evalFields]
        exact ih hrest _
      | _ => cases hderived
    | false =>
      rw [evalFields_cons hderived, evalFields_cons hderived, hs hderived]
      exact congrArg _ (funext fun slots => ih hrest slots)

def ReadsTitles (s : Spec) : Prop := ∀ v : Datum, s.eval v.titled = s.eval v

namespace ReadsTitles

variable {name : String} {required : Bool} {p : Text.Pattern} {f : Transform}

theorem column (h : isTitle name) : (Spec.column name required).ReadsTitles := fun v => by
  simp only [eval, selectHeader_titled h]

theorem pattern (hp : ∀ name, p.isIn name → isTitle name) :
    (Spec.pattern p required).ReadsTitles := fun v => by
  simp only [eval, selectPattern_titled hp]

theorem rowFunction (hf : ∀ v : Datum, f v.titled = f v) : (Spec.rowFunction f).ReadsTitles :=
  fun v => by simp only [eval, hf]

theorem pipeline {s : Spec} (h : s.ReadsTitles) (rest : List Spec) :
    (Spec.pipeline s rest).ReadsTitles := fun v => by
  simp only [eval, h v]

theorem derived {g : Derivation} (h : (Spec.derived g).isDerived = false) :
    (Spec.derived g).body.ReadsTitles := absurd h Bool.false_ne_true.symm

theorem nested {fields : List (String × Spec)}
    (h : ∀ field ∈ fields, field.2.isDerived = false → field.2.body.ReadsTitles) :
    (Spec.nested fields).ReadsTitles := fun v => by
  simp only [eval, evalFields_congr fun field hfield hderived => h field hfield hderived v]

end ReadsTitles
end Spec

section Batches

variable {spec : Spec} {sheet : Option String} {rows rows' : List NumberedRow}

theorem mapRowsFrom_congr (hspec : spec.ReadsTitles)
    (h : rows.map NumberedRow.titled = rows'.map NumberedRow.titled) (position : Int) :
    mapRowsFrom spec sheet position rows = mapRowsFrom spec sheet position rows' := by
  induction rows generalizing rows' position with
  | nil =>
    rw [List.map_eq_nil_iff.mp h.symm]
  | cons row rest ih =>
    obtain ⟨row', rest', rfl, hrow, hrest⟩ := List.map_eq_cons_iff.mp h.symm
    obtain ⟨hnumber, hvalue⟩ := NumberedRow.mk.inj hrow
    simp only [mapRowsFrom, ← hspec row.value, ← hspec row'.value, hvalue, hnumber,
      ih hrest.symm]

theorem mapRows_congr (hspec : spec.ReadsTitles)
    (h : rows.map NumberedRow.titled = rows'.map NumberedRow.titled) :
    mapRows spec sheet rows = mapRows spec sheet rows' := by
  simp only [mapRows, mapRowsFrom_congr hspec h]

end Batches
end SiteVisit
