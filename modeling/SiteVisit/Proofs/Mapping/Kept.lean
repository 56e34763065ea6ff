import SiteVisit.Mapping.Transform
import SiteVisit.Proofs.Mapping.Rows

/-!
Two rows for which a mapping gives the same, as far as it gives anything for the first of them. This
is enough to map a second batch of rows like the first one. The last field of a record can come from
elsewhere, if no derived field looks at it.
-/

namespace SiteVisit

def Spec.Carries (s : Spec) (v w : Datum) : Prop := ∀ r, s.eval v = .ok r → s.eval w = .ok r

namespace Spec

variable {v w : Datum}

theorem evalFields_carries {declared : List String} {fields : List (String × Spec)}
    (h : ∀ field ∈ fields, field.2.isDerived = false → field.2.body.Carries v w)
    {slots slots' : Slots} (hv : evalFields declared fields v slots = .ok slots') :
    evalFields declared fields w slots = .ok slots' := by
  induction fields generalizing slots with
  | nil => simpa only [evalFields] using hv
  | cons field rest ih =>
    obtain ⟨key, s⟩ := field
    obtain ⟨hs, hrest⟩ := List.forall_mem_cons.mp h
    cases hderived : s.isDerived with
    | true =>
      cases s with
      | derived f =>
        simp only [evalFields] at hv ⊢
        exact ih hrest hv
      | _ => cases hderived
    | false =>
      rw [evalFields_cons hderived] at hv ⊢
      obtain ⟨part, hput, hv⟩ := bind_eq_ok.mp hv
      obtain ⟨x, hx, hput⟩ := bind_eq_ok.mp (locating_eq_ok.mp hput)
      refine bind_eq_ok.mpr ⟨part, locating_eq_ok.mpr ?_, ih hrest hv⟩
      exact bind_eq_ok.mpr ⟨x, hs hderived x hx, hput⟩

namespace Carries

theorem refl (s : Spec) (v : Datum) : s.Carries v v := fun _ h => h

theorem pipeline {s : Spec} (h : s.Carries v w) (rest : List Spec) :
    (Spec.pipeline s rest).Carries v w := by
  intro r hr
  simp only [eval] at hr ⊢
  obtain ⟨x, hx, hr⟩ := bind_eq_ok.mp hr
  exact bind_eq_ok.mpr ⟨x, h x hx, hr⟩

theorem derived {g : Derivation} (h : (Spec.derived g).isDerived = false) :
    (Spec.derived g).body.Carries v w := absurd h Bool.false_ne_true.symm

theorem nested {fields : List (String × Spec)}
    (h : ∀ field ∈ fields, field.2.isDerived = false → field.2.body.Carries v w) :
    (Spec.nested fields).Carries v w := by
  intro r hr
  simp only [eval] at hr ⊢
  obtain ⟨slots, hslots, hr⟩ := bind_eq_ok.mp hr
  exact bind_eq_ok.mpr ⟨slots, evalFields_carries h hslots, hr⟩

end Carries
end Spec

section Batches

variable {spec : Spec} {sheet : Option String} {rows rows' : List NumberedRow}
  {records : List Datum}

theorem mapRowsFrom_eq_ok {position : Int} : mapRowsFrom spec sheet position rows = .ok records ↔
    List.Forall₂ (fun row r => spec.eval row.value = .ok r) rows records := by
  refine ⟨mapRowsFrom_ok, fun h => ?_⟩
  induction h generalizing position with
  | nil => rfl
  | cons hrow _ ih => simp only [mapRowsFrom, locating_eq_ok.mpr hrow, ih, ok_bind, pure_eq_ok]

theorem mapRows_eq_ok (hspec : spec.check = .ok ()) : mapRows spec sheet rows = .ok records ↔
    List.Forall₂ (fun row r => spec.eval row.value = .ok r) rows records := by
  rw [mapRows, hspec, ok_bind, mapRowsFrom_eq_ok]

theorem mapRows_carries (hspec : spec.check = .ok ())
    (h : List.Forall₂ (fun row row' => spec.Carries row.value row'.value) rows rows')
    (hrecords : mapRows spec sheet rows = .ok records) :
    mapRows spec sheet rows' = .ok records := by
  rw [mapRows_eq_ok hspec] at hrecords ⊢
  induction h generalizing records with
  | nil => exact hrecords
  | cons hrow _ ih =>
    cases hrecords with
    | cons hr hrest => exact .cons (hrow _ hr) (ih hrest)

end Batches

section Last

variable {key : String} {x y : Datum}

theorem field?_append_of_ne {k : String} (h : key ≠ k) (fields : List (String × Datum))
    (x : Datum) : field? (fields ++ [(key, x)]) k = field? fields k := by
  simp [field?, List.find?_append, h]

theorem Slots.known_append (slots : Slots) (key : String) (x : Datum) :
    Slots.known (slots ++ [(key, some x)]) = slots.known ++ [(key, x)] := by
  simp [Slots.known]

theorem setField_append {α : Type} {k : String} {fields : List (String × α)}
    (h : k ∈ fields.map (·.1)) (value : α) (more : List (String × α)) :
    setField k value (fields ++ more) = setField k value fields ++ more := by
  induction fields with
  | nil => cases h
  | cons f rest ih =>
    obtain ⟨k', y⟩ := f
    by_cases hk : k' = k
    · simp [setField_cons, hk]
    · have hrest : k ∈ rest.map (·.1) := (List.mem_cons.mp h).resolve_left (Ne.symm hk)
      simp [setField_cons, hk, ih hrest]

/-- Gives the same whatever value the field of a key has, if it is the last one. -/
def Derivation.Ignores (key : String) (f : Derivation) : Prop :=
  ∀ known x y, f (known ++ [(key, x)]) = f (known ++ [(key, y)])

theorem Derivation.fieldOf_append {k : String} (h : key ≠ k) (known : List (String × Datum))
    (x : Datum) : fieldOf (known ++ [(key, x)]) k = fieldOf known k := by
  rw [fieldOf, fieldOf, field?_append_of_ne h]

/-- Derived fields that ignore the last one are derived whatever it is. -/
theorem Slots.derive_last {derivations : List (String × Derivation)} {slots slots' : Slots}
    (h : ∀ d ∈ derivations, d.1 ∈ slots.map (·.1) ∧ d.2.Ignores key)
    (hx : Slots.derive (slots ++ [(key, some x)]) derivations = .ok slots') :
    ∃ first, slots' = first ++ [(key, some x)] ∧
      Slots.derive (slots ++ [(key, some y)]) derivations = .ok (first ++ [(key, some y)]) := by
  induction derivations generalizing slots with
  | nil =>
    cases hx
    exact ⟨slots, rfl, rfl⟩
  | cons d rest ih =>
    obtain ⟨k, f⟩ := d
    obtain ⟨⟨hk, hignores⟩, hrest⟩ := List.forall_mem_cons.mp h
    simp only [Slots.derive, Slots.known_append, bind_eq_ok] at hx ⊢
    obtain ⟨v, hv, hx⟩ := hx
    rw [setField_append hk] at hx
    have hkeys : (setField k (some v) slots).map (·.1) = slots.map (·.1) := by
      rw [map_setField, if_pos hk]
    obtain ⟨first, rfl, hy⟩ := ih (by rwa [hkeys]) hx
    refine ⟨first, rfl, v, (hignores _ _ _).symm.trans hv, ?_⟩
    rwa [setField_append hk]

theorem Spec.evalFields_append {declared : List String} {fields more : List (String × Spec)}
    {v : Datum} {slots : Slots} : evalFields declared (fields ++ more) v slots =
      evalFields declared fields v slots >>= evalFields declared more v := by
  induction fields generalizing slots with
  | nil => simp only [List.nil_append, evalFields, ok_bind]
  | cons field rest ih =>
    obtain ⟨key, s⟩ := field
    cases hderived : s.isDerived with
    | true =>
      cases s with
      | derived f =>
        simp only [List.cons_append, evalFields]
        exact ih
      | _ => cases hderived
    | false =>
      rw [List.cons_append, evalFields_cons hderived, evalFields_cons hderived, bind_assoc]
      exact congrArg _ (funext fun slots => ih)

theorem Spec.evalFields_first (declared : List String) (field : String × Spec)
    (rest : List (String × Spec)) (v : Datum) (slots : Slots) :
    evalFields declared (field :: rest) v slots =
      evalFields declared [field] v slots >>= evalFields declared rest v := by
  rw [← evalFields_append, List.singleton_append]

theorem Spec.evalFields_singleton {declared : List String} {s : Spec} {v : Datum}
    {slots slots' : Slots} (hderived : s.isDerived = false) (hspliced : isSpliced key s = false) :
    evalFields declared [(key, s)] v slots = .ok slots' ↔
      ∃ x, s.body.eval v = .ok x ∧ slots' = slots ++ [(key, some x)] := by
  have hput (x : Datum) :
      slots.put declared key (isSpliced key s) x = .ok (slots ++ [(key, some x)]) := by
    simp only [Slots.put, hspliced, Bool.false_eq_true, if_false]
  simp only [evalFields_cons hderived, bind_eq_ok, locating_eq_ok, hput, evalFields,
    Except.ok.injEq]
  grind

end Last
end SiteVisit
