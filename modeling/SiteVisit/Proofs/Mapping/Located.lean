import SiteVisit.Proofs.Mapping.Kept

/-!
Where a mapping fails, and what its problem then says. A failure begins at one place of the
specification, inside of none or more fields; the innermost of these is the field that the problem
names. A batch of rows fails with its first row that does.
-/

namespace SiteVisit

section Places

theorem MappingProblem.foldl_located (p : MappingProblem) (places : List Place) :
    (places.foldl located p).cause = p.cause ∧
    (places.foldl located p).place.field = (p.place :: places).findSome? (·.field) ∧
    (places.foldl located p).place.row = (p.place :: places).findSome? (·.row) ∧
    (places.foldl located p).place.sheet = (p.place :: places).findSome? (·.sheet) := by
  induction places generalizing p with
  | nil =>
    obtain ⟨cause, ⟨_ | _, _ | _, _ | _⟩⟩ := p <;> exact ⟨rfl, rfl, rfl, rfl⟩
  | cons place places ih =>
    obtain ⟨hcause, hfield, hrow, hsheet⟩ := ih (p.located place)
    simp only [List.foldl_cons, hcause, hfield, hrow, hsheet]
    obtain ⟨cause, ⟨_ | _, _ | _, _ | _⟩⟩ := p <;> exact ⟨rfl, rfl, rfl, rfl⟩

theorem Place.mem_parts {p : Place} {text : String} : text ∈ p.parts ↔
    (∃ s, p.sheet = some s ∧ s ≠ "" ∧ text = "sheet '" ++ s ++ "'") ∨
    (∃ n, p.row = some n ∧ text = "row " ++ Text.signedDecimal n) ∨
    ∃ s, p.field = some s ∧ s ≠ "" ∧ text = "field '" ++ s ++ "'" := by
  simp only [parts, List.mem_append, Option.mem_toList, Option.map_eq_some_iff,
    Option.filter_eq_some_iff, bne_iff_ne, or_assoc, and_assoc, eq_comm (a := text)]

theorem MappingProblem.message_eq (p : MappingProblem) :
    p.message = (if p.place.parts = [] then "" else ", ".intercalate p.place.parts ++ ": ") ++
      p.cause.message := by
  rw [message]
  split
  · next h => simp [h]
  · next parts hne => rw [if_neg (by simpa using hne)]

theorem Place.fill_fill (p q r : Place) : (p.fill q).fill r = p.fill (q.fill r) := by
  obtain ⟨_ | _, _ | _, _ | _⟩ := p <;> rfl

theorem Place.fill_empty (p : Place) : p.fill {} = p := by
  obtain ⟨_ | _, _ | _, _ | _⟩ := p <;> rfl

theorem Fault.located_located (f : Fault) (p q : Place) :
    (f.located p).located q = f.located (p.fill q) := by
  cases f with
  | problem problem =>
    cases problem with
    | mapping m => simp only [located, MappingProblem.located, Place.fill_fill]
    | _ => rfl
  | misuse _ => rfl
  | defect _ => rfl

theorem Fault.located_empty (f : Fault) : f.located {} = f := by
  cases f with
  | problem problem =>
    cases problem with
    | mapping m => simp only [located, MappingProblem.located, Place.fill_empty]
    | _ => rfl
  | misuse _ => rfl
  | defect _ => rfl

theorem locating_eq_error {α : Type} {place : Place} {x : Except Fault α} {e : Fault} :
    locating place x = .error e ↔ ∃ f, x = .error f ∧ e = f.located place := by
  cases x with
  | ok a => simp [locating]
  | error f => simp [locating, eq_comm]

end Places

namespace Spec

section Failures

inductive Runs : Spec → List Spec → Prop
  | pipeline {first others} : Runs (.pipeline first others) (first :: others)
  | steps {first others} : Runs (.steps (first :: others)) (first :: others)

inductive Builds : Spec → List (String × Spec) → Prop
  | nested {fields} : Builds (.nested fields) fields
  | table {fields} : checkFields fields = .ok () → Builds (.table fields) fields

def names (fields : List (String × Spec)) : List String := fields.map (·.1)

/-- A fault arises inside of fields with these names, the outermost first. Fields that are derived
are not among them: their faults arise in the record that they belong to. -/
inductive Fails : Spec → Datum → List String → Fault → Prop
  | here {s v f} : (∀ steps, ¬ Runs s steps) → (∀ fields, ¬ Builds s fields) →
      s.eval v = .error f → Fails s v [] f
  | step {s v before t after x path f} : Runs s (before ++ t :: after) →
      evalSteps before v = .ok x → Fails t x path f → Fails s v path f
  | field {s v before key t after slots path f} : Builds s (before ++ (key, t) :: after) →
      t.isDerived = false →
      evalFields (names (before ++ (key, t) :: after)) before v [] = .ok slots →
      Fails t.body v path f → Fails s v (fieldName key :: path) f
  | put {s v before key t after slots x f} : Builds s (before ++ (key, t) :: after) →
      t.isDerived = false →
      evalFields (names (before ++ (key, t) :: after)) before v [] = .ok slots →
      t.body.eval v = .ok x →
      slots.put (names (before ++ (key, t) :: after)) key (isSpliced key t) x = .error f →
      Fails s v [fieldName key] f
  | derive {s v fields slots f} : Builds s fields →
      evalFields (names fields) fields v [] = .ok slots →
      slots.derive (derivations fields) = .error f → Fails s v [] f

def innermost (path : List String) : Place := { field := path.getLast? }

theorem located_innermost (f : Fault) (key : String) (path : List String) :
    (f.located (innermost path)).located { field := key } =
      f.located (innermost (key :: path)) := by
  rw [Fault.located_located]
  cases path with
  | nil => rfl
  | cons name path =>
    rw [innermost, innermost, List.getLast?_cons_cons,
      List.getLast?_eq_some_getLast (List.cons_ne_nil name path)]
    rfl

variable {s : Spec} {v : Datum}

theorem evalSteps_append (before after : List Spec) (v : Datum) :
    evalSteps (before ++ after) v = evalSteps before v >>= evalSteps after := by
  induction before generalizing v with
  | nil => rfl
  | cons t before ih =>
    rw [List.cons_append, evalSteps, evalSteps, bind_assoc]
    exact congrArg _ (funext ih)

theorem Runs.eval_eq {steps : List Spec} (h : Runs s steps) (v : Datum) :
    s.eval v = evalSteps steps v := by
  cases h <;> rw [eval, evalSteps]

theorem Builds.eval_eq {fields : List (String × Spec)} (h : Builds s fields) (v : Datum) :
    s.eval v = evalFields (names fields) fields v [] >>= fun slots =>
      slots.derive (derivations fields) >>= fun slots => .ok (.record slots.known []) := by
  cases h with
  | nested => rw [eval]; rfl
  | table hcheck => rw [eval, hcheck]; rfl

theorem Fails.eval_eq {path : List String} {f : Fault} (h : Fails s v path f) :
    s.eval v = .error (f.located (innermost path)) := by
  induction h with
  | here _ _ h => rw [h]; exact congrArg _ (Fault.located_empty _).symm
  | step hruns hbefore _ ih =>
    rw [hruns.eval_eq, evalSteps_append, hbefore, ok_bind, evalSteps, ih, error_bind]
  | field hbuilds hderived hbefore _ ih =>
    rw [hbuilds.eval_eq, evalFields_append, hbefore, ok_bind, evalFields_cons hderived, ih,
      error_bind, locating, error_bind, error_bind, located_innermost]
  | put hbuilds hderived hbefore hx hput =>
    rw [hbuilds.eval_eq, evalFields_append, hbefore, ok_bind, evalFields_cons hderived, hx, ok_bind,
      hput, locating, error_bind, error_bind]
    rfl
  | derive hbuilds hslots hderive =>
    rw [hbuilds.eval_eq, hslots, ok_bind, hderive, error_bind]
    exact congrArg _ (Fault.located_empty _).symm

theorem exists_of_evalSteps_error {steps : List Spec} {e : Fault}
    (h : evalSteps steps v = .error e) : ∃ before t after x, steps = before ++ t :: after ∧
      evalSteps before v = .ok x ∧ t.eval x = .error e := by
  induction steps generalizing v with
  | nil => cases h
  | cons t rest ih =>
    rw [evalSteps, bind_eq_error] at h
    rcases h with h | ⟨x, hx, h⟩
    · exact ⟨[], t, rest, v, rfl, rfl, h⟩
    · obtain ⟨before, u, after, y, rfl, hbefore, hu⟩ := ih h
      exact ⟨t :: before, u, after, y, rfl, by rw [evalSteps, hx, ok_bind, hbefore], hu⟩

theorem exists_of_evalFields_error {declared : List String} {fields : List (String × Spec)}
    {slots : Slots} {e : Fault} (h : evalFields declared fields v slots = .error e) :
    ∃ before key t after slots' f, fields = before ++ (key, t) :: after ∧ t.isDerived = false ∧
      evalFields declared before v slots = .ok slots' ∧
      t.body.eval v >>= slots'.put declared key (isSpliced key t) = .error f ∧
      e = f.located { field := fieldName key } := by
  induction fields generalizing slots with
  | nil => cases h
  | cons field rest ih =>
    obtain ⟨key, t⟩ := field
    cases hderived : t.isDerived with
    | true =>
      cases t with
      | derived g =>
        simp only [evalFields] at h
        obtain ⟨before, key', u, after, slots', f, rfl, hu, hbefore, hf, he⟩ := ih h
        exact ⟨(key, .derived g) :: before, key', u, after, slots', f, rfl, hu,
          by rw [evalFields, hbefore], hf, he⟩
      | _ => cases hderived
    | false =>
      rw [evalFields_cons hderived, bind_eq_error] at h
      rcases h with h | ⟨slots₁, hslots₁, h⟩
      · obtain ⟨f, hf, he⟩ := locating_eq_error.mp h
        exact ⟨[], key, t, rest, slots, f, rfl, hderived, rfl, hf, he⟩
      · obtain ⟨before, key', u, after, slots', f, rfl, hu, hbefore, hf, he⟩ := ih h
        refine ⟨(key, t) :: before, key', u, after, slots', f, rfl, hu, ?_, hf, he⟩
        rw [evalFields_cons hderived, hslots₁, ok_bind, hbefore]

theorem sizeOf_of_runs {steps : List Spec} (h : Runs s steps) {t : Spec} (ht : t ∈ steps) :
    sizeOf t < sizeOf s := by
  have hlt := List.sizeOf_lt_of_mem ht
  cases h with
  | pipeline =>
    simp only [List.cons.sizeOf_spec] at hlt
    simp only [Spec.pipeline.sizeOf_spec]
    omega
  | steps =>
    simp only [Spec.steps.sizeOf_spec]
    omega

theorem sizeOf_body_le (s : Spec) : sizeOf s.body ≤ sizeOf s := by
  cases s with
  | splice inner => simp [body]
  | _ => exact le_rfl

theorem sizeOf_of_builds {fields : List (String × Spec)} (h : Builds s fields) {key : String}
    {t : Spec} (ht : (key, t) ∈ fields) : sizeOf t.body < sizeOf s := by
  have hlt := List.sizeOf_lt_of_mem ht
  have hbody := sizeOf_body_le t
  simp only [Prod.mk.sizeOf_spec] at hlt
  cases h with
  | nested =>
    simp only [Spec.nested.sizeOf_spec]
    omega
  | table =>
    simp only [Spec.table.sizeOf_spec]
    omega

theorem exists_fails {s : Spec} {v : Datum} {e : Fault} (h : s.eval v = .error e) :
    ∃ path f, Fails s v path f ∧ e = f.located (innermost path) := by
  -- Steps, and what is mapped for fields, are parts of the specification and so smaller than it.
  by_cases hruns : ∃ steps, Runs s steps
  · obtain ⟨steps, hruns⟩ := hruns
    rw [hruns.eval_eq] at h
    obtain ⟨before, t, after, x, rfl, hbefore, ht⟩ := exists_of_evalSteps_error h
    have hsize := sizeOf_of_runs hruns (List.mem_append_right before List.mem_cons_self)
    obtain ⟨path, f, hf, rfl⟩ := exists_fails ht
    exact ⟨path, f, .step hruns hbefore hf, rfl⟩
  by_cases hbuilds : ∃ fields, Builds s fields
  · obtain ⟨fields, hbuilds⟩ := hbuilds
    rw [hbuilds.eval_eq, bind_eq_error] at h
    rcases h with h | ⟨slots, hslots, h⟩
    · obtain ⟨before, key, t, after, slots, f, rfl, ht, hbefore, hf, rfl⟩ :=
        exists_of_evalFields_error h
      have hsize := sizeOf_of_builds hbuilds (List.mem_append_right before List.mem_cons_self)
      rcases bind_eq_error.mp hf with hf | ⟨x, hx, hput⟩
      · obtain ⟨path, g, hg, rfl⟩ := exists_fails hf
        exact ⟨fieldName key :: path, g, .field hbuilds ht hbefore hg, located_innermost g _ _⟩
      · exact ⟨[fieldName key], f, .put hbuilds ht hbefore hx hput, rfl⟩
    · rcases bind_eq_error.mp h with h | ⟨slots', -, h⟩
      · exact ⟨[], e, .derive hbuilds hslots h, (Fault.located_empty e).symm⟩
      · cases h
  · exact ⟨[], e, .here (not_exists.mp hruns) (not_exists.mp hbuilds) h,
      (Fault.located_empty e).symm⟩
termination_by sizeOf s

theorem eval_eq_error {e : Fault} : s.eval v = .error e ↔
    ∃ path f, Fails s v path f ∧ e = f.located (innermost path) := by
  refine ⟨exists_fails, ?_⟩
  rintro ⟨path, f, hf, rfl⟩
  exact hf.eval_eq

/-- What is refused as a specification gives no row anything else. -/
theorem eval_of_check_error {f : Fault} (h : s.check = .error f) (v : Datum) :
    s.eval v = .error f := by
  cases s with
  | steps items =>
    cases items with
    | nil =>
      cases h
      rfl
    | cons first others => cases h
  | table fields =>
    rw [check] at h
    rw [eval, h, error_bind]
  | plain value =>
    cases h
    rfl
  | _ => cases h

end Failures

end Spec

section Batches

variable {spec : Spec} {sheet : Option String} {rows before after : List NumberedRow}
  {row : NumberedRow} {e : Fault}

theorem mapRowsFrom_eq_error {position : Int}
    (hbefore : ∀ earlier ∈ before, ∃ r, spec.eval earlier.value = .ok r)
    (hrow : spec.eval row.value = .error e) :
    mapRowsFrom spec sheet position (before ++ row :: after) = .error
      (e.located { row := some (row.number.getD (position + before.length)), sheet := sheet }) := by
  induction before generalizing position with
  | nil =>
    rw [List.nil_append, mapRowsFrom, hrow, locating, error_bind, List.length_nil,
      Int.natCast_zero, Int.add_zero]
  | cons earlier before ih =>
    obtain ⟨⟨r, hr⟩, hbefore⟩ := List.forall_mem_cons.mp hbefore
    have hposition : position + 1 + before.length = position + (earlier :: before).length := by
      rw [List.length_cons]
      omega
    rw [List.cons_append, mapRowsFrom, hr, locating, ok_bind, ih hbefore, error_bind, hposition]

theorem exists_first_error (h : ¬ ∀ row ∈ rows, ∃ r, spec.eval row.value = .ok r) :
    ∃ before row after e, rows = before ++ row :: after ∧
      (∀ earlier ∈ before, ∃ r, spec.eval earlier.value = .ok r) ∧
      spec.eval row.value = .error e := by
  induction rows with
  | nil => exact absurd nofun h
  | cons row rest ih =>
    cases hrow : spec.eval row.value with
    | error e => exact ⟨[], row, rest, e, rfl, nofun, hrow⟩
    | ok r =>
      have hrest : ¬ ∀ later ∈ rest, ∃ r, spec.eval later.value = .ok r := fun hrest =>
        h (List.forall_mem_cons.mpr ⟨⟨r, hrow⟩, hrest⟩)
      obtain ⟨before, bad, after, e, rfl, hbefore, hbad⟩ := ih hrest
      exact ⟨row :: before, bad, after, e, rfl,
        List.forall_mem_cons.mpr ⟨⟨r, hrow⟩, hbefore⟩, hbad⟩

def NumberedRow.numberAfter (row : NumberedRow) (before : List NumberedRow) : Int :=
  row.number.getD (before.length + 1)

/-- Rows that map, then one that does not, and the fault that arises for it inside of fields. -/
structure FirstFails (spec : Spec) (before : List NumberedRow) (row : NumberedRow)
    (path : List String) (f : Fault) : Prop where
  before : ∀ earlier ∈ before, ∃ r, spec.eval earlier.value = .ok r
  fails : spec.Fails row.value path f

theorem FirstFails.mapRows_eq {path : List String} {f : Fault}
    (h : FirstFails spec before row path f) (hspec : spec.check = .ok ())
    (after : List NumberedRow) :
    mapRows spec sheet (before ++ row :: after) =
      .error (f.located ⟨path.getLast?, some (row.numberAfter before), sheet⟩) := by
  rw [mapRows, hspec, ok_bind, mapRowsFrom_eq_error h.before h.fails.eval_eq,
    Fault.located_located, Int.add_comm 1, Spec.innermost]
  cases path.getLast? <;> rfl

/-- What is refused as a specification is refused for any rows, by the fault that each of them alone
would give. With any other specification, rows that all map give their records in order. Otherwise
there is a first row that does not map, and its fault is given, whatever the rows after it are: with
the innermost of the fields inside of which it arises, the number of the row, and the sheet, as far
as the fault does not tell of other ones. However often details are added to a problem, the first of
each kind stays, and the message shows those that are not empty. -/
theorem mapRows_located (spec : Spec) (sheet : Option String) (rows : List NumberedRow) :
    (∀ f, spec.check = .error f →
      mapRows spec sheet rows = .error f ∧ ∀ v, spec.eval v = .error f) ∧
    (spec.check = .ok () →
      ((∀ row ∈ rows, ∃ r, spec.eval row.value = .ok r) → ∃ records,
        mapRows spec sheet rows = .ok records ∧
          List.Forall₂ (fun row r => spec.eval row.value = .ok r) rows records) ∧
      ((¬ ∀ row ∈ rows, ∃ r, spec.eval row.value = .ok r) → ∃ before row after path f,
        rows = before ++ row :: after ∧ FirstFails spec before row path f) ∧
      ∀ before row path f, FirstFails spec before row path f → ∀ after,
        mapRows spec sheet (before ++ row :: after) =
            .error (f.located ⟨path.getLast?, some (row.numberAfter before), sheet⟩) ∧
          ∀ cause outer name, f = .ofMapping cause → path = outer ++ [name] →
            mapRows spec sheet (before ++ row :: after) = .error (.problem (.mapping
              ⟨cause, ⟨some name, some (row.numberAfter before), sheet⟩⟩))) ∧
    (∀ v e, spec.eval v = .error e ↔
      ∃ path f, spec.Fails v path f ∧ e = f.located { field := path.getLast? }) ∧
    (∀ (p : MappingProblem) (places : List Place),
      (places.foldl MappingProblem.located p).cause = p.cause ∧
      (places.foldl MappingProblem.located p).place.field =
        (p.place :: places).findSome? (·.field) ∧
      (places.foldl MappingProblem.located p).place.row = (p.place :: places).findSome? (·.row) ∧
      (places.foldl MappingProblem.located p).place.sheet =
        (p.place :: places).findSome? (·.sheet)) ∧
    ∀ p : MappingProblem,
      p.message = (if p.place.parts = [] then "" else ", ".intercalate p.place.parts ++ ": ") ++
        p.cause.message ∧
      ∀ text, text ∈ p.place.parts ↔
        (∃ s, p.place.sheet = some s ∧ s ≠ "" ∧ text = "sheet '" ++ s ++ "'") ∨
        (∃ n, p.place.row = some n ∧ text = "row " ++ Text.signedDecimal n) ∨
        ∃ s, p.place.field = some s ∧ s ≠ "" ∧ text = "field '" ++ s ++ "'" := by
  refine ⟨fun f hf => ⟨by rw [mapRows, hf, error_bind], Spec.eval_of_check_error hf⟩,
    fun hspec => ⟨fun hall => ?_, fun hsome => ?_, fun before row path f hfirst after => ?_⟩,
    fun v e => Spec.eval_eq_error, MappingProblem.foldl_located,
    fun p => ⟨p.message_eq, fun text => Place.mem_parts⟩⟩
  · obtain ⟨records, hrecords⟩ := exists_mapM_eq_ok hall
    rw [mapM_eq_ok] at hrecords
    exact ⟨records, (mapRows_eq_ok hspec).mpr hrecords, hrecords⟩
  · obtain ⟨before, row, after, e, rfl, hbefore, hrow⟩ := exists_first_error hsome
    obtain ⟨path, f, hf, -⟩ := Spec.exists_fails hrow
    exact ⟨before, row, after, path, f, rfl, hbefore, hf⟩
  · refine ⟨hfirst.mapRows_eq hspec after, ?_⟩
    rintro cause outer name rfl rfl
    rw [hfirst.mapRows_eq hspec after, List.getLast?_concat]
    rfl

/-- A column that is missing for a field inside of a field, in a row with a number. -/
theorem mapRows_located_inner :
    mapRows (.table [("$outer", .nested [("inner", .header "B")])]) (some "Rooms")
        [⟨none, .record [("B", .text "")] []⟩, ⟨some 7, .record [] []⟩, ⟨none, .null⟩] =
      .error (.problem (.mapping
        ⟨.fieldNotFound (.header "B"), ⟨some "inner", some 7, some "Rooms"⟩⟩)) := by
  obtain ⟨-, hrows, -⟩ := mapRows_located
    (.table [("$outer", .nested [("inner", .header "B")])]) (some "Rooms") []
  obtain ⟨-, -, hfirst⟩ := hrows rfl
  have hheader : (Spec.header "B").Fails (.record [] []) []
      (.ofMapping (.fieldNotFound (.header "B"))) := .here nofun nofun rfl
  have hinner : (Spec.nested [("inner", .header "B")]).Fails (.record [] []) ["inner"]
      (.ofMapping (.fieldNotFound (.header "B"))) :=
    @Spec.Fails.field _ _ [] _ _ _ _ _ _ .nested rfl rfl hheader
  have houter : (Spec.table [("$outer", .nested [("inner", .header "B")])]).Fails (.record [] [])
      ["outer", "inner"] (.ofMapping (.fieldNotFound (.header "B"))) :=
    @Spec.Fails.field _ _ [] _ _ _ _ _ _ (.table rfl) rfl rfl hinner
  have hbefore : ∃ r, (Spec.table [("$outer", .nested [("inner", .header "B")])]).eval
      (.record [("B", .text "")] []) = .ok r := ⟨_, rfl⟩
  obtain ⟨-, hplace⟩ := hfirst [⟨none, .record [("B", .text "")] []⟩] ⟨some 7, .record [] []⟩ _ _
    ⟨by simpa using hbefore, houter⟩ [⟨none, .null⟩]
  exact hplace _ ["outer"] "inner" rfl rfl

end Batches

end SiteVisit
