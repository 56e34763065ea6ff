import SiteVisit.Mapping.Transform
import SiteVisit.Proofs.Mapping.Located

namespace SiteVisit.Spec

inductive IsValid : Spec → Prop
  | column {name required} : IsValid (.column name required)
  | pattern {p required} : IsValid (.pattern p required)
  | rowFunction {f} : IsValid (.rowFunction f)
  | pipeline {first others} : IsValid first → (∀ s ∈ others, IsValid s) →
      IsValid (.pipeline first others)
  | nested {fields} : (∀ field ∈ fields, IsValid field.2) → IsValid (.nested fields)
  | derived {f} : IsValid (.derived f)
  | splice {inner} : IsValid inner → IsValid (.splice inner)
  | header {name} : IsValid (.header name)
  | regex {p} : IsValid (.regex p)
  | steps {first others} : IsValid first → (∀ s ∈ others, IsValid s) →
      IsValid (.steps (first :: others))
  | table {fields} : (∀ field ∈ fields, IsValid field.2) → IsValid (.table fields)
  | function {f} : IsValid (.function f)

inductive IsTagged : Spec → Prop
  | column {name required} : IsTagged (.column name required)
  | pattern {p required} : IsTagged (.pattern p required)
  | rowFunction {f} : IsTagged (.rowFunction f)
  | pipeline {first others} : IsTagged first → (∀ s ∈ others, IsTagged s) →
      IsTagged (.pipeline first others)
  | nested {fields} : (∀ field ∈ fields, IsTagged field.2) → IsTagged (.nested fields)
  | derived {f} : IsTagged (.derived f)
  | splice {inner} : IsTagged inner → IsTagged (.splice inner)

/-- The same specification in another spelling, with some of its shorthands replaced by tagged forms
and some of its steps in other groups. -/
inductive Respelled : Spec → Spec → Prop
  | refl {s} : Respelled s s
  | symm {s t} : Respelled s t → Respelled t s
  | trans {s t u} : Respelled s t → Respelled t u → Respelled s u
  | header {name} : Respelled (.header name) (.column name true)
  | regex {p} : Respelled (.regex p) (.pattern p true)
  | function {f} : Respelled (.function f) (.rowFunction f)
  | list {s t steps} : Runs s steps → Runs t steps → Respelled s t
  | table {s t fields} : Builds s fields → Builds t fields → Respelled s t
  /-- A step that runs steps of its own may be replaced by these. -/
  | group {s t inner before steps after} : Runs inner steps → Runs s (before ++ inner :: after) →
      Runs t (before ++ (steps ++ after)) → Respelled s t
  | step {s t a b before after} : Respelled a b → Runs s (before ++ a :: after) →
      Runs t (before ++ b :: after) → Respelled s t
  | field {s t a b before key after} : Respelled a b → Builds s (before ++ (key, a) :: after) →
      Builds t (before ++ (key, b) :: after) → Respelled s t
  | splice {a b} : Respelled a b → Respelled (.splice a) (.splice b)

section Evaluation

variable {s t a b : Spec} {key : String}

structure Alike (s t : Spec) : Prop where
  eval : ∀ v, s.eval v = t.eval v
  field : ∀ declared key v slots,
    evalFields declared [(key, s)] v slots = evalFields declared [(key, t)] v slots
  derivations : ∀ key, derivations [(key, s)] = derivations [(key, t)]

def isOrdinary : Spec → Bool
  | .derived _ => false
  | .splice _ => false
  | _ => true

theorem evalFields_ordinary (h : s.isOrdinary) (declared : List String) (key : String) (v : Datum)
    (slots : Slots) : evalFields declared [(key, s)] v slots = locating { field := fieldName key }
      (s.eval v >>= slots.put declared key (key.toList.head? == some '$')) := by
  cases s with
  | derived f => cases h
  | splice inner => cases h
  | _ => rw [evalFields_cons rfl]; exact bind_ok _

theorem derivations_ordinary (h : s.isOrdinary) (key : String) : derivations [(key, s)] = [] := by
  cases s with
  | derived f => cases h
  | _ => rfl

theorem Alike.of_eval (hs : s.isOrdinary) (ht : t.isOrdinary) (h : ∀ v, s.eval v = t.eval v) :
    Alike s t where
  eval := h
  field declared key v slots := by
    rw [evalFields_ordinary hs, evalFields_ordinary ht, h]
  derivations key := by rw [derivations_ordinary hs, derivations_ordinary ht]

theorem Runs.isOrdinary {steps : List Spec} (h : Runs s steps) : s.isOrdinary := by
  cases h <;> rfl

theorem Builds.isOrdinary {fields : List (String × Spec)} (h : Builds s fields) : s.isOrdinary := by
  cases h <;> rfl

theorem derivations_append (before after : List (String × Spec)) :
    derivations (before ++ after) = derivations before ++ derivations after :=
  List.filterMap_append

theorem Alike.of_runs {before as bs : List Spec} (hs : Runs s (before ++ as))
    (ht : Runs t (before ++ bs)) (h : ∀ x, evalSteps as x = evalSteps bs x) : Alike s t := by
  refine .of_eval hs.isOrdinary ht.isOrdinary fun v => ?_
  rw [hs.eval_eq, ht.eval_eq, evalSteps_append, evalSteps_append]
  exact congrArg _ (funext h)

theorem Alike.inField (h : Alike a b) {before after : List (String × Spec)}
    (hs : Builds s (before ++ (key, a) :: after)) (ht : Builds t (before ++ (key, b) :: after)) :
    Alike s t := by
  have hnames : names (before ++ (key, a) :: after) = names (before ++ (key, b) :: after) := by
    simp [names]
  have hderivations : Spec.derivations (before ++ (key, a) :: after) =
      Spec.derivations (before ++ (key, b) :: after) := by
    rw [derivations_append, derivations_append, ← List.singleton_append, derivations_append,
      h.derivations, ← derivations_append, List.singleton_append]
  refine .of_eval hs.isOrdinary ht.isOrdinary fun v => ?_
  rw [hs.eval_eq, ht.eval_eq, hnames, hderivations, evalFields_append, evalFields_append]
  refine congrArg (· >>= _) (congrArg _ (funext fun slots => ?_))
  rw [evalFields_first, h.field, ← evalFields_first]

theorem Alike.splice (h : Alike a b) : Alike (.splice a) (.splice b) where
  eval _ := rfl
  field declared key v slots := by
    rw [evalFields_cons rfl, evalFields_cons rfl, body, body, h.eval]
    rfl
  derivations _ := rfl

theorem Respelled.alike (h : Respelled s t) : Alike s t := by
  induction h with
  | refl => exact ⟨fun _ => rfl, fun _ _ _ _ => rfl, fun _ => rfl⟩
  | symm _ ih => exact ⟨fun v => (ih.eval v).symm, fun d k v slots => (ih.field d k v slots).symm,
      fun k => (ih.derivations k).symm⟩
  | trans _ _ ih ih' => exact ⟨fun v => (ih.eval v).trans (ih'.eval v),
      fun d k v slots => (ih.field d k v slots).trans (ih'.field d k v slots),
      fun k => (ih.derivations k).trans (ih'.derivations k)⟩
  | header => exact .of_eval rfl rfl fun v => by rw [eval, eval]
  | regex => exact .of_eval rfl rfl fun v => by rw [eval, eval]
  | function => exact .of_eval rfl rfl fun v => by rw [eval, eval]
  | list hs ht =>
    exact .of_eval hs.isOrdinary ht.isOrdinary fun v => by rw [hs.eval_eq, ht.eval_eq]
  | table hs ht =>
    exact .of_eval hs.isOrdinary ht.isOrdinary fun v => by rw [hs.eval_eq, ht.eval_eq]
  | group hinner hs ht =>
    exact .of_runs hs ht fun x => by rw [evalSteps, hinner.eval_eq, evalSteps_append]
  | step _ hs ht ih => exact .of_runs hs ht fun x => by rw [evalSteps, evalSteps, ih.eval]
  | field _ hs ht ih => exact ih.inField hs ht
  | splice _ ih => exact ih.splice

end Evaluation

section Elaboration

variable {s t : Spec}

theorem elaboratedSteps_eq (steps : List Spec) : elaboratedSteps steps = steps.map elaborated := by
  induction steps with
  | nil => rfl
  | cons s rest ih => rw [elaboratedSteps, ih, List.map_cons]

theorem elaboratedFields_eq (fields : List (String × Spec)) :
    elaboratedFields fields = fields.map fun field => (field.1, field.2.elaborated) := by
  induction fields with
  | nil => rfl
  | cons field rest ih => rw [elaboratedFields, ih, List.map_cons]

theorem exists_runs {steps : List Spec} (h : steps ≠ []) : ∃ s, Runs s steps := by
  cases steps with
  | nil => exact absurd rfl h
  | cons first others => exact ⟨_, .pipeline⟩

theorem Respelled.steps {as bs : List Spec} (h : List.Forall₂ Respelled as bs)
    (before : List Spec) (hs : Runs s (before ++ as)) (ht : Runs t (before ++ bs)) :
    Respelled s t := by
  induction h generalizing before s with
  | nil => exact .list hs ht
  | @cons a b as bs hab _ ih =>
    have hne : before ++ b :: as ≠ [] := by simp
    obtain ⟨u, hu⟩ := exists_runs hne
    rw [List.append_cons] at ht
    exact (hab.step hs hu).trans (ih (before ++ [b]) (List.append_cons before b as ▸ hu) ht)

theorem Respelled.fields {fields others : List (String × Spec)}
    (h : List.Forall₂ (fun f g => f.1 = g.1 ∧ Respelled f.2 g.2) fields others)
    (before : List (String × Spec)) (hs : Builds s (before ++ fields))
    (ht : Builds t (before ++ others)) : Respelled s t := by
  induction h generalizing before s with
  | nil => exact .table hs ht
  | @cons f g fields others hfg _ ih =>
    obtain ⟨key, a⟩ := f
    obtain ⟨key', b⟩ := g
    obtain ⟨rfl, hab⟩ := hfg
    have hu : Builds (.nested (before ++ (key, b) :: fields)) (before ++ (key, b) :: fields) := .nested
    refine (Respelled.field hab hs hu).trans (ih (before ++ [(key, b)]) ?_ ?_)
    · rw [← List.append_cons]
      exact hu
    · rwa [← List.append_cons]

theorem checkFields_eq_ok {fields : List (String × Spec)}
    (h : ∀ field ∈ fields, field.2.check = .ok ()) : checkFields fields = .ok () := by
  induction fields with
  | nil => rfl
  | cons field rest ih =>
    obtain ⟨hfield, hrest⟩ := List.forall_mem_cons.mp h
    rw [checkFields, hfield, ok_bind, ih hrest]

theorem IsValid.check (h : s.IsValid) : s.check = .ok () := by
  induction h with
  | table _ ih =>
    rw [Spec.check]
    exact checkFields_eq_ok ih
  | _ => rfl

theorem IsValid.isTagged_elaborated (h : s.IsValid) : s.elaborated.IsTagged := by
  have hsteps {others : List Spec} (hothers : ∀ s ∈ others, s.elaborated.IsTagged) :
      ∀ s ∈ elaboratedSteps others, s.IsTagged := by
    rw [elaboratedSteps_eq]
    exact List.forall_mem_map.mpr hothers
  have hfields {fields : List (String × Spec)}
      (hfields : ∀ field ∈ fields, field.2.elaborated.IsTagged) :
      ∀ field ∈ elaboratedFields fields, field.2.IsTagged := by
    rw [elaboratedFields_eq]
    exact List.forall_mem_map.mpr hfields
  induction h with
  | column => exact .column
  | pattern => exact .pattern
  | rowFunction => exact .rowFunction
  | derived => exact .derived
  | header => exact .column
  | regex => exact .pattern
  | function => exact .rowFunction
  | pipeline _ _ ih ihs => exact .pipeline ih (hsteps ihs)
  | steps _ _ ih ihs => exact .pipeline ih (hsteps ihs)
  | nested _ ih => exact .nested (hfields ih)
  | table _ ih => exact .nested (hfields ih)
  | splice _ ih => exact .splice ih

/-- The tagged form of a specification is another spelling of it. -/
theorem IsValid.respelled_elaborated (h : s.IsValid) : Respelled s s.elaborated := by
  have hsteps {first : Spec} {others : List Spec} (hfirst : Respelled first first.elaborated)
      (hothers : ∀ s ∈ others, Respelled s s.elaborated) :
      List.Forall₂ Respelled (first :: others) (first.elaborated :: elaboratedSteps others) := by
    rw [elaboratedSteps_eq]
    exact .cons hfirst (List.forall₂_map_right_iff.mpr (List.forall₂_same.mpr hothers))
  have hfields {fields : List (String × Spec)}
      (hfields : ∀ field ∈ fields, Respelled field.2 field.2.elaborated) :
      List.Forall₂ (fun f g => f.1 = g.1 ∧ Respelled f.2 g.2) fields (elaboratedFields fields) := by
    rw [elaboratedFields_eq]
    exact List.forall₂_map_right_iff.mpr
      (List.forall₂_same.mpr fun field hfield => ⟨rfl, hfields field hfield⟩)
  induction h with
  | column => exact .refl
  | pattern => exact .refl
  | rowFunction => exact .refl
  | derived => exact .refl
  | header => exact .header
  | regex => exact .regex
  | function => exact .function
  | pipeline _ _ ih ihs => exact .steps (hsteps ih ihs) [] .pipeline .pipeline
  | steps _ _ ih ihs => exact .steps (hsteps ih ihs) [] .steps .pipeline
  | nested _ ih => exact .fields (hfields ih) [] .nested .nested
  | table hvalid ih =>
    have hcheck := checkFields_eq_ok fun field hfield => (hvalid field hfield).check
    exact .fields (hfields ih) [] (.table hcheck) .nested
  | splice _ ih => exact .splice ih

end Elaboration

/-- A specification gives the same value or the same fault in every spelling. One of the spellings
has a tagged form in the place of every shorthand, if all of these are valid. -/
theorem eval_respelled (s : Spec) :
    (∀ t, Respelled s t → ∀ v, t.eval v = s.eval v) ∧
    (s.IsValid → Respelled s s.elaborated ∧ s.elaborated.IsTagged ∧
      ∀ v, s.elaborated.eval v = s.eval v) := by
  have hspelled : ∀ t, Respelled s t → ∀ v, t.eval v = s.eval v :=
    fun t h v => (h.alike.eval v).symm
  refine ⟨hspelled, fun hvalid => ?_⟩
  exact ⟨hvalid.respelled_elaborated, hvalid.isTagged_elaborated,
    hspelled _ hvalid.respelled_elaborated⟩

def slotSpelled : Spec := .table [
  ("$time", .steps [.header "Time", .function Transform.timeFields]),
  ("rooms", .steps [.steps [.regex { source := "^Where" }, .function Transform.commaList],
    .function Transform.count])]

def slotTagged : Spec := .nested [
  ("$time", .pipeline (.column "Time" true) [.rowFunction Transform.timeFields]),
  ("rooms", .pipeline (.pattern { source := "^Where" } true)
    [.rowFunction Transform.commaList, .rowFunction Transform.count])]

theorem respelled_slotTagged : Respelled slotSpelled.elaborated slotTagged :=
  @Respelled.field _ _ _ _ [_] "rooms" [] (@Respelled.group _ _ _ [] _ _ .pipeline .pipeline .pipeline)
    .nested .nested

theorem eval_respelled_slots : slotSpelled.IsValid ∧ Respelled slotSpelled slotTagged ∧
    slotTagged.eval (.record [("Time", .text "9:00 a.m."), ("Where?", .text "Hall, Annex")] []) =
      .ok (.record [("time", .text "9:00 a.m."),
        ("start_time", Transform.ofTime? (Calendar.TimeOfDay.ofClock 9 0).toOption),
        ("end_time", .null), ("rooms", .int 2)] []) ∧
    slotSpelled.elaborated.eval (.record [("Time", .text "9:00 a.m.")] []) =
      .error (.problem (.mapping
        ⟨.fieldNotFound (.pattern { source := "^Where" }), { field := some "rooms" }⟩)) := by
  obtain ⟨hspelled, hvalid⟩ := eval_respelled slotSpelled
  have hslots : slotSpelled.IsValid := by
    refine .table (List.forall_mem_cons.mpr ⟨?_, List.forall_mem_singleton.mpr ?_⟩)
    · exact .steps .header (List.forall_mem_singleton.mpr .function)
    · exact .steps (.steps .regex (List.forall_mem_singleton.mpr .function))
        (List.forall_mem_singleton.mpr .function)
  obtain ⟨helaborated, -, heval⟩ := hvalid hslots
  have htagged : Respelled slotSpelled slotTagged := helaborated.trans respelled_slotTagged
  exact ⟨hslots, htagged, hspelled _ htagged _, heval _⟩

end SiteVisit.Spec
