import SiteVisit.Datum.Tagged
import SiteVisit.Proofs.Mapping.Fields

namespace SiteVisit

namespace Slots

theorem mem_known {slots : Slots} {key : String} {x : Datum} :
    (key, x) ∈ slots.known ↔ (key, some x) ∈ slots := by
  simp only [known, List.mem_filterMap, Option.map_eq_some_iff, Prod.mk.injEq, Prod.exists]
  constructor
  · rintro ⟨k, y, hmem, z, rfl, rfl, rfl⟩
    exact hmem
  · intro h
    exact ⟨key, some x, h, x, rfl, rfl, rfl⟩

theorem mem_map_known {slots : Slots} {key : String} :
    key ∈ slots.known.map (·.1) ↔ ∃ x, (key, some x) ∈ slots := by
  simp [← mem_known]

theorem nodup_known {slots : Slots} (hn : (slots.map (·.1)).Nodup) :
    (slots.known.map (·.1)).Nodup := by
  have hsub : List.Sublist (slots.known.map (·.1)) (slots.map (·.1)) := by
    clear hn
    induction slots with
    | nil => exact .slnil
    | cons slot rest ih =>
      obtain ⟨key, v⟩ := slot
      cases v with
      | none => exact ih.cons key
      | some x => exact ih.cons_cons key
  exact hsub.nodup hn

theorem splice_ok {declared : List String} {fields : List (String × Datum)} {slots slots' : Slots}
    (h : Slots.splice declared slots fields = .ok slots') :
    slots' = slots ++ fields.map (fun f => (f.1, some f.2)) ∧
      (∀ f ∈ fields, f.1 ∉ declared) ∧
      ((slots.map (·.1)).Nodup → (slots'.map (·.1)).Nodup) := by
  induction fields generalizing slots with
  | nil =>
    cases h
    simp
  | cons f rest ih =>
    obtain ⟨key, v⟩ := f
    simp only [splice] at h
    split at h
    · cases h
    · next hnew =>
      simp only [Bool.or_eq_true, List.contains_iff_mem, List.any_eq_true, beq_iff_eq, not_or,
        not_exists, not_and] at hnew
      obtain ⟨hslots, hrest, hn⟩ := ih h
      refine ⟨by simp [hslots], List.forall_mem_cons.mpr ⟨hnew.1, hrest⟩, fun hslots => hn ?_⟩
      rw [List.map_append]
      apply List.Nodup.append hslots (List.nodup_singleton key)
      simpa using fun y hmem => hnew.2 (key, y) hmem rfl

theorem derive_ok {derivations : List (String × Derivation)} {slots slots' : Slots}
    (h : slots.derive derivations = .ok slots') (hn : (slots.map (·.1)).Nodup)
    (hd : (derivations.map (·.1)).Nodup)
    (hpending : ∀ key ∈ derivations.map (·.1), (key, none) ∈ slots) :
    (slots'.map (·.1)).Nodup ∧
      (∀ key x, (key, some x) ∈ slots → (key, some x) ∈ slots') ∧
      ∀ key f, (key, f) ∈ derivations → ∃ known x, f known = .ok x ∧ (key, some x) ∈ slots' ∧
        ∀ k y, field? known k = some y → (k, some y) ∈ slots' := by
  induction derivations generalizing slots with
  | nil =>
    cases h
    exact ⟨hn, fun _ _ h => h, by simp⟩
  | cons d rest ih =>
    obtain ⟨key, f⟩ := d
    obtain ⟨v, hv, h⟩ := bind_eq_ok.mp h
    obtain ⟨hnew, hd⟩ := List.nodup_cons.mp hd
    obtain ⟨hkey, hpending⟩ := List.forall_mem_cons.mp hpending
    have hset {k : String} {y : Option Datum} : (k, y) ∈ setField key (some v) slots ↔
        k = key ∧ y = some v ∨ k ≠ key ∧ (k, y) ∈ slots := mem_setField hn
    -- A pending field has no value, so the fields with a value keep it.
    have hkeep : ∀ k x, (k, some x) ∈ slots → (k, some x) ∈ setField key (some v) slots := by
      intro k x hx
      refine hset.mpr (.inr ⟨?_, hx⟩)
      rintro rfl
      cases (Prod.mk.inj (List.inj_on_of_nodup_map hn hx hkey rfl)).2
    obtain ⟨hn', hkept, hrest⟩ := ih h (nodup_setField hn key (some v)) hd fun k hk =>
      hset.mpr (.inr ⟨fun heq => hnew (heq ▸ hk), hpending k hk⟩)
    refine ⟨hn', fun k x hx => hkept k x (hkeep k x hx), ?_⟩
    intro k g hmem
    rcases List.mem_cons.mp hmem with heq | hmem
    · cases heq
      refine ⟨slots.known, v, hv, hkept key v (hset.mpr (.inl ⟨rfl, rfl⟩)), fun k y hy => ?_⟩
      exact hkept k y (hkeep k y (mem_known.mp (mem_of_field? hy)))
    · exact hrest k g hmem

end Slots

namespace Spec

def isDerived : Spec → Bool
  | .derived _ => true
  | _ => false

def body : Spec → Spec
  | .splice inner => inner
  | s => s

theorem evalFields_cons {declared : List String} {key : String} {s : Spec}
    {rest : List (String × Spec)} {v : Datum} {slots : Slots} (hs : s.isDerived = false) :
    evalFields declared ((key, s) :: rest) v slots =
      locating { field := fieldName key }
        (s.body.eval v >>= slots.put declared key (isSpliced key s)) >>=
          evalFields declared rest v := by
  cases s with
  | derived f => cases hs
  | _ => simp only [evalFields, body]

inductive Fills (v : Datum) : String × Spec → Slots → Prop
  | derived {key f} : Fills v (key, .derived f) [(key, none)]
  | base {key s x} : s.isDerived = false → isSpliced key s = false → s.eval v = .ok x →
      Fills v (key, s) [(key, some x)]
  | spliced {key s fields markup} : s.isDerived = false → isSpliced key s = true →
      s.body.eval v = .ok (.record fields markup) →
      Fills v (key, s) (fields.map fun f => (f.1, some f.2))

theorem evalFields_cons_ok {declared : List String} {key : String} {s : Spec}
    {rest : List (String × Spec)} {v : Datum} {slots slots' : Slots}
    (h : evalFields declared ((key, s) :: rest) v slots = .ok slots') :
    ∃ part, Fills v (key, s) part ∧ evalFields declared rest v (slots ++ part) = .ok slots' ∧
      (∀ k ∈ part.map (·.1), k = key ∨ k ∉ declared) ∧
      ((slots.map (·.1)).Nodup → key ∉ slots.map (·.1) → ((slots ++ part).map (·.1)).Nodup) := by
  have hone (x : Option Datum) (hn : (slots.map (·.1)).Nodup) (hkey : key ∉ slots.map (·.1)) :
      ((slots ++ [(key, x)]).map (·.1)).Nodup := by
    rw [List.map_append]
    exact List.Nodup.append hn (List.nodup_singleton key) (by simpa using hkey)
  cases hs : s.isDerived with
  | true =>
    cases s with
    | derived f => exact ⟨_, .derived, by simpa only [evalFields] using h, by simp, hone none⟩
    | _ => cases hs
  | false =>
    rw [evalFields_cons hs, bind_eq_ok] at h
    obtain ⟨slots₁, hput, h⟩ := h
    obtain ⟨x, hx, hput⟩ := bind_eq_ok.mp (locating_eq_ok.mp hput)
    cases hspliced : isSpliced key s with
    | false =>
      have hbody : s.body = s := by
        cases s with
        | splice inner => cases hspliced
        | _ => rfl
      simp only [Slots.put, hspliced, Bool.false_eq_true, if_false, Except.ok.injEq] at hput
      subst hput
      exact ⟨_, .base hs hspliced (hbody ▸ hx), h, by simp, hone (some x)⟩
    | true =>
      simp only [Slots.put, hspliced, if_true] at hput
      split at hput
      · obtain ⟨rfl, hdeclared, hn⟩ := Slots.splice_ok hput
        refine ⟨_, .spliced hs hspliced hx, h, ?_, fun hslots _ => hn hslots⟩
        simpa using fun k y hmem => .inr (hdeclared (k, y) hmem)
      · cases hput

theorem evalFields_ok {declared : List String} {fields : List (String × Spec)} {v : Datum}
    {slots slots' : Slots} (h : evalFields declared fields v slots = .ok slots')
    (hn : (fields.map (·.1)).Nodup) (hdeclared : ∀ key ∈ fields.map (·.1), key ∈ declared)
    (hslots : (slots.map (·.1)).Nodup)
    (hnew : ∀ key ∈ fields.map (·.1), key ∉ slots.map (·.1)) :
    (slots'.map (·.1)).Nodup ∧
      ∃ parts, List.Forall₂ (Fills v) fields parts ∧ slots' = slots ++ parts.flatten := by
  induction fields generalizing slots with
  | nil =>
    cases h
    exact ⟨hslots, [], .nil, by simp⟩
  | cons field rest ih =>
    obtain ⟨key, s⟩ := field
    obtain ⟨part, hpart, h, hnames, hnodup⟩ := evalFields_cons_ok h
    obtain ⟨hfresh, hn⟩ := List.nodup_cons.mp hn
    obtain ⟨hkey, hnew⟩ := List.forall_mem_cons.mp hnew
    obtain ⟨-, hdeclared⟩ := List.forall_mem_cons.mp hdeclared
    obtain ⟨hn', parts, hparts, rfl⟩ := ih h hn hdeclared (hnodup hslots hkey) fun k hk => by
      rw [List.map_append, List.mem_append, not_or]
      refine ⟨hnew k hk, fun hmem => ?_⟩
      rcases hnames k hmem with rfl | hk'
      · exact hfresh hk
      · exact hk' (hdeclared k hk)
    exact ⟨hn', part :: parts, .cons hpart hparts, by simp⟩

structure Maps (fields : List (String × Spec)) (v r : Datum) : Prop where
  base : ∀ key s, (key, s) ∈ fields → s.isDerived = false → isSpliced key s = false →
    s.eval v = .ok (r.fieldAt key)
  spliced : ∀ key s, (key, s) ∈ fields → s.isDerived = false → isSpliced key s = true →
    ∃ given markup, s.body.eval v = .ok (.record given markup) ∧
      ∀ k x, (k, x) ∈ given → r.fieldAt k = x
  derived : ∀ key f, (key, .derived f) ∈ fields →
    ∃ known, f known = .ok (r.fieldAt key) ∧ ∀ k x, field? known k = some x → r.fieldAt k = x

theorem mem_derivations {fields : List (String × Spec)} {key : String} {f : Derivation} :
    (key, f) ∈ derivations fields ↔ (key, .derived f) ∈ fields := by
  simp only [derivations, List.mem_filterMap, Prod.exists]
  constructor
  · rintro ⟨k, s, hmem, heq⟩
    split at heq
    · next heq' =>
      cases heq'
      cases heq
      exact hmem
    · cases heq
  · exact fun h => ⟨key, .derived f, h, rfl⟩

theorem nodup_derivations {fields : List (String × Spec)} (hn : (fields.map (·.1)).Nodup) :
    ((derivations fields).map (·.1)).Nodup := by
  have hsub : List.Sublist ((derivations fields).map (·.1)) (fields.map (·.1)) := by
    clear hn
    induction fields with
    | nil => exact .slnil
    | cons field rest ih =>
      obtain ⟨key, s⟩ := field
      cases s with
      | derived f => exact ih.cons_cons key
      | _ => exact ih.cons key
  exact hsub.nodup hn

theorem exists_fills {fields : List (String × Spec)} {v : Datum} {parts : List Slots}
    (hparts : List.Forall₂ (Fills v) fields parts) {field : String × Spec} (h : field ∈ fields) :
    ∃ part, Fills v field part ∧ ∀ slot ∈ part, slot ∈ parts.flatten := by
  obtain ⟨part, hmem, hpart⟩ := exists_of_forall₂_left hparts h
  exact ⟨part, hpart, fun slot hslot => List.mem_flatten.mpr ⟨part, hmem, hslot⟩⟩

theorem maps_of_eval {fields : List (String × Spec)} {v r : Datum}
    (h : (nested fields).eval v = .ok r) (hn : (fields.map (·.1)).Nodup) : Maps fields v r := by
  simp only [eval, bind_eq_ok, pure_eq_ok, Except.ok.injEq] at h
  obtain ⟨slots, hslots, slots', hderive, rfl⟩ := h
  obtain ⟨hnodup, parts, hparts, rfl⟩ := evalFields_ok hslots hn (fun _ h => h) .nil (by simp)
  rw [List.nil_append] at hnodup hderive
  have hpending : ∀ key ∈ (derivations fields).map (·.1), (key, none) ∈ parts.flatten := by
    intro key hkey
    obtain ⟨⟨k, f⟩, hf, rfl⟩ := List.mem_map.mp hkey
    obtain ⟨part, hpart, hsub⟩ := exists_fills hparts (mem_derivations.mp hf)
    cases hpart with
    | derived => exact hsub _ (List.mem_singleton_self _)
    | base hs => cases hs
    | spliced hs => cases hs
  obtain ⟨hnodup', hkept, hderived⟩ :=
    Slots.derive_ok hderive hnodup (nodup_derivations hn) hpending
  -- Names do not repeat, so whatever pair is in the record is what is found under its name.
  have hat : ∀ key x, (key, some x) ∈ slots' → (Datum.record slots'.known []).fieldAt key = x := by
    intro key x hx
    have hknown := (field?_eq_some (Slots.nodup_known hnodup')).mpr (Slots.mem_known.mpr hx)
    simp only [Datum.fieldAt, hknown, Option.getD_some]
  refine ⟨?_, ?_, ?_⟩
  · intro key s hmem hs hspliced
    obtain ⟨part, hpart, hsub⟩ := exists_fills hparts hmem
    cases hpart with
    | derived => cases hs
    | base _ _ hx => rw [hat key _ (hkept key _ (hsub _ (List.mem_singleton_self _))), hx]
    | spliced _ hs => cases hspliced.symm.trans hs
  · intro key s hmem hs hspliced
    obtain ⟨part, hpart, hsub⟩ := exists_fills hparts hmem
    cases hpart with
    | derived => cases hs
    | base _ hs => cases hspliced.symm.trans hs
    | spliced _ _ hx =>
      refine ⟨_, _, hx, fun k x hgiven => hat k x (hkept k x (hsub _ ?_))⟩
      exact List.mem_map.mpr ⟨(k, x), hgiven, rfl⟩
  · intro key f hmem
    obtain ⟨known, x, hx, hmem, hagree⟩ := hderived key f (mem_derivations.mpr hmem)
    exact ⟨known, by rw [hx, hat key x hmem], fun k y hy => hat k y (hagree k y hy)⟩

end Spec

/-- Ends with no fault but problems of the workbook on every record that has some fields. -/
def Derivation.Needs (names : List String) (f : Derivation) : Prop :=
  ∀ known : List (String × Datum), (∀ key ∈ names, key ∈ known.map (·.1)) → Mendable (f known)

inductive Served : List String → List (String × Derivation) → Prop
  | nil {names} : Served names []
  | cons {names key f rest} : f.Needs names → Served (key :: names) rest →
      Served names ((key, f) :: rest)

namespace Mendable

theorem splice {declared : List String} {fields : List (String × Datum)} (slots : Slots) :
    Mendable (Slots.splice declared slots fields) := by
  induction fields generalizing slots with
  | nil => exact ok _
  | cons f rest ih =>
    simp only [Slots.splice]
    split
    · exact problem _
    · exact ih _

theorem put {declared : List String} {key : String} {spliced : Bool} {slots : Slots} {v : Datum} :
    Mendable (slots.put declared key spliced v) := by
  simp only [Slots.put]
  split
  · split
    · exact splice slots
    · exact problem _
  · exact ok _

theorem evalFields {declared : List String} {fields : List (String × Spec)} {v : Datum}
    (h : ∀ field ∈ fields, field.2.isDerived = false → Mendable (field.2.body.eval v))
    (slots : Slots) : Mendable (Spec.evalFields declared fields v slots) := by
  induction fields generalizing slots with
  | nil => exact ok slots
  | cons field rest ih =>
    obtain ⟨key, s⟩ := field
    obtain ⟨hs, hrest⟩ := List.forall_mem_cons.mp h
    cases hderived : s.isDerived with
    | true =>
      cases s with
      | derived f =>
        simp only [Spec.evalFields]
        exact ih hrest _
      | _ => cases hderived
    | false =>
      rw [Spec.evalFields_cons hderived]
      exact ((hs hderived).bind fun _ _ => put).locating _ |>.bind fun slots _ => ih hrest slots

theorem derive {derivations : List (String × Derivation)} {names : List String}
    (hserved : Served names derivations) {slots : Slots} (hn : (slots.map (·.1)).Nodup)
    (hnames : ∀ key ∈ names, key ∈ slots.known.map (·.1)) :
    Mendable (slots.derive derivations) := by
  induction hserved generalizing slots with
  | nil => exact ok slots
  | @cons names key f rest hneeds _ ih =>
    refine (hneeds _ hnames).bind fun v _ => ih (nodup_setField hn _ _) ?_
    intro k hk
    rw [Slots.mem_map_known]
    by_cases hkey : k = key
    · exact ⟨v, (mem_setField hn).mpr (.inl ⟨hkey, rfl⟩)⟩
    · obtain ⟨x, hx⟩ := Slots.mem_map_known.mp (hnames k (List.mem_of_ne_of_mem hkey hk))
      exact ⟨x, (mem_setField hn).mpr (.inr ⟨hkey, hx⟩)⟩

theorem nested {fields : List (String × Spec)} {v : Datum} (hn : (fields.map (·.1)).Nodup)
    (h : ∀ field ∈ fields, field.2.isDerived = false → Mendable (field.2.body.eval v))
    (hserved : Served ((fields.filter fun f => !f.2.isDerived && !isSpliced f.1 f.2).map (·.1))
      (Spec.derivations fields)) :
    Mendable ((Spec.nested fields).eval v) := by
  simp only [Spec.eval]
  apply (evalFields h []).bind
  intro slots hslots
  obtain ⟨hnodup, parts, hparts, rfl⟩ :=
    Spec.evalFields_ok hslots hn (fun _ h => h) .nil (by simp)
  refine (derive hserved hnodup fun key hkey => ?_).bind fun _ _ => ok _
  obtain ⟨⟨k, s⟩, hmem, rfl⟩ := List.mem_map.mp hkey
  obtain ⟨hmem, hbase⟩ := List.mem_filter.mp hmem
  obtain ⟨part, hpart, hsub⟩ := Spec.exists_fills hparts hmem
  cases hpart with
  | derived => cases hbase
  | base => exact Slots.mem_map_known.mpr ⟨_, hsub _ (List.mem_singleton_self _)⟩
  | spliced _ hspliced => simp [hspliced] at hbase

end Mendable
end SiteVisit
