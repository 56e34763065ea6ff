import Mathlib.Data.List.Induction
import Mathlib.Data.List.Nodup
import SiteVisit.Proofs.Mapping.Groups
import SiteVisit.Proofs.Outcome

namespace SiteVisit

variable {α κ : Type}

theorem mem_of_field? {fields : List (String × α)} {key : String} {x : α}
    (h : field? fields key = some x) : (key, x) ∈ fields := by
  obtain ⟨⟨k, y⟩, hfind, rfl⟩ := Option.map_eq_some_iff.mp h
  have hk : k = key := by simpa using List.find?_some hfind
  subst hk
  exact List.mem_of_find?_eq_some hfind

theorem field?_cons (key other : String) (value : α) (fields : List (String × α)) :
    field? ((key, value) :: fields) other =
      if key = other then some value else field? fields other := by
  by_cases h : key = other <;> simp [field?, h]

theorem field?_isSome {fields : List (String × α)} {key : String} :
    (field? fields key).isSome ↔ key ∈ fields.map (·.1) := by
  simp [field?, List.find?_isSome]

theorem field?_eq_some {fields : List (String × α)} (hn : (fields.map (·.1)).Nodup) {key : String}
    {x : α} : field? fields key = some x ↔ (key, x) ∈ fields := by
  refine ⟨mem_of_field?, fun h => ?_⟩
  have hkey : key ∈ fields.map (·.1) := List.mem_map_of_mem h
  obtain ⟨y, hy⟩ := Option.isSome_iff_exists.mp (field?_isSome.mpr hkey)
  have hxy := List.inj_on_of_nodup_map hn (mem_of_field? hy) h rfl
  rw [hy, (Prod.mk.inj hxy).2]

theorem field?_of_perm {fields others : List (String × α)} (hn : (fields.map (·.1)).Nodup)
    (h : fields.Perm others) (key : String) : field? fields key = field? others key := by
  have hn' : (others.map (·.1)).Nodup := (h.map _).nodup_iff.mp hn
  refine Option.ext fun x => ?_
  rw [field?_eq_some hn, field?_eq_some hn', h.mem_iff]

@[simp] theorem setField_nil (key : String) (value : α) : setField key value [] = [(key, value)] := rfl

theorem setField_cons (key other : String) (value x : α) (rest : List (String × α)) :
    setField key value ((other, x) :: rest) =
      if other == key then (other, value) :: rest else (other, x) :: setField key value rest := rfl

theorem map_setField (key : String) (value : α) (fields : List (String × α)) :
    (setField key value fields).map (·.1) =
      if key ∈ fields.map (·.1) then fields.map (·.1) else fields.map (·.1) ++ [key] := by
  induction fields with
  | nil => rfl
  | cons f rest ih =>
    obtain ⟨k, y⟩ := f
    by_cases hk : k = key
    · simp [setField_cons, hk]
    · simp only [setField_cons, beq_iff_eq, hk, if_false, List.map_cons, ih, List.mem_cons,
        Ne.symm hk, false_or]
      split <;> rfl

theorem nodup_setField {fields : List (String × α)} (hn : (fields.map (·.1)).Nodup) (key : String)
    (value : α) : ((setField key value fields).map (·.1)).Nodup := by
  rw [map_setField]
  split
  · exact hn
  · next hkey => exact List.Nodup.append hn (List.nodup_singleton key) (by simpa using hkey)

theorem mem_setField {fields : List (String × α)} (hn : (fields.map (·.1)).Nodup) {key k : String}
    {value x : α} :
    (k, x) ∈ setField key value fields ↔ k = key ∧ x = value ∨ k ≠ key ∧ (k, x) ∈ fields := by
  induction fields with
  | nil => simp
  | cons f rest ih =>
    obtain ⟨k', y⟩ := f
    obtain ⟨hnew, hn⟩ := List.nodup_cons.mp hn
    by_cases hk : k' = key
    · subst hk
      have hrest : ∀ z, (k', z) ∉ rest := fun z h =>
        hnew (List.mem_map.mpr ⟨_, h, rfl⟩)
      simp only [setField_cons, beq_self_eq_true, if_true, List.mem_cons, Prod.mk.injEq]
      grind
    · simp only [setField_cons, beq_iff_eq, hk, if_false, List.mem_cons, Prod.mk.injEq, ih hn]
      grind

theorem field?_setField (fields : List (String × α)) (key other : String) (value : α) :
    field? (setField key value fields) other =
      if key = other then some value else field? fields other := by
  induction fields with
  | nil => rw [setField_nil, field?_cons]
  | cons f rest ih =>
    obtain ⟨k, y⟩ := f
    rw [setField_cons]
    by_cases hk : k = key
    · subst hk
      rw [if_pos (beq_self_eq_true k), field?_cons, field?_cons]
      split <;> rfl
    · rw [if_neg (by simpa using hk), field?_cons, field?_cons, ih]
      by_cases hother : key = other
      · rw [if_pos hother, if_pos hother, if_neg fun h => hk (h.trans hother.symm)]
      · rw [if_neg hother, if_neg hother]

theorem setField_eq_map {fields : List (String × α)} (hn : (fields.map (·.1)).Nodup) {key : String}
    (hkey : key ∈ fields.map (·.1)) (x : α) :
    setField key x fields = fields.map fun f => (f.1, if f.1 = key then x else f.2) := by
  induction fields with
  | nil => cases hkey
  | cons f rest ih =>
    obtain ⟨k, y⟩ := f
    obtain ⟨hnew, hn⟩ := List.nodup_cons.mp hn
    rw [setField_cons, List.map_cons]
    by_cases hk : k = key
    · subst hk
      rw [if_pos (beq_self_eq_true k), if_pos rfl]
      refine congrArg _ ((List.map_id rest).symm.trans (List.map_congr_left fun f hf => ?_))
      have hne : f.1 ≠ k := fun heq => hnew (List.mem_map.mpr ⟨f, hf, heq⟩)
      rw [if_neg hne, id]
    · have hrest := (List.mem_cons.mp hkey).resolve_left (Ne.symm hk)
      rw [if_neg (by simpa using hk), if_neg hk, ih hn hrest]

theorem setField_of_new {fields : List (String × α)} {key : String} (h : key ∉ fields.map (·.1))
    (x : α) : setField key x fields = fields ++ [(key, x)] := by
  induction fields with
  | nil => rfl
  | cons f rest ih =>
    obtain ⟨hkey, hrest⟩ := not_or.mp (List.mem_cons.not.mp h)
    rw [setField_cons, if_neg (by simpa using Ne.symm hkey), ih hrest, List.cons_append]

theorem mem_of_mem_setField {fields : List (String × α)} {key k : String} {value x : α}
    (h : (k, x) ∈ setField key value fields) : (k, x) = (key, value) ∨ (k, x) ∈ fields := by
  induction fields with
  | nil => exact .inl (List.mem_singleton.mp h)
  | cons f rest ih =>
    obtain ⟨k', y⟩ := f
    simp only [setField_cons] at h
    split at h
    · next hk =>
      rcases List.mem_cons.mp h with h | h
      · exact .inl (by rw [h, beq_iff_eq.mp hk])
      · exact .inr (List.mem_cons_of_mem _ h)
    · rcases List.mem_cons.mp h with h | h
      · exact .inr (h ▸ List.mem_cons_self)
      · exact (ih h).imp_right (List.mem_cons_of_mem _)

theorem mem_of_mem_fieldsOf {pairs : List (String × α)} {k : String} {x : α}
    (h : (k, x) ∈ fieldsOf pairs) : (k, x) ∈ pairs := by
  -- The fields so far only grow, so the claim is about any fields to begin with.
  have hgo : ∀ fields : List (String × α),
      (k, x) ∈ pairs.foldl (fun fields p => setField p.1 p.2 fields) fields →
      (k, x) ∈ fields ∨ (k, x) ∈ pairs := by
    clear h
    induction pairs with
    | nil => exact fun fields h => .inl h
    | cons p pairs ih =>
      intro fields h
      rcases ih _ h with h | h
      · rcases mem_of_mem_setField h with h | h
        · exact .inr (h ▸ List.mem_cons_self)
        · exact .inl h
      · exact .inr (List.mem_cons_of_mem p h)
  exact (hgo [] h).resolve_left List.not_mem_nil

theorem mem_map_fieldsOf {pairs : List (String × α)} {key : String}
    (h : key ∈ pairs.map (·.1)) : key ∈ (fieldsOf pairs).map (·.1) := by
  have hgo : ∀ fields : List (String × α), key ∈ fields.map (·.1) ∨ key ∈ pairs.map (·.1) →
      key ∈ (pairs.foldl (fun fields p => setField p.1 p.2 fields) fields).map (·.1) := by
    clear h
    induction pairs with
    | nil => exact fun fields h => h.resolve_right List.not_mem_nil
    | cons p pairs ih =>
      intro fields h
      refine ih _ ?_
      rw [map_setField]
      rw [List.map_cons, List.mem_cons] at h
      split <;> grind
  exact hgo [] (.inr h)

theorem fieldsOf_append (pairs : List (String × α)) (key : String) (value : α) :
    fieldsOf (pairs ++ [(key, value)]) = setField key value (fieldsOf pairs) := by
  rw [fieldsOf, List.foldl_append]
  rfl

theorem fieldsOf_of_nodup {pairs : List (String × α)} (hn : (pairs.map (·.1)).Nodup) :
    fieldsOf pairs = pairs := by
  induction pairs using List.reverseRecOn with
  | nil => rfl
  | append_singleton rest p ih =>
    obtain ⟨key, x⟩ := p
    rw [List.map_append] at hn
    have hkey : key ∉ rest.map (·.1) := fun h =>
      List.disjoint_of_nodup_append hn h (List.mem_singleton_self _)
    rw [fieldsOf_append, ih hn.of_append_left, setField_of_new hkey]

theorem field?_fieldsOf_last {before after : List (String × α)} {key : String} {value : α}
    (h : key ∉ after.map (·.1)) : field? (fieldsOf (before ++ (key, value) :: after)) key =
      some value := by
  induction after using List.reverseRecOn with
  | nil => rw [fieldsOf_append, field?_setField, if_pos rfl]
  | append_singleton rest p ih =>
    obtain ⟨hrest, hp⟩ : key ∉ rest.map (·.1) ∧ key ≠ p.1 := by simpa using h
    rw [← List.cons_append, ← List.append_assoc, fieldsOf_append, field?_setField,
      if_neg (Ne.symm hp)]
    exact ih hrest

section Index

variable [BEq κ] [LawfulBEq κ] {key : α → κ} {asDatum : κ → Datum} {context : String}

theorem index_eq_ok {items : List α} {found : List (κ × α)} :
    index key asDatum context items = .ok found ↔
      (items.map key).Nodup ∧ found = items.map fun a => (key a, a) := by
  -- Items that were found before: their keys may not be met again.
  have hgo : ∀ earlier : List α,
      items.foldlM (fun found item =>
        if found.any (·.1 == key item) then
          Except.error (Fault.problem (.duplicateKey (asDatum (key item)) context))
        else .ok (found ++ [(key item, item)])) (earlier.map fun a => (key a, a)) = .ok found ↔
      ((items.map key).Nodup ∧ ∀ a ∈ items, key a ∉ earlier.map key) ∧
        found = (earlier ++ items).map fun a => (key a, a) := by
    induction items with
    | nil => simp [@eq_comm _ found]
    | cons item items ih =>
      intro earlier
      have hstep : (earlier.map fun a => (key a, a)) ++ [(key item, item)] =
          (earlier ++ [item]).map fun a => (key a, a) := by simp
      rw [List.foldlM_cons]
      by_cases hitem : key item ∈ earlier.map key
      · rw [if_pos (by simpa using hitem)]
        simp only [error_bind, reduceCtorEq, List.forall_mem_cons, hitem, not_true_eq_false,
          false_and, and_false]
      · rw [if_neg (by simpa using hitem), ok_bind, hstep, ih]
        simp only [List.map_append, List.map_cons, List.map_nil, List.mem_append,
          List.mem_singleton, List.nodup_cons, List.forall_mem_cons, List.append_assoc]
        grind
  simpa [index] using hgo []

omit [LawfulBEq κ] in
theorem Mendable.index (items : List α) :
    Mendable (SiteVisit.index key asDatum context items) := by
  refine Mendable.foldlM (fun found item _ => ?_) []
  split
  · exact Mendable.problem _
  · exact Mendable.ok _

end Index

section Groups

variable [BEq κ] [LawfulBEq κ] {key : α → κ}

def Grouped (key : α → κ) (items : List α) (groups : List (κ × List α)) : Prop :=
  ∀ group ∈ groups, (∃ a ∈ items, key a = group.1) ∧
    ∀ a ∈ group.2, a ∈ items ∧ key a = group.1

theorem grouped_groupBy (items : List α) : Grouped key items (groupBy key items) := by
  intro group hgroup
  rw [groupBy_eq] at hgroup
  obtain ⟨hne, hmembers⟩ := members_of_mem_grouping hgroup
  obtain ⟨a, ha⟩ := List.exists_mem_of_ne_nil _ hne
  exact ⟨⟨a, hmembers a ha⟩, hmembers⟩

end Groups
end SiteVisit
