import SiteVisit.Mapping.Transform
import SiteVisit.Proofs.Mapping.Located

/-!
The records that nested mappings give. Their fields stand in the order in which they are declared,
spliced ones in the place of their splice; each has the value of its one source, and a name with two
sources is a problem of the splice. Derived fields only see what is known by then, so it makes no
difference where among the others they are declared.
-/

namespace SiteVisit

def Derivation.ReadsFields (f : Derivation) : Prop :=
  ∀ known known', (∀ key, field? known key = field? known' key) → f known = f known'

theorem Derivation.readsFields_join (sep : String) (keys : List String) :
    (join sep keys).ReadsFields := by
  intro known known' h
  have hsame : fieldOf known = fieldOf known' := funext fun key => by rw [fieldOf, fieldOf, h]
  rw [join, join, hsame]

namespace Slots

variable {slots slots' : Slots} {found : List (String × Datum)} {pending : List String}
  {ds : List (String × Derivation)} {key : String}

/-- A record under construction, of which some fields are still to be derived. -/
def awaiting (found : List (String × Datum)) (pending : List String) : Slots :=
  found.map fun field => (field.1, if field.1 ∈ pending then none else some field.2)

@[simp] theorem map_awaiting (found : List (String × Datum)) (pending : List String) :
    (awaiting found pending).map (·.1) = found.map (·.1) := by
  simp [awaiting]

theorem some_mem_awaiting {x : Datum} :
    (key, some x) ∈ awaiting found pending ↔ (key, x) ∈ found ∧ key ∉ pending := by
  simp only [awaiting, List.mem_map, Prod.exists, Prod.mk.injEq]
  constructor
  · rintro ⟨_, y, hy, rfl, heq⟩
    split at heq
    · cases heq
    · next hkey => exact ⟨Option.some.inj heq ▸ hy, hkey⟩
  · rintro ⟨hx, hkey⟩
    exact ⟨key, x, hx, rfl, if_neg hkey⟩

theorem known_awaiting (found : List (String × Datum)) (pending : List String) :
    (awaiting found pending).known = found.filter (·.1 ∉ pending) := by
  induction found with
  | nil => rfl
  | cons field rest ih =>
    rw [known, awaiting] at ih
    rw [known, awaiting, List.map_cons, List.filterMap_cons, List.filter_cons, ih]
    by_cases hfield : field.1 ∈ pending <;> simp [hfield]

theorem awaiting_cons (found : List (String × Datum)) (key : String) (pending : List String) :
    awaiting found (key :: pending) =
      (awaiting found pending).map fun slot => (slot.1, if slot.1 = key then none else slot.2) := by
  rw [awaiting, awaiting, List.map_map]
  refine List.map_congr_left fun field _ => ?_
  by_cases hfield : field.1 = key <;> simp [hfield]

theorem setField_awaiting {x : Datum} (hn : (found.map (·.1)).Nodup) (hx : (key, x) ∈ found)
    (hkey : key ∉ pending) :
    setField key (some x) (awaiting found (key :: pending)) = awaiting found pending := by
  have hmem : key ∈ (awaiting found (key :: pending)).map (·.1) := by
    rw [map_awaiting]
    exact List.mem_map_of_mem hx
  rw [setField_eq_map (by rwa [map_awaiting]) hmem, awaiting, awaiting, List.map_map]
  refine List.map_congr_left fun field hfield => ?_
  by_cases hfirst : field.1 = key
  · obtain rfl : field = (key, x) := List.inj_on_of_nodup_map hn hfield hx hfirst
    simp [hkey]
  · simp [hfirst]

theorem eq_awaiting (hnames : found.map (·.1) = slots.map (·.1)) (hn : (found.map (·.1)).Nodup)
    (hvalues : ∀ key x, (key, some x) ∈ slots → (key, x) ∈ found)
    (hpending : ∀ key, (key, none) ∈ slots ↔ key ∈ pending) : slots = awaiting found pending := by
  have hlength : slots.length = found.length := by
    have hboth := congrArg List.length hnames.symm
    rwa [List.length_map, List.length_map] at hboth
  refine List.ext_getElem (by rw [awaiting, List.length_map, hlength]) fun i hi hi' => ?_
  have hlt : i < found.length := hlength ▸ hi
  have hname : slots[i].1 = found[i].1 := by
    have hboth := List.getElem_of_eq hnames.symm (by rwa [List.length_map])
    rwa [List.getElem_map, List.getElem_map] at hboth
  have hslot := List.getElem_mem hi
  simp only [awaiting, List.getElem_map]
  generalize slots[i] = slot at hname hslot
  obtain ⟨key, x⟩ := slot
  obtain rfl : key = found[i].1 := hname
  cases x with
  | none => rw [if_pos ((hpending _).mp hslot)]
  | some x =>
    have hgiven : found[i].1 ∉ pending := by
      intro hwaits
      have hnone := (hpending _).mpr hwaits
      cases (Prod.mk.inj (List.inj_on_of_nodup_map (hnames ▸ hn) hslot hnone rfl)).2
    have hvalue := List.inj_on_of_nodup_map hn (hvalues _ _ hslot) (List.getElem_mem hlt) rfl
    rw [if_neg hgiven, ← hvalue]

theorem eq_awaiting_nil (h : ∀ key, (key, none) ∉ slots) : slots = awaiting slots.known [] := by
  induction slots with
  | nil => rfl
  | cons slot rest ih =>
    obtain ⟨key, x⟩ := slot
    have hrest := ih fun k hk => h k (List.mem_cons_of_mem _ hk)
    cases x with
    | none => exact absurd List.mem_cons_self (h key)
    | some x => simpa [known, awaiting] using hrest

inductive Derives (found : List (String × Datum)) : List (String × Derivation) → Prop
  | nil : Derives found []
  | cons {key f rest x} : f (found.filter (·.1 ∉ key :: rest.map (·.1))) = .ok x →
      (key, x) ∈ found → Derives found rest → Derives found ((key, f) :: rest)

theorem derive_awaiting (h : Derives found ds) (hn : (found.map (·.1)).Nodup)
    (hd : (ds.map (·.1)).Nodup) :
    derive (awaiting found (ds.map (·.1))) ds = .ok (awaiting found []) := by
  induction h with
  | nil => rfl
  | cons hf hx _ ih =>
    obtain ⟨hkey, hd⟩ := List.nodup_cons.mp hd
    rw [derive, known_awaiting, List.map_cons, hf, ok_bind, setField_awaiting hn hx hkey, ih hd]

theorem exists_derives (h : slots.derive ds = .ok slots') (hn : (slots.map (·.1)).Nodup)
    (hd : (ds.map (·.1)).Nodup) (hpending : ∀ key, (key, none) ∈ slots ↔ key ∈ ds.map (·.1)) :
    ∃ found, slots = awaiting found (ds.map (·.1)) ∧ Derives found ds ∧
      slots' = awaiting found [] := by
  induction ds generalizing slots with
  | nil =>
    obtain rfl : slots = slots' := Except.ok.inj h
    have hslots : slots = awaiting slots.known [] := eq_awaiting_nil fun key hkey =>
      List.not_mem_nil ((hpending key).mp hkey)
    exact ⟨slots.known, hslots, .nil, hslots⟩
  | cons d rest ih =>
    obtain ⟨key, f⟩ := d
    obtain ⟨x, hx, h⟩ := bind_eq_ok.mp h
    obtain ⟨hkey, hd⟩ := List.nodup_cons.mp hd
    have hnone : (key, none) ∈ slots := (hpending key).mpr List.mem_cons_self
    have hmap := setField_eq_map hn (List.mem_map_of_mem hnone) (some x)
    have hrest (k : String) : (k, none) ∈ setField key (some x) slots ↔ k ∈ rest.map (·.1) := by
      rw [mem_setField hn, hpending, List.map_cons, List.mem_cons]
      grind
    obtain ⟨found, hfound, hderives, rfl⟩ := ih h (nodup_setField hn _ _) hd hrest
    -- The field that is derived first waits in the record as it was before.
    have hslots : slots = awaiting found (key :: rest.map (·.1)) := by
      rw [awaiting_cons, ← hfound, hmap, List.map_map]
      refine (List.map_id slots).symm.trans (List.map_congr_left fun slot hslot => ?_)
      by_cases hfirst : slot.1 = key
      · obtain rfl : slot = (key, none) := List.inj_on_of_nodup_map hn hslot hnone hfirst
        simp
      · simp [hfirst]
    have hset : (key, some x) ∈ awaiting found (rest.map (·.1)) :=
      hfound ▸ (mem_setField hn).mpr (.inl ⟨rfl, rfl⟩)
    refine ⟨found, hslots, .cons ?_ (some_mem_awaiting.mp hset).1 hderives, rfl⟩
    rw [← known_awaiting, ← hslots]
    exact hx

def Taken (declared : List String) (slots part : Slots) (key : String) : Prop :=
  key ∈ part.map (·.1) ∧ (key ∈ declared ∨ 1 < ((slots ++ part).map (·.1)).count key)

theorem splice_cases (declared : List String) (slots : Slots) (given : List (String × Datum)) :
    splice declared slots given = .ok (slots ++ given.map fun f => (f.1, some f.2)) ∧
      (∀ key, ¬ Taken declared slots (given.map fun f => (f.1, some f.2)) key) ∨
    ∃ key, splice declared slots given = .error (.ofMapping (.splicedCollision key)) ∧
      Taken declared slots (given.map fun f => (f.1, some f.2)) key := by
  induction given generalizing slots with
  | nil => exact .inl ⟨by simp [splice], fun key htaken => List.not_mem_nil htaken.1⟩
  | cons f rest ih =>
    obtain ⟨key, x⟩ := f
    have happend : slots ++ (((key, x) :: rest).map fun f => (f.1, some f.2)) =
        slots ++ [(key, some x)] ++ rest.map fun f => (f.1, some f.2) := by simp
    by_cases hkey : key ∈ declared ∨ key ∈ slots.map (·.1)
    · refine .inr ⟨key, ?_, List.mem_cons_self, hkey.imp_right fun hmem => ?_⟩
      · rw [splice, if_pos (by simpa using hkey)]
      · have hcount := List.count_pos_iff.mpr hmem
        rw [List.map_append, List.map_cons, List.map_cons, List.count_append, List.count_cons_self]
        omega
    · have hstep : splice declared slots ((key, x) :: rest) =
          splice declared (slots ++ [(key, some x)]) rest := by
        rw [splice, if_neg (by simpa using hkey)]
      obtain ⟨hdeclared, hslots⟩ := not_or.mp hkey
      rw [hstep]
      rcases ih (slots ++ [(key, some x)]) with ⟨hok, hnew⟩ | ⟨k, herror, hk, hwhy⟩
      · refine .inl ⟨happend ▸ hok, ?_⟩
        rintro k ⟨hk, hwhy⟩
        rcases List.mem_cons.mp hk with rfl | hk
        · -- A name that is new is taken only if it is given once more.
          have hcount := hwhy.resolve_left hdeclared
          have hmem : k ∈ (rest.map fun f => (f.1, some f.2)).map (·.1) := by
            rw [List.map_append, List.map_cons, List.map_cons, List.count_append,
              List.count_cons_self, List.count_eq_zero.mpr hslots] at hcount
            exact List.count_pos_iff.mp (by omega)
          exact hnew k ⟨hmem, .inr (happend ▸ hcount)⟩
        · exact hnew k ⟨hk, happend ▸ hwhy⟩
      · exact .inr ⟨k, herror, List.mem_cons_of_mem _ hk, happend ▸ hwhy⟩

def settled (slots : Slots) : Slots := slots.filter (·.2.isSome)

theorem known_settled (slots : Slots) : slots.settled.known = slots.known := by
  rw [known, known, settled, List.filterMap_filter]
  refine List.filterMap_congr fun slot _ => ?_
  obtain ⟨key, _ | x⟩ := slot <;> rfl

section Settled

variable {declared declared' : List String}
  (hdeclared : ∀ key, key ∈ declared ↔ key ∈ declared')

include hdeclared

theorem splice_settled (hpending : ∀ key, (key, none) ∈ slots → key ∈ declared)
    (given : List (String × Datum)) :
    (splice declared slots given).map settled = splice declared' slots.settled given := by
  induction given generalizing slots with
  | nil => rfl
  | cons f rest ih =>
    obtain ⟨key, x⟩ := f
    have htaken : (declared.contains key || slots.any (·.1 == key)) =
        (declared'.contains key || slots.settled.any (·.1 == key)) := by
      have hmem : (∃ y, (key, y) ∈ slots) ↔ (∃ y, (key, y) ∈ slots.settled) ∨ (key, none) ∈ slots := by
        simp only [settled, List.mem_filter]
        constructor
        · rintro ⟨_ | y, hy⟩
          · exact .inr hy
          · exact .inl ⟨some y, hy, rfl⟩
        · rintro (⟨y, hy, -⟩ | hy)
          · exact ⟨y, hy⟩
          · exact ⟨none, hy⟩
      have hkey := hpending key
      rw [Bool.eq_iff_iff]
      simp only [Bool.or_eq_true, List.contains_iff_mem, List.any_eq_true, beq_iff_eq, Prod.exists,
        ← hdeclared, exists_and_right, exists_eq_right] at hmem ⊢
      grind
    rw [splice, splice, htaken]
    split
    · rfl
    · have happend : (slots ++ [(key, some x)]).settled = slots.settled ++ [(key, some x)] := by
        simp [settled]
      rw [ih fun k hk => hpending k (by simpa using hk), happend]

theorem put_settled (hpending : ∀ key, (key, none) ∈ slots → key ∈ declared) (key : String)
    (spliced : Bool) (x : Datum) :
    (slots.put declared key spliced x).map settled = slots.settled.put declared' key spliced x := by
  cases spliced with
  | false => simp [put, Except.map, settled]
  | true =>
    cases x with
    | record given _ => exact splice_settled hdeclared hpending given
    | _ => rfl

end Settled

theorem pending_of_put {declared : List String} {spliced : Bool} {x : Datum}
    (h : slots.put declared key spliced x = .ok slots') (k : String) (hk : (k, none) ∈ slots') :
    (k, none) ∈ slots := by
  cases spliced with
  | false =>
    obtain rfl : slots ++ [(key, some x)] = slots' := Except.ok.inj h
    simpa using hk
  | true =>
    cases x with
    | record given _ =>
      obtain ⟨rfl, -⟩ := splice_ok h
      simpa using hk
    | _ => cases h

theorem known_setField (hn : (slots.map (·.1)).Nodup) (hkey : (key, none) ∈ slots) (x : Datum) :
    (known (setField key (some x) slots)).Perm ((key, x) :: slots.known) := by
  obtain ⟨before, after, rfl⟩ := List.append_of_mem hkey
  have hbefore : key ∉ before.map (·.1) := by
    rw [List.map_append, List.map_cons] at hn
    exact fun h => List.disjoint_of_nodup_append hn h List.mem_cons_self
  have hset : setField key (some x) (before ++ (key, none) :: after) =
      before ++ (key, some x) :: after := by
    clear hn hkey
    induction before with
    | nil => simp [setField_cons]
    | cons slot rest ih =>
      obtain ⟨hne, hrest⟩ := not_or.mp (List.mem_cons.not.mp hbefore)
      rw [List.cons_append, setField_cons, if_neg (by simpa using Ne.symm hne), ih hrest,
        List.cons_append]
  rw [hset, known, known, List.filterMap_append, List.filterMap_append]
  exact List.perm_middle

theorem derive_perm (hreads : ∀ d ∈ ds, d.2.ReadsFields) (hn : (slots.map (·.1)).Nodup)
    (hn' : (slots'.map (·.1)).Nodup) (hd : (ds.map (·.1)).Nodup)
    (hpending : ∀ key ∈ ds.map (·.1), (key, none) ∈ slots ∧ (key, none) ∈ slots')
    (hknown : slots.known.Perm slots'.known) :
    (∃ e, slots.derive ds = .error e ∧ slots'.derive ds = .error e) ∨
      ∃ a b, slots.derive ds = .ok a ∧ slots'.derive ds = .ok b ∧ a.known.Perm b.known := by
  induction ds generalizing slots slots' with
  | nil => exact .inr ⟨slots, slots', rfl, rfl, hknown⟩
  | cons d rest ih =>
    obtain ⟨key, f⟩ := d
    obtain ⟨hf, hreads⟩ := List.forall_mem_cons.mp hreads
    obtain ⟨hkey, hd⟩ := List.nodup_cons.mp hd
    obtain ⟨⟨hnone, hnone'⟩, hpending⟩ := List.forall_mem_cons.mp hpending
    have hsame : f slots.known = f slots'.known :=
      hf _ _ fun k => field?_of_perm (nodup_known hn) hknown k
    rw [derive, derive, ← hsame]
    cases hx : f slots.known with
    | error e => exact .inl ⟨e, rfl, rfl⟩
    | ok x =>
      rw [ok_bind, ok_bind]
      refine ih hreads (nodup_setField hn _ _) (nodup_setField hn' _ _) hd (fun k hk => ?_) ?_
      · have hne : k ≠ key := fun heq => hkey (heq ▸ hk)
        obtain ⟨hk, hk'⟩ := hpending k hk
        exact ⟨(mem_setField hn).mpr (.inr ⟨hne, hk⟩), (mem_setField hn').mpr (.inr ⟨hne, hk'⟩)⟩
      · calc
          (known (setField key (some x) slots)).Perm ((key, x) :: slots.known) :=
            known_setField hn hnone x
          List.Perm _ ((key, x) :: slots'.known) := hknown.cons _
          List.Perm _ (known (setField key (some x) slots')) := (known_setField hn' hnone' x).symm

end Slots

namespace Spec

variable {s : Spec} {v r : Datum} {declared : List String} {fields : List (String × Spec)}
  {field : String × Spec} {part slots : Slots} {parts : List Slots}

def isSplice (field : String × Spec) : Bool := !field.2.isDerived && isSpliced field.1 field.2

def collision (field : String × Spec) (key : String) : Fault :=
  .problem (.mapping ⟨.splicedCollision key, { field := some (fieldName field.1) }⟩)

structure Adds (declared : List String) (v : Datum) (field : String × Spec) (part : Slots) : Prop where
  fills : Fills v field part
  undeclared : isSplice field → ∀ key ∈ part.map (·.1), key ∉ declared

theorem Fills.evalFields_cases (h : Fills v field part) (declared : List String) (slots : Slots) :
    evalFields declared [field] v slots = .ok (slots ++ part) ∧
      (isSplice field → ∀ key, ¬ Slots.Taken declared slots part key) ∨
    isSplice field ∧ ∃ key, evalFields declared [field] v slots = .error (collision field key) ∧
      Slots.Taken declared slots part key := by
  cases h with
  | derived => exact .inl ⟨by simp only [evalFields], nofun⟩
  | @base key s x hs hspliced hx =>
    have hbody : s.body = s := by
      cases s with
      | splice inner => cases hspliced
      | _ => rfl
    refine .inl ⟨(evalFields_singleton hs hspliced).mpr ⟨x, by rw [hbody, hx], rfl⟩, fun hsplice => ?_⟩
    rw [isSplice, hspliced, Bool.and_false] at hsplice
    cases hsplice
  | @spliced key s given markup hs hspliced hx =>
    have hsplice : isSplice (key, s) := by rw [isSplice, hs, hspliced]; rfl
    have heval : evalFields declared [(key, s)] v slots =
        locating { field := fieldName key } (Slots.splice declared slots given) := by
      rw [evalFields_cons hs, hx, ok_bind, Slots.put, hspliced, if_pos rfl]
      exact bind_ok _
    rw [heval]
    rcases Slots.splice_cases declared slots given with ⟨hok, hnew⟩ | ⟨k, herror, hk⟩
    · exact .inl ⟨by rw [hok, locating], fun _ => hnew⟩
    · exact .inr ⟨hsplice, k, by rw [herror]; rfl, hk⟩

inductive Clash (declared : List String) (v : Datum) :
    Slots → List (String × Spec) → String × Spec → String → Prop
  | here {slots field rest part key} : Fills v field part → isSplice field →
      Slots.Taken declared slots part key → Clash declared v slots (field :: rest) field key
  | later {slots first rest part field key} : Fills v first part →
      Clash declared v (slots ++ part) rest field key →
      Clash declared v slots (first :: rest) field key

theorem Clash.evalFields_eq {key : String} (h : Clash declared v slots fields field key) :
    ∃ g name, Clash declared v slots fields g name ∧
      evalFields declared fields v slots = .error (collision g name) := by
  induction h with
  | @here slots field rest part key hfield hsplice hkey =>
    rcases hfield.evalFields_cases declared slots with ⟨-, hnew⟩ | ⟨-, name, herror, hname⟩
    · exact absurd hkey (hnew hsplice key)
    · exact ⟨field, name, .here hfield hsplice hname, by rw [evalFields_first, herror, error_bind]⟩
  | @later slots first rest part field key hfirst _ ih =>
    rw [evalFields_first]
    rcases hfirst.evalFields_cases declared slots with ⟨hok, -⟩ | ⟨hsplice, name, herror, hname⟩
    · obtain ⟨g, name, hclash, herror⟩ := ih
      exact ⟨g, name, .later hfirst hclash, by rw [hok, ok_bind, herror]⟩
    · exact ⟨first, name, .here hfirst hsplice hname, by rw [herror, error_bind]⟩

theorem evalFields_of_fills (h : List.Forall₂ (Fills v) fields parts) (slots : Slots) :
    evalFields declared fields v slots = .ok (slots ++ parts.flatten) ∧
      List.Forall₂ (Adds declared v) fields parts ∨
    (∃ e, evalFields declared fields v slots = .error e) ∧
      ¬ (List.Forall₂ (Adds declared v) fields parts ∧
        ((slots ++ parts.flatten).map (·.1)).Nodup) := by
  induction h generalizing slots with
  | nil => exact .inl ⟨by simp only [evalFields, List.flatten_nil, List.append_nil], .nil⟩
  | @cons field part fields parts hfield _ ih =>
    have happend : slots ++ (part :: parts).flatten = slots ++ part ++ parts.flatten := by simp
    rw [evalFields_first, happend]
    rcases hfield.evalFields_cases declared slots with ⟨hok, hnew⟩ | ⟨hsplice, key, herror, hkey, hwhy⟩
    · have hadd : Adds declared v field part :=
        ⟨hfield, fun hsplice k hk hdeclared => hnew hsplice k ⟨hk, .inl hdeclared⟩⟩
      rw [hok, ok_bind]
      rcases ih (slots ++ part) with ⟨hok, hadds⟩ | ⟨herror, hnot⟩
      · exact .inl ⟨hok, .cons hadd hadds⟩
      · refine .inr ⟨herror, ?_⟩
        rintro ⟨hadds, hn⟩
        exact hnot ⟨(List.forall₂_cons.mp hadds).2, hn⟩
    · refine .inr ⟨⟨_, by rw [herror, error_bind]⟩, ?_⟩
      rintro ⟨hadds, hn⟩
      rcases hwhy with hdeclared | hcount
      · exact (List.forall₂_cons.mp hadds).1.undeclared hsplice key hkey hdeclared
      · rw [List.map_append] at hn
        exact absurd (List.nodup_iff_count_le_one.mp hn.of_append_left key) (by omega)

theorem mem_flatten_none (hparts : List.Forall₂ (Fills v) fields parts) (key : String) :
    (key, none) ∈ parts.flatten ↔ key ∈ (derivations fields).map (·.1) := by
  constructor
  · intro h
    obtain ⟨part, hpart, hmem⟩ := List.mem_flatten.mp h
    obtain ⟨field, hfield, hfills⟩ := exists_of_forall₂_right hparts hpart
    cases hfills with
    | @derived k f =>
      obtain rfl : key = k := (Prod.mk.inj (List.mem_singleton.mp hmem)).1
      exact List.mem_map_of_mem (mem_derivations.mpr hfield)
    | base => cases (Prod.mk.inj (List.mem_singleton.mp hmem)).2
    | spliced =>
      obtain ⟨f, -, heq⟩ := List.mem_map.mp hmem
      cases (Prod.mk.inj heq).2
  · intro h
    obtain ⟨⟨k, f⟩, hf, rfl⟩ := List.mem_map.mp h
    obtain ⟨part, hpart, hsub⟩ := exists_fills hparts (mem_derivations.mp hf)
    cases hpart with
    | derived => exact hsub _ (List.mem_singleton_self _)
    | base hs => cases hs
    | spliced hs => cases hs

/-- A record that fields give for a row. What they add one after the other gives it its names, in
this order, and the values of all fields but the derived ones. -/
structure Assembled (fields : List (String × Spec)) (v : Datum) (parts : List Slots)
    (found : List (String × Datum)) : Prop where
  sources : List.Forall₂ (Adds (names fields) v) fields parts
  names_eq : found.map (·.1) = parts.flatten.map (·.1)
  distinct : (found.map (·.1)).Nodup
  values : ∀ key x, (key, some x) ∈ parts.flatten → (key, x) ∈ found
  derived : Slots.Derives found (derivations fields)

section Records

variable {found : List (String × Datum)}

theorem Assembled.fills (h : Assembled fields v parts found) :
    List.Forall₂ (Fills v) fields parts := h.sources.imp fun _ _ hadds => hadds.fills

theorem Assembled.flatten_eq (h : Assembled fields v parts found) :
    parts.flatten = Slots.awaiting found ((derivations fields).map (·.1)) :=
  Slots.eq_awaiting h.names_eq h.distinct h.values (mem_flatten_none h.fills)

theorem Builds.eval_eq_ok (hs : Builds s fields) (hn : (names fields).Nodup) :
    s.eval v = .ok r ↔ ∃ parts found, r = .record found [] ∧ Assembled fields v parts found := by
  have hall (found : List (String × Datum)) : (Slots.awaiting found []).known = found := by
    rw [Slots.known_awaiting]
    simp
  rw [hs.eval_eq]
  constructor
  · intro h
    obtain ⟨slots, hslots, h⟩ := bind_eq_ok.mp h
    obtain ⟨slots', hderive, h⟩ := bind_eq_ok.mp h
    obtain ⟨hnodup, parts, hparts, rfl⟩ := evalFields_ok hslots hn (fun _ h => h) .nil (by simp)
    rw [List.nil_append] at hnodup hderive
    rcases evalFields_of_fills hparts [] with ⟨-, hadds⟩ | ⟨⟨_, herror⟩, -⟩
    · obtain ⟨found, hflatten, hderives, rfl⟩ := Slots.exists_derives hderive hnodup
        (nodup_derivations hn) (mem_flatten_none hparts)
      refine ⟨parts, found, by rw [← Except.ok.inj h, hall], hadds, ?_, ?_, ?_, hderives⟩
      · rw [hflatten, Slots.map_awaiting]
      · rwa [hflatten, Slots.map_awaiting] at hnodup
      · intro key x hx
        rw [hflatten] at hx
        exact (Slots.some_mem_awaiting.mp hx).1
    · cases hslots.symm.trans herror
  · rintro ⟨parts, found, rfl, h⟩
    have hnodup : (parts.flatten.map (·.1)).Nodup := h.names_eq ▸ h.distinct
    rcases evalFields_of_fills h.fills [] with ⟨hok, -⟩ | ⟨-, hnot⟩
    · rw [hok, ok_bind, List.nil_append, h.flatten_eq,
        Slots.derive_awaiting h.derived h.distinct (nodup_derivations hn), ok_bind, hall]
    · exact absurd ⟨h.sources, hnodup⟩ hnot

theorem Builds.eval_collision (hs : Builds s fields) {key : String}
    (h : Clash (names fields) v [] fields field key) : ∃ g name,
      Clash (names fields) v [] fields g name ∧ s.eval v = .error (collision g name) := by
  obtain ⟨g, name, hclash, herror⟩ := h.evalFields_eq
  exact ⟨g, name, hclash, by rw [hs.eval_eq, herror, error_bind]⟩

end Records

section Moving

variable {t : Spec} {others : List (String × Spec)}

/-- The same fields, with derived ones in other places among the rest. Neither the derived fields nor
the rest change their order. -/
structure Moved (fields others : List (String × Spec)) : Prop where
  rest : fields.filter (!·.2.isDerived) = others.filter (!·.2.isDerived)
  derived : fields.filter (·.2.isDerived) = others.filter (·.2.isDerived)

theorem Moved.perm (h : Moved fields others) : fields.Perm others := by
  refine (List.filter_append_perm (·.2.isDerived) fields).symm.trans ?_
  rw [h.derived, h.rest]
  exact List.filter_append_perm _ others

theorem derivations_filter (fields : List (String × Spec)) :
    derivations (fields.filter (·.2.isDerived)) = derivations fields := by
  rw [derivations, derivations, List.filterMap_filter]
  refine List.filterMap_congr fun field _ => ?_
  obtain ⟨key, s⟩ := field
  cases s <;> rfl

theorem Moved.derivations_eq (h : Moved fields others) : derivations fields = derivations others := by
  rw [← derivations_filter fields, h.derived, derivations_filter]

theorem evalFields_settled {declared' : List String}
    (hdeclared : ∀ key, key ∈ declared ↔ key ∈ declared')
    (hfields : ∀ key f, (key, .derived f) ∈ fields → key ∈ declared)
    (hpending : ∀ key, (key, none) ∈ slots → key ∈ declared) :
    (evalFields declared fields v slots).map Slots.settled =
      evalFields declared' (fields.filter (!·.2.isDerived)) v slots.settled := by
  -- A field that waits has a declared name, so it never decides whether a splice clashes.
  induction fields generalizing slots with
  | nil => rw [List.filter_nil, evalFields, evalFields]; rfl
  | cons field rest ih =>
    obtain ⟨key, s⟩ := field
    have hrest := fun k f hk => hfields k f (List.mem_cons_of_mem _ hk)
    cases hderived : s.isDerived with
    | true =>
      cases s with
      | derived f =>
        have hkey := hfields key f List.mem_cons_self
        have hsettled : (slots ++ [(key, none)]).settled = slots.settled := by simp [Slots.settled]
        rw [List.filter_cons_of_neg (by simp [hderived]), evalFields, ih hrest, hsettled]
        intro k hk
        rcases List.mem_append.mp hk with hk | hk
        · exact hpending k hk
        · exact (Prod.mk.inj (List.mem_singleton.mp hk)).1 ▸ hkey
      | _ => cases hderived
    | false =>
      rw [List.filter_cons_of_pos (by simp [hderived]), evalFields_cons hderived,
        evalFields_cons hderived]
      cases s.body.eval v with
      | error e => rfl
      | ok x =>
        have hput := Slots.put_settled hdeclared hpending key (isSpliced key s) x
        rw [ok_bind, ok_bind, ← hput]
        cases hslots : slots.put declared key (isSpliced key s) x with
        | error e => rfl
        | ok slots' =>
          exact ih hrest fun k hk => hpending k (Slots.pending_of_put hslots k hk)

theorem Builds.eval_moved (hs : Builds s fields) (ht : Builds t others) (hn : (names fields).Nodup)
    (h : Moved fields others) (hreads : ∀ d ∈ derivations fields, d.2.ReadsFields) :
    (∃ e, s.eval v = .error e ∧ t.eval v = .error e) ∨
      ∃ found found', s.eval v = .ok (.record found []) ∧ t.eval v = .ok (.record found' []) ∧
        found.Perm found' := by
  have hnames : (names fields).Perm (names others) := h.perm.map _
  have hsettled : (evalFields (names fields) fields v []).map Slots.settled =
      (evalFields (names others) others v []).map Slots.settled := by
    have hderived {fields : List (String × Spec)} (key : String) (f : Derivation)
        (hf : (key, .derived f) ∈ fields) : key ∈ names fields := List.mem_map_of_mem hf
    rw [evalFields_settled (fun key => hnames.mem_iff) hderived (by simp), h.rest,
      evalFields_settled (fun key => Iff.rfl) hderived (by simp)]
  -- The settled fields are evaluated alike, and what is derived only depends on what is known.
  rw [hs.eval_eq, ht.eval_eq, ← h.derivations_eq]
  cases hslots : evalFields (names fields) fields v [] with
  | error e =>
    cases hslots' : evalFields (names others) others v [] with
    | error e' =>
      rw [hslots, hslots'] at hsettled
      cases hsettled
      exact .inl ⟨e, rfl, rfl⟩
    | ok slots' =>
      rw [hslots, hslots'] at hsettled
      cases hsettled
  | ok slots =>
    cases hslots' : evalFields (names others) others v [] with
    | error e' =>
      rw [hslots, hslots'] at hsettled
      cases hsettled
    | ok slots' =>
      rw [hslots, hslots'] at hsettled
      have hknown : slots.known = slots'.known := by
        rw [← Slots.known_settled, Except.ok.inj hsettled, Slots.known_settled]
      obtain ⟨hnodup, parts, hparts, rfl⟩ := evalFields_ok hslots hn (fun _ h => h) .nil (by simp)
      obtain ⟨hnodup', parts', hparts', rfl⟩ :=
        evalFields_ok hslots' (hnames.nodup_iff.mp hn) (fun _ h => h) .nil (by simp)
      have hpending (key : String) (hkey : key ∈ (derivations fields).map (·.1)) :
          (key, none) ∈ [] ++ parts.flatten ∧ (key, none) ∈ [] ++ parts'.flatten := by
        refine ⟨(mem_flatten_none hparts key).mpr hkey, (mem_flatten_none hparts' key).mpr ?_⟩
        rwa [← h.derivations_eq]
      rcases Slots.derive_perm hreads hnodup hnodup' (nodup_derivations hn) hpending
        (hknown ▸ .refl _) with ⟨e, herror, herror'⟩ | ⟨a, b, hok, hok', hperm⟩
      · exact .inl ⟨e, by rw [ok_bind, herror, error_bind], by rw [ok_bind, herror', error_bind]⟩
      · exact .inr ⟨a.known, b.known, by rw [ok_bind, hok, ok_bind], by rw [ok_bind, hok', ok_bind],
          hperm⟩

end Moving

/-- A mapping gives a record exactly if the fields can be assembled to it. A splice with a name of
another field or of an earlier splice is a problem. It makes no difference to what stands in the
record where among the other fields the derived ones are declared. -/
theorem nested_assembled (hs : s.Builds fields) (hn : (names fields).Nodup) (v : Datum) :
    (∀ r, s.eval v = .ok r ↔ ∃ parts found, r = .record found [] ∧ Assembled fields v parts found) ∧
    (∀ field key, Clash (names fields) v [] fields field key → ∃ g name,
      Clash (names fields) v [] fields g name ∧ s.eval v = .error (collision g name)) ∧
    ∀ (t : Spec) (others : List (String × Spec)), t.Builds others → Moved fields others →
      (∀ d ∈ derivations fields, d.2.ReadsFields) →
        (∃ e, s.eval v = .error e ∧ t.eval v = .error e) ∨
        ∃ found found', s.eval v = .ok (.record found []) ∧ t.eval v = .ok (.record found' []) ∧
          found.Perm found' :=
  ⟨fun _ => hs.eval_eq_ok hn, fun _ _ => hs.eval_collision,
    fun _ _ ht hmoved hreads => hs.eval_moved ht hn hmoved hreads⟩

def talkFields : List (String × Spec) := [
  ("first", .header "First"),
  ("$time", .steps [.header "Time", .function Transform.timeFields]),
  ("last", .header "Last"),
  ("name", .derived (.join " " ["first", "last"])),
  ("title", .derived (.join ", " ["name", "time"]))]

def talkMoved : List (String × Spec) := [
  ("name", .derived (.join " " ["first", "last"])),
  ("first", .header "First"),
  ("title", .derived (.join ", " ["name", "time"])),
  ("$time", .steps [.header "Time", .function Transform.timeFields]),
  ("last", .header "Last")]

def talkTaken : List (String × Spec) := [
  ("$time", .steps [.header "Time", .function Transform.timeFields]),
  ("end_time", .derived (.join " " ["start_time"]))]

def talkRow : Datum :=
  .record [("First", .text "Ada"), ("Last", .text "Hall "), ("Time", .text "9:00 a.m.")] []

theorem nested_assembled_talk :
    (∃ parts, Assembled talkFields talkRow parts [("first", .text "Ada"), ("time", .text "9:00 a.m."),
      ("start_time", Transform.ofTime? (Calendar.TimeOfDay.ofClock 9 0).toOption),
      ("end_time", .null), ("last", .text "Hall"), ("name", .text "Ada Hall"),
      ("title", .text "Ada Hall, 9:00 a.m.")]) ∧
    (∃ found found', (nested talkFields).eval talkRow = .ok (.record found []) ∧
      (table talkMoved).eval talkRow = .ok (.record found' []) ∧ found.Perm found') ∧
    ∃ g name, Clash (names talkTaken) talkRow [] talkTaken g name ∧
      (nested talkTaken).eval talkRow = .error (collision g name) := by
  obtain ⟨hok, -, hmoved⟩ := nested_assembled (@Builds.nested talkFields) (by decide) talkRow
  refine ⟨?_, ?_, ?_⟩
  · obtain ⟨parts, found, heq, h⟩ := (hok _).mp rfl
    cases heq
    exact ⟨parts, h⟩
  · have hreads : ∀ d ∈ derivations talkFields, d.2.ReadsFields := by
      simp only [talkFields, derivations, List.filterMap_cons, List.filterMap_nil,
        List.forall_mem_cons]
      exact ⟨Derivation.readsFields_join _ _, Derivation.readsFields_join _ _,
        List.forall_mem_nil _⟩
    refine (hmoved _ talkMoved (.table rfl) ⟨rfl, rfl⟩ hreads).resolve_left ?_
    rintro ⟨e, herror, -⟩
    cases herror
  · obtain ⟨-, hcollision, -⟩ := nested_assembled (@Builds.nested talkTaken) (by decide) talkRow
    have hfills : Fills talkRow ("$time", .steps [.header "Time", .function Transform.timeFields]) _ :=
      .spliced rfl rfl rfl
    exact hcollision _ "end_time" (.here hfills rfl ⟨by decide, .inl (by decide)⟩)

end Spec

end SiteVisit
