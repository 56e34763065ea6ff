import SiteVisit.Folder

namespace SiteVisit.Folder

variable {α : Type} {f : Folder α} {path : String} {content : α}

theorem isFile_iff : f.isFile path = true ↔ ∃ file ∈ f.files, file.1 = path := by
  simp only [isFile, List.any_eq_true, beq_iff_eq]

theorem find?_of_not_isFile (h : ¬ f.isFile path = true) :
    f.files.find? (·.1 == path) = none := by
  rw [List.find?_eq_none]
  intro file hmem hpath
  exact h (isFile_iff.mpr ⟨file, hmem, beq_iff_eq.mp hpath⟩)

theorem entry_of_isStanding (hfile : ¬ f.isFile path = true)
    (hstanding : Text.isStanding path = true) : f.entry path = .directory := by
  simp [entry, find?_of_not_isFile hfile, hstanding]

@[simp] theorem entry_put (f : Folder α) (path : String) (content : α) :
    (f.put path content).entry path = .file content := by
  rw [put]
  split
  · next hfile =>
    obtain ⟨file, hmem, hpath⟩ := isFile_iff.mp hfile
    have hsome : (f.files.find? (·.1 == path)).isSome = true :=
      List.find?_isSome.mpr ⟨file, hmem, beq_iff_eq.mpr hpath⟩
    obtain ⟨found, hfound⟩ := Option.isSome_iff_exists.mp hsome
    have hname : found.1 = path := by simpa using List.find?_some hfound
    simp only [entry, List.find?_map, Function.comp_def]
    rw [hfound]
    simp [hname]
  · next hfile => simp [entry, List.find?_append, find?_of_not_isFile hfile]

theorem makeDirectory_eq_ok {directory : String} :
    f.makeDirectory directory = .ok () ↔
      ∀ file ∈ f.files, file.1 ≠ directory ∧ (file.1 ++ "/").isPrefixOf directory = false := by
  simp only [makeDirectory]
  split
  · next hfile =>
    obtain ⟨file, hmem, hname⟩ := isFile_iff.mp hfile
    simp only [reduceCtorEq, false_iff]
    exact fun h => (h file hmem).1 hname
  · next hfile =>
    have hnames : ∀ file ∈ f.files, file.1 ≠ directory :=
      fun file hmem hname => hfile (isFile_iff.mpr ⟨file, hmem, hname⟩)
    have hway : (f.inTheWay directory).isEmpty = true ↔
        ∀ file ∈ f.files, (file.1 ++ "/").isPrefixOf directory = false := by
      simp only [inTheWay, List.isEmpty_iff, List.filter_eq_nil_iff, List.forall_mem_map,
        Bool.not_eq_true]
    split
    · next hempty =>
      simp only [true_iff]
      exact fun file hmem => ⟨hnames file hmem, hway.mp hempty file hmem⟩
    · next hempty =>
      simp only [reduceCtorEq, false_iff]
      exact fun h => hempty (hway.mpr fun file hmem => (h file hmem).2)

theorem names_put (f : Folder α) (path : String) (content : α) :
    ∀ file ∈ (f.put path content).files, file.1 = path ∨ ∃ old ∈ f.files, old.1 = file.1 := by
  rw [put]
  split
  · intro file hfile
    obtain ⟨old, hold, rfl⟩ := List.mem_map.mp hfile
    exact .inr ⟨old, hold, rfl⟩
  · intro file hfile
    rcases List.mem_append.mp hfile with hfile | hfile
    · exact .inr ⟨file, hfile, rfl⟩
    · exact .inl (by rw [List.mem_singleton.mp hfile])

theorem entry_eq_file :
    f.entry path = .file content ↔ (f.files.find? (·.1 == path)).map (·.2) = some content := by
  rw [entry]
  cases f.files.find? (·.1 == path) with
  | none =>
    dsimp only
    split <;> simp
  | some found => simp

theorem isFile_iff_entry : f.isFile path = true ↔ ∃ kept, f.entry path = .file kept := by
  simp only [entry_eq_file, Option.map_eq_some_iff, isFile_iff]
  constructor
  · rintro ⟨file, hmem, hpath⟩
    have hsome : (f.files.find? (·.1 == path)).isSome = true :=
      List.find?_isSome.mpr ⟨file, hmem, beq_iff_eq.mpr hpath⟩
    obtain ⟨found, hfound⟩ := Option.isSome_iff_exists.mp hsome
    exact ⟨found.2, found, hfound, rfl⟩
  · rintro ⟨_, found, hfound, -⟩
    exact ⟨found, List.mem_of_find?_eq_some hfound, by simpa using List.find?_some hfound⟩

theorem entry_eq_directory : f.entry path = .directory ↔
    f.isFile path = false ∧ (Text.isStanding path = true ∨
      ∃ other, f.isFile other = true ∧ (path ++ "/").isPrefixOf other = true) := by
  by_cases hfile : f.isFile path = true
  · obtain ⟨kept, hkept⟩ := isFile_iff_entry.mp hfile
    simp [hfile, hkept]
  · have hbeneath : (∃ other, f.isFile other = true ∧ (path ++ "/").isPrefixOf other = true) ↔
        (f.files.any fun file => (path ++ "/").isPrefixOf file.1) = true := by
      simp only [List.any_eq_true, isFile_iff]
      constructor
      · rintro ⟨_, ⟨file, hmem, rfl⟩, hprefix⟩
        exact ⟨file, hmem, hprefix⟩
      · rintro ⟨file, hmem, hprefix⟩
        exact ⟨file.1, ⟨file, hmem, rfl⟩, hprefix⟩
    rw [hbeneath, ← Bool.or_eq_true, entry, find?_of_not_isFile hfile, Bool.eq_false_iff]
    exact ⟨fun h => ⟨hfile, Decidable.by_contra fun hnot => by simp [hnot] at h⟩,
      fun h => if_pos h.2⟩

theorem entry_put_of_ne {other : String} (h : other ≠ path) (kept : α) :
    (f.put path content).entry other = .file kept ↔ f.entry other = .file kept := by
  have hfind : ((f.put path content).files.find? (·.1 == other)).map (·.2) =
      (f.files.find? (·.1 == other)).map (·.2) := by
    rw [put]
    split
    · simp only [List.find?_map, Function.comp_def, Option.map_map]
      cases hfound : f.files.find? (·.1 == other) with
      | none => rfl
      | some found =>
        have hname : found.1 = other := by simpa using List.find?_some hfound
        simp [hname, h]
    · simp [List.find?_append, Ne.symm h]
  simp only [entry_eq_file, hfind]

theorem isFile_put {other : String} :
    (f.put path content).isFile other = true ↔ f.isFile other = true ∨ other = path := by
  by_cases h : other = path
  · subst h
    simp [isFile_iff_entry]
  · simp only [isFile_iff_entry, entry_put_of_ne h, h, or_false]

end SiteVisit.Folder
