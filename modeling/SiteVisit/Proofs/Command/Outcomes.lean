import SiteVisit.Command.Generate
import SiteVisit.Proofs.Command.Pool
import SiteVisit.Proofs.Documents.Schedule

/-!
What the command that writes documents tells of them. Each job is told of by itself, whatever
becomes of the others and in whichever order they are carried out, and the code that the command
ends with says whether all went well.
-/

namespace SiteVisit.Command

open Worktree (Blocks)

variable {disk : Disk} {jobs : List Job} {v : Visit} {settings : DocumentSettings}
  {f final : Files} {found : Worktree FileContent} {i : Nat} {job : Job} {o : Outcome}
  {schedule : List Nat}

/-- What an outcome tells of the job at a place of a list, which found some files at its last turn
and left some in the end. `f` are the files that were there before any job. -/
structure Told (disk : Disk) (jobs : List Job) (v : Visit) (settings : DocumentSettings) (f : Files)
    (i : Nat) (job : Job) (o : Outcome) (found : Worktree FileContent) (final : Files) : Prop where
  name : o.name = job.name
  output : o.output = job.output
  /-- What it found differs from what there was by nothing but what the other jobs write. -/
  kept : ∀ name content,
    (∀ k other, k ≠ i → jobs[k]? = some other → disk.real other.output ≠ name) →
    (found.files.entry name = .file content ↔ f.entry name = .file content)
  made : ∀ name ∈ found.made,
    ∃ k other, k ≠ i ∧ jobs[k]? = some other ∧ name ∈ disk.way other.output
  succeeded : o.succeeded = true ↔ ∃ d, ((job.generate v settings).outcome []).1 = .ok d ∧
    (save disk found job.output d).1 = .ok ()
  of_success : o.succeeded = true → o.messages = ((job.generate v settings).outcome []).2
  /-- Of a failure one more message tells, which is an error exactly if it is one of the data. -/
  of_failure : o.succeeded = false → ∃ e,
    (((job.generate v settings).outcome []).1 = .error e ∨
      ∃ d, ((job.generate v settings).outcome []).1 = .ok d ∧
        (save disk found job.output d).1 = .error e) ∧
    o.messages = ((job.generate v settings).outcome []).2 ++ [e.asMessage] ∧
    ((∃ p, e = .problem p) ∧ e.asMessage.severity = .error ∨
      (∀ p, e ≠ .problem p) ∧ e.asMessage.severity = .codeError)
  /-- A success is told in the same way, and leaves the same document, as if the job were alone. -/
  alone : o.succeeded = true → (job.run disk v settings { files := f }).1 = o ∧ ∃ d,
    (job.run disk v settings { files := f }).2.files.entry (disk.real job.output) =
        .file (.document d) ∧
      final.entry (disk.real job.output) = .file (.document d)
  /-- So is a failure told, unless another document takes the place of the job's own or of a
  directory that it needs. -/
  undisturbed : (∀ k other, k ≠ i → jobs[k]? = some other →
    ¬ Blocks disk other.output job.output) → (job.run disk v settings { files := f }).1 = o

namespace Pool

section Open

variable (hopen : ∀ o, (run disk jobs v settings f schedule).progress[i]? ≠ some (.ended o))

include hopen

theorem ne_of_open {k : Nat} (h : (run disk jobs v settings f schedule).progress[k]? =
    some (.ended o)) : k ≠ i := by
  rintro rfl
  exact hopen o h

theorem entry_run_of_open {name : String} {content : FileContent}
    (h : ∀ k other, k ≠ i → jobs[k]? = some other → disk.real other.output ≠ name) :
    (run disk jobs v settings f schedule).tree.files.entry name = .file content ↔
      f.entry name = .file content :=
  entry_run fun k other _ hother ho => h k other (ne_of_open hopen ho) hother

theorem mem_made_of_open {name : String}
    (h : name ∈ (run disk jobs v settings f schedule).tree.made) :
    ∃ k other, k ≠ i ∧ jobs[k]? = some other ∧ name ∈ disk.way other.output := by
  obtain ⟨k, other, o, hother, ho, hname⟩ := mem_made_run h
  exact ⟨k, other, ne_of_open hopen ho, hother, hname⟩

theorem isDirectory_of_open (hown : (run disk jobs v settings f schedule).tree.files.isFile
      (disk.real job.output) = f.isFile (disk.real job.output))
    (hfree : ∀ k other, k ≠ i → jobs[k]? = some other → ¬ Blocks disk other.output job.output) :
    (Worktree.isDirectory { files := f } (disk.real job.output)) =
      (run disk jobs v settings f schedule).tree.isDirectory (disk.real job.output) := by
  refine Bool.eq_iff_iff.mpr ⟨?_, fun h => ?_⟩
  · exact Worktree.isDirectory_mono hown.symm (fun _ h => isFile_run h)
      (fun _ h => absurd h List.not_mem_nil)
  · obtain ⟨hfile, hname⟩ := Worktree.isDirectory_iff.mp h
    refine Worktree.isDirectory_iff.mpr ⟨hown ▸ hfile, .inl ?_⟩
    rcases hname with hentry | hmade
    · obtain ⟨-, hstands⟩ := Folder.entry_eq_directory.mp hentry
      refine Folder.entry_eq_directory.mpr ⟨hown ▸ hfile, hstands.imp_right ?_⟩
      rintro ⟨other, hother, hprefix⟩
      obtain ⟨content, hcontent⟩ := Folder.isFile_iff_entry.mp hother
      refine ⟨other, Folder.isFile_iff_entry.mpr ⟨content, ?_⟩, hprefix⟩
      refine (entry_run_of_open hopen fun k job' hk hjob' hreal => ?_).mp hcontent
      exact hfree k job' hk hjob' (.inr (.inl (hreal ▸ hprefix)))
    · obtain ⟨k, other, hk, hother, hway⟩ := mem_made_of_open hopen hmade
      exact (hfree k other hk hother (.inr (.inr hway))).elim

end Open

theorem told_of_ended (distinct : (jobs.map fun job => disk.real job.output).Nodup)
    (hjob : jobs[i]? = some job)
    (ho : (run disk jobs v settings f schedule).progress[i]? = some (.ended o)) :
    ∃ before after, schedule = before ++ i :: after ∧
      Told disk jobs v settings f i job o (run disk jobs v settings f before).tree
        (run disk jobs v settings f schedule).tree.files := by
  obtain ⟨before, after, hschedule, hopen, rfl⟩ := exists_turn_of_ended hjob ho
  refine ⟨before, after, hschedule, ?_⟩
  -- Nobody else writes the output of a job, so the job finds there what there was at the start.
  have hown := isFile_output distinct hjob hopen
  refine {
    name := rfl, output := rfl
    kept := fun _ _ => entry_run_of_open hopen, made := fun _ => mem_made_of_open hopen
    succeeded := Option.isNone_iff_eq_none.trans Job.fault?_eq_none
    of_success := ?_, of_failure := ?_, alone := ?_, undisturbed := ?_ }
  · intro hnone
    have hnone := Option.isNone_iff_eq_none.mp hnone
    simp [Job.outcome, hnone, Job.generated]
  · intro hsome
    obtain ⟨e, he⟩ := Option.ne_none_iff_exists'.mp (mt Option.isNone_iff_eq_none.mpr
      (Bool.not_eq_true _ ▸ hsome))
    refine ⟨e, Job.fault?_eq_some.mp he, ?_, e.severity_cases⟩
    simp [Job.outcome, he, Job.generated]
  · intro hnone
    have hnone := Option.isNone_iff_eq_none.mp hnone
    have hfirst : job.fault? disk v settings { files := f } = none :=
      Job.fault?_eq_none_of_subset hown.symm (fun _ h => isFile_run h)
        (fun _ h => absurd h List.not_mem_nil) hnone
    obtain ⟨d, hd, hfinal⟩ := entry_run_of_succeeded distinct hjob ho
      (Option.isNone_iff_eq_none.mpr hnone)
    obtain ⟨d', hd', halone⟩ := Job.entry_leave hfirst
    obtain rfl := Except.ok.inj (hd.symm.trans hd')
    rw [job.run_eq]
    refine ⟨?_, d, halone, hfinal⟩
    simp only [Job.outcome, hfirst, hnone]
  · intro hfree
    rw [job.run_eq]
    refine Job.outcome_congr (fun name hname => ?_) (isDirectory_of_open hopen hown hfree)
    refine Bool.eq_iff_iff.mpr ?_
    simp only [Folder.isFile_iff_entry]
    refine exists_congr fun content => (entry_run_of_open hopen fun k other hk hother hreal => ?_).symm
    exact hfree k other hk hother (.inl (hreal ▸ hname))

end Pool

namespace Generate

variable {args : List String} {a : GenerateArguments} {s : System} {env : Environment}
  {render : Rendering} {e : Fault}

/-- All goes well: the settings and the input can be read, and each document can be written. -/
def EndsWell (s : System) (render : Rendering) (a : GenerateArguments) (env : Environment)
    (f : Files) : Prop :=
  ∃ settings entry v said, Settings.load a.config env (f.configAt s) s = .ok settings ∧
    f.look s.disk a.input = .ok entry ∧ entry ≠ .absent ∧
    (f.load s a.input settings.loadOptions).outcome [] = (.ok v, said) ∧
    ∀ o ∈ (render v settings.documents f (a.jobs.map fun (k, out) => .ofKind k out)).1,
      o.succeeded = true

theorem jobs_of_parse (h : parse args = .ok a) : a.jobs ≠ [] := by
  rw [parse] at h
  obtain ⟨⟨input, g⟩, -, h⟩ := bind_eq_ok.mp h
  intro hnone
  by_cases hjobs : (jobs g).isEmpty = true
  · simp [hjobs] at h
  · simp [hjobs] at h
    subst h
    exact hjobs (List.isEmpty_iff.mpr hnone)

theorem load_of_look {path : String} {w : Workbook} (options : LoadOptions)
    (hlook : f.look s.disk path = .ok (.file (.workbook w)))
    (hread : s.disk.refusal? .read path = none) : f.load s path options = Visit.load w options := by
  rw [Files.load, hlook, hread]

theorem failed_eq_nil {outcomes : List Outcome} :
    failed outcomes = [] ↔ ∀ o ∈ outcomes, o.succeeded = true := by
  simp [failed]

theorem exists_write (hexport : a.exportDirectory = none) (s : System) (render : Rendering)
    (settings : Settings) (v : Visit) (f : Files) : ∃ done,
      write s render a settings v f = .ok done ∧
      done.code = if failed (render v settings.documents f
        (a.jobs.map fun (k, out) => .ofKind k out)).1 = [] then 0 else 1 := by
  rw [write, hexport]
  simp only [pure_eq_ok, ok_bind]
  split
  · next hnone => exact ⟨_, rfl, (if_pos (List.length_eq_zero_iff.mp hnone)).symm⟩
  · next hsome =>
    exact ⟨_, rfl, (if_neg fun hnil => hsome (List.length_eq_zero_iff.mpr hnil)).symm⟩

section WithInput

variable {config : Option String} {input : String} {settings : Settings}
  (hsettings : Settings.load config env (f.configAt s) s = .ok settings)
  (act : Settings → Except Fault Finished)

include hsettings

theorem withInput_of_present {entry : Entry FileContent} (hlook : f.look s.disk input = .ok entry)
    (hentry : entry ≠ .absent) : withInput s config input env f act = act settings := by
  rw [withInput, hsettings, hlook]
  cases entry with
  | absent => exact (hentry rfl).elim
  | directory => rfl
  | file content => rfl

theorem withInput_of_refused (hlook : f.look s.disk input = .error e) :
    withInput s config input env f act = .error e := by
  rw [withInput, hsettings, hlook]

end WithInput

theorem code_runWith (hexport : a.exportDirectory = none) (s : System) (render : Rendering)
    (env : Environment) (f : Files) :
    ((runWith s render a env f).map (·.code) = .ok 0 ↔ EndsWell s render a env f) ∧
    (¬ EndsWell s render a env f →
      (∀ e, Settings.load a.config env (f.configAt s) s = .error e → e.isBadValue = true) →
      (∀ settings e, Settings.load a.config env (f.configAt s) s = .ok settings →
        f.look s.disk a.input ≠ .error e) →
      (runWith s render a env f).map (·.code) = .ok 1) := by
  cases hsettings : Settings.load a.config env (f.configAt s) s with
  | error e =>
    rw [runWith, withInput, hsettings]
    by_cases hbad : e.isBadValue = true <;> simp [EndsWell, hsettings, hbad, Except.map]
  | ok settings =>
    cases hlook : f.look s.disk a.input with
    | error e =>
      rw [runWith, withInput_of_refused hsettings _ hlook]
      simp [EndsWell, hlook, Except.map]
    | ok entry =>
      by_cases hentry : entry = .absent
      · simp [EndsWell, runWith, withInput, hsettings, hlook, hentry, Except.map]
      · rw [runWith, withInput_of_present hsettings _ hlook hentry, collecting]
        rcases hload : (f.load s a.input settings.loadOptions).outcome [] with ⟨e | v, said⟩
        · simp [EndsWell, hsettings, hload, Except.map]
        · have hwell : EndsWell s render a env f ↔ failed (render v settings.documents f
              (a.jobs.map fun (k, out) => .ofKind k out)).1 = [] := by
            simp [EndsWell, hsettings, hlook, hentry, hload, failed_eq_nil]
          obtain ⟨done, hdone, hcode⟩ := exists_write hexport s render settings v f
          dsimp only
          rw [hdone, ok_bind, hwell]
          by_cases hfailed : failed (render v settings.documents f
              (a.jobs.map fun (k, out) => .ofKind k out)).1 = []
          · simp [hcode, hfailed, Except.map]
          · simp [hcode, hfailed, Except.map]

end Generate

/-- Jobs that write to different places are told of by themselves, whichever of them fail and in
whichever order they take their turns, one after the other being one of the orders. The command
ends with 0 if and only if all goes well, whichever way its documents are written. Otherwise it ends
with 1, unless an unforeseen fault of the configuration ends it, or the system refuses to look at the
input: then that fault does. -/
theorem jobs_told_and_code (s : System) :
    (∀ (jobs : List Job) (v : Visit) (settings : DocumentSettings) (f : Files)
      (schedule : List Nat), (jobs.map fun job => s.disk.real job.output).Nodup →
      Complete jobs schedule →
      ∃ outcomes final, renderBy s.disk schedule v settings f jobs = (outcomes, final) ∧
        outcomes.length = jobs.length ∧
        (∀ i job o, jobs[i]? = some job → outcomes[i]? = some o →
          ∃ before after, schedule = before ++ i :: after ∧
            Told s.disk jobs v settings f i job o (Pool.run s.disk jobs v settings f before).tree
              final) ∧
        ∀ name content, (∀ job ∈ jobs, s.disk.real job.output ≠ name) →
          (final.entry name = .file content ↔ f.entry name = .file content)) ∧
    (∀ (jobs : List Job) (v : Visit) (settings : DocumentSettings) (f : Files),
      Complete jobs (inTurn jobs) ∧
        renderBy s.disk (inTurn jobs) v settings f jobs = renderAll v settings f jobs s.disk) ∧
    ∀ (args : List String) (a : GenerateArguments) (env : Environment) (f : Files)
      (render : Rendering), Generate.parse args = .ok a → a.exportDirectory = none →
      a.jobs ≠ [] ∧
      ((Generate.runWith s render a env f).map (·.code) = .ok 0 ↔
        Generate.EndsWell s render a env f) ∧
      (¬ Generate.EndsWell s render a env f →
        (∀ e, Settings.load a.config env (f.configAt s) s = .error e → e.isBadValue = true) →
        (∀ settings e, Settings.load a.config env (f.configAt s) s = .ok settings →
          f.look s.disk a.input ≠ .error e) →
        (Generate.runWith s render a env f).map (·.code) = .ok 1) ∧
      ∀ settings e, Settings.load a.config env (f.configAt s) s = .ok settings →
        f.look s.disk a.input = .error e → Generate.runWith s render a env f = .error e := by
  refine ⟨?_, ?_, ?_⟩
  · intro jobs v settings f schedule distinct complete
    refine ⟨_, _, rfl, Pool.length_renderBy complete, ?_, ?_⟩
    · intro i job o hjob ho
      exact Pool.told_of_ended distinct hjob (Pool.getElem?_renderBy complete ho)
    · intro name content h
      exact Pool.entry_run fun k job o hjob _ => h job (List.mem_of_getElem? hjob)
  · exact fun jobs v settings f =>
      ⟨Pool.complete_inTurn jobs, Pool.renderBy_inTurn s.disk v settings f jobs⟩
  · intro args a env f render hparse hexport
    obtain ⟨hzero, hone⟩ := Generate.code_runWith hexport s render env f
    refine ⟨Generate.jobs_of_parse hparse, hzero, hone, fun settings e hsettings hlook => ?_⟩
    exact Generate.withInput_of_refused hsettings _ hlook

open Documents (crossBook crossRead load_crossBook)

def mixedJobs : List Job := [
  { name := "flawed", output := "out/flawed.docx"
    generate := fun _ _ => throw (.problem (.noCandidate "Lee" "SI")) },
  { name := "broken", output := "out/broken.docx"
    generate := fun _ _ => do
      Reporting.info "so far"
      throw (.defect .unwritable) },
  { name := "good", output := "out/good.docx", generate := fun _ _ => pure {} },
  { name := "late", output := "out/good.docx/late.docx", generate := fun _ _ => pure {} }]

theorem jobs_told_and_code_mixed :
    (∃ outcomes final,
      renderBy .plain [3, 2, 0, 1, 2, 0, 3, 1] crossRead {} {} mixedJobs = (outcomes, final) ∧
      outcomes.map (·.succeeded) = [false, false, true, false] ∧
      (outcomes.map fun o => o.messages.map (·.severity)) =
        [[.error], [.info, .codeError], [], [.codeError]] ∧
      ∃ d, final.entry "out/good.docx" = .file (.document d)) ∧
    ∃ a, Generate.parse ["visit.xlsx", "--full-out", "out/full.docx"] = .ok a ∧
      (Generate.runWith .standard (fun v settings f jobs => renderAll v settings f jobs) a {}
        ⟨[("visit.xlsx", .workbook crossBook)]⟩).map (·.code) = .ok 0 := by
  obtain ⟨hjobs, -, hcode⟩ := jobs_told_and_code .standard
  constructor
  · obtain ⟨outcomes, final, hrender, -, htold, -⟩ := hjobs mixedJobs crossRead {} {}
      [3, 2, 0, 1, 2, 0, 3, 1] (by decide) (by unfold Complete; decide)
    change renderBy .plain [3, 2, 0, 1, 2, 0, 3, 1] crossRead {} {} mixedJobs = _ at hrender
    have houtcomes : outcomes =
        (renderBy .plain [3, 2, 0, 1, 2, 0, 3, 1] crossRead {} {} mixedJobs).1 := by rw [hrender]
    have hgood : outcomes[2]? = some ⟨"good", "out/good.docx", [], true⟩ := by
      rw [houtcomes]
      decide
    obtain ⟨_, _, -, hgoodTold⟩ := htold 2 _ _ rfl hgood
    obtain ⟨-, d, -, hd⟩ := hgoodTold.alone rfl
    refine ⟨outcomes, final, hrender, ?_, ?_, d, hd⟩
    · rw [houtcomes]
      decide
    · rw [houtcomes]
      decide
  · let a : GenerateArguments := ⟨"visit.xlsx", none, none, 0, [(.full, "out/full.docx")]⟩
    let f : Files := ⟨[("visit.xlsx", .workbook crossBook)]⟩
    have hparse : Generate.parse ["visit.xlsx", "--full-out", "out/full.docx"] = .ok a := by
      decide
    obtain ⟨settings, hsettings, hoptions, hdocuments⟩ : ∃ settings,
        Settings.load none {} (f.configAt .standard) .standard = .ok settings ∧
          settings.loadOptions = {} ∧ settings.documents = {} := ⟨_, rfl, rfl, rfl⟩
    have hlook : Folder.look .plain (⟨[("visit.xlsx", .workbook crossBook)]⟩ : Files) "visit.xlsx" =
        .ok (.file (.workbook crossBook)) := rfl
    have hopen : Disk.plain.refusal? .read "visit.xlsx" = none := rfl
    obtain ⟨after, hload⟩ := load_crossBook
    obtain ⟨-, hzero, -⟩ := hcode _ a {} f
      (fun v settings f jobs => renderAll v settings f jobs) hparse rfl
    refine ⟨a, hparse, hzero.mpr ⟨settings, .file (.workbook crossBook), crossRead, after, hsettings,
      hlook, nofun, ?_, ?_⟩⟩
    · rw [Generate.load_of_look _ hlook hopen, hoptions]
      exact hload
    · rw [hdocuments]
      decide

section LongInput

variable {cs : List Char}

theorem parse_full (hname : Text.IsName cs) (hplain : cs.head? ≠ some '-') :
    Generate.parse [String.ofList cs, "--full"] =
      .ok ⟨String.ofList cs, none, none, 0, [(.full, Documents.Kind.full.standardFile)]⟩ := by
  have hdashes : (String.ofList cs == "--") = false := by
    rw [beq_eq_false_iff_ne]
    intro h
    rw [show cs = ['-', '-'] from String.ofList_injective h] at hplain
    exact hplain rfl
  have htokens : tokens (helpOption :: Generate.options) [String.ofList cs, "--full"] =
      .ok [.plain (String.ofList cs), .option ⟨["--full"], false⟩ "--full" .nothing] := by
    simp only [tokens, hdashes, Token.ofArgument, String.toList_ofList, bne_iff_ne.mpr hplain]
    rfl
  have hread : readArguments Generate.options [String.ofList cs, "--full"] =
      .ok (String.ofList cs,
        { input := some (String.ofList cs), options := [(⟨["--full"], false⟩, "")] }) := by
    rw [readArguments, htokens]
    rfl
  rw [Generate.parse, hread]
  simp only [ok_bind, hname.path]
  rfl

theorem run_of_longInput (hname : Text.IsName cs) (hshort : Disk.bytes cs ≤ Disk.longestPath)
    (hlong : Disk.longestName < Disk.bytes cs) {a : GenerateArguments} {env : Environment}
    {settings : Settings} (hinput : a.input = String.ofList cs)
    (hsettings : Settings.load a.config env (f.configAt .standard) .standard = .ok settings) :
    Generate.run a env f = .error (.defect (.longName (String.ofList cs))) := by
  rw [Generate.run, Generate.runWith]
  refine Generate.withInput_of_refused hsettings _ ?_
  rw [hinput]
  exact Folder.look_of_longName f hname hshort hlong

end LongInput

/-- An input that is not there and cannot be looked for is not told to be missing. -/
theorem long_input_not_told : ∃ (input : String) (a : GenerateArguments),
    Generate.parse [input, "--full"] = .ok a ∧ a.exportDirectory = none ∧
      (∃ settings, Settings.load a.config {} (Files.configAt .standard {}) .standard =
        .ok settings) ∧
      Generate.run a {} {} = .error (.defect (.longName input)) := by
  have hname : Text.IsName (List.replicate 300 'x') := ⟨by decide, by decide, by decide, by decide⟩
  have hbytes : Disk.bytes (List.replicate 300 'x') = 300 := Disk.bytes_replicate 300 'x'
  obtain ⟨settings, hsettings⟩ : ∃ settings,
      Settings.load none {} (Files.configAt .standard {}) .standard = .ok settings := ⟨_, rfl⟩
  exact ⟨_, _, parse_full hname (by decide), rfl, ⟨settings, hsettings⟩,
    run_of_longInput hname (hbytes.trans_le (by decide)) (hbytes.symm ▸ by decide) rfl hsettings⟩

end SiteVisit.Command
