import Mathlib.Data.List.Induction
import SiteVisit.Proofs.Command.Jobs

/-!
Jobs that are carried out side by side, in any order. A job has two turns: at the first one it makes
its document, at the second one it saves it. Whichever order the turns come in, each job is told of
as if it were carried out at once among the files that it finds at its last turn, and those differ
from the first ones by nothing but the documents of other jobs.
-/

namespace SiteVisit.Command

open Documents (Document)

inductive Progress
  | waiting : Progress
  | made (d : Document) (said : List Message) : Progress
  | ended (o : Outcome) : Progress

namespace Progress

def outcome? : Progress → Option Outcome
  | ended o => some o
  | _ => none

def turns : Progress → Nat
  | waiting => 0
  | made _ _ => 1
  | ended _ => 2

theorem eq_ended_of_turns {here : Progress} (h : 2 ≤ here.turns) : ∃ o, here = .ended o := by
  cases here with
  | waiting => exact absurd h (by decide)
  | made d said => exact absurd h (by simp [turns])
  | ended o => exact ⟨o, rfl⟩

end Progress

namespace Job

variable (disk : Disk) (job : Job) (v : Visit) (settings : DocumentSettings)

def turn (found : Worktree FileContent) : Progress → Progress × Worktree FileContent
  | .waiting =>
    match job.generated v settings with
    | (.ok d, said) => (.made d said, found)
    | (.error e, said) => (.ended ⟨job.name, job.output, said ++ [e.asMessage], false⟩, found)
  | .made d said =>
    match save disk found job.output d with
    | (.ok (), files) => (.ended ⟨job.name, job.output, said, true⟩, files)
    | (.error e, files) => (.ended ⟨job.name, job.output, said ++ [e.asMessage], false⟩, files)
  | .ended o => (.ended o, found)

def Holds : Progress → Prop
  | .made d said => job.generated v settings = (.ok d, said)
  | _ => True

variable {disk job v settings} {found : Worktree FileContent} {here : Progress} {o : Outcome}

theorem Holds.turn (found : Worktree FileContent) (here : Progress) :
    job.Holds v settings (job.turn disk v settings found here).1 := by
  cases here with
  | waiting =>
    rw [Job.turn]
    rcases h : job.generated v settings with ⟨e | d, said⟩
    · trivial
    · exact h
  | made d said =>
    rw [Job.turn]
    rcases save disk found job.output d with ⟨e | ⟨⟩, files⟩ <;> trivial
  | ended o => trivial

theorem turns_turn (disk : Disk) (job : Job) (v : Visit) (settings : DocumentSettings)
    (found : Worktree FileContent) (here : Progress) :
    min 2 (here.turns + 1) ≤ (job.turn disk v settings found here).1.turns := by
  cases here with
  | waiting =>
    rw [turn]
    rcases job.generated v settings with ⟨e | d, said⟩ <;> simp [Progress.turns]
  | made d said =>
    rw [turn]
    rcases save disk found job.output d with ⟨e | ⟨⟩, files⟩ <;> simp [Progress.turns]
  | ended o => exact Nat.min_le_left 2 _

/-- The turn that ends a job ends it as if it were carried out at once. -/
theorem turn_eq_ended (hopen : ∀ o, here ≠ .ended o) (hhere : job.Holds v settings here)
    (h : (job.turn disk v settings found here).1 = .ended o) :
    o = job.outcome disk v settings found ∧
      (job.turn disk v settings found here).2 = job.leave disk v settings found := by
  cases here with
  | waiting =>
    rw [turn] at h ⊢
    rcases hgenerated : job.generated v settings with ⟨e | d, said⟩
    · rw [hgenerated] at h
      obtain rfl := Progress.ended.inj h
      simp [outcome, leave, fault?, hgenerated]
    · rw [hgenerated] at h
      cases h
  | made d said =>
    have hgenerated : job.generated v settings = (.ok d, said) := hhere
    rw [turn] at h ⊢
    rcases hsave : save disk found job.output d with ⟨e | ⟨⟩, files⟩ <;>
      · rw [hsave] at h
        obtain rfl := Progress.ended.inj h
        simp [outcome, leave, fault?, hgenerated, hsave]
  | ended o => exact (hopen o rfl).elim

theorem turn_waiting_turn (found : Worktree FileContent) :
    job.turn disk v settings (job.turn disk v settings found .waiting).2
        (job.turn disk v settings found .waiting).1 =
      (.ended (job.outcome disk v settings found), job.leave disk v settings found) := by
  rw [turn]
  rcases hgenerated : job.generated v settings with ⟨e | d, said⟩
  · simp [turn, outcome, leave, fault?, hgenerated]
  · simp only [turn]
    rcases hsave : save disk found job.output d with ⟨e | ⟨⟩, files⟩ <;>
      simp [outcome, leave, fault?, hgenerated, hsave]

theorem turn_of_open (h : ∀ o, (job.turn disk v settings found here).1 ≠ .ended o) :
    (job.turn disk v settings found here).2 = found := by
  cases here with
  | waiting =>
    rw [turn]
    rcases job.generated v settings with ⟨e | d, said⟩ <;> rfl
  | made d said =>
    rw [turn] at h
    rcases hsave : save disk found job.output d with ⟨e | ⟨⟩, files⟩ <;>
      · rw [hsave] at h
        exact (h _ rfl).elim
  | ended o => rfl

theorem entry_leave_of_ne {other : String} {content : FileContent}
    (h : other ≠ disk.real job.output) :
    (job.leave disk v settings found).files.entry other = .file content ↔
      found.files.entry other = .file content := by
  rw [leave]
  cases (job.generated v settings).1 with
  | error e => rfl
  | ok d => exact entry_save_of_ne h

theorem isFile_leave {other : String} (h : found.files.isFile other = true) :
    (job.leave disk v settings found).files.isFile other = true := by
  rw [leave]
  cases (job.generated v settings).1 with
  | error e => exact h
  | ok d => exact isFile_save h

theorem mem_made_leave {name : String} (h : name ∈ (job.leave disk v settings found).made) :
    name ∈ found.made ∨ name ∈ disk.way job.output := by
  rw [leave] at h
  cases hgenerated : (job.generated v settings).1 with
  | error e =>
    rw [hgenerated] at h
    exact .inl h
  | ok d =>
    rw [hgenerated] at h
    exact mem_made_save h

theorem entry_leave (h : job.fault? disk v settings found = none) :
    ∃ d, (job.generated v settings).1 = .ok d ∧
      (job.leave disk v settings found).files.entry (disk.real job.output) =
        .file (.document d) := by
  obtain ⟨d, hd, hsave⟩ := fault?_eq_none.mp h
  refine ⟨d, hd, ?_⟩
  rw [leave, hd]
  exact entry_save hsave

end Job

/-- The jobs that are carried out side by side, and the files that they share. -/
structure Pool where
  progress : List Progress
  tree : Worktree FileContent

namespace Pool

variable (disk : Disk) (jobs : List Job) (v : Visit) (settings : DocumentSettings)

def turn (p : Pool) (i : Nat) : Pool :=
  match jobs[i]?, p.progress[i]? with
  | some job, some here =>
    let (next, tree) := job.turn disk v settings p.tree here
    ⟨p.progress.set i next, tree⟩
  | _, _ => p

def run (f : Files) (schedule : List Nat) : Pool :=
  schedule.foldl (turn disk jobs v settings) ⟨jobs.map fun _ => .waiting, { files := f }⟩

end Pool

/-- Carries out the jobs in the order that a schedule gives them their turns. -/
def renderBy (disk : Disk) (schedule : List Nat) : Rendering := fun v settings f jobs =>
  let p := Pool.run disk jobs v settings f schedule
  (p.progress.filterMap Progress.outcome?, p.tree.files)

namespace Pool

variable {disk : Disk} {jobs : List Job} {v : Visit} {settings : DocumentSettings} {f : Files}
  {i k : Nat} {job : Job} {here : Progress} {o : Outcome} {schedule : List Nat}

theorem run_concat : run disk jobs v settings f (schedule ++ [i]) =
    (run disk jobs v settings f schedule).turn disk jobs v settings i := List.foldl_concat ..

theorem turn_eq {p : Pool} (hjob : jobs[i]? = some job) (hhere : p.progress[i]? = some here) :
    p.turn disk jobs v settings i =
      ⟨p.progress.set i (job.turn disk v settings p.tree here).1,
        (job.turn disk v settings p.tree here).2⟩ := by
  simp only [turn, hjob, hhere]

theorem turn_cases (disk : Disk) (jobs : List Job) (v : Visit) (settings : DocumentSettings)
    (p : Pool) (i : Nat) :
    p.turn disk jobs v settings i = p ∨
      ∃ job here, jobs[i]? = some job ∧ p.progress[i]? = some here ∧
        p.turn disk jobs v settings i =
          ⟨p.progress.set i (job.turn disk v settings p.tree here).1,
            (job.turn disk v settings p.tree here).2⟩ := by
  rw [turn]
  split
  · next job here hjob hhere => exact .inr ⟨job, here, hjob, hhere, rfl⟩
  · exact .inl rfl

theorem progress_turn {p : Pool} {next : Progress}
    (h : (p.turn disk jobs v settings i).progress[k]? = some next) :
    p.progress[k]? = some next ∨
      i = k ∧ ∃ job here, jobs[k]? = some job ∧ p.progress[k]? = some here ∧
        next = (job.turn disk v settings p.tree here).1 := by
  rcases turn_cases disk jobs v settings p i with hsame | ⟨job, here, hjob, hhere, hturn⟩
  · exact .inl (hsame ▸ h)
  · rw [hturn, List.getElem?_set] at h
    split at h
    · next hik =>
      subst hik
      split at h
      · exact .inr ⟨rfl, job, here, hjob, hhere, (Option.some.inj h).symm⟩
      · cases h
    · exact .inl h

theorem ended_turn {p : Pool} (h : p.progress[k]? = some (.ended o)) :
    (p.turn disk jobs v settings i).progress[k]? = some (.ended o) := by
  rcases turn_cases disk jobs v settings p i with hsame | ⟨job, here, hjob, hhere, hturn⟩
  · rwa [hsame]
  · rw [hturn, List.getElem?_set]
    split
    · next hik =>
      subst hik
      obtain rfl := Option.some.inj (hhere.symm.trans h)
      rw [if_pos (List.getElem?_eq_some_iff.mp h).1]
      rfl
    · exact h

@[simp] theorem length_progress :
    (run disk jobs v settings f schedule).progress.length = jobs.length := by
  induction schedule using List.reverseRecOn with
  | nil => exact List.length_map _
  | append_singleton schedule i ih =>
    rw [run_concat]
    rcases turn_cases disk jobs v settings (run disk jobs v settings f schedule) i with
      hsame | ⟨job, here, -, -, hturn⟩
    · rw [hsame, ih]
    · rw [hturn, List.length_set, ih]

theorem eq_waiting_of_nil (h : (run disk jobs v settings f []).progress[k]? = some here) :
    here = .waiting := by
  obtain ⟨_, -, hwaiting⟩ := Option.map_eq_some_iff.mp ((List.getElem?_map ..).symm.trans h)
  exact hwaiting.symm

theorem holds_run (hjob : jobs[k]? = some job)
    (h : (run disk jobs v settings f schedule).progress[k]? = some here) :
    job.Holds v settings here := by
  induction schedule using List.reverseRecOn generalizing here with
  | nil =>
    obtain rfl := eq_waiting_of_nil h
    trivial
  | append_singleton schedule i ih =>
    rw [run_concat] at h
    rcases progress_turn h with hbefore | ⟨rfl, job', before, hjob', -, rfl⟩
    · exact ih hbefore
    · obtain rfl := Option.some.inj (hjob.symm.trans hjob')
      exact Job.Holds.turn ..

theorem turns_run (hjob : jobs[k]? = some job) (v : Visit) (settings : DocumentSettings)
    (f : Files) (schedule : List Nat) :
    ∃ here, (run disk jobs v settings f schedule).progress[k]? = some here ∧
      min 2 (schedule.count k) ≤ here.turns := by
  induction schedule using List.reverseRecOn with
  | nil =>
    refine ⟨.waiting, ?_, Nat.min_le_right ..⟩
    rw [run, List.foldl_nil, List.getElem?_map, hjob]
    rfl
  | append_singleton schedule i ih =>
    obtain ⟨here, hhere, hturns⟩ := ih
    rw [run_concat]
    by_cases hik : i = k
    · subst hik
      rw [turn_eq hjob hhere, List.count_append, List.count_singleton_self]
      refine ⟨_, List.getElem?_set_self (List.getElem?_eq_some_iff.mp hhere).1, ?_⟩
      have hnext := job.turns_turn disk v settings (run disk jobs v settings f schedule).tree here
      omega
    · refine ⟨here, ?_, ?_⟩
      · rcases turn_cases disk jobs v settings (run disk jobs v settings f schedule) i with
          hsame | ⟨_, _, -, -, hturn⟩
        · rwa [hsame]
        · rw [hturn, List.getElem?_set_ne hik, hhere]
      · simpa [List.count_append, List.count_singleton, hik] using hturns

theorem ended_run_concat (hjob : jobs[k]? = some job)
    (h : (run disk jobs v settings f (schedule ++ [i])).progress[k]? = some (.ended o)) :
    (run disk jobs v settings f schedule).progress[k]? = some (.ended o) ∨
      i = k ∧ (∀ o', (run disk jobs v settings f schedule).progress[k]? ≠ some (.ended o')) ∧
        o = job.outcome disk v settings (run disk jobs v settings f schedule).tree ∧
        (run disk jobs v settings f (schedule ++ [i])).tree =
          job.leave disk v settings (run disk jobs v settings f schedule).tree := by
  rw [run_concat] at h ⊢
  rcases progress_turn h with hbefore | ⟨rfl, job', here, hjob', hhere, hnext⟩
  · exact .inl hbefore
  · obtain rfl := Option.some.inj (hjob.symm.trans hjob')
    by_cases hopen : ∀ o', here ≠ .ended o'
    · obtain ⟨rfl, hleave⟩ := Job.turn_eq_ended hopen (holds_run hjob hhere) hnext.symm
      refine .inr ⟨rfl, fun o' ho' => hopen o' (Option.some.inj (hhere.symm.trans ho')), rfl, ?_⟩
      rw [turn_eq hjob hhere, hleave]
    · obtain ⟨o', rfl⟩ := not_forall_not.mp hopen
      obtain rfl := Progress.ended.inj hnext
      exact .inl hhere

theorem exists_turn_of_ended (hjob : jobs[k]? = some job)
    (h : (run disk jobs v settings f schedule).progress[k]? = some (.ended o)) :
    ∃ before after, schedule = before ++ k :: after ∧
      (∀ o', (run disk jobs v settings f before).progress[k]? ≠ some (.ended o')) ∧
      o = job.outcome disk v settings (run disk jobs v settings f before).tree := by
  induction schedule using List.reverseRecOn with
  | nil => cases eq_waiting_of_nil h
  | append_singleton schedule i ih =>
    rcases ended_run_concat hjob h with hbefore | ⟨rfl, hopen, ho, -⟩
    · obtain ⟨before, after, rfl, hopen, ho⟩ := ih hbefore
      exact ⟨before, after ++ [i], by simp, hopen, ho⟩
    · exact ⟨schedule, [], rfl, hopen, ho⟩

/-- A turn leaves everything as it is, or it is the one that ends its job. -/
theorem tree_run_concat (disk : Disk) (jobs : List Job) (v : Visit) (settings : DocumentSettings)
    (f : Files) (schedule : List Nat) (i : Nat) :
    (run disk jobs v settings f (schedule ++ [i])).tree =
        (run disk jobs v settings f schedule).tree ∨
      ∃ job o, jobs[i]? = some job ∧
        (∀ o', (run disk jobs v settings f schedule).progress[i]? ≠ some (.ended o')) ∧
        (run disk jobs v settings f (schedule ++ [i])).progress[i]? = some (.ended o) ∧
        (run disk jobs v settings f (schedule ++ [i])).tree =
          job.leave disk v settings (run disk jobs v settings f schedule).tree := by
  rcases turn_cases disk jobs v settings (run disk jobs v settings f schedule) i with
    hsame | ⟨job, here, hjob, hhere, hturn⟩
  · rw [run_concat]
    exact .inl (congrArg tree hsame)
  · by_cases hends : ∃ o, (job.turn disk v settings (run disk jobs v settings f schedule).tree
        here).1 = .ended o
    · obtain ⟨o, ho⟩ := hends
      have hafter : (run disk jobs v settings f (schedule ++ [i])).progress[i]? =
          some (.ended o) := by
        rw [run_concat, hturn, ho]
        exact List.getElem?_set_self (List.getElem?_eq_some_iff.mp hhere).1
      rcases ended_run_concat hjob hafter with hbefore | ⟨-, hopen, -, hleave⟩
      · obtain rfl := Option.some.inj (hhere.symm.trans hbefore)
        rw [run_concat, hturn]
        exact .inl rfl
      · exact .inr ⟨job, o, hjob, hopen, hafter, hleave⟩
    · rw [run_concat, hturn]
      exact .inl (Job.turn_of_open (not_exists.mp hends))

theorem isFile_run {path : String} (h : f.isFile path = true) :
    (run disk jobs v settings f schedule).tree.files.isFile path = true := by
  induction schedule using List.reverseRecOn with
  | nil => exact h
  | append_singleton schedule i ih =>
    rcases tree_run_concat disk jobs v settings f schedule i with
      hsame | ⟨job, -, -, -, -, hleave⟩
    · rwa [hsame]
    · rw [hleave]
      exact Job.isFile_leave ih

/-- Only jobs that have ended change files, each the one that it is to write. -/
theorem entry_run {path : String} {content : FileContent}
    (h : ∀ (k : Nat) (job : Job) (o : Outcome), jobs[k]? = some job →
      (run disk jobs v settings f schedule).progress[k]? = some (.ended o) →
        disk.real job.output ≠ path) :
    (run disk jobs v settings f schedule).tree.files.entry path = .file content ↔
      f.entry path = .file content := by
  induction schedule using List.reverseRecOn with
  | nil => rfl
  | append_singleton schedule i ih =>
    have ih := ih fun k job o hjob ho => h k job o hjob (by rw [run_concat]; exact ended_turn ho)
    rcases tree_run_concat disk jobs v settings f schedule i with
      hsame | ⟨job, o, hjob, -, hended, hleave⟩
    · rw [hsame, ih]
    · rw [hleave, Job.entry_leave_of_ne (h i job o hjob hended).symm, ih]

theorem mem_made_run {name : String}
    (h : name ∈ (run disk jobs v settings f schedule).tree.made) :
    ∃ (k : Nat) (job : Job) (o : Outcome), jobs[k]? = some job ∧
      (run disk jobs v settings f schedule).progress[k]? = some (.ended o) ∧
        name ∈ disk.way job.output := by
  induction schedule using List.reverseRecOn with
  | nil => exact absurd h List.not_mem_nil
  | append_singleton schedule i ih =>
    have hearlier (h : name ∈ (run disk jobs v settings f schedule).tree.made) :
        ∃ (k : Nat) (job : Job) (o : Outcome), jobs[k]? = some job ∧
          (run disk jobs v settings f (schedule ++ [i])).progress[k]? = some (.ended o) ∧
            name ∈ disk.way job.output := by
      obtain ⟨k, job, o, hjob, ho, hname⟩ := ih h
      exact ⟨k, job, o, hjob, by rw [run_concat]; exact ended_turn ho, hname⟩
    rcases tree_run_concat disk jobs v settings f schedule i with
      hsame | ⟨job, o, hjob, -, hended, hleave⟩
    · exact hearlier (hsame ▸ h)
    · rw [hleave] at h
      rcases Job.mem_made_leave h with h | h
      · exact hearlier h
      · exact ⟨i, job, o, hjob, hended, h⟩

section Distinct

variable (distinct : (jobs.map fun job => disk.real job.output).Nodup)

include distinct

theorem eq_of_output {job' : Job} (hjob : jobs[k]? = some job) (hjob' : jobs[i]? = some job')
    (h : disk.real job'.output = disk.real job.output) : i = k := by
  refine (List.getElem?_inj ?_ distinct).mp ?_
  · rw [List.length_map]
    exact (List.getElem?_eq_some_iff.mp hjob').1
  · rw [List.getElem?_map, List.getElem?_map, hjob, hjob', Option.map_some, Option.map_some, h]

theorem isFile_output (hjob : jobs[k]? = some job)
    (hopen : ∀ o, (run disk jobs v settings f schedule).progress[k]? ≠ some (.ended o)) :
    (run disk jobs v settings f schedule).tree.files.isFile (disk.real job.output) =
      f.isFile (disk.real job.output) := by
  refine Bool.eq_iff_iff.mpr ?_
  simp only [Folder.isFile_iff_entry]
  refine exists_congr fun content => entry_run fun i job' o hjob' ho hsame => ?_
  obtain rfl := eq_of_output distinct hjob hjob' hsame
  exact hopen o ho

theorem entry_run_of_succeeded (hjob : jobs[k]? = some job)
    (h : (run disk jobs v settings f schedule).progress[k]? = some (.ended o))
    (ho : o.succeeded = true) :
    ∃ d, (job.generated v settings).1 = .ok d ∧
      (run disk jobs v settings f schedule).tree.files.entry (disk.real job.output) =
        .file (.document d) := by
  induction schedule using List.reverseRecOn with
  | nil => cases eq_waiting_of_nil h
  | append_singleton schedule i ih =>
    rcases ended_run_concat hjob h with hbefore | ⟨rfl, -, rfl, hleave⟩
    · obtain ⟨d, hd, hentry⟩ := ih hbefore
      refine ⟨d, hd, ?_⟩
      rcases tree_run_concat disk jobs v settings f schedule i with
        hsame | ⟨job', -, hjob', hopen, -, hleave⟩
      · rw [hsame, hentry]
      · have hother : disk.real job.output ≠ disk.real job'.output := by
          intro hsame
          obtain rfl := eq_of_output distinct hjob hjob' hsame.symm
          exact hopen o hbefore
        rw [hleave, Job.entry_leave_of_ne hother, hentry]
    · rw [hleave]
      exact Job.entry_leave (Option.isNone_iff_eq_none.mp ho)

end Distinct

end Pool

/-- Whether a schedule gives each job the turns that it needs. -/
def Complete (jobs : List Job) (schedule : List Nat) : Prop :=
  ∀ i < jobs.length, 2 ≤ schedule.count i

def inTurn (jobs : List Job) : List Nat := (List.range jobs.length).flatMap fun i => [i, i]

namespace Pool

variable {disk : Disk} {jobs : List Job} {v : Visit} {settings : DocumentSettings} {f : Files}
  {i k : Nat} {job : Job} {o : Outcome} {schedule : List Nat}

theorem map_ended_filterMap {progress : List Progress}
    (h : ∀ here ∈ progress, ∃ o, here = .ended o) :
    (progress.filterMap Progress.outcome?).map .ended = progress := by
  induction progress with
  | nil => rfl
  | cons here rest ih =>
    obtain ⟨⟨o, rfl⟩, hrest⟩ := List.forall_mem_cons.mp h
    rw [List.filterMap_cons, Progress.outcome?, List.map_cons, ih hrest]

theorem map_ended_renderBy (h : Complete jobs schedule) :
    (renderBy disk schedule v settings f jobs).1.map .ended =
      (run disk jobs v settings f schedule).progress := by
  refine map_ended_filterMap fun here hmem => ?_
  obtain ⟨k, hk⟩ := List.mem_iff_getElem?.mp hmem
  have hlength := (List.getElem?_eq_some_iff.mp hk).1
  rw [length_progress] at hlength
  obtain ⟨here', hhere, hturns⟩ :=
    turns_run (List.getElem?_eq_getElem hlength) v settings f schedule
  obtain rfl := Option.some.inj (hk.symm.trans hhere)
  exact Progress.eq_ended_of_turns (by have := h k hlength; omega)

theorem length_renderBy (h : Complete jobs schedule) :
    (renderBy disk schedule v settings f jobs).1.length = jobs.length := by
  rw [← List.length_map Progress.ended, map_ended_renderBy h, length_progress]

theorem getElem?_renderBy (h : Complete jobs schedule)
    (ho : (renderBy disk schedule v settings f jobs).1[k]? = some o) :
    (run disk jobs v settings f schedule).progress[k]? = some (.ended o) := by
  rw [← map_ended_renderBy h, List.getElem?_map, ho]
  rfl

theorem complete_inTurn (jobs : List Job) : Complete jobs (inTurn jobs) := by
  intro i hi
  rw [← List.replicate_sublist_iff, inTurn, List.flatMap_def]
  exact List.sublist_flatten_of_mem (List.mem_map.mpr ⟨i, List.mem_range.mpr hi, rfl⟩)

theorem turn_turn {p : Pool} (hjob : jobs[i]? = some job)
    (hhere : p.progress[i]? = some .waiting) :
    (p.turn disk jobs v settings i).turn disk jobs v settings i =
      ⟨p.progress.set i (.ended (job.outcome disk v settings p.tree)),
        job.leave disk v settings p.tree⟩ := by
  have hset (next : Progress) : (p.progress.set i next)[i]? = some next :=
    List.getElem?_set_self (List.getElem?_eq_some_iff.mp hhere).1
  rw [turn_eq hjob hhere, turn_eq hjob (hset _), Job.turn_waiting_turn, List.set_set]

theorem foldl_inTurn (done rest : List Job) (outcomes : List Outcome)
    (t : Worktree FileContent) (hdone : outcomes.length = done.length) :
    ((List.range' done.length rest.length).flatMap fun i => [i, i]).foldl
        (turn disk (done ++ rest) v settings)
        ⟨outcomes.map .ended ++ rest.map fun _ => .waiting, t⟩ =
      ⟨(outcomes ++ (runAll disk v settings t rest).1).map .ended,
        (runAll disk v settings t rest).2⟩ := by
  induction rest generalizing done outcomes t with
  | nil => simp [runAll]
  | cons job rest ih =>
    have hjob : (done ++ job :: rest)[done.length]? = some job := by simp
    let before := outcomes.map Progress.ended ++ (job :: rest).map fun _ => Progress.waiting
    have hhere : before[done.length]? = some .waiting := by simp [before, ← hdone]
    have hset : before.set done.length (.ended (job.outcome disk v settings t)) =
        (outcomes ++ [job.outcome disk v settings t]).map .ended ++
          rest.map fun _ => .waiting := by
      simp [before, ← hdone]
    have hrest := ih (done ++ [job]) (outcomes ++ [job.outcome disk v settings t])
      (job.leave disk v settings t) (by simp [hdone])
    rw [List.append_assoc, List.singleton_append, List.length_append, List.length_singleton]
      at hrest
    rw [List.length_cons, List.range'_succ, List.flatMap_cons, List.foldl_append, List.foldl_cons,
      List.foldl_cons, List.foldl_nil, turn_turn hjob hhere, hset, hrest, runAll, job.run_eq]
    simp

theorem renderBy_inTurn (disk : Disk) (v : Visit) (settings : DocumentSettings) (f : Files)
    (jobs : List Job) :
    renderBy disk (inTurn jobs) v settings f jobs = renderAll v settings f jobs disk := by
  have hrun : run disk jobs v settings f (inTurn jobs) =
      ⟨(runAll disk v settings { files := f } jobs).1.map .ended,
        (runAll disk v settings { files := f } jobs).2⟩ := by
    rw [run, inTurn, List.range_eq_range']
    exact foldl_inTurn [] jobs [] { files := f } rfl
  simp only [renderBy, hrun, renderAll, List.filterMap_map]
  simp [Function.comp_def, Progress.outcome?]

end Pool
end SiteVisit.Command
