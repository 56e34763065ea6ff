import SiteVisit.Proofs.Reports
import SiteVisit.Proofs.Store.Moments

namespace SiteVisit.Store

open Calendar (Timezones)
open Reporting (Gives)

namespace Writing

variable {α β : Type}

def Gives (x : Writing α) (P : α → Prop) (said : List Message) : Prop :=
  ∀ s a s', x.outcome s = (.ok a, s') → P a ∧ s'.messages = s.messages ++ said

namespace Gives

variable {P : α → Prop} {R : β → Prop} {said more : List Message} {x : Writing α}
  {f : α → Writing β}

theorem pure {a : α} (h : P a) : Gives (Pure.pure a) P [] := by
  intro s b s' hb
  cases hb
  exact ⟨h, (List.append_nil _).symm⟩

theorem bind (hx : Gives x P said) (hf : ∀ a, P a → Gives (f a) R more) :
    Gives (x >>= f) R (said ++ more) := by
  intro s b s' h
  obtain ⟨a, s₁, hfirst, h⟩ := Writing.bind_ok.mp h
  obtain ⟨ha, hsaid⟩ := hx s a s₁ hfirst
  obtain ⟨hb, hmore⟩ := hf a ha s₁ b s' h
  exact ⟨hb, by rw [hmore, hsaid, List.append_assoc]⟩

theorem quiet (hx : Gives x P []) (hf : ∀ a, P a → Gives (f a) R said) :
    Gives (x >>= f) R said := bind hx hf

theorem before (hx : Gives x P said) (hf : ∀ a, P a → Gives (f a) R []) :
    Gives (x >>= f) R said := by
  have h := bind hx hf
  rwa [List.append_nil] at h

theorem ofExcept (x : Except Fault α) : Gives (Writing.ofExcept x) (x = .ok ·) [] := by
  intro s a s' h
  rw [outcome_ofExcept] at h
  cases h
  exact ⟨rfl, (List.append_nil _).symm⟩

theorem reporting {action : Reporting α} (h : action.Gives P said) :
    Gives (Writing.reporting action) P said := by
  intro s a s' houtcome
  obtain ⟨messages, hmessages, rfl⟩ := reporting_ok.mp houtcome
  exact h _ _ _ hmessages

theorem enter {ρ : Type} (t : Table ρ) (row : Nat → ρ) :
    Gives (Writing.enter t row) (fun _ => True) [] := by
  intro s id s' h
  rw [outcome_enter] at h
  split at h
  · cases h
    exact ⟨trivial, (List.append_nil _).symm⟩
  · cases h

end Gives
end Writing

theorem roleText_gives (m : Meeting) :
    (roleText m).Gives (· = (keptRuns m).map RoleRun.encode) (roleReports m) := by
  intro messages text after h
  rw [roleText_outcome] at h
  cases h
  exact ⟨rfl, rfl⟩

variable {zones : Timezones} {zone : String} {v : Visit} {rooms people : Numbers}

theorem meetingRow_gives (m : Meeting) :
    (meetingRow zones rooms zone m).Gives (fun _ => True) (roleReports m) := by
  apply (Gives.ofExcept _).quiet
  intro room _
  apply (Gives.ofExcept _).quiet
  intro start _
  apply (Gives.ofExcept _).quiet
  intro finish _
  exact (roleText_gives m).map fun _ _ => trivial

section Written

theorem writeEach_gives {α ρ : Type} (t : Table ρ) (row : α → Nat → ρ) (items : List α) :
    (writeEach t row items).Gives (fun _ => True) [] := by
  induction items with
  | nil => exact .pure trivial
  | cons a rest ih =>
    exact (Writing.Gives.enter t _).quiet fun _ _ => ih.quiet fun _ _ => .pure trivial

theorem writeMeetings_gives (hids : (v.participants.map (·.id)).Nodup) (meetings : List Meeting) :
    (writeMeetings zones v rooms people zone meetings).Gives (fun _ => True)
      (meetings.flatMap fun m => roleReports m ++ v.missingReports m) := by
  induction meetings with
  | nil => exact .pure trivial
  | cons m rest ih =>
    rw [writeMeetings, List.flatMap_cons, List.append_assoc]
    refine (Writing.Gives.reporting (meetingRow_gives m)).bind fun row _ => ?_
    refine (Writing.Gives.enter .meetings row).quiet fun id _ => ?_
    refine (Writing.Gives.reporting (v.attendees_gives m hids)).bind fun found _ => ?_
    refine (Writing.Gives.ofExcept _).quiet fun persons _ => ?_
    exact ih.before fun _ _ => .pure trivial

theorem fill_gives (hids : (v.participants.map (·.id)).Nodup) :
    (fill v zone zones).Gives (fun _ => True)
      (v.meetings.flatMap fun m => roleReports m ++ v.missingReports m) := by
  refine (writeEach_gives _ _ _).quiet fun rooms _ => (writeEach_gives _ _ _).quiet fun people _ => ?_
  refine (writeMeetings_gives hids v.meetings).before fun attendance _ => ?_
  exact (writeEach_gives _ _ _).quiet fun _ _ => .pure trivial

theorem said_populateOver (hids : (v.participants.map (·.id)).Nodup) {path : String}
    {s earlier stored : Store} {messages after : List Message}
    (h : populateOver earlier path v zone messages zones = (.ok s, after, stored)) :
    ∃ size, after = messages ++
      ((v.meetings.flatMap fun m => roleReports m ++ v.missingReports m) ++ [⟨.info, size⟩]) := by
  rcases hfill : (fill v zone zones).outcome { messages } with ⟨_ | pairs, s'⟩
  · rw [populateOver, outcome_write, hfill] at h
    cases h
  · rw [populateOver, outcome_write, hfill] at h
    cases h
    obtain ⟨-, hsaid⟩ := fill_gives hids _ _ _ hfill
    exact ⟨_, by rw [hsaid, List.append_assoc]⟩

theorem errors_populateOver (hids : (v.participants.map (·.id)).Nodup) {path : String}
    {s earlier stored : Store} {messages after : List Message}
    (h : populateOver earlier path v zone messages zones = (.ok s, after, stored)) :
    ∃ said, after = messages ++ said ∧
      textsOf .error said = v.meetings.flatMap v.missingTexts := by
  obtain ⟨size, rfl⟩ := said_populateOver hids h
  refine ⟨_, rfl, ?_⟩
  have hroles (m : Meeting) : textsOf .error (roleReports m) = [] := by
    rw [roleReports]
    split
    · rfl
    · split <;> rfl
  rw [textsOf_append, textsOf_flatMap]
  simp only [textsOf_append, hroles, v.errors_missingReports, List.nil_append]
  exact List.append_nil _

end Written
end SiteVisit.Store
