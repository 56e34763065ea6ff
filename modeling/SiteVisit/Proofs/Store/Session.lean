import SiteVisit.Proofs.Outcome
import SiteVisit.Store.Session

namespace SiteVisit.Store

namespace Writing

variable {α β : Type} {s s' : Session}

@[simp] theorem outcome_pure (a : α) (s : Session) :
    (pure a : Writing α).outcome s = (.ok a, s) := rfl

theorem outcome_bind (x : Writing α) (f : α → Writing β) (s : Session) :
    (x >>= f).outcome s =
      match x.outcome s with
      | (.ok a, s) => (f a).outcome s
      | (.error e, s) => (.error e, s) := by
  simp only [outcome, run_run_bind]
  rcases x.run.run s with ⟨_ | _, _⟩ <;> rfl

theorem bind_ok {x : Writing α} {f : α → Writing β} {b : β} :
    (x >>= f).outcome s = (.ok b, s') ↔
      ∃ a s₁, x.outcome s = (.ok a, s₁) ∧ (f a).outcome s₁ = (.ok b, s') := by
  rw [outcome_bind]
  rcases x.outcome s with ⟨_ | a, s₁⟩ <;> simp

@[simp] theorem outcome_ofExcept (x : Except Fault α) (s : Session) :
    (ofExcept x).outcome s = (x, s) := by
  cases x <;> rfl

@[simp] theorem outcome_reporting (action : Reporting α) (s : Session) :
    (reporting action).outcome s =
      ((action.outcome s.messages).1, { s with messages := (action.outcome s.messages).2 }) := rfl

theorem reporting_ok {action : Reporting α} {a : α} :
    (reporting action).outcome s = (.ok a, s') ↔
      ∃ messages, action.outcome s.messages = (.ok a, messages) ∧
        s' = { s with messages := messages } := by
  rw [outcome_reporting]
  rcases action.outcome s.messages with ⟨_ | b, messages⟩ <;> simp [eq_comm]

theorem outcome_enter {ρ : Type} (t : Table ρ) (row : Nat → ρ) (s : Session) :
    (enter t row).outcome s =
      match t.enter row s.tables with
      | .ok (id, tables) => (.ok id, { s with pending := some tables })
      | .error f => (.error f, { s with pending := some s.tables }) := rfl

def Yields (x : Writing α) (P : α → Prop) : Prop :=
  ∀ s, ∃ a s', x.outcome s = (.ok a, s') ∧ P a

namespace Yields

variable {P : α → Prop} {R : β → Prop}

theorem pure {a : α} (h : P a) : Yields (Pure.pure a) P := fun s => ⟨a, s, rfl, h⟩

theorem bind {x : Writing α} {f : α → Writing β} (hx : x.Yields P)
    (hf : ∀ a, P a → (f a).Yields R) : (x >>= f).Yields R := by
  intro s
  obtain ⟨a, s', hx, ha⟩ := hx s
  rw [outcome_bind, hx]
  exact hf a ha s'

theorem ofExcept {x : Except Fault α} {a : α} (hx : x = .ok a) (h : P a) :
    (Writing.ofExcept x).Yields P := by
  subst hx
  exact pure h

theorem reporting {action : Reporting α} (h : action.Yields P) :
    (Writing.reporting action).Yields P := by
  intro s
  obtain ⟨a, messages, h, ha⟩ := h s.messages
  exact ⟨a, _, reporting_ok.mpr ⟨messages, h, rfl⟩, ha⟩

end Yields

/-- Leaves alone what the file holds, however it ends. -/
def KeepsSaved (x : Writing α) : Prop := ∀ s, (x.outcome s).2.saved = s.saved

namespace KeepsSaved

theorem pure (a : α) : KeepsSaved (Pure.pure a) := fun _ => rfl

theorem bind {x : Writing α} {f : α → Writing β} (hx : KeepsSaved x)
    (hf : ∀ a, KeepsSaved (f a)) : KeepsSaved (x >>= f) := by
  intro s
  rw [outcome_bind, ← hx s]
  rcases x.outcome s with ⟨_ | a, s₁⟩
  · rfl
  · exact hf a s₁

theorem ofExcept (x : Except Fault α) : KeepsSaved (ofExcept x) := by
  intro s
  rw [outcome_ofExcept]

theorem reporting (action : Reporting α) : KeepsSaved (reporting action) := fun _ => rfl

theorem enter {ρ : Type} (t : Table ρ) (row : Nat → ρ) : KeepsSaved (enter t row) := by
  intro s
  rw [outcome_enter]
  split <;> rfl

end KeepsSaved

end Writing

theorem outcome_definitions {s : Session} (h : s.pending = none) :
    (definitions.forM Writing.define).outcome s = (.ok (), { s with saved := {} }) := by
  obtain ⟨saved, pending, messages⟩ := s
  cases h
  rfl

namespace Table

variable {ρ : Type} {t : Table ρ} {row : Nat → ρ} {s : Store}

theorem enter_eq_ok {id : Nat} {s' : Store} :
    t.enter row s = .ok (id, s') ↔
      (∀ other ∈ t.rows s, t.clash (row (t.next s)) other = false) ∧ id = t.next s ∧
        s' = t.withRows (t.rows s ++ [row id]) s := by
  simp only [enter]
  split
  · next h =>
    obtain ⟨other, hmem, hclash⟩ := List.any_eq_true.mp h
    simp only [reduceCtorEq, false_iff, not_and]
    exact fun hno => (Bool.false_ne_true ((hno other hmem).symm.trans hclash)).elim
  · next h =>
    have hno : ∀ other ∈ t.rows s, t.clash (row (t.next s)) other = false := by
      simpa using h
    simp only [Except.ok.injEq, Prod.mk.injEq]
    constructor
    · rintro ⟨rfl, rfl⟩
      exact ⟨hno, rfl, rfl⟩
    · rintro ⟨-, rfl, rfl⟩
      exact ⟨rfl, rfl⟩

theorem next_of_empty (h : t.rows s = []) : t.next s = 1 := by
  rw [next, h]
  rfl

theorem next_enter {r : ρ} (h : t.number r = t.next s) :
    t.next (t.withRows (t.rows s ++ [r]) s) = t.next s + 1 := by
  have hmax : ((t.rows s).map t.number).foldl max 0 + 1 = t.next s := rfl
  rw [next, t.rows_withRows, List.map_append, List.foldl_append]
  simp only [List.map_cons, List.map_nil, List.foldl_cons, List.foldl_nil, h]
  omega

end Table

def Session.AddsTo {ρ : Type} (t : Table ρ) (given : List ρ) (s s' : Session) : Prop :=
  s'.tables = t.withRows (t.rows s.tables ++ given) s.tables

namespace Session.AddsTo

variable {ρ : Type} {t : Table ρ} {given more : List ρ} {s₁ s₂ s₃ : Session}

theorem nil {s : Session} : s.AddsTo t [] s := by
  rw [AddsTo, List.append_nil, t.withRows_rows]

theorem rows (h : s₁.AddsTo t given s₂) : t.rows s₂.tables = t.rows s₁.tables ++ given := by
  rw [h, t.rows_withRows]

theorem next {r : ρ} (h : s₁.AddsTo t [r] s₂) (hr : t.number r = t.next s₁.tables) :
    t.next s₂.tables = t.next s₁.tables + 1 := by
  rw [h, Table.next_enter hr]

theorem trans (h : s₁.AddsTo t given s₂) (h' : s₂.AddsTo t more s₃) :
    s₁.AddsTo t (given ++ more) s₃ := by
  rw [AddsTo, h', h.rows, h, t.withRows_withRows, List.append_assoc]

end Session.AddsTo

namespace Writing

variable {ρ : Type} {t : Table ρ} {row : Nat → ρ} {s s' : Session} {id : Nat}

theorem enter_succeeds (t : Table ρ) (row : Nat → ρ) (s : Session)
    (h : ∀ other ∈ t.rows s.tables, t.clash (row (t.next s.tables)) other = false) :
    ∃ s', (enter t row).outcome s = (.ok (t.next s.tables), s') ∧
      s.AddsTo t [row (t.next s.tables)] s' := by
  refine ⟨{ s with pending := some (t.withRows (t.rows s.tables ++ [row (t.next s.tables)])
    s.tables) }, ?_, rfl⟩
  rw [outcome_enter, Table.enter_eq_ok.mpr ⟨h, rfl, rfl⟩]

theorem enter_ok (h : (enter t row).outcome s = (.ok id, s')) :
    (∀ other ∈ t.rows s.tables, t.clash (row (t.next s.tables)) other = false) ∧
      id = t.next s.tables ∧ s.AddsTo t [row id] s' := by
  rw [outcome_enter] at h
  cases hentered : t.enter row s.tables with
  | error f =>
    rw [hentered] at h
    cases h
  | ok entered =>
    obtain ⟨n, tables⟩ := entered
    rw [hentered] at h
    cases h
    obtain ⟨hno, rfl, rfl⟩ := Table.enter_eq_ok.mp hentered
    exact ⟨hno, rfl, rfl⟩

end Writing
end SiteVisit.Store
