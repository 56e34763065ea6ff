import Mathlib.Data.List.Forall2
import SiteVisit.Message

/-!
How computations that may end with a fault compose: what a sequence ends with in terms of its
parts, which computations end with no fault but problems of the workbook, and which ones never
end with a fault.
-/

namespace SiteVisit

section Except

variable {ε α β : Type}

theorem bind_eq_ok {x : Except ε α} {f : α → Except ε β} {b : β} :
    x >>= f = .ok b ↔ ∃ a, x = .ok a ∧ f a = .ok b := by
  cases x with
  | error e => simp [bind, Except.bind]
  | ok a => simp [bind, Except.bind]

theorem bind_eq_error {x : Except ε α} {f : α → Except ε β} {e : ε} :
    x >>= f = .error e ↔ x = .error e ∨ ∃ a, x = .ok a ∧ f a = .error e := by
  cases x with
  | error e => simp [bind, Except.bind]
  | ok a => simp [bind, Except.bind]

@[simp] theorem ok_bind (a : α) (f : α → Except ε β) : (Except.ok a >>= f) = f a := rfl

@[simp] theorem error_bind (e : ε) (f : α → Except ε β) : (Except.error e >>= f) = .error e := rfl

@[simp] theorem pure_eq_ok (a : α) : (pure a : Except ε α) = .ok a := rfl

theorem ite_error_eq_ok {c : Prop} [Decidable c] {e : ε} {a : α} :
    (if c then Except.error e else .ok a) = .ok a ↔ ¬ c := by
  split <;> simp_all

@[simp] theorem bind_ok (x : Except ε α) : x >>= Except.ok = x := by
  cases x <;> rfl

theorem eq_ok_of_toOption {x : Except ε α} {a : α} (h : x.toOption = some a) : x = .ok a := by
  cases x with
  | error e => cases h
  | ok b => exact congrArg _ (Option.some.inj h)

theorem exists_outcome_of_toOption {σ : Type} {x : Except ε α × σ} {a : α}
    (h : x.1.toOption = some a) : ∃ s, x = (.ok a, s) :=
  ⟨x.2, Prod.ext (eq_ok_of_toOption h) rfl⟩

theorem exists_error_of_toOption {x : Except ε α} (h : x.toOption = none) : ∃ e, x = .error e := by
  cases x with
  | error e => exact ⟨e, rfl⟩
  | ok a => cases h

theorem mapM_eq_ok {f : α → Except ε β} {as : List α} {bs : List β} :
    as.mapM f = .ok bs ↔ List.Forall₂ (fun a b => f a = .ok b) as bs := by
  induction as generalizing bs with
  | nil => simp [List.forall₂_nil_left_iff, eq_comm]
  | cons a as ih =>
    simp only [List.mapM_cons, bind_eq_ok, pure_eq_ok, Except.ok.injEq,
      List.forall₂_cons_left_iff, ih]
    constructor
    · rintro ⟨b, hb, bs, hbs, rfl⟩
      exact ⟨b, bs, hb, hbs, rfl⟩
    · rintro ⟨b, bs, hb, hbs, rfl⟩
      exact ⟨b, hb, bs, hbs, rfl⟩

theorem exists_mapM_eq_ok {f : α → Except ε β} {as : List α} (h : ∀ a ∈ as, ∃ b, f a = .ok b) :
    ∃ bs, as.mapM f = .ok bs := by
  induction as with
  | nil => exact ⟨[], rfl⟩
  | cons a as ih =>
    obtain ⟨⟨b, hb⟩, has⟩ := List.forall_mem_cons.mp h
    obtain ⟨bs, hbs⟩ := ih has
    exact ⟨b :: bs, by simp only [List.mapM_cons, hb, hbs, ok_bind, pure_eq_ok]⟩

theorem exists_of_forall₂_right {R : α → β → Prop} {as : List α} {bs : List β}
    (h : List.Forall₂ R as bs) {b : β} (hb : b ∈ bs) : ∃ a ∈ as, R a b := by
  induction h with
  | nil => cases hb
  | @cons a c as bs hac _ ih =>
    rcases List.mem_cons.mp hb with rfl | hb
    · exact ⟨a, List.mem_cons_self, hac⟩
    · obtain ⟨a', ha, hR⟩ := ih hb
      exact ⟨a', List.mem_cons_of_mem a ha, hR⟩

theorem exists_of_forall₂_left {R : α → β → Prop} {as : List α} {bs : List β}
    (h : List.Forall₂ R as bs) {a : α} (ha : a ∈ as) : ∃ b ∈ bs, R a b :=
  exists_of_forall₂_right h.flip ha

theorem forM_eq_ok {f : α → Except ε Unit} {as : List α} :
    as.forM f = .ok () ↔ ∀ a ∈ as, f a = .ok () := by
  induction as with
  | nil => simp
  | cons a as ih =>
    have hcons : (a :: as).forM f = f a >>= fun _ => as.forM f := rfl
    simp only [hcons, bind_eq_ok, ih, List.forall_mem_cons]
    exact ⟨fun ⟨_, h⟩ => h, fun h => ⟨(), h⟩⟩

end Except

theorem locating_eq_ok {α : Type} {place : Place} {x : Except Fault α} {a : α} :
    locating place x = .ok a ↔ x = .ok a := by
  cases x <;> simp [locating]

section State

variable {ε σ α β : Type}

theorem run_run_bind (x : ExceptT ε (StateM σ) α) (f : α → ExceptT ε (StateM σ) β) (s : σ) :
    (x >>= f).run.run s =
      match x.run.run s with
      | (.ok a, s) => (f a).run.run s
      | (.error e, s) => (.error e, s) := by
  simp only [ExceptT.run_bind, StateT.run_bind]
  rcases x.run.run s with ⟨_ | _, _⟩ <;> rfl

@[simp] theorem run_run_pure (a : α) (s : σ) :
    (pure a : ExceptT ε (StateM σ) α).run.run s = (.ok a, s) := rfl

@[simp] theorem run_run_get (s : σ) : (get : ExceptT ε (StateM σ) σ).run.run s = (.ok s, s) := rfl

@[simp] theorem run_run_set (s t : σ) :
    (set t : ExceptT ε (StateM σ) Unit).run.run s = (.ok (), t) := rfl

@[simp] theorem run_run_mk (x : Except ε α) (s : σ) :
    (ExceptT.mk (pure x) : ExceptT ε (StateM σ) α).run.run s = (x, s) := rfl

end State

/-- Ends with no fault but problems of the workbook. -/
def Mendable {α : Type} (x : Except Fault α) : Prop := ∀ f, x = .error f → ∃ p, f = .problem p

namespace Mendable

variable {α β : Type}

@[simp] theorem ok (a : α) : Mendable (.ok a) := by
  intro f h
  cases h

@[simp] theorem problem (p : Problem) : Mendable (.error (.problem p) : Except Fault α) := by
  intro f h
  cases h
  exact ⟨p, rfl⟩

theorem bind {x : Except Fault α} {f : α → Except Fault β} (hx : Mendable x)
    (hf : ∀ a, x = .ok a → Mendable (f a)) : Mendable (x >>= f) := by
  intro e h
  rcases bind_eq_error.mp h with h | ⟨a, ha, h⟩
  · exact hx e h
  · exact hf a ha e h

theorem locating {x : Except Fault α} (hx : Mendable x) (place : Place) :
    Mendable (SiteVisit.locating place x) := by
  intro e h
  cases x with
  | ok a => cases h
  | error f =>
    obtain ⟨p, rfl⟩ := hx f rfl
    cases h
    cases p <;> exact ⟨_, rfl⟩

theorem forM {f : α → Except Fault Unit} {as : List α} (h : ∀ a ∈ as, Mendable (f a)) :
    Mendable (as.forM f) := by
  induction as with
  | nil => exact ok ()
  | cons a as ih =>
    exact bind (h a List.mem_cons_self) fun _ _ =>
      ih fun b hb => h b (List.mem_cons_of_mem a hb)

theorem foldlM {f : β → α → Except Fault β} {as : List α} (h : ∀ b, ∀ a ∈ as, Mendable (f b a))
    (b : β) : Mendable (as.foldlM f b) := by
  induction as generalizing b with
  | nil => exact ok b
  | cons a as ih =>
    rw [List.foldlM_cons]
    exact bind (h b a List.mem_cons_self) fun b' _ =>
      ih (fun c d hd => h c d (List.mem_cons_of_mem a hd)) b'

end Mendable

namespace Reporting

variable {α β : Type}

@[simp] theorem outcome_pure (a : α) (messages : List Message) :
    (pure a : Reporting α).outcome messages = (.ok a, messages) := rfl

theorem outcome_bind (x : Reporting α) (f : α → Reporting β) (messages : List Message) :
    (x >>= f).outcome messages =
      match x.outcome messages with
      | (.ok a, messages) => (f a).outcome messages
      | (.error e, messages) => (.error e, messages) := by
  simp only [outcome, run_run_bind]
  rcases x.run.run messages with ⟨_ | _, _⟩ <;> rfl

@[simp] theorem outcome_ofExcept (x : Except Fault α) (messages : List Message) :
    (ofExcept x).outcome messages = (x, messages) := by
  cases x <;> rfl

@[simp] theorem outcome_report (severity : Severity) (text : String) (messages : List Message) :
    (report severity text).outcome messages = (.ok (), messages ++ [⟨severity, text⟩]) := rfl

/-- Ends without a fault and with a result of a kind, whatever has been reported before. -/
def Yields (x : Reporting α) (P : α → Prop) : Prop :=
  ∀ messages, ∃ a messages', x.outcome messages = (.ok a, messages') ∧ P a

namespace Yields

variable {P Q : α → Prop} {R : β → Prop}

theorem pure {a : α} (h : P a) : Yields (Pure.pure a) P := fun messages => ⟨a, messages, rfl, h⟩

theorem bind {x : Reporting α} {f : α → Reporting β} (hx : x.Yields P)
    (hf : ∀ a, P a → (f a).Yields R) : (x >>= f).Yields R := by
  intro messages
  obtain ⟨a, messages', hx, ha⟩ := hx messages
  rw [outcome_bind, hx]
  exact hf a ha messages'

theorem ofExcept {x : Except Fault α} {a : α} (hx : x = .ok a) (h : P a) :
    (Reporting.ofExcept x).Yields P := by
  subst hx
  exact pure h

end Yields

abbrev Succeeds (x : Reporting α) : Prop := x.Yields fun _ => True

namespace Succeeds

theorem pure (a : α) : Succeeds (Pure.pure a) := Yields.pure trivial

theorem bind {x : Reporting α} {f : α → Reporting β} (hx : Succeeds x)
    (hf : ∀ a, Succeeds (f a)) : Succeeds (x >>= f) := Yields.bind hx fun a _ => hf a

theorem report (severity : Severity) (text : String) : Succeeds (Reporting.report severity text) :=
  fun _ => ⟨(), _, rfl, trivial⟩

theorem mapM {f : α → Reporting β} {as : List α} (h : ∀ a ∈ as, Succeeds (f a)) :
    Succeeds (as.mapM f) := by
  induction as with
  | nil => exact pure []
  | cons a as ih =>
    obtain ⟨ha, has⟩ := List.forall_mem_cons.mp h
    rw [List.mapM_cons]
    exact ha.bind fun b => (ih has).bind fun bs => pure (b :: bs)

end Succeeds
end Reporting
end SiteVisit
