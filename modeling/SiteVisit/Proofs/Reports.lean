import SiteVisit.Proofs.Outcome

namespace SiteVisit

theorem textsOf_append (severity : Severity) (messages more : List Message) :
    textsOf severity (messages ++ more) = textsOf severity messages ++ textsOf severity more := by
  rw [textsOf, List.filter_append, List.map_append]
  rfl

theorem textsOf_flatMap {α : Type} (severity : Severity) (items : List α)
    (said : α → List Message) :
    textsOf severity (items.flatMap said) = items.flatMap fun a => textsOf severity (said a) := by
  rw [textsOf, List.filter_flatMap, List.map_flatMap]
  rfl

namespace Reporting

variable {α β : Type}

/-- If it ends without a fault, then with a result of a kind, and these messages are reported. -/
def Gives (x : Reporting α) (P : α → Prop) (said : List Message) : Prop :=
  ∀ messages a after, x.outcome messages = (.ok a, after) → P a ∧ after = messages ++ said

namespace Gives

variable {P : α → Prop} {R : β → Prop} {said more : List Message} {x : Reporting α}
  {f : α → Reporting β}

theorem pure {a : α} (h : P a) : Gives (Pure.pure a) P [] := by
  intro messages b after hb
  cases hb
  exact ⟨h, (List.append_nil _).symm⟩

theorem throw (e : Fault) : Gives (MonadExcept.throw e : Reporting α) P said := by
  intro messages b after hb
  cases hb

theorem bind (hx : Gives x P said) (hf : ∀ a, P a → Gives (f a) R more) :
    Gives (x >>= f) R (said ++ more) := by
  intro messages b after h
  rw [outcome_bind] at h
  rcases hfirst : x.outcome messages with ⟨_ | a, messages'⟩
  · rw [hfirst] at h
    cases h
  · rw [hfirst] at h
    obtain ⟨ha, rfl⟩ := hx messages a messages' hfirst
    obtain ⟨hb, rfl⟩ := hf a ha _ b after h
    exact ⟨hb, List.append_assoc ..⟩

theorem quiet (hx : Gives x P []) (hf : ∀ a, P a → Gives (f a) R said) :
    Gives (x >>= f) R said := bind hx hf

theorem map (hx : Gives x P said) {g : α → β} (hg : ∀ a, P a → R (g a)) :
    Gives (x >>= fun a => Pure.pure (g a)) R said := by
  have h := bind hx fun a ha => pure (hg a ha)
  rwa [List.append_nil] at h

theorem ofExcept (x : Except Fault α) : Gives (Reporting.ofExcept x) (x = .ok ·) [] := by
  intro messages a after h
  rw [outcome_ofExcept] at h
  cases h
  exact ⟨rfl, (List.append_nil _).symm⟩

theorem report (severity : Severity) (text : String) :
    Gives (Reporting.report severity text) (fun _ => True) [⟨severity, text⟩] := by
  intro messages a after h
  cases h
  exact ⟨trivial, rfl⟩

theorem mapM {as : List α} {f : α → Reporting β} {g : α → β} {said : α → List Message}
    (h : ∀ a ∈ as, Gives (f a) (· = g a) (said a)) :
    Gives (as.mapM f) (· = as.map g) (as.flatMap said) := by
  induction as with
  | nil => exact pure rfl
  | cons a as ih =>
    obtain ⟨ha, has⟩ := List.forall_mem_cons.mp h
    rw [List.mapM_cons, List.flatMap_cons]
    refine ha.bind fun b hb => (ih has).map fun bs hbs => ?_
    rw [hb, hbs, List.map_cons]

theorem said_eq (hx : Gives x P said) (h : said = more) : Gives x P more := h ▸ hx

theorem mapM_quiet {as : List α} {f : α → Reporting β} {g : α → β}
    (h : ∀ a ∈ as, Gives (f a) (· = g a) []) : Gives (as.mapM f) (· = as.map g) [] :=
  (mapM h).said_eq (List.flatMap_eq_nil_iff.mpr fun _ _ => rfl)

end Gives
end Reporting
end SiteVisit
