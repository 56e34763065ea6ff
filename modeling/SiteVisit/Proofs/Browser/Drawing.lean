import SiteVisit.Browser.Page
import SiteVisit.Proofs.Outcome

namespace SiteVisit.Browser

def Event.isError : Event → Bool
  | .error _ => true
  | _ => false

namespace Drawing

variable {α β : Type}

section Runs

variable (p : Page)

@[simp] theorem run_emit (e : Event) :
    (emit e).run.run p = (.ok (), { p with events := p.events ++ [e] }) := rfl

@[simp] theorem run_ofExcept_ok (a : α) :
    (ofExcept (.ok a) : Drawing α).run.run p = (.ok a, p) := rfl

@[simp] theorem run_ofExcept_error (f : Fault) :
    (ofExcept (.error f) : Drawing α).run.run p = (.error (.failed f), p) := rfl

@[simp] theorem run_input (v : Visitor) (event : String → Event) (key default : String) :
    (input v event key default).run.run p =
      (.ok (((v.typed.find? (·.1 == key)).map (·.2)).getD default),
        { p with events :=
            p.events ++ [event (((v.typed.find? (·.1 == key)).map (·.2)).getD default)] }) := rfl

@[simp] theorem run_button (v : Visitor) (event : Event) (name : String) :
    (button v event name).run.run p =
      (.ok (v.pressed.contains name), { p with events := p.events ++ [event] }) := rfl

theorem run_within (part : String) (body : Drawing α) :
    (within part body).run.run p =
      match body.run.run { p with events := p.events ++ [.enter part] } with
      | (r, p) => (r, { p with events := p.events ++ [.leave part] }) := rfl

theorem run_tryCatch (x : Drawing α) (handle : Ending → Drawing α) :
    (tryCatch x handle).run.run p =
      match x.run.run p with
      | (.ok a, p) => (.ok a, p)
      | (.error e, p) => (handle e).run.run p := by
  change (ExceptT.tryCatch x handle).run.run p = _
  rw [ExceptT.tryCatch, ExceptT.run_mk, StateT.run_bind]
  change (x.run.run p >>= _) = _
  rcases x.run.run p with ⟨_ | _, _⟩ <;> rfl

end Runs

/-- Shows no error, and ends with a result, or stops if it may. -/
def Draws (x : Drawing α) (stops : Prop) : Prop :=
  ∀ p, ∃ drawn address, (∀ e ∈ drawn, e.isError = false) ∧
    ((∃ a, x.run.run p = (.ok a, ⟨p.events ++ drawn, address⟩)) ∨
      stops ∧ x.run.run p = (.error .stopped, ⟨p.events ++ drawn, address⟩))

namespace Draws

variable {stops : Prop}

theorem pure (a : α) : Draws (Pure.pure a) stops := fun p =>
  ⟨[], p.address, List.forall_mem_nil _, .inl ⟨a, by rw [List.append_nil, run_run_pure]⟩⟩

theorem emit {e : Event} (he : e.isError = false) : Draws (Drawing.emit e) stops := fun p =>
  ⟨[e], p.address, List.forall_mem_singleton.mpr he, .inl ⟨(), rfl⟩⟩

theorem bind {x : Drawing α} {f : α → Drawing β} (hx : x.Draws stops)
    (hf : ∀ a, (f a).Draws stops) : (x >>= f).Draws stops := by
  intro p
  obtain ⟨first, address, hfirst, ⟨a, hrun⟩ | ⟨hstops, hrun⟩⟩ := hx p
  · obtain ⟨rest, address', hrest, hend⟩ := hf a ⟨p.events ++ first, address⟩
    rw [List.append_assoc] at hend
    refine ⟨first ++ rest, address', List.forall_mem_append.mpr ⟨hfirst, hrest⟩, ?_⟩
    rw [run_run_bind, hrun]
    exact hend
  · refine ⟨first, address, hfirst, .inr ⟨hstops, ?_⟩⟩
    rw [run_run_bind, hrun]

theorem bindOk {x : Except Fault α} {a : α} {f : α → Drawing β} (hx : x = .ok a)
    (hf : (f a).Draws stops) : (Drawing.ofExcept x >>= f).Draws stops := by
  subst hx
  exact hf

theorem optional {c : Prop} [Decidable c] {e : Event} (he : e.isError = false)
    {rest : Unit → Drawing α} (hrest : ∀ a, (rest a).Draws stops) :
    (if c then Drawing.emit e >>= rest else rest ()).Draws stops := by
  split
  · exact (emit he).bind hrest
  · exact hrest ()

theorem within {part : String} {body : Drawing α} (h : body.Draws stops) :
    (Drawing.within part body).Draws stops := by
  intro p
  obtain ⟨drawn, address, hdrawn, hend⟩ := h { p with events := p.events ++ [.enter part] }
  refine ⟨.enter part :: drawn ++ [.leave part], address, ?_, ?_⟩
  · exact List.forall_mem_append.mpr
      ⟨List.forall_mem_cons.mpr ⟨rfl, hdrawn⟩, List.forall_mem_singleton.mpr rfl⟩
  · rw [run_within]
    simp only [List.append_assoc, List.singleton_append] at hend
    rcases hend with ⟨a, hrun⟩ | ⟨hstops, hrun⟩
    · exact .inl ⟨a, by simp [hrun]⟩
    · exact .inr ⟨hstops, by simp [hrun]⟩

theorem bindInput (v : Visitor) {event : String → Event} {key default : String}
    (hevent : (event (((v.typed.find? (·.1 == key)).map (·.2)).getD default)).isError = false)
    {f : String → Drawing α}
    (hf : (f (((v.typed.find? (·.1 == key)).map (·.2)).getD default)).Draws stops) :
    (Drawing.input v event key default >>= f).Draws stops :=
  (emit hevent).bind fun _ => hf

theorem bindButton (v : Visitor) {event : Event} (hevent : event.isError = false) {name : String}
    {f : Bool → Drawing α} (hf : (f (v.pressed.contains name)).Draws stops) :
    (Drawing.button v event name >>= f).Draws stops :=
  (emit hevent).bind fun _ => hf

theorem forM {f : α → Drawing Unit} {as : List α} (h : ∀ a ∈ as, (f a).Draws stops) :
    (as.forM f).Draws stops := by
  induction as with
  | nil => exact pure ()
  | cons a as ih =>
    obtain ⟨ha, has⟩ := List.forall_mem_cons.mp h
    exact ha.bind fun _ => ih has

theorem selectMeeting (id : Int) : (Browser.selectMeeting id).Draws stops := fun p =>
  ⟨[], p.address.put "meeting" (Text.signedDecimal id), List.forall_mem_nil _,
    .inl ⟨(), by rw [List.append_nil]; rfl⟩⟩

theorem again (hstops : stops) : (Drawing.again : Drawing α).Draws stops := fun p =>
  ⟨[.again], p.address, List.forall_mem_singleton.mpr rfl, .inr ⟨hstops, rfl⟩⟩

end Draws
end Drawing
end SiteVisit.Browser
