import SiteVisit.Proofs.Text.Blank
import SiteVisit.Text.Separated

namespace SiteVisit.Text

def OnlyOf (Q : Char → Prop) (s : String) : Prop := ∀ c ∈ s.toList, Q c

instance {Q : Char → Prop} [DecidablePred Q] (s : String) : Decidable (OnlyOf Q s) :=
  List.decidableBAll Q s.toList

namespace OnlyOf

variable {Q : Char → Prop} {s t : String}

@[simp] theorem empty : OnlyOf Q "" := by simp [OnlyOf]

theorem mono {Q' : Char → Prop} (hs : OnlyOf Q s) (h : ∀ c, Q c → Q' c) : OnlyOf Q' s :=
  fun c hc => h c (hs c hc)

theorem ofList {cs : List Char} (h : ∀ c ∈ cs, Q c) : OnlyOf Q (String.ofList cs) := by
  rwa [OnlyOf, String.toList_ofList]

theorem append (hs : OnlyOf Q s) (ht : OnlyOf Q t) : OnlyOf Q (s ++ t) := by
  intro c hc
  rw [String.toList_append] at hc
  exact (List.mem_append.mp hc).elim (hs c) (ht c)

theorem trim (hs : OnlyOf Q s) : OnlyOf Q (trim s) := fun c hc => hs c (mem_of_mem_trim hc)

theorem squeezeFrom {fill : Char} (hfill : Q fill) {inRun : Bool} {cs : List Char}
    (h : ∀ c ∈ cs, Q c) : ∀ c ∈ squeezeFrom fill inRun cs, Q c := by
  induction cs generalizing inRun with
  | nil => exact h
  | cons c cs ih =>
    obtain ⟨hc, hcs⟩ := List.forall_mem_cons.mp h
    simp only [Text.squeezeFrom]
    split
    · split
      · exact ih hcs
      · exact List.forall_mem_cons.mpr ⟨hfill, ih hcs⟩
    · exact List.forall_mem_cons.mpr ⟨hc, ih hcs⟩

theorem intercalate {sep : String} {parts : List String} (hsep : OnlyOf Q sep)
    (h : ∀ s ∈ parts, OnlyOf Q s) : OnlyOf Q (sep.intercalate parts) := by
  induction parts with
  | nil => exact empty
  | cons s parts ih =>
    obtain ⟨hs, hparts⟩ := List.forall_mem_cons.mp h
    cases parts with
    | nil => simpa using hs
    | cons t parts =>
      rw [String.intercalate_cons_cons]
      exact (hs.append hsep).append (ih hparts)

end OnlyOf
end SiteVisit.Text
