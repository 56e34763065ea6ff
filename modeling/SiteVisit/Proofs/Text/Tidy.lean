import Mathlib.Data.List.Chain
import SiteVisit.Proofs.Text.Words

namespace SiteVisit.Text

structure IsTidy (cs : List Char) : Prop where
  spaces : ∀ c ∈ cs, isBlank c = true → c = ' '
  apart : cs.IsChain fun a b => isBlank a = true → isBlank b = false

variable {c : Char} {cs ds : List Char}

theorem isTidy_cons : IsTidy (c :: cs) ↔ (isBlank c = true → c = ' ') ∧
    (isBlank c = true → ∀ d ∈ cs.head?, isBlank d = false) ∧ IsTidy cs := by
  constructor
  · rintro ⟨hspaces, hapart⟩
    obtain ⟨hc, hcs⟩ := List.forall_mem_cons.mp hspaces
    obtain ⟨hnext, hrest⟩ := List.isChain_cons.mp hapart
    exact ⟨hc, fun hblank d hd => hnext d hd hblank, hcs, hrest⟩
  · rintro ⟨hc, hnext, hcs, hrest⟩
    exact ⟨List.forall_mem_cons.mpr ⟨hc, hcs⟩,
      List.isChain_cons.mpr ⟨fun d hd hblank => hnext hblank d hd, hrest⟩⟩

theorem IsTidy.of_isInfix (h : IsTidy cs) (hds : ds <:+: cs) : IsTidy ds where
  spaces c hc := h.spaces c (hds.subset hc)
  apart := h.apart.infix hds

theorem IsTidy.isBare (h : IsTidy (' ' :: (cs ++ [' ']))) : IsBare cs := by
  have hspace : isBlank ' ' = true := by decide
  obtain ⟨hfirst, hrest⟩ := List.isChain_cons.mp h.apart
  obtain ⟨-, -, hlast⟩ := List.isChain_append.mp hrest
  have hne : cs ≠ [] := by
    rintro rfl
    exact absurd (hfirst ' ' rfl hspace) (by decide)
  refine ⟨hne, fun c hc => ?_, fun c hc hblank => ?_⟩
  · rw [List.head?_append_of_ne_nil _ hne] at hfirst
    rw [hfirst c hc hspace]
    exact Bool.false_ne_true
  · exact absurd (hlast c hc ' ' rfl hblank) (by decide)

theorem IsTidy.squeezeFrom_eq (h : IsTidy cs) (inRun : Bool)
    (hbegun : inRun = true → ∀ c ∈ cs.head?, isBlank c = false) :
    squeezeFrom ' ' inRun cs = cs := by
  induction cs generalizing inRun with
  | nil => rfl
  | cons c cs ih =>
    obtain ⟨hc, hnext, hcs⟩ := isTidy_cons.mp h
    rw [squeezeFrom]
    split
    · next hblank =>
      have hinRun : inRun = false := by
        rw [← Bool.not_eq_true]
        intro htrue
        exact absurd hblank (by rw [hbegun htrue c rfl]; exact Bool.false_ne_true)
      rw [hinRun, if_neg Bool.false_ne_true, hc hblank, ih hcs true fun _ => hnext hblank]
    · rw [ih hcs false fun htrue => absurd htrue Bool.false_ne_true]

theorem IsTidy.squeeze_eq (h : IsTidy cs) : squeeze ' ' cs = cs :=
  h.squeezeFrom_eq false fun htrue => absurd htrue Bool.false_ne_true

theorem isTidy_squeezeFrom (inRun : Bool) (cs : List Char) : IsTidy (squeezeFrom ' ' inRun cs) ∧
    (inRun = true → ∀ c ∈ (squeezeFrom ' ' inRun cs).head?, isBlank c = false) := by
  induction cs generalizing inRun with
  | nil => exact ⟨⟨List.forall_mem_nil _, .nil⟩, fun _ _ hc => nomatch hc⟩
  | cons c cs ih =>
    rw [squeezeFrom]
    split
    · split
      · next hinRun => exact ⟨(ih true).1, fun _ => (ih true).2 rfl⟩
      · next hinRun =>
        refine ⟨isTidy_cons.mpr ⟨fun _ => rfl, fun _ => (ih true).2 rfl, (ih true).1⟩, ?_⟩
        exact fun htrue => absurd htrue hinRun
    · next hc =>
      have hsolid : isBlank c = false := eq_false_of_ne_true hc
      refine ⟨isTidy_cons.mpr ⟨fun hblank => absurd hblank hc, fun hblank => absurd hblank hc,
        (ih false).1⟩, fun _ d hd => ?_⟩
      obtain rfl : c = d := Option.some.inj hd
      exact hsolid

theorem trimChars_squeeze (cs : List Char) :
    trimChars (squeeze ' ' cs) = [' '].intercalate (words cs) := by
  have htidy : IsTidy (trimChars (squeeze ' ' cs)) :=
    (isTidy_squeezeFrom false cs).1.of_isInfix (trimChars_isInfix _)
  have hwords : words (squeeze ' ' cs) = words cs := (words_squeezeFrom (by decide) cs).2 []
  rw [← htidy.squeeze_eq, squeeze_eq (head_trimChars _) (last_trimChars _), words_trimChars, hwords]

theorem trimChars_squeeze_of_words (hds : IsTidy (' ' :: (ds ++ [' '])))
    (h : words cs = words ds) : trimChars (squeeze ' ' cs) = ds := by
  have htidy : IsTidy ds :=
    hds.of_isInfix ((List.prefix_append ds [' ']).isInfix.trans (List.suffix_cons ' ' _).isInfix)
  rw [trimChars_squeeze, h, ← trimChars_squeeze, htidy.squeeze_eq, hds.isBare.trimChars]

end SiteVisit.Text
