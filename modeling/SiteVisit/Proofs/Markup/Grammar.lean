import SiteVisit.Markup.Run
import SiteVisit.Proofs.Outcome

namespace SiteVisit.Markup

open Xml (Node)

inductive Site
  | top : Site
  | run : Site
  | text : Site
  deriving DecidableEq, Repr

namespace Site

def context : Site → String
  | top => "top level"
  | run => "run"
  | text => "text"

def names : Site → List (List Char)
  | top => [runName, textName]
  | run => [propertiesName, textName]
  | text => []

def offence? : Site → Node → Option MarkupProblem
  | text, .text _ => none
  | site, .text cs =>
    if (Text.trimChars cs).isEmpty then none
    else some (.unexpectedText (String.ofList cs) site.context)
  | site, .element name _ =>
    if name ∈ site.names then none
    else some (.unexpectedTag (String.ofList name) site.context)

end Site

/-- The nodes that may stand at a site. Text that is shown stands in a text, and elsewhere there are
only blanks; a text holds no elements. What stands in properties is free. -/
inductive Fits : Site → Node → Prop
  | shown {cs} : Fits .text (.text cs)
  | blank {site cs} : Text.trimChars cs = [] → Fits site (.text cs)
  | run {nodes} : (∀ node ∈ nodes, Fits .run node) → Fits .top (.element runName nodes)
  | text {site nodes} : site ≠ .text → (∀ node ∈ nodes, Fits .text node) →
      Fits site (.element textName nodes)
  | properties {nodes} : Fits .run (.element propertiesName nodes)

def inText (nodes : List Node) : List (Site × Node) := nodes.map (Site.text, ·)

def inRun : List Node → List (Site × Node)
  | [] => []
  | .text cs :: nodes => (.run, .text cs) :: inRun nodes
  | .element name inner :: nodes =>
    (.run, .element name inner) :: (if name = textName then inText inner else []) ++ inRun nodes

def placed : List Node → List (Site × Node)
  | [] => []
  | .text cs :: nodes => (.top, .text cs) :: placed nodes
  | .element name inner :: nodes =>
    (.top, .element name inner) ::
      (if name = runName then inRun inner else if name = textName then inText inner else []) ++
      placed nodes

def firstOffence? (nodes : List (Site × Node)) : Option MarkupProblem :=
  nodes.findSome? fun (site, node) => site.offence? node

inductive Flag
  | bold : Flag
  | italics : Flag
  | underline : Flag
  deriving DecidableEq, Repr

namespace Flag

def name : Flag → List Char
  | bold => ['b']
  | italics => ['i']
  | underline => ['u']

def isSet : Flag → Style → Bool
  | bold, style => style.bold
  | italics, style => style.italics
  | underline, style => style.underline

end Flag

inductive Occurs (name : List Char) : Node → Prop
  | here {nodes} : Occurs name (.element name nodes)
  | inside {other node nodes} : node ∈ nodes → Occurs name node → Occurs name (.element other nodes)

/-- Some properties among nodes hold an element of a name. -/
def AreGiven (name : List Char) (nodes : List Node) : Prop :=
  ∃ inner, .element propertiesName inner ∈ nodes ∧ ∃ node ∈ inner, Occurs name node

def textsOfRun (before : List Node) : List Node → List (List Node × List Node)
  | [] => []
  | .text cs :: nodes => textsOfRun (before ++ [.text cs]) nodes
  | .element name inner :: nodes =>
    (if name = textName then [(before, inner)] else []) ++
      textsOfRun (before ++ [.element name inner]) nodes

def textsOf : List Node → List (List Node × List Node)
  | [] => []
  | .text _ :: nodes => textsOf nodes
  | .element name inner :: nodes =>
    (if name = runName then textsOfRun [] inner
      else if name = textName then [([], inner)] else []) ++ textsOf nodes

def filledTexts (texts : List (List Node × List Node)) : List (List Node × List Node) :=
  texts.filter fun t => !(characters t.2).isEmpty

/-- A run of the characters of a text that has exactly the properties given before it. -/
structure Shows (text : List Node × List Node) (run : TextRun) : Prop where
  characters : run.text = String.ofList (characters text.2)
  style : ∀ flag : Flag, flag.isSet run.style ↔ AreGiven flag.name text.1

section Offences

variable {style : Style} {nodes : List Node}

@[simp] theorem firstOffence?_nil : firstOffence? [] = none := rfl

@[simp] theorem firstOffence?_cons (site : Site) (node : Node) (rest : List (Site × Node)) :
    firstOffence? ((site, node) :: rest) = (site.offence? node).or (firstOffence? rest) := by
  simp only [firstOffence?, List.findSome?_cons]
  cases site.offence? node <;> rfl

@[simp] theorem firstOffence?_append (places more : List (Site × Node)) :
    firstOffence? (places ++ more) = (firstOffence? places).or (firstOffence? more) :=
  List.findSome?_append

theorem firstOffence?_inText (nodes : List Node) :
    firstOffence? (inText nodes) = (firstElement? nodes).map fun name =>
      .unexpectedTag (String.ofList name) Site.text.context := by
  induction nodes with
  | nil => rfl
  | cons node nodes ih =>
    rw [inText, List.map_cons, firstOffence?_cons]
    cases node with
    | text cs => exact ih
    | element name inner => rfl

def FailsBy {α : Type} (x : Except MarkupProblem α) (problem : Option MarkupProblem) : Prop :=
  ∀ p, x = .error p ↔ problem = some p

namespace FailsBy

variable {α β : Type} {x : Except MarkupProblem α} {f : α → Except MarkupProblem β}
  {a b : Option MarkupProblem}

theorem ok (v : α) : FailsBy (.ok v) none := fun p => by simp

theorem error (p : MarkupProblem) : FailsBy (.error p : Except MarkupProblem α) (some p) :=
  fun q => by simp

theorem bind (hx : FailsBy x a) (hf : ∀ v, FailsBy (f v) b) : FailsBy (x >>= f) (a.or b) := by
  intro p
  cases x with
  | error q =>
    obtain rfl := (hx q).mp rfl
    simp
  | ok v =>
    have ha : a = none := Option.eq_none_iff_forall_ne_some.mpr fun q h => nomatch (hx q).mpr h
    rw [ok_bind, ha, Option.none_or]
    exact hf v p

theorem map (hx : FailsBy x a) (g : α → β) : FailsBy (x >>= fun v => pure (g v)) a := by
  simpa using hx.bind fun v => ok (g v)

theorem exists_ok_iff (hx : FailsBy x a) : (∃ v, x = .ok v) ↔ a = none := by
  cases x with
  | error q => simp [(hx q).mp rfl]
  | ok v => simpa using Option.eq_none_iff_forall_ne_some.mpr fun q h => nomatch (hx q).mpr h

end FailsBy

theorem acceptBlank_failsBy (site : Site) (h : site ≠ .text) (cs : List Char) :
    FailsBy (acceptBlank site.context cs) (site.offence? (.text cs)) := by
  rw [acceptBlank]
  cases site with
  | text => exact (h rfl).elim
  | _ =>
    simp only [Site.offence?]
    split
    · exact .ok ()
    · exact .error _

theorem runsOfText_failsBy : FailsBy (runsOfText style nodes) (firstOffence? (inText nodes)) := by
  rw [firstOffence?_inText, runsOfText]
  cases firstElement? nodes with
  | none =>
    dsimp only
    split <;> exact .ok _
  | some name => exact .error _

theorem runsOfRun_failsBy : FailsBy (runsOfRun style nodes) (firstOffence? (inRun nodes)) := by
  induction nodes generalizing style with
  | nil => exact .ok []
  | cons node nodes ih =>
    cases node with
    | text cs =>
      rw [inRun, firstOffence?_cons]
      exact (acceptBlank_failsBy .run nofun cs).bind fun _ => ih
    | element name inner =>
      rw [inRun, List.cons_append, firstOffence?_cons, firstOffence?_append, runsOfRun]
      by_cases hproperties : name = propertiesName
      · subst hproperties
        exact ih
      · by_cases htext : name = textName
        · subst htext
          exact runsOfText_failsBy.bind fun runs => ih.map _
        · have hoffence : Site.run.offence? (.element name inner) =
              some (.unexpectedTag (String.ofList name) "run") := by
            simp [Site.offence?, Site.names, hproperties, htext, Site.context]
          rw [if_neg hproperties, if_neg htext, hoffence]
          exact .error _

theorem runsOfNodes_failsBy : FailsBy (runsOfNodes nodes) (firstOffence? (placed nodes)) := by
  induction nodes with
  | nil => exact .ok []
  | cons node nodes ih =>
    cases node with
    | text cs =>
      rw [placed, firstOffence?_cons]
      exact (acceptBlank_failsBy .top nofun cs).bind fun _ => ih
    | element name inner =>
      rw [placed, List.cons_append, firstOffence?_cons, firstOffence?_append, runsOfNodes]
      by_cases hrun : name = runName
      · subst hrun
        exact runsOfRun_failsBy.bind fun runs => ih.map _
      · by_cases htext : name = textName
        · subst htext
          exact runsOfText_failsBy.bind fun runs => ih.map _
        · have hoffence : Site.top.offence? (.element name inner) =
              some (.unexpectedTag (String.ofList name) "top level") := by
            simp [Site.offence?, Site.names, hrun, htext, Site.context]
          rw [if_neg hrun, if_neg htext, hoffence]
          exact .error _

end Offences

section Grammar

variable {site : Site} {name : List Char} {cs : List Char} {nodes : List Node}

theorem fits_text_iff : Fits site (.text cs) ↔ site.offence? (.text cs) = none := by
  cases site with
  | text => exact iff_of_true .shown rfl
  | _ =>
    simp only [Site.offence?, ite_eq_left_iff, reduceCtorEq, imp_false, not_not, List.isEmpty_iff]
    exact ⟨fun h => by cases h; assumption, .blank⟩

theorem forall_fits_text :
    (∀ node ∈ nodes, Fits .text node) ↔ firstOffence? (inText nodes) = none := by
  induction nodes with
  | nil => simp [inText]
  | cons node nodes ih =>
    rw [List.forall_mem_cons, ih, inText, inText, List.map_cons, firstOffence?_cons,
      Option.or_eq_none_iff]
    refine and_congr_left fun _ => ?_
    cases node with
    | text cs => exact fits_text_iff
    | element name inner => exact iff_of_false (fun h => by cases h; contradiction) nofun

theorem fits_run_iff : Fits .run (.element name nodes) ↔
    Site.run.offence? (.element name nodes) = none ∧
      firstOffence? (if name = textName then inText nodes else []) = none := by
  by_cases htext : name = textName
  · subst htext
    rw [if_pos rfl, ← forall_fits_text]
    exact ⟨fun h => by cases h with | text _ h => exact ⟨rfl, h⟩, fun h => .text nofun h.2⟩
  · by_cases hproperties : name = propertiesName
    · subst hproperties
      exact iff_of_true .properties ⟨rfl, rfl⟩
    · refine iff_of_false (fun h => by cases h <;> contradiction) fun h => ?_
      simpa [Site.offence?, Site.names, htext, hproperties] using h.1

theorem forall_fits_run :
    (∀ node ∈ nodes, Fits .run node) ↔ firstOffence? (inRun nodes) = none := by
  induction nodes with
  | nil => simp [inRun]
  | cons node nodes ih =>
    rw [List.forall_mem_cons, ih]
    cases node with
    | text cs => rw [inRun, firstOffence?_cons, Option.or_eq_none_iff, fits_text_iff]
    | element name inner =>
      rw [inRun, List.cons_append, firstOffence?_cons, firstOffence?_append, Option.or_eq_none_iff,
        Option.or_eq_none_iff, fits_run_iff, and_assoc]

theorem fits_top_iff : Fits .top (.element name nodes) ↔
    Site.top.offence? (.element name nodes) = none ∧
      firstOffence? (if name = runName then inRun nodes
        else if name = textName then inText nodes else []) = none := by
  by_cases hrun : name = runName
  · subst hrun
    rw [if_pos rfl, ← forall_fits_run]
    exact ⟨fun h => by cases h with | run h => exact ⟨rfl, h⟩, fun h => .run h.2⟩
  · by_cases htext : name = textName
    · subst htext
      rw [if_neg hrun, if_pos rfl, ← forall_fits_text]
      exact ⟨fun h => by cases h with | text _ h => exact ⟨rfl, h⟩, fun h => .text nofun h.2⟩
    · refine iff_of_false (fun h => by cases h <;> contradiction) fun h => ?_
      simpa [Site.offence?, Site.names, hrun, htext] using h.1

theorem forall_fits_top :
    (∀ node ∈ nodes, Fits .top node) ↔ firstOffence? (placed nodes) = none := by
  induction nodes with
  | nil => simp [placed]
  | cons node nodes ih =>
    rw [List.forall_mem_cons, ih]
    cases node with
    | text cs => rw [placed, firstOffence?_cons, Option.or_eq_none_iff, fits_text_iff]
    | element name inner =>
      rw [placed, List.cons_append, firstOffence?_cons, firstOffence?_append, Option.or_eq_none_iff,
        Option.or_eq_none_iff, fits_top_iff, and_assoc]

end Grammar

section Styles

variable {flag : Flag} {name other : List Char} {before nodes : List Node}

theorem occurs_text {cs : List Char} : ¬ Occurs name (.text cs) := nofun

theorem occurs_element :
    Occurs name (.element other nodes) ↔ other = name ∨ ∃ node ∈ nodes, Occurs name node := by
  constructor
  · intro h
    cases h with
    | here => exact .inl rfl
    | inside hmem h => exact .inr ⟨_, hmem, h⟩
  · rintro (rfl | ⟨node, hmem, h⟩)
    · exact .here
    · exact .inside hmem h

theorem Flag.isSet_enable (style : Style) (name : List Char) :
    flag.isSet (style.enable name) ↔ flag.isSet style ∨ name = flag.name := by
  rw [Style.enable]
  split_ifs with hb hi hu
  · subst hb
    cases flag <;> simp [isSet, Flag.name]
  · subst hi
    cases flag <;> simp [isSet, Flag.name]
  · subst hu
    cases flag <;> simp [isSet, Flag.name]
  · cases flag <;> simp [Flag.name, hb, hi, hu]

mutual

theorem Flag.isSet_within (style : Style) :
    (node : Node) → (flag.isSet (style.within node) ↔ flag.isSet style ∨ Occurs flag.name node)
  | .text _ => by simp [Style.within, occurs_text]
  | .element name nodes => by
    rw [Style.within, isSet_withinAll, isSet_enable, occurs_element, or_assoc]

theorem Flag.isSet_withinAll (style : Style) : (nodes : List Node) →
    (flag.isSet (style.withinAll nodes) ↔
      flag.isSet style ∨ ∃ node ∈ nodes, Occurs flag.name node)
  | [] => by simp [Style.withinAll]
  | node :: nodes => by
    rw [Style.withinAll, isSet_withinAll, isSet_within, or_assoc]
    simp only [List.exists_mem_cons_iff]

end

theorem areGiven_nil : ¬ AreGiven name [] := by simp [AreGiven]

theorem areGiven_text {cs : List Char} :
    AreGiven name (before ++ [.text cs]) ↔ AreGiven name before := by
  simp [AreGiven]

theorem areGiven_element : AreGiven name (before ++ [.element other nodes]) ↔
    AreGiven name before ∨ other = propertiesName ∧ ∃ node ∈ nodes, Occurs name node := by
  simp only [AreGiven, List.mem_append, List.mem_singleton, Node.element.injEq]
  grind

end Styles

section Runs

variable {before nodes : List Node} {style : Style} {runs : List TextRun}

theorem runsOfText_shows (hstyle : ∀ flag : Flag, flag.isSet style ↔ AreGiven flag.name before)
    (h : runsOfText style nodes = .ok runs) :
    List.Forall₂ Shows (filledTexts [(before, nodes)]) runs := by
  rw [runsOfText] at h
  split at h
  · cases h
  · split at h
    · next hnone =>
      cases h
      simp [filledTexts, hnone]
    · next hsome =>
      cases h
      have hfilled : filledTexts [(before, nodes)] = [(before, nodes)] := by
        simpa [filledTexts, List.isEmpty_iff] using hsome
      rw [hfilled]
      exact .cons ⟨rfl, hstyle⟩ .nil

theorem filledTexts_append (texts more : List (List Node × List Node)) :
    filledTexts (texts ++ more) = filledTexts texts ++ filledTexts more := List.filter_append ..

theorem runsOfRun_shows (hstyle : ∀ flag : Flag, flag.isSet style ↔ AreGiven flag.name before)
    (h : runsOfRun style nodes = .ok runs) :
    List.Forall₂ Shows (filledTexts (textsOfRun before nodes)) runs := by
  induction nodes generalizing before style runs with
  | nil =>
    cases h
    exact .nil
  | cons node nodes ih =>
    cases node with
    | text cs =>
      obtain ⟨-, -, h⟩ := bind_eq_ok.mp h
      exact ih (fun flag => (hstyle flag).trans areGiven_text.symm) h
    | element name inner =>
      rw [runsOfRun] at h
      rw [textsOfRun, filledTexts_append]
      by_cases hproperties : name = propertiesName
      · subst hproperties
        refine ih (fun flag => ?_) h
        rw [flag.isSet_withinAll, hstyle flag, areGiven_element, and_iff_right rfl]
      · rw [if_neg hproperties] at h
        by_cases htext : name = textName
        · subst htext
          obtain ⟨first, hfirst, h⟩ := bind_eq_ok.mp h
          obtain ⟨more, hmore, h⟩ := bind_eq_ok.mp h
          cases h
          refine List.rel_append (runsOfText_shows hstyle hfirst) (ih (fun flag => ?_) hmore)
          rw [hstyle flag, areGiven_element]
          simp [hproperties]
        · rw [if_neg htext] at h
          cases h

theorem runsOfNodes_shows (h : runsOfNodes nodes = .ok runs) :
    List.Forall₂ Shows (filledTexts (textsOf nodes)) runs := by
  have hplain (flag : Flag) : flag.isSet ({} : Style) ↔ AreGiven flag.name [] :=
    iff_of_false (by cases flag <;> exact Bool.false_ne_true) areGiven_nil
  induction nodes generalizing runs with
  | nil =>
    cases h
    exact .nil
  | cons node nodes ih =>
    cases node with
    | text cs =>
      obtain ⟨-, -, h⟩ := bind_eq_ok.mp h
      exact ih h
    | element name inner =>
      rw [runsOfNodes] at h
      rw [textsOf, filledTexts_append]
      by_cases hrun : name = runName
      · subst hrun
        obtain ⟨first, hfirst, h⟩ := bind_eq_ok.mp h
        obtain ⟨more, hmore, h⟩ := bind_eq_ok.mp h
        cases h
        exact List.rel_append (runsOfRun_shows hplain hfirst) (ih hmore)
      · rw [if_neg hrun] at h
        by_cases htext : name = textName
        · subst htext
          obtain ⟨first, hfirst, h⟩ := bind_eq_ok.mp h
          obtain ⟨more, hmore, h⟩ := bind_eq_ok.mp h
          cases h
          exact List.rel_append (runsOfText_shows hplain hfirst) (ih hmore)
        · rw [if_neg htext] at h
          cases h

end Runs

/-- Reading accepts exactly the markup in which every node is in its place, and shows each of its
texts in the style given before it. Otherwise the first node that is out of place decides. -/
theorem readRuns_grammar (markup : String) :
    match Xml.nodes? markup.toList with
    | none => readRuns markup = .error .malformed
    | some nodes =>
      ((∃ runs, readRuns markup = .ok runs) ↔ ∀ node ∈ nodes, Fits .top node) ∧
      (∀ runs, readRuns markup = .ok runs →
        List.Forall₂ Shows (filledTexts (textsOf nodes)) runs) ∧
      ∀ problem, readRuns markup = .error problem ↔
        firstOffence? (placed nodes) = some problem := by
  rw [readRuns]
  cases Xml.nodes? markup.toList with
  | none => rfl
  | some nodes =>
    exact ⟨runsOfNodes_failsBy.exists_ok_iff.trans forall_fits_top.symm,
      fun runs => runsOfNodes_shows, runsOfNodes_failsBy⟩

end SiteVisit.Markup
