import SiteVisit.Proofs.Markup.Characters
import SiteVisit.Workbook.Cell

/-!
Markup that is written for runs of text can be read again, and gives the runs that have a text, with
their styles and their characters. Only line ends are unified on the way. A character that no
document may hold makes the markup unreadable.
-/

namespace SiteVisit.Markup.Xml

section Run

variable {s s' s'' : State} {cs ds : List Char} {tokens more : List Token}

theorem State.run_append (h : s.run cs = some (s', tokens)) (h' : s'.run ds = some (s'', more)) :
    s.run (cs ++ ds) = some (s'', tokens ++ more) := by
  induction cs generalizing s tokens with
  | nil =>
    cases h
    exact h'
  | cons c cs ih =>
    obtain ⟨⟨s₁, first⟩, hfirst, h⟩ := Option.bind_eq_some_iff.mp h
    obtain ⟨⟨s₂, others⟩, hothers, h⟩ := Option.bind_eq_some_iff.mp h
    cases h
    rw [List.cons_append, State.run, hfirst, List.append_assoc]
    dsimp only [Option.bind_eq_bind, Option.bind_some]
    rw [ih hothers]
    rfl

end Run

/-- Between tags the characters are read as these tokens, whatever stands before them. -/
def Reads (cs : List Char) (tokens : List Token) : Prop :=
  ∀ brackets, ∃ brackets', State.run (.content brackets) cs = some (.content brackets', tokens)

def Token.IsBare : Token → Prop
  | .opening name attributes => name.space = [] ∧ attributes = []
  | _ => True

def Builds (tokens : List Token) (nodes : List Node) : Prop :=
  ∀ rest right, build? rest = some right →
    build? (tokens ++ rest) = some { right with nodes := nodes ++ right.nodes }

def Writes (cs : List Char) (nodes : List Node) : Prop :=
  ∃ tokens, Reads cs tokens ∧ (∀ t ∈ tokens, t.IsBare) ∧ Builds tokens nodes

section Writes

variable {cs ds opened closed : List Char} {tokens more : List Token} {nodes others : List Node}
  {name : List Char}

theorem Reads.nil : Reads [] [] := fun brackets => ⟨brackets, rfl⟩

theorem Reads.append (h : Reads cs tokens) (h' : Reads ds more) :
    Reads (cs ++ ds) (tokens ++ more) := by
  intro brackets
  obtain ⟨brackets₁, h⟩ := h brackets
  obtain ⟨brackets₂, h'⟩ := h' brackets₁
  exact ⟨brackets₂, State.run_append h h'⟩

theorem build?_texts_append (cs : List Char) {rest : List Token} {right : Right}
    (h : build? rest = some right) :
    build? (cs.map .text ++ rest) = some { right with nodes := cs.foldr addText right.nodes } := by
  induction cs with
  | nil => exact h
  | cons c cs ih => rw [List.map_cons, List.cons_append, build?, ih]; rfl

def textNodes (cs : List Char) : List Node := if cs.isEmpty then [] else [.text cs]

theorem foldr_addText (cs : List Char) : cs.foldr addText [] = textNodes cs := by
  induction cs with
  | nil => rfl
  | cons c cs ih =>
    rw [List.foldr_cons, ih]
    cases cs <;> rfl

namespace Writes

theorem nil : Writes [] [] := ⟨[], .nil, nofun, fun _ _ h => h⟩

theorem append (h : Writes cs nodes) (h' : Writes ds others) :
    Writes (cs ++ ds) (nodes ++ others) := by
  obtain ⟨tokens, hreads, hbare, hbuilds⟩ := h
  obtain ⟨more, hreads', hbare', hbuilds'⟩ := h'
  refine ⟨tokens ++ more, hreads.append hreads', List.forall_mem_append.mpr ⟨hbare, hbare'⟩, ?_⟩
  intro rest right hright
  rw [List.append_assoc, List.append_assoc]
  exact hbuilds _ _ (hbuilds' rest right hright)

theorem tagged (hopen : Reads opened [.opening ⟨[], name⟩ []])
    (hclose : Reads closed [.closing ⟨[], name⟩]) (hreads : Reads cs tokens)
    (hbare : ∀ t ∈ tokens, t.IsBare)
    (hbuilds : ∀ rest outer, build? rest = some ⟨[], outer⟩ →
      build? (tokens ++ rest) = some ⟨nodes, outer⟩) :
    Writes (opened ++ cs ++ closed) [.element name nodes] := by
  refine ⟨_, (hopen.append hreads).append hclose, ?_, ?_⟩
  · simp only [List.forall_mem_append, List.forall_mem_singleton]
    exact ⟨⟨⟨rfl, rfl⟩, hbare⟩, trivial⟩
  · intro rest right hright
    have hinner := hbuilds (.closing ⟨[], name⟩ :: rest) ((⟨[], name⟩, right.nodes) :: right.outer)
      (by rw [build?, hright]; rfl)
    simp only [List.append_assoc, List.cons_append, List.nil_append, build?, hinner,
      Option.bind_some, if_true]

theorem element (hopen : Reads opened [.opening ⟨[], name⟩ []])
    (hclose : Reads closed [.closing ⟨[], name⟩]) (h : Writes cs nodes) :
    Writes (opened ++ cs ++ closed) [.element name nodes] := by
  obtain ⟨tokens, hreads, hbare, hbuilds⟩ := h
  refine tagged hopen hclose hreads hbare fun rest outer hrest => ?_
  simpa using hbuilds rest _ hrest

theorem empty (h : Reads cs [.opening ⟨[], name⟩ [], .closing ⟨[], name⟩]) :
    Writes cs [.element name []] := by
  refine ⟨_, h, ?_, fun rest right hright => ?_⟩
  · simp [Token.IsBare]
  · simp only [List.cons_append, List.nil_append, build?, hright, Option.map_some,
      Option.bind_some, if_true]

end Writes

theorem namesKeepRules_of_bare (scopes : List Scope) (h : ∀ t ∈ tokens, t.IsBare) :
    namesKeepRules scopes tokens := by
  induction tokens generalizing scopes with
  | nil => rfl
  | cons t tokens ih =>
    obtain ⟨ht, htokens⟩ := List.forall_mem_cons.mp h
    cases t with
    | text c => exact ih _ htokens
    | closing name => exact ih _ htokens
    | opening name attributes =>
      obtain ⟨hspace, rfl⟩ := ht
      have henter (scope : Scope) : enter? scope name [] = some scope := by
        simp [enter?, bind?, distinct, isBound, fullNames, hspace]
      rw [namesKeepRules, henter]
      exact ih _ htokens

theorem Writes.nodes? (h : Writes (Text.unixLines cs) nodes) (hlegal : cs.all isXmlChar) :
    nodes? cs = some nodes := by
  obtain ⟨tokens, hreads, hbare, hbuilds⟩ := h
  obtain ⟨brackets, hrun⟩ := hreads 0
  have htokens : tokens? cs = some tokens := by rw [tokens?, if_pos hlegal, hrun]
  have hright := hbuilds [] ⟨[], []⟩ rfl
  rw [List.append_nil, List.append_nil] at hright
  simp [Xml.nodes?, htokens, hright, namesKeepRules_of_bare [] hbare]

end Writes

end SiteVisit.Markup.Xml

namespace SiteVisit.Text

theorem unixLines_append {cs ds : List Char} (h : ds.head? ≠ some '\n') :
    unixLines (cs ++ ds) = unixLines cs ++ unixLines ds := by
  fun_induction unixLines cs with
  | case1 => rfl
  | case2 cs ih => simp only [List.cons_append, unixLines, ih]
  | case3 cs hcs ih =>
    have hnext : ∀ rest, cs ++ ds ≠ '\n' :: rest := by
      rintro rest heq
      cases cs with
      | nil =>
        rw [List.nil_append] at heq
        exact h (by rw [heq]; rfl)
      | cons c cs => exact hcs cs (by rw [(List.cons.inj heq).1])
    rw [List.cons_append, unixLines, ih, List.cons_append]
    exact hnext
  | case4 c cs hcrlf hcr ih =>
    rw [List.cons_append, unixLines, ih, List.cons_append]
    · exact fun rest hc _ => hcr hc
    · exact hcr

theorem unixLines_append_of_notMem {cs : List Char} (h : '\r' ∉ cs) (ds : List Char) :
    unixLines (cs ++ ds) = cs ++ unixLines ds := by
  induction cs with
  | nil => rfl
  | cons c cs ih =>
    obtain ⟨hc, hcs⟩ := not_or.mp (mt List.mem_cons.mpr h)
    rw [List.cons_append, unixLines, ih hcs, List.cons_append]
    · exact fun rest hcr _ => hc hcr.symm
    · exact fun hcr => hc hcr.symm

theorem unixLines_of_notMem {cs : List Char} (h : '\r' ∉ cs) : unixLines cs = cs := by
  simpa [unixLines] using unixLines_append_of_notMem h []

theorem unixLines_eq_nil {cs : List Char} : unixLines cs = [] ↔ cs = [] := by
  fun_cases unixLines cs <;> simp

end SiteVisit.Text

namespace SiteVisit.Markup

open Text (OnlyOf)
open Xml (Reads Writes Node textNodes)

theorem reads_writeChar (c : Char) : Reads (writeChar c) [.text c] := by
  intro brackets
  rw [writeChar]
  split_ifs with hamp hless hgreater
  · obtain rfl := beq_iff_eq.mp hamp
    exact ⟨0, rfl⟩
  · obtain rfl := beq_iff_eq.mp hless
    exact ⟨0, rfl⟩
  · obtain rfl := beq_iff_eq.mp hgreater
    exact ⟨0, rfl⟩
  · simp only [Xml.State.run, Xml.State.step, hamp, hless, hgreater]
    by_cases hbracket : c == ']'
    · exact ⟨_, by rw [if_pos hbracket]; rfl⟩
    · exact ⟨_, by rw [if_neg hbracket]; rfl⟩

theorem reads_writeChars (cs : List Char) : Reads (writeChars cs) (cs.map .text) := by
  induction cs with
  | nil => exact .nil
  | cons c cs ih => exact (reads_writeChar c).append ih

namespace Style

def flagNodes (style : Style) : List Node :=
  (if style.bold then [.element ['b'] []] else []) ++
    (if style.italics then [.element ['i'] []] else []) ++
    (if style.underline then [.element ['u'] []] else [])

def nodes (style : Style) : List Node :=
  if style.flagNodes.isEmpty then [] else [.element propertiesName style.flagNodes]

theorem writes_flag (flag : Bool) (cs : List Char) {name : List Char}
    (h : Reads cs [.opening ⟨[], name⟩ [], .closing ⟨[], name⟩]) :
    Writes (if flag then cs else []) (if flag then [.element name []] else []) := by
  cases flag with
  | true => exact .empty h
  | false => exact .nil

theorem writes (style : Style) : Writes style.write style.nodes := by
  have hflags := ((writes_flag style.bold "<b />".toList fun _ => ⟨0, rfl⟩).append
    (writes_flag style.italics "<i />".toList fun _ => ⟨0, rfl⟩)).append
    (writes_flag style.underline "<u />".toList fun _ => ⟨0, rfl⟩)
  have hopen : Reads "<rPr>".toList [.opening ⟨[], propertiesName⟩ []] := fun _ => ⟨0, rfl⟩
  have hclose : Reads "</rPr>".toList [.closing ⟨[], propertiesName⟩] := fun _ => ⟨0, rfl⟩
  have hnone : ((if style.bold then "<b />".toList else []) ++
      (if style.italics then "<i />".toList else []) ++
      (if style.underline then "<u />".toList else [])).isEmpty = style.flagNodes.isEmpty := by
    rcases style with ⟨_ | _, _ | _, _ | _⟩ <;> rfl
  simp only [write, nodes, hnone]
  split
  · exact .nil
  · exact hflags.element hopen hclose

theorem runsOfRun_nodes (style : Style) (more : List Node) :
    runsOfRun {} (style.nodes ++ more) = runsOfRun style more := by
  rcases style with ⟨_ | _, _ | _, _ | _⟩ <;> rfl

end Style

def TextRun.unified (run : TextRun) : TextRun :=
  { run with text := String.ofList (Text.unixLines run.text.toList) }

section Chars

theorem exists_writeChar (c : Char) : ∃ first rest, writeChar c = first :: rest ∧
    (first = '&' ∨ first = c) := by
  rw [writeChar]
  split_ifs
  · exact ⟨_, _, rfl, .inl rfl⟩
  · exact ⟨_, _, rfl, .inl rfl⟩
  · exact ⟨_, _, rfl, .inl rfl⟩
  · exact ⟨_, _, rfl, .inr rfl⟩

theorem writeChars_eq_nil {cs : List Char} : writeChars cs = [] ↔ cs = [] := by
  cases cs with
  | nil => exact iff_of_true rfl rfl
  | cons c cs =>
    obtain ⟨first, rest, hwrite, -⟩ := exists_writeChar c
    simp [writeChars, hwrite]

theorem carriageReturn_notMem_writeChar {c : Char} (h : c ≠ '\r') : '\r' ∉ writeChar c := by
  rw [writeChar]
  split_ifs
  · decide
  · decide
  · decide
  · simpa using h.symm

theorem unixLines_writeChars (cs : List Char) :
    Text.unixLines (writeChars cs) = writeChars (Text.unixLines cs) := by
  fun_induction Text.unixLines cs with
  | case1 => rfl
  | case2 cs ih =>
    have hwrite : writeChars ('\r' :: '\n' :: cs) = '\r' :: '\n' :: writeChars cs := rfl
    rw [hwrite, Text.unixLines, ih]
    rfl
  -- A carriage return alone: no character is written as something that begins with a line feed.
  | case3 cs hcs ih =>
    have hhead : (writeChars cs).head? ≠ some '\n' := by
      cases cs with
      | nil => nofun
      | cons c cs =>
        obtain ⟨first, rest, hwrite, hfirst⟩ := exists_writeChar c
        rw [writeChars, List.flatMap_cons, hwrite]
        rintro heq
        obtain rfl : first = '\n' := Option.some.inj heq
        rcases hfirst with h | rfl
        · exact absurd h (by decide)
        · exact hcs cs rfl
    have hwrite : writeChars ('\r' :: cs) = ['\r'] ++ writeChars cs := rfl
    rw [hwrite, Text.unixLines_append hhead, ih]
    rfl
  | case4 c cs hcrlf hcr ih =>
    have hc := carriageReturn_notMem_writeChar fun h => hcr h
    rw [writeChars, List.flatMap_cons, Text.unixLines_append_of_notMem hc]
    exact congrArg _ ih

end Chars

section Texts

def writeText (cs : List Char) : List Char :=
  if (writeChars cs).isEmpty then "<t />".toList
  else "<t>".toList ++ writeChars cs ++ "</t>".toList

theorem writes_writeText (cs : List Char) :
    Writes (writeText cs) [.element textName (textNodes cs)] := by
  rw [writeText]
  split
  · next hempty =>
    rw [writeChars_eq_nil.mp (List.isEmpty_iff.mp hempty)]
    exact .empty fun _ => ⟨0, rfl⟩
  · refine .tagged (fun _ => ⟨0, rfl⟩) (fun _ => ⟨0, rfl⟩) (reads_writeChars _) ?_ ?_
    · exact List.forall_mem_map.mpr fun _ _ => trivial
    · intro rest outer hrest
      rw [Xml.build?_texts_append _ hrest, Xml.foldr_addText]

theorem unixLines_writeText (cs rest : List Char) :
    Text.unixLines (writeText cs ++ rest) =
      writeText (Text.unixLines cs) ++ Text.unixLines rest := by
  have htags : ∀ tags ∈ ["<t />", "<t>", "</t>"], '\r' ∉ tags.toList := by decide
  simp only [List.forall_mem_cons] at htags
  obtain ⟨hempty, hopen, hclose, -⟩ := htags
  have hless : ("</t>".toList ++ rest).head? ≠ some '\n' := by
    rw [show ("</t>".toList ++ rest).head? = some '<' from rfl]
    decide
  simp only [writeText, List.isEmpty_iff, writeChars_eq_nil, Text.unixLines_eq_nil]
  split
  · exact Text.unixLines_append_of_notMem hempty rest
  · rw [List.append_assoc, List.append_assoc, Text.unixLines_append_of_notMem hopen,
      Text.unixLines_append hless, Text.unixLines_append_of_notMem hclose, unixLines_writeChars,
      List.append_assoc, List.append_assoc]

end Texts

namespace TextRun

theorem write_eq (run : TextRun) : run.write =
    "<r>".toList ++ run.style.write ++ writeText run.text.toList ++ "</r>".toList := rfl

def node (run : TextRun) : Node :=
  Node.element runName (run.style.nodes ++ [Node.element textName (textNodes run.text.toList)])

theorem writes (run : TextRun) : Writes run.write [run.node] := by
  rw [write_eq, List.append_assoc "<r>".toList]
  exact (run.style.writes.append (writes_writeText _)).element (fun _ => ⟨0, rfl⟩) fun _ => ⟨0, rfl⟩

theorem runsOfText_textNodes (run : TextRun) :
    runsOfText run.style (textNodes run.text.toList) =
      .ok (if run.text = "" then [] else [run]) := by
  cases htext : run.text.toList with
  | nil =>
    rw [if_pos (String.toList_eq_nil_iff.mp htext)]
    rfl
  | cons c cs =>
    rw [if_neg fun h => by simp [h] at htext]
    have hrun : (⟨String.ofList (c :: cs), run.style⟩ : TextRun) = run := by
      rw [← htext, String.ofList_toList]
    have hcharacters : characters [.text (c :: cs)] = c :: cs := List.append_nil _
    rw [show textNodes (c :: cs) = [.text (c :: cs)] from rfl, runsOfText, hcharacters]
    exact congrArg (fun run => Except.ok [run]) hrun

theorem runsOfNodes_node (run : TextRun) (more : List Node) :
    runsOfNodes (run.node :: more) =
      (do return (if run.text = "" then [] else [run]) ++ (← runsOfNodes more)) := by
  have hrun : runsOfRun {} (run.style.nodes ++ [.element textName (textNodes run.text.toList)]) =
      .ok (if run.text = "" then [] else [run]) := by
    rw [Style.runsOfRun_nodes, runsOfRun, if_neg (by decide), if_pos rfl, runsOfText_textNodes]
    simp [runsOfRun]
  rw [node, runsOfNodes, if_pos rfl, hrun]
  rfl

theorem carriageReturn_notMem_write (style : Style) : '\r' ∉ style.write := by
  rcases style with ⟨_ | _, _ | _, _ | _⟩ <;> decide

/-- Line ends are only met inside of texts. -/
theorem write_unified (run : TextRun) (rest : List Char) :
    Text.unixLines (run.write ++ rest) = run.unified.write ++ Text.unixLines rest := by
  have hopen : '\r' ∉ "<r>".toList := by decide
  have hclose : '\r' ∉ "</r>".toList := by decide
  simp only [write_eq, unified, String.toList_ofList, List.append_assoc,
    Text.unixLines_append_of_notMem hopen, unixLines_writeText,
    Text.unixLines_append_of_notMem (carriageReturn_notMem_write run.style),
    Text.unixLines_append_of_notMem hclose]

end TextRun

theorem runsOfNodes_map_node (runs : List TextRun) :
    runsOfNodes (runs.map TextRun.node) = .ok (runs.filter fun run => run.text ≠ "") := by
  induction runs with
  | nil => rfl
  | cons run runs ih =>
    rw [List.map_cons, TextRun.runsOfNodes_node, ih, List.filter_cons]
    by_cases htext : run.text = ""
    · simp [htext]
    · simp [htext]

theorem writes_runs (runs : List TextRun) :
    Writes (runs.flatMap TextRun.write) (runs.map TextRun.node) := by
  induction runs with
  | nil => exact .nil
  | cons run runs ih => exact run.writes.append ih

theorem unixLines_runs (runs : List TextRun) :
    Text.unixLines (runs.flatMap TextRun.write) =
      (runs.map TextRun.unified).flatMap TextRun.write := by
  induction runs with
  | nil => rfl
  | cons run runs ih =>
    rw [List.flatMap_cons, TextRun.write_unified, ih, List.map_cons, List.flatMap_cons]

section Legal

def Xml.documentRanges : List (Nat × Nat) :=
  [(0x9, 0xa), (0xd, 0xd), (0x20, 0xd7ff), (0xe000, 0xfffd), (0x10000, 0x10ffff)]

abbrev Xml.IsDocumentChar (c : Char) : Prop := Xml.inRanges Xml.documentRanges c

theorem Xml.isXmlChar_iff (c : Char) : isXmlChar c ↔ IsDocumentChar c := by
  have hvalid : c.toNat < 0xd800 ∨ 0xdfff < c.toNat ∧ c.toNat < 0x110000 := c.valid
  have heq (d : Char) : c = d ↔ c.toNat = d.toNat := Char.toNat_inj.symm
  simp only [isXmlChar, IsDocumentChar, inRanges, documentRanges, List.any_cons, List.any_nil,
    Bool.or_eq_true, Bool.and_eq_true, decide_eq_true_eq, beq_iff_eq, bne_iff_ne, heq,
    Bool.false_eq_true, or_false]
  rw [show '\t'.toNat = 9 from rfl, show '\n'.toNat = 10 from rfl, show '\r'.toNat = 13 from rfl]
  omega

theorem all_isXmlChar_writeChars (cs : List Char) :
    (writeChars cs).all Xml.isXmlChar = cs.all Xml.isXmlChar := by
  have hone (c : Char) : (writeChar c).all Xml.isXmlChar = Xml.isXmlChar c := by
    rw [writeChar]
    split_ifs with hamp hless hgreater
    · rw [beq_iff_eq.mp hamp]
      decide
    · rw [beq_iff_eq.mp hless]
      decide
    · rw [beq_iff_eq.mp hgreater]
      decide
    · exact Bool.and_true _
  simp only [writeChars, List.all_flatMap, hone]

theorem all_isXmlChar_writeText (cs : List Char) :
    (writeText cs).all Xml.isXmlChar = cs.all Xml.isXmlChar := by
  rw [writeText]
  split
  · next hempty =>
    rw [writeChars_eq_nil.mp (List.isEmpty_iff.mp hempty)]
    decide
  · rw [List.all_append, List.all_append, all_isXmlChar_writeChars]
    exact Bool.and_true _

theorem all_isXmlChar_write (run : TextRun) :
    run.write.all Xml.isXmlChar = run.text.toList.all Xml.isXmlChar := by
  have hstyle : run.style.write.all Xml.isXmlChar = true := by
    rcases run.style with ⟨_ | _, _ | _, _ | _⟩ <;> decide
  have hopen : "<r>".toList.all Xml.isXmlChar = true := by decide
  have hclose : "</r>".toList.all Xml.isXmlChar = true := by decide
  rw [TextRun.write_eq, List.all_append, List.all_append, List.all_append, hopen, hstyle, hclose,
    all_isXmlChar_writeText, Bool.true_and, Bool.true_and, Bool.and_true]

theorem all_isXmlChar_runs {runs : List TextRun} :
    (runs.flatMap TextRun.write).all Xml.isXmlChar ↔
      ∀ run ∈ runs, OnlyOf Xml.IsDocumentChar run.text := by
  simp only [List.all_flatMap, List.all_eq_true, all_isXmlChar_write, OnlyOf, Xml.isXmlChar_iff]

end Legal

theorem join_filled (runs : List TextRun) :
    String.join ((runs.filter fun run => run.text ≠ "").map (·.text)) =
      String.join (runs.map (·.text)) := by
  induction runs with
  | nil => rfl
  | cons run runs ih =>
    rw [List.filter_cons, List.map_cons, String.join_cons, ← ih]
    by_cases htext : run.text = ""
    · simp [htext]
    · simp [htext, String.join_cons]

theorem readRuns_written (runs : List TextRun) : readRuns (writeRuns runs) =
    if ∀ run ∈ runs, OnlyOf Xml.IsDocumentChar run.text then
      .ok ((runs.filter fun run => run.text ≠ "").map TextRun.unified)
    else .error .malformed := by
  split
  · next hlegal =>
    have hwrites := writes_runs (runs.map TextRun.unified)
    rw [← unixLines_runs] at hwrites
    have hunified (run : TextRun) : (run.unified.text ≠ "") = (run.text ≠ "") := by
      simp [TextRun.unified, Text.unixLines_eq_nil]
    rw [readRuns, writeRuns, String.toList_ofList, hwrites.nodes? (all_isXmlChar_runs.mpr hlegal)]
    dsimp only
    rw [runsOfNodes_map_node, List.filter_map]
    simp only [Function.comp_def, hunified]
  · next hillegal =>
    have htokens : Xml.nodes? (runs.flatMap TextRun.write) = none := by
      rw [Xml.nodes?, Xml.tokens?, if_neg (mt all_isXmlChar_runs.mp hillegal)]
      rfl
    rw [readRuns, writeRuns, String.toList_ofList, htokens]

/-- Written markup is read as the runs that have a text, each with its style and its characters but
for line ends, or not at all if a text holds a character that no document may hold. So the runs of a
rich text cell show what the cell shows. -/
theorem readRuns_writeRuns :
    (∀ runs : List TextRun, readRuns (writeRuns runs) =
      if ∀ run ∈ runs, OnlyOf Xml.IsDocumentChar run.text then
        .ok ((runs.filter fun run => run.text ≠ "").map TextRun.unified)
      else .error .malformed) ∧
    ∀ (cell : Datum) (markup : String), cell.cellMarkup? = some markup →
      OnlyOf (fun c => Xml.IsDocumentChar c ∧ c ≠ '\r') cell.shown →
      ∃ runs, readRuns markup = .ok runs ∧
        Text.trim (String.join (runs.map (·.text))) = cell.cellText := by
  refine ⟨readRuns_written, fun cell markup hmarkup hchars => ?_⟩
  cases cell with
  | rich runs =>
    obtain rfl := Option.some.inj hmarkup
    have hruns : ∀ run ∈ runs, ∀ c ∈ run.text.toList, Xml.IsDocumentChar c ∧ c ≠ '\r' := by
      intro run hrun c hc
      apply hchars
      rw [Datum.shown, String.toList_join]
      exact List.mem_flatMap.mpr ⟨run.text, List.mem_map_of_mem hrun, hc⟩
    have hunified : (runs.filter fun run => run.text ≠ "").map TextRun.unified =
        runs.filter fun run => run.text ≠ "" := by
      refine List.map_congr_left (g := id) (fun run hrun => ?_) |>.trans (List.map_id _)
      have hmem := (List.mem_filter.mp hrun).1
      rw [TextRun.unified,
        Text.unixLines_of_notMem fun h => (hruns run hmem _ h).2 rfl, String.ofList_toList, id]
    have hlegal : ∀ run ∈ runs, OnlyOf Xml.IsDocumentChar run.text :=
      fun run hrun c hc => (hruns run hrun c hc).1
    rw [readRuns_written, if_pos hlegal, hunified]
    exact ⟨_, rfl, by rw [join_filled]; rfl⟩
  | _ => cases hmarkup

end SiteVisit.Markup
