import SiteVisit.Markup.Run
import SiteVisit.Proofs.Outcome
import SiteVisit.Proofs.Text.Chars

namespace SiteVisit.Markup.Xml

abbrev IsLegal (c : Char) : Prop := isXmlChar c = true

def Token.TextOf (Q : Char → Prop) : Token → Prop
  | .text c => Q c
  | _ => True

theorem isXmlChar_of_charOfNumber {n : Nat} {c : Char} (h : charOfNumber? n = some c) :
    IsLegal c := by
  by_cases hn : n.isValidChar
  · rw [charOfNumber?, dif_pos hn] at h
    obtain ⟨hc, heq⟩ := Option.ite_none_right_eq_some.mp h
    cases heq
    exact hc
  · rw [charOfNumber?, dif_neg hn] at h
    cases h

theorem isXmlChar_of_referenced {cs : List Char} {c : Char} (h : referenced? cs = some c) :
    IsLegal c := by
  rw [referenced?.eq_def] at h
  split at h
  · obtain ⟨n, -, hn⟩ := Option.bind_eq_some_iff.mp h
    exact isXmlChar_of_charOfNumber hn
  · obtain ⟨n, -, hn⟩ := Option.bind_eq_some_iff.mp h
    exact isXmlChar_of_charOfNumber hn
  · repeat' split at h
    all_goals cases h
    all_goals decide

theorem State.afterTag_texts {tag : Tag} {c : Char} {s : State} {tokens : List Token}
    (h : State.afterTag tag c = some (s, tokens)) {Q : Char → Prop} : ∀ t ∈ tokens, t.TextOf Q := by
  rw [State.afterTag.eq_def] at h
  repeat' split at h
  all_goals cases h
  all_goals simp [Token.TextOf]

/-- A step brings no character but the one it reads, the one a reference stands for, and brackets
that were held back. -/
theorem State.step_texts {s s' : State} {c : Char} {tokens : List Token}
    (h : s.step c = some (s', tokens)) (hc : IsLegal c) :
    ∀ t ∈ tokens, t.TextOf IsLegal := by
  have hbracket : IsLegal ']' := by decide
  cases s with
  | reference value chars =>
    simp only [State.step] at h
    split at h
    · obtain ⟨r, hr, heq⟩ := Option.map_eq_some_iff.mp h
      split at heq
      · cases heq
        simpa [Token.TextOf] using isXmlChar_of_referenced hr
      · cases heq
        simp
    · cases h
      simp
  | startName chars =>
    simp only [State.step] at h
    split at h
    · obtain ⟨name, -, h⟩ := Option.bind_eq_some_iff.mp h
      exact afterTag_texts h
    · cases h
      simp
  | inTag tag spaced =>
    simp only [State.step] at h
    split at h
    · exact afterTag_texts h
    · split at h <;> cases h
      simp
  | «section» brackets =>
    simp only [State.step] at h
    repeat' split at h
    all_goals cases h
    · simp [Token.TextOf, IsLegal, hbracket]
    · simp
    · simp
    · simp only [List.forall_mem_append, List.forall_mem_singleton]
      exact ⟨fun t ht => (List.eq_of_mem_replicate ht).symm ▸ hbracket, hc⟩
  | attributeName | endName =>
    simp only [State.step] at h
    repeat' split at h
    all_goals
      first
      | cases h
      | obtain ⟨name, -, heq⟩ := Option.map_eq_some_iff.mp h
        cases heq
    all_goals simp [Token.TextOf]
  | _ =>
    simp only [State.step] at h
    repeat' split at h
    all_goals cases h
    all_goals simp [Token.TextOf, IsLegal, hc]

theorem State.run_texts {s s' : State} {cs : List Char} {tokens : List Token}
    (h : s.run cs = some (s', tokens)) (hcs : ∀ c ∈ cs, IsLegal c) :
    ∀ t ∈ tokens, t.TextOf IsLegal := by
  induction cs generalizing s tokens with
  | nil =>
    cases h
    simp
  | cons c cs ih =>
    obtain ⟨hc, hcs⟩ := List.forall_mem_cons.mp hcs
    obtain ⟨⟨s₁, first⟩, hfirst, h⟩ := Option.bind_eq_some_iff.mp h
    obtain ⟨⟨s₂, more⟩, hmore, h⟩ := Option.bind_eq_some_iff.mp h
    cases h
    exact List.forall_mem_append.mpr ⟨step_texts hfirst hc, ih hmore hcs⟩

theorem mem_unixLines {cs : List Char} {c : Char} (h : c ∈ Text.unixLines cs) :
    c ∈ cs ∨ c = '\n' := by
  fun_induction Text.unixLines cs with
  | case1 => cases h
  | case2 cs ih =>
    rcases List.mem_cons.mp h with rfl | h
    · exact .inr rfl
    · exact (ih h).imp_left fun h => List.mem_cons_of_mem _ (List.mem_cons_of_mem _ h)
  | case3 cs _ ih =>
    rcases List.mem_cons.mp h with rfl | h
    · exact .inr rfl
    · exact (ih h).imp_left (List.mem_cons_of_mem _)
  | case4 c' cs _ _ ih =>
    rcases List.mem_cons.mp h with rfl | h
    · exact .inl List.mem_cons_self
    · exact (ih h).imp_left (List.mem_cons_of_mem _)

theorem tokens?_texts {cs : List Char} {tokens : List Token} (h : tokens? cs = some tokens) :
    ∀ t ∈ tokens, t.TextOf IsLegal := by
  rw [tokens?] at h
  split at h
  · next hcs =>
    split at h
    · next hrun =>
      cases h
      apply State.run_texts hrun
      intro c hc
      rcases mem_unixLines hc with hc | rfl
      · exact List.all_eq_true.mp hcs c hc
      · decide
    · cases h
  · cases h

inductive Node.TextOf (Q : Char → Prop) : Node → Prop
  | text {cs} : (∀ c ∈ cs, Q c) → Node.TextOf Q (.text cs)
  | element {name children} : (∀ node ∈ children, Node.TextOf Q node) →
      Node.TextOf Q (.element name children)

theorem addText_texts {Q : Char → Prop} {c : Char} {nodes : List Node} (hc : Q c)
    (h : ∀ node ∈ nodes, node.TextOf Q) : ∀ node ∈ addText c nodes, node.TextOf Q := by
  rw [addText.eq_def]
  split
  · next cs rest =>
    obtain ⟨htext, hrest⟩ := List.forall_mem_cons.mp h
    cases htext with
    | text hcs => exact List.forall_mem_cons.mpr ⟨.text (List.forall_mem_cons.mpr ⟨hc, hcs⟩), hrest⟩
  · exact List.forall_mem_cons.mpr ⟨.text (by simpa using hc), h⟩

theorem build?_texts {Q : Char → Prop} {tokens : List Token} {r : Right}
    (h : build? tokens = some r) (htokens : ∀ t ∈ tokens, t.TextOf Q) :
    (∀ node ∈ r.nodes, node.TextOf Q) ∧ ∀ outer ∈ r.outer, ∀ node ∈ outer.2, node.TextOf Q := by
  -- What stands to the right is built first: the nodes of all elements that are still open.
  induction tokens generalizing r with
  | nil =>
    cases h
    simp
  | cons t tokens ih =>
    obtain ⟨ht, hrest⟩ := List.forall_mem_cons.mp htokens
    cases t with
    | text c =>
      obtain ⟨r', hr', rfl⟩ := Option.map_eq_some_iff.mp h
      obtain ⟨hnodes, houter⟩ := ih hr' hrest
      exact ⟨addText_texts ht hnodes, houter⟩
    | closing name =>
      obtain ⟨r', hr', rfl⟩ := Option.map_eq_some_iff.mp h
      obtain ⟨hnodes, houter⟩ := ih hr' hrest
      exact ⟨by simp, List.forall_mem_cons.mpr ⟨hnodes, houter⟩⟩
    | opening name attributes =>
      obtain ⟨r', hr', h⟩ := Option.bind_eq_some_iff.mp h
      obtain ⟨hnodes, houter⟩ := ih hr' hrest
      split at h
      · next closed after outer heq =>
        rw [heq] at houter
        obtain ⟨hafter, houter⟩ := List.forall_mem_cons.mp houter
        split at h
        · cases h
          exact ⟨List.forall_mem_cons.mpr ⟨.element hnodes, hafter⟩, houter⟩
        · cases h
      · cases h

theorem nodes?_texts {cs : List Char} {nodes : List Node} (h : nodes? cs = some nodes) :
    ∀ node ∈ nodes, node.TextOf IsLegal := by
  obtain ⟨tokens, htokens, h⟩ := Option.bind_eq_some_iff.mp h
  obtain ⟨r, hr, h⟩ := Option.bind_eq_some_iff.mp h
  split at h
  · cases h
    exact (build?_texts hr (tokens?_texts htokens)).1
  · cases h

end SiteVisit.Markup.Xml

namespace SiteVisit.Markup

open Text (OnlyOf)
open Xml (Node)

variable {Q : Char → Prop} {style : Style} {nodes : List Node} {runs : List TextRun}

theorem characters_texts (h : ∀ node ∈ nodes, node.TextOf Q) : ∀ c ∈ characters nodes, Q c := by
  induction nodes with
  | nil => simp [characters]
  | cons node nodes ih =>
    obtain ⟨hnode, hnodes⟩ := List.forall_mem_cons.mp h
    cases hnode with
    | text hcs => exact List.forall_mem_append.mpr ⟨hcs, ih hnodes⟩
    | element => exact ih hnodes

theorem runsOfText_texts (h : runsOfText style nodes = .ok runs)
    (hnodes : ∀ node ∈ nodes, node.TextOf Q) : ∀ run ∈ runs, OnlyOf Q run.text := by
  rw [runsOfText] at h
  split at h
  · cases h
  · split at h
    · cases h
      simp
    · cases h
      simpa using OnlyOf.ofList (characters_texts hnodes)

theorem runsOfRun_texts (h : runsOfRun style nodes = .ok runs)
    (hnodes : ∀ node ∈ nodes, node.TextOf Q) : ∀ run ∈ runs, OnlyOf Q run.text := by
  induction nodes generalizing style runs with
  | nil =>
    cases h
    simp
  | cons node nodes ih =>
    obtain ⟨hnode, hrest⟩ := List.forall_mem_cons.mp hnodes
    cases hnode with
    | text =>
      obtain ⟨-, -, h⟩ := bind_eq_ok.mp h
      exact ih h hrest
    | element hchildren =>
      simp only [runsOfRun] at h
      split at h
      · exact ih h hrest
      · split at h
        · obtain ⟨first, hfirst, h⟩ := bind_eq_ok.mp h
          obtain ⟨more, hmore, h⟩ := bind_eq_ok.mp h
          cases h
          exact List.forall_mem_append.mpr ⟨runsOfText_texts hfirst hchildren, ih hmore hrest⟩
        · cases h

theorem runsOfNodes_texts (h : runsOfNodes nodes = .ok runs)
    (hnodes : ∀ node ∈ nodes, node.TextOf Q) : ∀ run ∈ runs, OnlyOf Q run.text := by
  induction nodes generalizing runs with
  | nil =>
    cases h
    simp
  | cons node nodes ih =>
    obtain ⟨hnode, hrest⟩ := List.forall_mem_cons.mp hnodes
    cases hnode with
    | text =>
      obtain ⟨-, -, h⟩ := bind_eq_ok.mp h
      exact ih h hrest
    | element hchildren =>
      simp only [runsOfNodes] at h
      split at h
      · obtain ⟨first, hfirst, h⟩ := bind_eq_ok.mp h
        obtain ⟨more, hmore, h⟩ := bind_eq_ok.mp h
        cases h
        exact List.forall_mem_append.mpr ⟨runsOfRun_texts hfirst hchildren, ih hmore hrest⟩
      · split at h
        · obtain ⟨first, hfirst, h⟩ := bind_eq_ok.mp h
          obtain ⟨more, hmore, h⟩ := bind_eq_ok.mp h
          cases h
          exact List.forall_mem_append.mpr ⟨runsOfText_texts hfirst hchildren, ih hmore hrest⟩
        · cases h

theorem readRuns_texts {markup : String} (h : readRuns markup = .ok runs) :
    ∀ run ∈ runs, OnlyOf Xml.IsLegal run.text := by
  rw [readRuns] at h
  split at h
  · next nodes hnodes => exact runsOfNodes_texts h (Xml.nodes?_texts hnodes)
  · cases h

end SiteVisit.Markup
