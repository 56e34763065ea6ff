import Mathlib.Data.Bool.AllAny
import Mathlib.Data.List.Infix
import SiteVisit.Browser.Html

/-!
The roles of a meeting on a page can be read back: the text of a page falls into tags and
characters in one way only, the tags are nested, and what stands between them are the runs with
their formatting.
-/

namespace SiteVisit.Browser

open Markup (Style)

def special : List Char := ['&', '<', '>', '"', '\'']

theorem escapeChar_of_notMem {c : Char} (h : c ∉ special) : escapeChar c = [c] := by
  simp only [special, List.mem_cons, List.not_mem_nil, or_false, not_or] at h
  obtain ⟨hamp, hlt, hgt, hquote, happ⟩ := h
  unfold escapeChar
  split <;> first | contradiction | rfl

inductive Tag
  | bold
  | italics
  | underline
  deriving DecidableEq

def Tag.name : Tag → String
  | .bold => "strong"
  | .italics => "em"
  | .underline => "u"

inductive Token
  | opens (t : Tag)
  | closes (t : Tag)
  | char (c : Char)
  deriving DecidableEq

namespace Token

def text : Token → List Char
  | .opens t => '<' :: t.name.toList ++ ['>']
  | .closes t => '<' :: '/' :: t.name.toList ++ ['>']
  | .char c => escapeChar c

def char? : Token → Option Char
  | .char c => some c
  | .opens _ | .closes _ => none

def marked : List Token :=
  [.bold, .italics, .underline].flatMap (fun t => [.opens t, .closes t]) ++ special.map .char

theorem mem_marked (t : Token) : t ∈ marked ∨ ∃ c ∉ special, t = .char c ∧ t.text = [c] := by
  cases t with
  | opens t => exact .inl (by cases t <;> decide)
  | closes t => exact .inl (by cases t <;> decide)
  | char c =>
    by_cases hc : c ∈ special
    · exact .inl (List.mem_append_right _ (List.mem_map_of_mem hc))
    · exact .inr ⟨c, hc, rfl, escapeChar_of_notMem hc⟩

theorem text_ne_nil (t : Token) : t.text ≠ [] := by
  rcases mem_marked t with h | ⟨c, -, -, h⟩
  · have hall : ∀ t ∈ marked, t.text ≠ [] := by decide
    exact hall t h
  · rw [h]
    exact List.cons_ne_nil c []

/-- No token is written as the beginning of another one. -/
theorem eq_of_text_isPrefix {t u : Token} (h : t.text <+: u.text) : t = u := by
  have hmarked : ∀ t ∈ marked, ∀ u ∈ marked, t.text <+: u.text → t = u := by decide
  have hfirst : ∀ t ∈ marked, t.text.head? ∈ special.map some := by decide
  have hhead : t.text.head? = u.text.head? := by
    obtain ⟨rest, hrest⟩ := h
    rw [← hrest, List.head?_append_of_ne_nil _ t.text_ne_nil]
  rcases mem_marked t with ht | ⟨c, hc, rfl, ht⟩ <;> rcases mem_marked u with hu | ⟨d, hd, rfl, hu⟩
  · exact hmarked t ht u hu h
  · rw [hu] at hhead
    exact absurd (by simpa [hhead] using hfirst t ht) hd
  · rw [ht] at hhead
    exact absurd (by simpa [← hhead] using hfirst u hu) hc
  · rw [ht, hu] at hhead
    rw [Option.some.inj hhead]

theorem flatMap_text_inj {ts us : List Token} : ts.flatMap text = us.flatMap text ↔ ts = us := by
  refine ⟨fun h => ?_, congrArg _⟩
  induction ts generalizing us with
  | nil =>
    cases us with
    | nil => rfl
    | cons u us => exact absurd (List.append_eq_nil_iff.mp h.symm).1 u.text_ne_nil
  | cons t ts ih =>
    cases us with
    | nil => exact absurd (List.append_eq_nil_iff.mp h).1 t.text_ne_nil
    | cons u us =>
      rw [List.flatMap_cons, List.flatMap_cons] at h
      obtain rfl : t = u := by
        rcases List.prefix_or_prefix_of_prefix (List.prefix_append t.text _)
          (h ▸ List.prefix_append u.text _) with hp | hp
        · exact eq_of_text_isPrefix hp
        · exact (eq_of_text_isPrefix hp).symm
      rw [ih (List.append_cancel_left h)]

def IsTag (t : Token) : Prop := ∃ tag, t = .opens tag ∨ t = .closes tag

def escapes : List (Char × String) :=
  [('&', "&amp;"), ('<', "&lt;"), ('>', "&gt;"), ('"', "&quot;"), ('\'', "&#x27;")]

def IsEscape (t : Token) : Prop :=
  ∃ c written, (c, written) ∈ escapes ∧ t = .char c ∧ t.text = written.toList

theorem isTag_of_mem (t : Token) (h : '<' ∈ t.text ∨ '>' ∈ t.text) : t.IsTag := by
  have hall : ∀ c ∈ special, '<' ∉ escapeChar c ∧ '>' ∉ escapeChar c :=
    List.all_iff_forall_prop.mp (by decide)
  cases t with
  | opens t => exact ⟨t, .inl rfl⟩
  | closes t => exact ⟨t, .inr rfl⟩
  | char c =>
    by_cases hc : c ∈ special
    · exact (h.elim (hall c hc).1 (hall c hc).2).elim
    · rw [text, escapeChar_of_notMem hc, List.mem_singleton, List.mem_singleton] at h
      rcases h with rfl | rfl
      · exact absurd (by decide) hc
      · exact absurd (by decide) hc

theorem isEscape_of_mem (t : Token) (h : '&' ∈ t.text) : t.IsEscape := by
  have hall : ∀ e ∈ escapes, escapeChar e.1 = e.2.toList :=
    List.all_iff_forall_prop.mp (by decide)
  cases t with
  | opens t | closes t => cases t <;> exact absurd h (by decide)
  | char c =>
    by_cases hc : c ∈ special
    · obtain ⟨⟨_, written⟩, hmem, rfl⟩ := List.mem_map.mp (show c ∈ escapes.map (·.1) from hc)
      exact ⟨_, written, hmem, rfl, hall _ hmem⟩
    · rw [text, escapeChar_of_notMem hc, List.mem_singleton] at h
      exact absurd (h ▸ by decide) hc

end Token

inductive Nested : List Token → Prop
  | nil : Nested []
  | char {ts : List Token} (c : Char) (h : Nested ts) : Nested (.char c :: ts)
  | element {ts us : List Token} (t : Tag) (hinner : Nested ts) (h : Nested us) :
    Nested (.opens t :: (ts ++ .closes t :: us))

section Runs

variable {b : Bool} {t : Tag} {ts us : List Token}

theorem Nested.append (h : Nested ts) (h' : Nested us) : Nested (ts ++ us) := by
  induction h with
  | nil => exact h'
  | char c _ ih => exact .char c ih
  | element t hinner _ _ ih =>
    rw [List.cons_append, List.append_assoc]
    exact .element t hinner ih

def wrapIf (b : Bool) (t : Tag) (ts : List Token) : List Token :=
  if b then .opens t :: (ts ++ [.closes t]) else ts

theorem flatMap_wrapIf (b : Bool) (t : Tag) (ts : List Token) :
    (wrapIf b t ts).flatMap Token.text = taggedIf b t.name (ts.flatMap Token.text) := by
  cases b with
  | false => rfl
  | true => simp [wrapIf, taggedIf, tagged, Token.text]

theorem nested_wrapIf (h : Nested ts) : Nested (wrapIf b t ts) := by
  cases b with
  | false => exact h
  | true => exact .element t h .nil

theorem filterMap_wrapIf : (wrapIf b t ts).filterMap Token.char? = ts.filterMap Token.char? := by
  cases b with
  | false => rfl
  | true =>
    rw [wrapIf, if_pos rfl, List.filterMap_cons_none rfl, List.filterMap_append]
    exact List.append_nil _

def tokensOf (text : List Char) (style : Style) : List Token :=
  wrapIf style.underline .underline (wrapIf style.italics .italics (wrapIf style.bold .bold
    (text.map .char)))

theorem flatMap_tokensOf (text : List Char) (style : Style) :
    (tokensOf text style).flatMap Token.text = runChars text style := by
  simp only [tokensOf, flatMap_wrapIf, List.flatMap_map, runChars, escapeChars, Tag.name]
  rfl

theorem nested_tokensOf (text : List Char) (style : Style) : Nested (tokensOf text style) := by
  have htext : Nested (text.map .char) := by
    induction text with
    | nil => exact .nil
    | cons c text ih => exact .char c ih
  exact nested_wrapIf (nested_wrapIf (nested_wrapIf htext))

theorem filterMap_tokensOf (text : List Char) (style : Style) :
    (tokensOf text style).filterMap Token.char? = text := by
  simp only [tokensOf, filterMap_wrapIf, List.filterMap_map]
  exact List.filterMap_some

end Runs

abbrev Segment := List Char × Style

def Tag.set (b : Bool) (style : Style) : Tag → Style
  | .bold => { style with bold := b }
  | .italics => { style with italics := b }
  | .underline => { style with underline := b }

/-- The texts between the tags, each with the formatting of the tags that are open around it. -/
def segments (style : Style) (text : List Char) : List Token → List Segment
  | [] => [(text, style)]
  | .char c :: ts => segments style (text ++ [c]) ts
  | .opens t :: ts => (text, style) :: segments (t.set true style) [] ts
  | .closes t :: ts => (text, style) :: segments (t.set false style) [] ts

/-- One more segment in front. An empty one is left out, and neighbours without formatting run
together. -/
def addSegment (s : Segment) (rest : List Segment) : List Segment :=
  if s.1 = [] then rest
  else if s.2 = {} then
    match rest with
    | (text, style) :: more => if style = {} then (s.1 ++ text, {}) :: more else s :: rest
    | [] => [s]
  else s :: rest

def merged (segments : List Segment) : List Segment := segments.foldr addSegment []

section Segments

variable {style : Style} {text more : List Char} {ts : List Token} {rest : List Segment}

theorem segments_map_char (style : Style) (text more : List Char) (ts : List Token) :
    segments style text (more.map .char ++ ts) = segments style (text ++ more) ts := by
  induction more generalizing text with
  | nil => rw [List.append_nil]; rfl
  | cons c more ih => rw [List.map_cons, List.cons_append, segments, ih, List.append_assoc]; rfl

theorem addSegment_nil (style : Style) (rest : List Segment) : addSegment ([], style) rest = rest :=
  if_pos rfl

@[simp] theorem merged_cons (s : Segment) (rest : List Segment) :
    merged (s :: rest) = addSegment s (merged rest) := rfl

theorem addSegment_addSegment (text more : List Char) (rest : List Segment) :
    addSegment (text, {}) (addSegment (more, {}) rest) = addSegment (text ++ more, {}) rest := by
  by_cases htext : text = []
  · rw [htext, addSegment_nil, List.nil_append]
  by_cases hmore : more = []
  · rw [hmore, addSegment_nil, List.append_nil]
  have hjoined : text ++ more ≠ [] := fun h => htext (List.append_eq_nil_iff.mp h).1
  simp only [addSegment, htext, hmore, hjoined, if_false, if_true]
  cases rest with
  | nil => rfl
  | cons s rest =>
    obtain ⟨other, style⟩ := s
    by_cases hstyle : style = {}
    · simp [hstyle]
    · simp [hstyle]

theorem merged_segments (front : List Char) (ts : List Token) :
    merged (segments {} front ts) = addSegment (front, {}) (merged (segments {} [] ts)) := by
  induction ts generalizing front with
  | nil => rfl
  | cons t ts ih =>
    cases t with
    | char c =>
      rw [segments, ih, segments, List.nil_append, ih [c], addSegment_addSegment]
    | opens t | closes t => rw [segments, segments, merged_cons, merged_cons, addSegment_nil]

theorem merged_segments_tokensOf (text : List Char) (style : Style) (ts : List Token) :
    merged (segments {} [] (tokensOf text style ++ ts)) =
      addSegment (text, style) (merged (segments {} [] ts)) := by
  obtain ⟨bold, italics, underline⟩ := style
  cases bold <;> cases italics <;> cases underline <;>
    simp [tokensOf, wrapIf, segments, segments_map_char, Tag.set, addSegment_nil]
  exact merged_segments text ts

end Segments

def roleTokens (runs : List RoleRun) : List Token :=
  runs.flatMap fun r => tokensOf r.text.toList (r.style.getD {})

theorem flatMap_roleTokens (runs : List RoleRun) :
    (roleTokens runs).flatMap Token.text = (runsHtml runs).toList := by
  rw [roleTokens, List.flatMap_assoc, runsHtml, String.toList_ofList]
  simp only [flatMap_tokensOf]

/-- The roles on a page fall into tags and characters in one way only. Angle brackets belong to
tags, and an ampersand begins an escape. The tags are nested; without them the characters are the
texts of the runs, and between them each text stands with its own formatting, up to neighbours
without any. -/
theorem runsHtml_readable (runs : List RoleRun) :
    (∀ ts : List Token, ts.flatMap Token.text = (runsHtml runs).toList ↔ ts = roleTokens runs) ∧
    (∀ t ∈ roleTokens runs, ('<' ∈ t.text ∨ '>' ∈ t.text → t.IsTag) ∧
      ('&' ∈ t.text → t.IsEscape)) ∧
    Nested (roleTokens runs) ∧
    (roleTokens runs).filterMap Token.char? = runs.flatMap (fun r => r.text.toList) ∧
    merged (segments {} [] (roleTokens runs)) =
      merged (runs.map fun r => (r.text.toList, r.style.getD {})) := by
  refine ⟨fun ts => ?_, fun t _ => ⟨t.isTag_of_mem, t.isEscape_of_mem⟩, ?_, ?_, ?_⟩
  · rw [← flatMap_roleTokens, Token.flatMap_text_inj]
  · induction runs with
    | nil => exact .nil
    | cons r runs ih => exact (nested_tokensOf _ _).append ih
  · rw [roleTokens, List.filterMap_flatMap]
    simp only [filterMap_tokensOf]
  · induction runs with
    | nil => rfl
    | cons r runs ih =>
      rw [roleTokens, List.flatMap_cons, merged_segments_tokensOf, ← roleTokens, ih]
      rfl

example : runsHtml [⟨"R&D", some { bold := true }⟩, ⟨" <x>", none⟩] =
    "<strong>R&amp;D</strong> &lt;x&gt;" := by decide

end SiteVisit.Browser
