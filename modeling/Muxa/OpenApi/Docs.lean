/-
# The docs page

`scalar_html` writes two configured values into a page: the title, as the text of an element, and
the path of the document, as an attribute.  `escape_html` is what keeps them there.

The page is read back as HTML reads it.  The text of the title ends at the first `<` and the
attribute at the first `"`; neither occurs in escaped text (`escapeHtml_special`), so what stands
there is the escaped value, and its character references are the ones the escape wrote
(`decode_escapeHtml`), also where the value holds references of its own.
-/
import Muxa.Lib.Html

namespace Muxa.OpenApi

open Lib.Text Lib.Html

/-! ## 1. Escaping -/

inductive Cow where
  | borrowed (text : Str)
  | owned (text : Str)
deriving DecidableEq

def Cow.text : Cow → Str
  | .borrowed text | .owned text => text

def special : List Char := ['&', '<', '>', '"', '\'']

def push (escaped : Str) (ch : Char) : Str :=
  match ch with
  | '&' => escaped ++ "&amp;".toList
  | '<' => escaped ++ "&lt;".toList
  | '>' => escaped ++ "&gt;".toList
  | '"' => escaped ++ "&quot;".toList
  | '\'' => escaped ++ "&#39;".toList
  | other => escaped ++ [other]

/-- The loop over `text.chars()`. -/
def escapeLoop (text : Str) : Str := text.foldl push []

/-- `escape_html`: `text` escaped; borrowed when there is nothing to escape. -/
def escapeHtml (text : Str) : Cow :=
  if !text.any (special.contains ·) then .borrowed text else .owned (escapeLoop text)

/-! ## 2. The page -/

/-- The page up to the title. -/
def head : Str := "<!doctype html>\n<html>\n  <head>\n    <title>".toList

/-- The page between the title and the path. -/
def middle : Str :=
  "</title>\n    <meta charset=\"utf-8\" />\n".toList ++
    "    <meta name=\"viewport\" content=\"width=device-width, initial-scale=1\" />\n".toList ++
    "  </head>\n  <body>\n    <script id=\"api-reference\" data-url=\"".toList

/-- The page after the path. -/
def tail : Str :=
  "\"></script>\n".toList ++
    "    <script src=\"https://cdn.jsdelivr.net/npm/@scalar/api-reference\"></script>\n".toList ++
    "  </body>\n</html>\n".toList

/-- `scalar_html`: the page that loads the API reference, with the title and the path of the
document escaped. -/
def scalarHtml (jsonPath title : Str) : Str :=
  head ++ (escapeHtml title).text ++ middle ++ (escapeHtml jsonPath).text ++ tail

/-- What stands in a page after the first `marker`, up to the first `stop`. -/
def textAfter (marker : Str) (stop : Char) (page : Str) : Option Str :=
  (restAfter marker page).map fun rest => rest.takeWhile (· != stop)

def titleText (page : Str) : Option Str := textAfter "<title>".toList '<' page

def dataUrl (page : Str) : Option Str := textAfter "data-url=\"".toList '"' page

/-! ## 3. The loop, one character at a time -/

def escapeChar (ch : Char) : Str := push [] ch

theorem push_eq (escaped : Str) (ch : Char) : push escaped ch = escaped ++ escapeChar ch := by
  unfold escapeChar push
  split <;> simp

theorem escapeLoop_eq (text : Str) : escapeLoop text = text.flatMap escapeChar := by
  have hfold : ∀ (text escaped : Str),
      text.foldl push escaped = escaped ++ text.flatMap escapeChar := by
    intro text
    induction text with
    | nil => simp
    | cons ch text ih =>
      intro escaped
      rw [List.foldl_cons, ih, push_eq, List.append_assoc, List.flatMap_cons]
  exact hfold text []

theorem escapeChar_other {ch : Char} (h : ch ∉ special) : escapeChar ch = [ch] := by
  simp only [special, List.mem_cons, List.not_mem_nil, or_false, not_or] at h
  obtain ⟨hamp, hlt, hgt, hquot, hapos⟩ := h
  unfold escapeChar push
  split <;> first | contradiction | rfl

theorem escapeLoop_other {text : Str} (h : ∀ ch ∈ text, ch ∉ special) :
    escapeLoop text = text := by
  rw [escapeLoop_eq]
  induction text with
  | nil => rfl
  | cons ch text ih =>
    rw [List.flatMap_cons, escapeChar_other (h ch List.mem_cons_self),
      ih fun c hc => h c (List.mem_cons_of_mem _ hc), List.singleton_append]

/-- **The fast path returns what the loop would.** -/
theorem escapeHtml_text (text : Str) : (escapeHtml text).text = escapeLoop text := by
  unfold escapeHtml
  split
  · rename_i h
    have hother : ∀ ch ∈ text, ch ∉ special := by simpa using h
    rw [escapeLoop_other hother, Cow.text]
  · rfl

/-- **Escaped text has no `<`, no `>` and no quote.** -/
theorem escapeHtml_special {text : Str} {ch : Char} (h : ch ∈ (escapeHtml text).text) :
    ch ≠ '<' ∧ ch ≠ '>' ∧ ch ≠ '"' ∧ ch ≠ '\'' := by
  rw [escapeHtml_text, escapeLoop_eq, List.mem_flatMap] at h
  obtain ⟨c, -, hc⟩ := h
  by_cases hs : c ∈ special
  · have hall : special.all (fun c => (escapeChar c).all fun ch =>
        ch != '<' && ch != '>' && ch != '"' && ch != '\'') = true := by decide
    simpa [and_assoc] using List.all_eq_true.mp (List.all_eq_true.mp hall c hs) ch hc
  · rw [escapeChar_other hs, List.mem_singleton] at hc
    subst hc
    simp only [special, List.mem_cons, List.not_mem_nil, or_false, not_or] at hs
    exact hs.2

/-! ## 4. Reading it back -/

section Read

variable {e : Entities} (he : e.Standard) (inAttribute : Bool)
include he

/-- What is written for a character is read as the character, whatever follows it. -/
theorem decode_escapeChar (ch : Char) (s : Str) :
    decode e inAttribute (escapeChar ch ++ s) = ch :: decode e inAttribute s := by
  by_cases hs : ch ∈ special
  · simp only [special, List.mem_cons, List.not_mem_nil, or_false] at hs
    rcases hs with rfl | rfl | rfl | rfl | rfl
    · exact decode_named he (c := 'a') "mp".toList (by decide) he.amp s
    · exact decode_named he (c := 'l') "t".toList (by decide) he.lt s
    · exact decode_named he (c := 'g') "t".toList (by decide) he.gt s
    · exact decode_named he (c := 'q') "uot".toList (by decide) he.quot s
    · exact decode_numeric "39".toList (by decide) (List.all_eq_true.mp (by decide)) s
  · rw [escapeChar_other hs, List.singleton_append]
    refine decode_cons ?_ s
    rintro rfl
    exact hs (by decide)

/-- **Decoding undoes the escape**, also of a text with references, or parts of them. -/
theorem decode_escapeHtml (text : Str) : decode e inAttribute (escapeHtml text).text = text := by
  rw [escapeHtml_text, escapeLoop_eq]
  induction text with
  | nil => rfl
  | cons ch text ih => rw [List.flatMap_cons, decode_escapeChar he, ih]

end Read

theorem textAfter_eq {marker page text : Str} {stop : Char} (rest : Str)
    (h : restAfter marker page = some (text ++ stop :: rest)) (hstop : stop ∉ text) :
    textAfter marker stop page = some text := by
  have htext : ∀ ch ∈ text, (ch != stop) = true := by
    rintro ch hch
    exact bne_iff_ne.mpr fun heq => hstop (heq ▸ hch)
  rw [textAfter, h, Option.map_some, List.takeWhile_append_of_pos htext,
    List.takeWhile_cons_of_neg (by simp), List.append_nil]

/-- Before the title there is no other title tag, and a blank right before it. -/
theorem head_title : ∃ a, head = a ++ ' ' :: "<title>".toList ∧ ¬ "<title>".toList <:+: a :=
  ⟨head.rdrop 8, by decide +kernel⟩

theorem head_dataUrl : ∃ a, head = a ++ ['>'] ∧ ¬ "data-url=\"".toList <:+: a :=
  ⟨head.dropLast, by decide +kernel⟩

/-- Between the values the attribute is named once, after a blank. -/
theorem middle_dataUrl : ∃ a, middle = '<' :: (a ++ ' ' :: "data-url=\"".toList) ∧
    ¬ "data-url=\"".toList <:+: a :=
  ⟨(middle.drop 1).rdrop 11, by decide +kernel⟩

theorem tail_quote : ∃ a, tail = '"' :: a := ⟨tail.drop 1, by decide +kernel⟩

/-- **The title element holds the escaped title.** -/
theorem titleText_scalarHtml (jsonPath title : Str) :
    titleText (scalarHtml jsonPath title) = some (escapeHtml title).text := by
  obtain ⟨a, hhead, ha⟩ := head_title
  obtain ⟨b, hmiddle, -⟩ := middle_dataUrl
  unfold titleText scalarHtml
  refine textAfter_eq
    (b ++ ' ' :: "data-url=\"".toList ++ (escapeHtml jsonPath).text ++ tail) ?_
    fun h => (escapeHtml_special h).1 rfl
  rw [hhead, hmiddle]
  simp only [List.append_assoc, List.cons_append]
  rw [restAfter_append_cons (by decide) ha, restAfter_append (by decide)]

/-- **The attribute holds the escaped path**: nothing in the title is taken for its name. -/
theorem dataUrl_scalarHtml (jsonPath title : Str) :
    dataUrl (scalarHtml jsonPath title) = some (escapeHtml jsonPath).text := by
  obtain ⟨a, hhead, ha⟩ := head_dataUrl
  obtain ⟨b, hmiddle, hb⟩ := middle_dataUrl
  obtain ⟨c, htail⟩ := tail_quote
  -- an occurrence in the title would have its quote there
  have htitle : ¬ "data-url=\"".toList <:+: (escapeHtml title).text := by
    intro hin
    have hquote : '"' ∈ "data-url=\"".toList := by decide
    exact (escapeHtml_special (hin.subset hquote)).2.2.1 rfl
  unfold dataUrl scalarHtml
  refine textAfter_eq c ?_ fun h => (escapeHtml_special h).2.2.1 rfl
  rw [hhead, hmiddle, htail]
  simp only [List.append_assoc, List.cons_append, List.nil_append]
  rw [restAfter_append_cons (by decide) ha, restAfter_append_cons (by decide) htitle,
    restAfter_append_cons (by decide) hb, restAfter_append (by decide)]

/-! ## 5. The page and what was configured -/

/-- **Configuration cannot break out of the docs page.**  Whatever the path and the title are, the
page is three constant parts around the two escaped values; the title element decodes to the title
and the attribute to the path; and escaping is undone by decoding, leaves no character that could
end what it stands in, and does the same on its fast path as in its loop. -/
theorem docs_page_reads_back (e : Entities) (he : e.Standard) :
    (∃ before between after : Str, ∀ jsonPath title, ∃ text url,
        scalarHtml jsonPath title = before ++ text ++ between ++ url ++ after ∧
        titleText (scalarHtml jsonPath title) = some text ∧ decode e false text = title ∧
        dataUrl (scalarHtml jsonPath title) = some url ∧ decode e true url = jsonPath) ∧
      ∀ text, (∀ inAttribute, decode e inAttribute (escapeHtml text).text = text) ∧
        (∀ ch ∈ (escapeHtml text).text, ch ≠ '<' ∧ ch ≠ '>' ∧ ch ≠ '"' ∧ ch ≠ '\'') ∧
        (escapeHtml text).text = escapeLoop text := by
  refine ⟨⟨head, middle, tail, fun jsonPath title => ?_⟩, fun text => ?_⟩
  · exact ⟨_, _, rfl, titleText_scalarHtml jsonPath title, decode_escapeHtml he false title,
      dataUrl_scalarHtml jsonPath title, decode_escapeHtml he true jsonPath⟩
  · exact ⟨fun inAttribute => decode_escapeHtml he inAttribute text,
      fun ch hch => escapeHtml_special hch, escapeHtml_text text⟩

/-- Rows of the table, some of which others continue. -/
def rows : List (Str × Str) :=
  [("amp;", "&"), ("amp", "&"), ("lt;", "<"), ("lt", "<"), ("gt;", ">"), ("gt", ">"),
    ("quot;", "\""), ("quot", "\""), ("not", "¬"), ("not;", "¬"), ("notin;", "∉")].map
    fun r => (r.1.toList, r.2.toList)

def someEntities : Entities := fun name => rows.find? (·.1 == name) |>.map Prod.snd

theorem someEntities_standard : someEntities.Standard where
  amp := by decide
  lt := by decide
  gt := by decide
  quot := by decide
  semicolon_last name value h := by
    have hrow : ∀ r ∈ rows, ';' ∉ r.1.dropLast := by decide
    obtain ⟨r, hr, -⟩ := Option.map_eq_some_iff.mp h
    have hname : r.1 = name := by simpa using List.find?_some hr
    exact hname ▸ hrow r (List.mem_of_find?_eq_some hr)

/-- A path that tries to add an attribute, and a title with a tag in it. -/
theorem docs_page_reads_back_hostile :
    let page := scalarHtml "/spec.json\" onload=\"x".toList "Widgets <beta> &lt; \"v2\"".toList
    ∃ text url, titleText page = some text ∧
      decode someEntities false text = "Widgets <beta> &lt; \"v2\"".toList ∧
      dataUrl page = some url ∧
      decode someEntities true url = "/spec.json\" onload=\"x".toList := by
  obtain ⟨⟨before, between, after, hpage⟩, -⟩ :=
    docs_page_reads_back someEntities someEntities_standard
  obtain ⟨text, url, -, htitle, htext, hattr, hurl⟩ :=
    hpage "/spec.json\" onload=\"x".toList "Widgets <beta> &lt; \"v2\"".toList
  exact ⟨text, url, htitle, htext, hattr, hurl⟩

end Muxa.OpenApi
