/-
# Target: what a client asks for when it follows a URL

A client that is given an absolute `http` or `https` URL connects to its authority and asks there
for a path and a query.  Both come out of the WHATWG URL parser, not out of the text as it is
written: backslashes count as slashes, `.` and `..` segments are resolved, characters that may
not stand in a path or a query are percent-encoded, and the fragment is dropped.  This library is
that part of the parser, from the state after the scheme on (`requestTarget`).  The authority is
skipped: what is valid there, and where it leads, is not decided here.

`requestTarget_plain` says when the target can be read off the text: each segment of the path is
then asked for as it is written, encoded.  What is encoded this way, a server that decodes one
segment reads back (`percentDecode_percentEncode`).
-/
import Mathlib.Data.Bool.AllAny
import Muxa.Lib.Segments
import Muxa.Lib.Url

namespace Lib.Target

open Lib.Text Lib.Form Lib.Url Lib.Segments

/-! ## 1. The path and the query of a URL -/

/-- The characters that a query is not written with, as they are: the special-query
percent-encode set. -/
def escapedInQuery (c : Char) : Bool :=
  c.toNat ≤ 0x20 || 0x7F ≤ c.toNat || [0x22, 0x23, 0x27, 0x3C, 0x3E].contains c.toNat

/-- The path percent-encode set. -/
def escapedInPath (c : Char) : Bool :=
  c.toNat ≤ 0x20 || 0x7F ≤ c.toNat ||
    [0x22, 0x23, 0x3C, 0x3E, 0x3F, 0x5E, 0x60, 0x7B, 0x7D].contains c.toNat

/-- UTF-8 percent-encode, with this percent-encode set. -/
def percentEncode (escaped : Char → Bool) (s : Str) : Str :=
  s.flatMap fun c => if escaped c then (String.utf8EncodeChar c).flatMap percentByte else [c]

/-- A segment of a path, as it is asked for. -/
def encodeSegment (segment : Str) : Str := percentEncode escapedInPath segment

def isSingleDot (segment : Str) : Bool :=
  [".".toList, "%2e".toList].contains (segment.map Char.toLower)

def isDoubleDot (segment : Str) : Bool :=
  ["..".toList, ".%2e".toList, "%2e.".toList, "%2e%2e".toList].contains (segment.map Char.toLower)

/-- Path state: the segments of a path, resolved after those in `path`, which is kept in reverse.
A dot segment at the end leaves an empty one. -/
def resolveSegments (path : List Str) : List Str → List Str
  | [] => path.reverse
  | [last] =>
    if isDoubleDot last then path.tail.reverse ++ [[]]
    else if isSingleDot last then path.reverse ++ [[]]
    else path.reverse ++ [encodeSegment last]
  | segment :: rest =>
    if isDoubleDot segment then resolveSegments path.tail rest
    else if isSingleDot segment then resolveSegments path rest
    else resolveSegments (encodeSegment segment :: path) rest

/-- The path of a special URL.  It begins with a slash, whether one is written or not. -/
def resolvePath (path : Str) : Str :=
  let slashed := path.map fun c => if c = '\\' then '/' else c
  let segments := match slashed with
    | '/' :: rest => rest.splitOn '/'
    | rest => rest.splitOn '/'
  '/' :: ['/'].intercalate (resolveSegments [] segments)

def endsAuthority (c : Char) : Bool := isSlash c || c == '?' || c == '#'

/-- **The path and the query that a client asks for** when it follows a URL; none when it is not
an absolute `http` or `https` URL. -/
def requestTarget (url : Str) : Option (Str × Option Str) :=
  match parseReference [] url with
  | .authority scheme rest =>
    if scheme = "http".toList ∨ scheme = "https".toList then
      let x := parts (rest.dropWhile fun c => !endsAuthority c)
      some (resolvePath x.path, x.query.map (percentEncode escapedInQuery))
    else none
  | .here | .other _ _ => none

-- dot segments, backslashes, a fragment
example : requestTarget "https://a.example/x/../y z\\w?q=1#f".toList =
    some ("/y%20z/w".toList, some "q=1".toList) := by decide

/-! ## 2. Encoding -/

theorem percentEncode_eq_self {escaped : Char → Bool} {s : Str}
    (h : ∀ c ∈ s, escaped c = false) : percentEncode escaped s = s := by
  induction s with
  | nil => rfl
  | cons c s ih =>
    have ih := ih fun d hd => h d (List.mem_cons_of_mem _ hd)
    rw [percentEncode, List.flatMap_cons, ← percentEncode, ih, h c List.mem_cons_self]
    rfl

/-- A serialized form is a query as it is. -/
theorem formChar_not_escaped {c : Char} (h : FormChar c) : escapedInQuery c = false := by
  have hascii : ∀ n < 0x7F, FormChar (Char.ofNat n) → escapedInQuery (Char.ofNat n) = false := by
    decide
  have hc := hascii c.toNat h.1
  rw [Char.ofNat_toNat] at hc
  exact hc h

/-- Nothing that is encoded makes a separator. -/
theorem not_mem_percentEncode {escaped : Char → Bool} {s : Str} {d : Char} (h : d ∉ s)
    (hd : ¬ FormChar d) : d ∉ percentEncode escaped s := by
  intro hmem
  obtain ⟨c, hc, hin⟩ := List.mem_flatMap.mp hmem
  split at hin
  · obtain ⟨b, -, hb⟩ := List.mem_flatMap.mp hin
    exact hd (percentByte_formChar b d hb)
  · obtain rfl := List.mem_singleton.mp hin
    exact h hc

theorem percentDecode_percentBytes (bytes rest : List UInt8) :
    percentDecode (utf8 (bytes.flatMap percentByte) ++ rest) = bytes ++ percentDecode rest := by
  induction bytes with
  | nil => rfl
  | cons b bytes ih =>
    rw [List.flatMap_cons, utf8_append, List.append_assoc, percentDecode_percentByte, ih,
      List.cons_append]

/-- No byte of a character but `%` is a `%`. -/
theorem percent_not_mem_utf8 {s : Str} (h : '%' ∉ s) : (0x25 : UInt8) ∉ utf8 s := by
  intro hmem
  obtain ⟨pre, post, hsplit⟩ := List.append_of_mem hmem
  obtain ⟨p, c, q, rfl, -, hc, -⟩ := utf8_split_ascii s pre post 0x25 hsplit (by decide)
  have hpercent : c = '%' := by
    have hbytes : utf8 [c] = utf8 ['%'] := by
      rw [utf8_cons, hc]
      rfl
    simpa using utf8_injective hbytes
  exact h (by simp [hpercent])

theorem percentDecode_append {bytes : List UInt8} (h : (0x25 : UInt8) ∉ bytes)
    (rest : List UInt8) : percentDecode (bytes ++ rest) = bytes ++ percentDecode rest := by
  induction bytes with
  | nil => rfl
  | cons b bytes ih =>
    rw [List.mem_cons, not_or] at h
    rw [List.cons_append, percentDecode_cons (Ne.symm h.1), ih h.2, List.cons_append]

/-- **An encoded text without `%` is read back.** -/
theorem percentDecode_percentEncode {escaped : Char → Bool} {s : Str} (h : '%' ∉ s) :
    percentDecode (utf8 (percentEncode escaped s)) = utf8 s := by
  have happend : ∀ rest, percentDecode (utf8 (percentEncode escaped s) ++ rest) =
      utf8 s ++ percentDecode rest := by
    induction s with
    | nil => exact fun rest => rfl
    | cons c s ih =>
      rw [List.mem_cons, not_or] at h
      intro rest
      have hstep : percentEncode escaped (c :: s) =
          (if escaped c then (String.utf8EncodeChar c).flatMap percentByte else [c]) ++
            percentEncode escaped s := rfl
      rw [hstep, utf8_append, List.append_assoc, utf8_cons, List.append_assoc]
      split
      · rw [percentDecode_percentBytes, ih h.2]
      · have hplain : (0x25 : UInt8) ∉ utf8 [c] := percent_not_mem_utf8 (by simpa using h.1)
        rw [percentDecode_append hplain, ih h.2]
        simp
  have hwhole := happend []
  rwa [List.append_nil, show percentDecode [] = [] from rfl, List.append_nil] at hwhole

/-! ## 3. A URL whose target can be read off -/

/-- A segment that stays one: nothing in it ends it or is dropped, and it is no dot segment. -/
structure Segment (s : Str) : Prop where
  text : ∀ c ∈ s, endsAuthority c = false ∧ isTabOrNewline c = false
  single : isSingleDot s = false
  double : isDoubleDot s = false

/-- The scheme, and an authority on which nothing else follows. -/
structure Site (s : Str) : Prop where
  split : ∃ scheme authority, (scheme = "http".toList ∨ scheme = "https".toList) ∧
    s = scheme ++ "://".toList ++ authority ∧ authority ≠ [] ∧
      ∀ c ∈ authority, endsAuthority c = false ∧ isTabOrNewline c = false

/-- Nothing in a path of such segments begins a query or a fragment. -/
theorem path_clean {segments : List Str} (h : ∀ segment ∈ segments, Segment segment) :
    ∀ c ∈ '/' :: ['/'].intercalate segments, c ≠ '?' ∧ c ≠ '#' ∧ isTabOrNewline c = false := by
  intro c hc
  have hslash : c = '/' ∨ ∃ segment ∈ segments, c ∈ segment := by
    rcases List.mem_cons.mp hc with hc | hc
    · exact .inl hc
    · exact (mem_intercalate hc).imp_left List.mem_singleton.mp
  rcases hslash with rfl | ⟨segment, hsegment, hmem⟩
  · decide
  · obtain ⟨hends, htab⟩ := (h segment hsegment).text c hmem
    refine ⟨?_, ?_, htab⟩ <;> rintro rfl <;> exact absurd hends (by decide)

theorem Site.clean {site : Str} (h : Site site) : ∀ c ∈ site, c ≠ '?' ∧ c ≠ '#' := by
  obtain ⟨scheme, authority, hscheme, rfl, -, hclean⟩ := h.split
  intro c hc
  rcases List.mem_append.mp hc with hc | hc
  · have hfront : ∀ c ∈ scheme ++ "://".toList, c ≠ '?' ∧ c ≠ '#' := by
      rcases hscheme with rfl | rfl <;> exact List.all_iff_forall_prop.mp (by decide)
    exact hfront c hc
  · have hends := (hclean c hc).1
    constructor <;> rintro rfl <;> exact absurd hends (by decide)

theorem resolveSegments_plain {segments : List Str} (hne : segments ≠ [])
    (h : ∀ segment ∈ segments, isSingleDot segment = false ∧ isDoubleDot segment = false)
    (path : List Str) :
    resolveSegments path segments = path.reverse ++ segments.map encodeSegment := by
  induction segments generalizing path with
  | nil => exact absurd rfl hne
  | cons segment segments ih =>
    obtain ⟨hsingle, hdouble⟩ := h segment List.mem_cons_self
    cases segments with
    | nil => simp [resolveSegments, hsingle, hdouble]
    | cons next segments =>
      have ih := ih (List.cons_ne_nil _ _) (fun s hs => h s (List.mem_cons_of_mem _ hs))
        (encodeSegment segment :: path)
      rw [resolveSegments, hsingle, hdouble]
      · simpa using ih
      · simp

/-- **A path of plain segments is asked for segment by segment.** -/
theorem resolvePath_plain {segments : List Str} (hne : segments ≠ [])
    (h : ∀ segment ∈ segments, Segment segment) :
    resolvePath ('/' :: ['/'].intercalate segments) =
      '/' :: ['/'].intercalate (segments.map encodeSegment) := by
  have hclean : ∀ segment ∈ segments, '/' ∉ segment := fun segment hsegment hmem =>
    absurd ((h segment hsegment).text _ hmem).1 (by decide)
  have hback : ∀ c ∈ '/' :: ['/'].intercalate segments, (if c = '\\' then '/' else c) = c := by
    intro c hc
    refine if_neg fun heq => ?_
    subst heq
    rcases mem_intercalate ((List.mem_cons.mp hc).resolve_left (by decide)) with hc | hc
    · exact absurd hc (by decide)
    · obtain ⟨segment, hsegment, hmem⟩ := hc
      exact absurd ((h segment hsegment).text _ hmem).1 (by decide)
  have hslashed : ('/' :: ['/'].intercalate segments).map
      (fun c => if c = '\\' then '/' else c) = '/' :: ['/'].intercalate segments :=
    (List.map_congr_left hback).trans (List.map_id' _)
  simp only [resolvePath, hslashed]
  rw [List.splitOn_intercalate _ hclean hne, resolveSegments_plain hne
    fun segment hsegment => ⟨(h segment hsegment).single, (h segment hsegment).double⟩]
  rfl

/-- The clean-up leaves a text alone that begins and ends with neither a space nor a control
character and has neither tabs nor newlines. -/
theorem cleanUp_eq_self {s : Str} (hhead : ∀ c ∈ s.head?, isC0OrSpace c = false)
    (hlast : ∀ c ∈ s.getLast?, isC0OrSpace c = false)
    (hclean : ∀ c ∈ s, isTabOrNewline c = false) : cleanUp s = s := by
  have hdrop : s.dropWhile isC0OrSpace = s := by
    rw [List.dropWhile_eq_self_iff]
    intro hlen
    rw [hhead s[0] (by rw [List.head?_eq_getElem?, List.getElem?_eq_getElem hlen]; rfl)]
    exact Bool.false_ne_true
  have hdropped : s.rdropWhile isC0OrSpace = s := by
    rw [List.rdropWhile_eq_self_iff]
    intro hne
    rw [hlast _ (List.getLast?_eq_some_getLast hne)]
    exact Bool.false_ne_true
  rw [cleanUp, hdrop, hdropped, List.filter_eq_self]
  intro c hc
  rw [hclean c hc, Bool.not_false]

/-- What follows the scheme of an absolute URL is its authority, and the rest. -/
theorem parseReference_absolute {scheme rest : Str}
    (hscheme : scheme = "http".toList ∨ scheme = "https".toList)
    (hrest : ∀ c ∈ rest.head?, isSlash c = false)
    (hlast : ∀ c ∈ rest.getLast?, isC0OrSpace c = false) (hne : rest ≠ [])
    (hclean : ∀ c ∈ rest, isTabOrNewline c = false) :
    parseReference [] (scheme ++ "://".toList ++ rest) = .authority scheme rest := by
  have hignored : rest.dropWhile isSlash = rest := by
    cases rest with
    | nil => rfl
    | cons c rest => rw [List.dropWhile_cons_of_neg (by simp [hrest c rfl])]
  have hcleaned : cleanUp (scheme ++ "://".toList ++ rest) = scheme ++ "://".toList ++ rest := by
    refine cleanUp_eq_self ?_ ?_ ?_
    · rcases hscheme with rfl | rfl <;> · rintro c ⟨⟩; decide
    · rw [List.getLast?_append_of_ne_nil _ hne]
      exact hlast
    · intro c hc
      rcases List.mem_append.mp hc with hc | hc
      · have hfront : ∀ c ∈ scheme ++ "://".toList, isTabOrNewline c = false := by
          rcases hscheme with rfl | rfl <;> exact List.all_iff_forall_prop.mp (by decide)
        exact hfront c hc
      · exact hclean c hc
  rw [parseReference, hcleaned]
  rcases hscheme with rfl | rfl
  · exact congrArg (Reference.authority "http".toList) hignored
  · exact congrArg (Reference.authority "https".toList) hignored

/-- **The target of a URL of plain segments**, with a serialized form for its query. -/
theorem requestTarget_plain {site : Str} (hsite : Site site) {segments : List Str}
    (hne : segments ≠ []) (hsegments : ∀ segment ∈ segments, Segment segment) {query : Str}
    (hquery : ∀ c ∈ query, FormChar c) :
    requestTarget (site ++ '/' :: ['/'].intercalate segments ++ '?' :: query) =
      some ('/' :: ['/'].intercalate (segments.map encodeSegment), some query) := by
  obtain ⟨scheme, authority, hscheme, rfl, hauthority, hclean⟩ := hsite.split
  have hpath := path_clean hsegments
  have hquery' : '#' ∉ query := fun hmem => absurd (hquery _ hmem) (by decide)
  let x : Parts :=
    { path := '/' :: ['/'].intercalate segments
      query := some query
      fragment := none
      path_clean := ⟨fun hmem => (hpath _ hmem).1 rfl, fun hmem => (hpath _ hmem).2.1 rfl⟩
      query_clean := by rintro q ⟨⟩; exact hquery' }
  have hjoin : x.join = '/' :: ['/'].intercalate segments ++ '?' :: query := rfl
  have hreference : parseReference [] (scheme ++ "://".toList ++ (authority ++ x.join)) =
      .authority scheme (authority ++ x.join) := by
    refine parseReference_absolute hscheme ?_ ?_ (by simp [hauthority]) ?_
    · intro c hc
      rw [List.head?_append_of_ne_nil _ hauthority] at hc
      have hends := (hclean c (List.mem_of_mem_head? hc)).1
      simp only [endsAuthority, Bool.or_eq_false_iff] at hends
      exact hends.1.1
    · intro c hc
      rw [hjoin, ← List.append_assoc, List.getLast?_append_of_ne_nil _ (List.cons_ne_nil _ _)] at hc
      rcases List.mem_cons.mp (List.mem_of_mem_getLast? hc) with rfl | hc
      · decide
      · have := (hquery c hc).2.1
        simp only [isC0OrSpace, decide_eq_false_iff_not]
        omega
    · intro c hc
      rw [hjoin, List.mem_append, List.mem_append] at hc
      rcases hc with hc | hc | hc
      · exact (hclean c hc).2
      · exact (hpath c hc).2.2
      · rcases List.mem_cons.mp hc with rfl | hc
        · decide
        · exact not_tabOrNewline_of_not_control (not_control_of_formChar (hquery c hc))
  have hdrop : (authority ++ x.join).dropWhile (fun c => !endsAuthority c) = x.join := by
    rw [List.dropWhile_append_of_pos fun c hc => by rw [(hclean c hc).1]; rfl]
    exact List.dropWhile_cons_of_neg (by decide)
  have htext : scheme ++ "://".toList ++ authority ++ '/' :: ['/'].intercalate segments ++
      '?' :: query = scheme ++ "://".toList ++ (authority ++ x.join) := by
    simp only [hjoin, List.append_assoc, List.cons_append]
  rw [htext, requestTarget, hreference]
  simp only [if_pos hscheme, hdrop, parts_join]
  rw [show x.path = _ from rfl, resolvePath_plain hne hsegments, show x.query = _ from rfl,
    Option.map_some, percentEncode_eq_self fun c hc => formChar_not_escaped (hquery c hc)]

end Lib.Target
