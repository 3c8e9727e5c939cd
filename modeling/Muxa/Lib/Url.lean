/-
# Url: where a reference leads, and what an origin is

The part of the WHATWG URL parser that decides which scheme, host and port a reference has when
it is resolved against an `http` or `https` page: the clean-up of the input and the states from
"scheme start" to the point where an authority begins or the base URL's one is kept.  What
follows (the authority's own syntax, the path, the query) cannot change that decision, so the
host parser is a parameter of `resolve`.

`RootRelative` names the references that can only stay: one slash, then neither a slash nor a
backslash, and no control character for the clean-up to remove (`resolve_rootRelative`).

Apart from that, a reference without scheme and authority is its path, its query and its fragment
(`Parts`), and the query holds the parameters of a form.
-/
import Muxa.Lib.Form

namespace Lib.Url

open Lib.Text Lib.Form

/-! ## 1. Origins -/

/-- A tuple origin: scheme, serialized host, and port. -/
structure Origin where
  scheme : Str
  host : Str
  port : Nat
deriving DecidableEq

def specialSchemes : List Str :=
  ["ftp".toList, "file".toList, "http".toList, "https".toList, "ws".toList, "wss".toList]

/-! ## 2. The states of the parser -/

/-- What a reference says about scheme and authority. -/
inductive Reference where
  /-- Scheme, host and port are the base URL's. -/
  | here
  /-- An authority follows, under this special scheme. -/
  | authority (scheme : Str) (rest : Str)
  /-- Another kind of URL: a `file` URL or one whose scheme is not special. -/
  | other (scheme : Str) (rest : Str)
deriving DecidableEq

def isC0OrSpace (c : Char) : Bool := c.toNat ≤ 0x20

def isTabOrNewline (c : Char) : Bool := c == '\t' || c == '\n' || c == '\r'

def isSlash (c : Char) : Bool := c == '/' || c == '\\'

/-- Strip leading and trailing C0 controls and spaces, then drop tabs and newlines. -/
def cleanUp (input : Str) : Str :=
  ((input.dropWhile isC0OrSpace).rdropWhile isC0OrSpace).filter (fun c => !isTabOrNewline c)

/-- Special authority ignore slashes state. -/
def authorityIgnoreSlashes (scheme s : Str) : Reference := .authority scheme (s.dropWhile isSlash)

/-- Relative slash state, for a special base. -/
def relativeSlash (scheme : Str) : Str → Reference
  | [] => .here
  | c :: s => if isSlash c then authorityIgnoreSlashes scheme s else .here

/-- Relative state, for a special base. -/
def relative (scheme : Str) : Str → Reference
  | [] => .here
  | c :: s => if isSlash c then relativeSlash scheme s else .here

/-- Special relative or authority state, reached with the base's own scheme. -/
def relativeOrAuthority (scheme : Str) : Str → Reference
  | '/' :: '/' :: s => authorityIgnoreSlashes scheme s
  | s => relative scheme s

/-- Special authority slashes state. -/
def authoritySlashes (scheme : Str) : Str → Reference
  | '/' :: '/' :: s => authorityIgnoreSlashes scheme s
  | s => authorityIgnoreSlashes scheme s

/-- Scheme state; `input` is what the parser falls back to when there is no scheme after all. -/
def schemeState (base input : Str) : Str → Str → Reference
  | _, [] => relative base input
  | buffer, c :: s =>
    if c.isAlphanum || c == '+' || c == '-' || c == '.' then
      schemeState base input (buffer ++ [c.toLower]) s
    else if c = ':' then
      if buffer ∈ specialSchemes ∧ buffer ≠ "file".toList then
        if buffer = base then relativeOrAuthority base s else authoritySlashes buffer s
      else .other buffer s
    else relative base input

/-- Scheme start state, after the clean-up.  `base` is the base URL's scheme, `http` or
`https`. -/
def parseReference (base input : Str) : Reference :=
  match cleanUp input with
  | [] => relative base []
  | c :: s => if c.isAlpha then schemeState base (c :: s) [] (c :: s) else relative base (c :: s)

/-- The origin a reference has when resolved against a page of `base`.  The parser of an
authority is a parameter; `none` stands for every other kind of URL and for a failure. -/
def resolve (parseAuthority : Str → Str → Option Origin) (base : Origin) (input : Str) :
    Option Origin :=
  match parseReference base.scheme input with
  | .here => some base
  | .authority scheme rest => parseAuthority scheme rest
  | .other _ _ => none

/-! ## 3. References that stay -/

/-- One slash, then neither a slash nor a backslash, and no control character. -/
structure RootRelative (s : Str) : Prop where
  slash : s.head? = some '/'
  single : ∀ c, s.tail.head? = some c → isSlash c = false
  clean : ∀ c ∈ s, isControl c = false

theorem not_tabOrNewline_of_not_control {c : Char} (h : isControl c = false) :
    isTabOrNewline c = false := by
  simp only [isTabOrNewline, Bool.or_eq_false_iff, beq_eq_false_iff_ne]
  refine ⟨⟨?_, ?_⟩, ?_⟩ <;> rintro rfl <;> exact absurd h (by decide)

/-- The clean-up leaves a root-relative reference alone, up to trailing spaces. -/
theorem cleanUp_rootRelative {s : Str} (h : RootRelative s) :
    ∃ rest, cleanUp s = '/' :: rest ∧ ∀ c, rest.head? = some c → isSlash c = false := by
  obtain ⟨t, rfl⟩ : ∃ t, s = '/' :: t := by
    cases s with
    | nil => exact absurd h.slash (by simp)
    | cons c t => exact ⟨t, by rw [Option.some.inj h.slash]⟩
  have hdrop : ('/' :: t).dropWhile isC0OrSpace = '/' :: t := by
    rw [List.dropWhile_cons_of_neg (by decide)]
  obtain ⟨tail, htail⟩ := List.rdropWhile_prefix isC0OrSpace ('/' :: t)
  have hfilter : ∀ c ∈ ('/' :: t).rdropWhile isC0OrSpace, (!isTabOrNewline c) = true := by
    intro c hc
    rw [not_tabOrNewline_of_not_control (h.clean c ?_), Bool.not_false]
    rw [← htail]
    exact List.mem_append_left _ hc
  cases hr : ('/' :: t).rdropWhile isC0OrSpace with
  | nil =>
    rw [List.rdropWhile_eq_nil_iff] at hr
    exact absurd (hr '/' List.mem_cons_self) (by decide)
  | cons d rest =>
    rw [hr] at htail hfilter
    simp only [List.cons_append, List.cons.injEq] at htail
    refine ⟨rest, ?_, ?_⟩
    · rw [cleanUp, hdrop, hr, List.filter_eq_self.mpr hfilter, htail.1]
    · intro c hc
      refine h.single c ?_
      rw [List.tail_cons, ← htail.2]
      cases rest with
      | nil => simp at hc
      | cons e rest => simpa using hc

/-- **A root-relative reference keeps scheme, host and port**, whatever the host parser. -/
theorem resolve_rootRelative {s : Str} (h : RootRelative s)
    (parseAuthority : Str → Str → Option Origin) (base : Origin) :
    resolve parseAuthority base s = some base := by
  obtain ⟨rest, hs, hsingle⟩ := cleanUp_rootRelative h
  have hhere : relativeSlash base.scheme rest = .here := by
    cases rest with
    | nil => rfl
    | cons c rest => simp [relativeSlash, hsingle c rfl]
  have href : parseReference base.scheme s = .here := by
    rw [parseReference, hs]
    simp only [relative]
    rw [if_neg (by decide), if_pos (by decide), hhere]
  rw [resolve, href]

/-! ## 4. Serialized origins -/

def decimal (n : Nat) : Str := Nat.toDigits 10 n

theorem decimal_injective : Function.Injective decimal := by
  intro m n h
  have := congrArg (fun s => Nat.ofDigitChars 10 s 0) h
  simpa only [decimal, Nat.ofDigitChars_ten_toDigits] using this

def defaultPort (scheme : Str) : Option Nat :=
  if scheme = "http".toList ∨ scheme = "ws".toList then some 80
  else if scheme = "https".toList ∨ scheme = "wss".toList then some 443
  else if scheme = "ftp".toList then some 21
  else none

/-- The port as a serialized origin shows it: not at all when the scheme implies it. -/
def Origin.portSuffix (o : Origin) : Str :=
  if defaultPort o.scheme = some o.port then [] else ':' :: decimal o.port

/-- The ASCII serialization of a tuple origin. -/
def Origin.serialize (o : Origin) : Str := o.scheme ++ "://".toList ++ (o.host ++ o.portSuffix)

/-- A serialized host is a domain or IPv4 address, or an IPv6 address in brackets. -/
def HostSyntax (host : Str) : Prop :=
  (':' ∉ host ∧ '[' ∉ host) ∨ ∃ address, host = '[' :: address ++ [']'] ∧ ']' ∉ address

/-- The origin of a parsed URL: no colon in the scheme, and a serialized host. -/
structure Origin.WellFormed (o : Origin) : Prop where
  scheme : ':' ∉ o.scheme
  host : HostSyntax o.host

/-- Two texts that agree up to the first `d` of each. -/
theorem append_cons_inj {d : Char} : ∀ {a b r s : Str}, d ∉ a → d ∉ b →
    a ++ d :: r = b ++ d :: s → a = b ∧ r = s
  | [], [], r, s, _, _, h => ⟨rfl, (List.cons.inj h).2⟩
  | [], c :: b, r, s, _, hb, h => by
    obtain ⟨rfl, -⟩ := List.cons.inj h
    exact absurd List.mem_cons_self hb
  | c :: a, [], r, s, ha, _, h => by
    obtain ⟨rfl, -⟩ := List.cons.inj h
    exact absurd List.mem_cons_self ha
  | c :: a, e :: b, r, s, ha, hb, h => by
    obtain ⟨hhead, htail⟩ := List.cons.inj h
    obtain ⟨hab, hrs⟩ := append_cons_inj (fun hm => ha (List.mem_cons_of_mem _ hm))
      (fun hm => hb (List.mem_cons_of_mem _ hm)) htail
    exact ⟨by rw [hhead, hab], hrs⟩

theorem bracket_not_mem_portSuffix (o : Origin) : '[' ∉ o.portSuffix := by
  intro h
  unfold Origin.portSuffix at h
  split at h
  · simp at h
  · rcases List.mem_cons.mp h with h | h
    · exact absurd h (by decide)
    · have := Nat.isDigit_of_mem_toDigits (by omega) (by omega) h
      exact absurd this (by decide)

/-- The suffix is empty or starts with a colon. -/
theorem portSuffix_cases (o : Origin) :
    o.portSuffix = [] ∨ ∃ digits, o.portSuffix = ':' :: digits := by
  unfold Origin.portSuffix
  split
  · exact .inl rfl
  · exact .inr ⟨_, rfl⟩

/-- Where a serialized host ends and the port begins can be read off. -/
theorem host_portSuffix_inj {o o' : Origin} (h : HostSyntax o.host) (h' : HostSyntax o'.host)
    (heq : o.host ++ o.portSuffix = o'.host ++ o'.portSuffix) :
    o.host = o'.host ∧ o.portSuffix = o'.portSuffix := by
  -- a bracket on one side only would be in the other side's host or port
  have hbracket : ∀ {a b : Origin}, ':' ∉ a.host ∧ '[' ∉ a.host →
      (∃ address, b.host = '[' :: address ++ [']'] ∧ ']' ∉ address) →
        a.host ++ a.portSuffix ≠ b.host ++ b.portSuffix := by
    rintro a b ⟨-, ha⟩ ⟨address, hb, -⟩ heq
    have : '[' ∈ a.host ++ a.portSuffix := by
      rw [heq, hb]
      simp
    exact (List.mem_append.mp this).elim ha (bracket_not_mem_portSuffix a)
  rcases h with h | h <;> rcases h' with h' | h'
  · rcases portSuffix_cases o with hs | ⟨digits, hs⟩ <;>
      rcases portSuffix_cases o' with hs' | ⟨digits', hs'⟩ <;> rw [hs, hs'] at heq ⊢
    · exact ⟨by simpa using heq, rfl⟩
    · exact absurd (by rw [List.append_nil] at heq; rw [heq]; simp) h.1
    · exact absurd (by rw [List.append_nil] at heq; rw [← heq]; simp) h'.1
    · obtain ⟨hhost, hdigits⟩ := append_cons_inj h.1 h'.1 heq
      exact ⟨hhost, by rw [hdigits]⟩
  · exact absurd heq (hbracket h h')
  · exact absurd heq.symm (hbracket h' h)
  · obtain ⟨address, hhost, hmem⟩ := h
    obtain ⟨address', hhost', hmem'⟩ := h'
    rw [hhost, hhost'] at heq ⊢
    simp only [List.cons_append, List.append_assoc, List.nil_append, List.cons.injEq,
      true_and] at heq
    obtain ⟨rfl, hsuffix⟩ := append_cons_inj hmem hmem' heq
    exact ⟨rfl, hsuffix⟩

/-- **Serializing tells origins apart**: equal texts come from equal scheme, host and port. -/
theorem serialize_inj {o o' : Origin} (h : o.WellFormed) (h' : o'.WellFormed)
    (heq : o.serialize = o'.serialize) : o = o' := by
  have hsplit : ∀ a : Origin, a.serialize =
      a.scheme ++ ':' :: ("//".toList ++ (a.host ++ a.portSuffix)) := by
    intro a
    simp [Origin.serialize]
  rw [hsplit, hsplit] at heq
  obtain ⟨hscheme, hrest⟩ := append_cons_inj h.scheme h'.scheme heq
  obtain ⟨hhost, hsuffix⟩ := host_portSuffix_inj h.host h'.host (List.append_cancel_left hrest)
  have hport : o.port = o'.port := by
    unfold Origin.portSuffix at hsuffix
    rw [hscheme] at hsuffix
    split at hsuffix <;> split at hsuffix
    · rename_i hd hd'
      exact Option.some.inj (hd.symm.trans hd')
    · simp at hsuffix
    · simp at hsuffix
    · exact decimal_injective (List.cons.inj hsuffix).2
  cases o
  cases o'
  simp_all

/-! ## 5. Path, query and fragment -/

/-- A text up to the first `d`, and what follows that `d` when there is one. -/
def cutAt (d : Char) (s : Str) : Str × Option Str :=
  match splitOnce d s with
  | some (a, b) => (a, some b)
  | none => (s, none)

/-- The way back. -/
def rejoin (d : Char) (a : Str) : Option Str → Str
  | some b => a ++ d :: b
  | none => a

@[simp] theorem rejoin_none (d : Char) (a : Str) : rejoin d a none = a := rfl

@[simp] theorem rejoin_some (d : Char) (a b : Str) : rejoin d a (some b) = a ++ d :: b := rfl

theorem cutAt_rejoin {d : Char} {a : Str} (h : d ∉ a) (b : Option Str) :
    cutAt d (rejoin d a b) = (a, b) := by
  cases b with
  | none => simp only [rejoin, cutAt, splitOnce_eq_none_iff.mpr h]
  | some b => simp only [rejoin, cutAt, splitOnce_append h]

theorem rejoin_cutAt (d : Char) (s : Str) : rejoin d (cutAt d s).1 (cutAt d s).2 = s := by
  unfold cutAt
  split
  · rename_i hs
    exact (splitOnce_eq_some hs).1.symm
  · rfl

theorem not_mem_cutAt (d : Char) (s : Str) : d ∉ (cutAt d s).1 := by
  unfold cutAt
  split
  · rename_i hs
    exact (splitOnce_eq_some hs).2
  · rename_i hs
    exact splitOnce_eq_none_iff.mp hs

/-- What a text without `e` is cut into has no `e` either. -/
theorem not_mem_of_rejoin {d e : Char} {a : Str} {b : Option Str} (h : e ∉ rejoin d a b) :
    e ∉ a ∧ ∀ s ∈ b, e ∉ s := by
  cases b with
  | none => exact ⟨h, fun s hs => by cases hs⟩
  | some b =>
    refine ⟨fun ha => h (List.mem_append_left _ ha), fun s hs hmem => ?_⟩
    obtain rfl := Option.mem_some.mp hs
    exact h (List.mem_append_right _ (List.mem_cons_of_mem _ hmem))

/-- A reference without scheme and authority. -/
@[ext]
structure Parts where
  path : Str
  query : Option Str
  fragment : Option Str
  path_clean : '?' ∉ path ∧ '#' ∉ path
  query_clean : ∀ q ∈ query, '#' ∉ q

/-- The query is what stands between the first `?` before any `#` and that `#`. -/
def parts (s : Str) : Parts :=
  let base := cutAt '#' s
  let front := cutAt '?' base.1
  have hclean : '#' ∉ rejoin '?' front.1 front.2 := by
    rw [rejoin_cutAt]
    exact not_mem_cutAt '#' s
  { path := front.1
    query := front.2
    fragment := base.2
    path_clean := ⟨not_mem_cutAt '?' base.1, (not_mem_of_rejoin hclean).1⟩
    query_clean := (not_mem_of_rejoin hclean).2 }

def Parts.base (x : Parts) : Str := rejoin '?' x.path x.query

def Parts.join (x : Parts) : Str := rejoin '#' x.base x.fragment

def Parts.parameters (x : Parts) : List (Str × Str) :=
  match x.query with
  | some q => parse (utf8 q)
  | none => []

theorem Parts.base_clean (x : Parts) : '#' ∉ x.base := by
  unfold Parts.base
  cases hq : x.query with
  | none => exact x.path_clean.2
  | some q =>
    intro hmem
    rcases List.mem_append.mp hmem with hmem | hmem
    · exact x.path_clean.2 hmem
    · exact x.query_clean q hq ((List.mem_cons.mp hmem).resolve_left (by decide))

theorem Parts.contains_base (x : Parts) : x.base.contains '?' = x.query.isSome := by
  unfold Parts.base
  cases x.query with
  | none => simpa using x.path_clean.1
  | some q => simp

theorem join_parts (s : Str) : (parts s).join = s := by
  simp only [Parts.join, Parts.base, parts, rejoin_cutAt]

/-- **A text has one set of parts.** -/
theorem parts_join (x : Parts) : parts x.join = x := by
  have hbase : cutAt '#' x.join = (x.base, x.fragment) := cutAt_rejoin x.base_clean _
  have hfront : cutAt '?' x.base = (x.path, x.query) := cutAt_rejoin x.path_clean.1 _
  ext1 <;> simp only [parts, hbase, hfront]

end Lib.Url
