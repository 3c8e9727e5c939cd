/-
# The cross-origin guard

`allowed` lets a request through by its method, its `Sec-Fetch-Site`, its `Origin` and its
`Host`; header values are arbitrary bytes.  `Passes` is the rule it is meant to implement, stated
over the headers as they are.  The two agree on every request but one kind
(`allowed_iff_passes_iff`): a state-changing request without `Sec-Fetch-Site` whose `Origin` has
bytes that `to_str` does not read.  For the code such a request has no `Origin`, and passes; by
the rule it has one, which is neither trusted nor the `Host`.

The `url` crate is a parameter (`parse`).  Its serialization of origins is `Origin.serialize`.
-/
import Muxa.Lib.Url

namespace Muxa.Auth.Csrf

open Lib.Text Lib.Url

/-! ## 1. Requests -/

inductive Method where
  | get | head | options | post | put | delete | patch | trace | connect
  | extension (name : Str)
deriving DecidableEq

/-- `Method::GET | Method::HEAD | Method::OPTIONS`. -/
def Method.isSafe (method : Method) : Bool :=
  method == .get || method == .head || method == .options

/-- Header names, lower-cased as the `http` crate keeps them, with their values. -/
abbrev HeaderMap := List (Str × List UInt8)

/-- `HeaderMap::get`: the first value of the name. -/
def HeaderMap.get (headers : HeaderMap) (name : String) : Option (List UInt8) :=
  (headers.find? fun h => h.1 == name.toList).map Prod.snd

/-- Visible ASCII, space or tab. -/
def isVisible (b : UInt8) : Bool := (32 ≤ b && b < 127) || b == 9

def toStr (value : List UInt8) : Option Str :=
  if value.all isVisible then some (value.map fun b => Char.ofNat b.toNat) else none

/-- A parsed URL, as far as the guard reads it: `port` is none when the scheme implies it, and
`origin` is none when it is opaque. -/
structure ParsedUrl where
  hostStr : Option Str
  port : Option Nat
  origin : Option Origin

/-- **What is relied on of the `url` crate**: tuple origins are well formed, and a serialized
host is visible ASCII. -/
structure LawfulParse (parse : Str → Option ParsedUrl) : Prop where
  origin : ∀ s url origin, parse s = some url → url.origin = some origin → origin.WellFormed
  host : ∀ s url host, parse s = some url → url.hostStr = some host →
    ∀ b ∈ utf8 host, isVisible b = true

section Guard

variable (parse : Str → Option ParsedUrl)

/-! ## 2. The guard -/

def normalize (origin : Str) : Option Str :=
  (parse origin).bind fun url => url.origin.map Origin.serialize

/-- `TrustedOrigins::new`: the serialized origins. -/
def trustedOrigins (origins : List Str) : List Str := origins.filterMap (normalize parse)

/-- `TrustedOrigins::contains`. -/
def containsOrigin (trusted : List Str) (origin : Str) : Bool :=
  (normalize parse origin).any fun origin => trusted.contains origin

/-- The host of a URL with its port, as the guard compares it with `Host`. -/
def originHost (url : ParsedUrl) : Option Str :=
  match url.hostStr, url.port with
  | some name, some port => some (name ++ ':' :: decimal port)
  | some name, none => some name
  | none, _ => none

/-- `allowed`: does the guard let the request through?  Safe methods pass.  A `Sec-Fetch-Site`
decides next: a request of the same origin or of no site passes, another one only from a trusted
origin.  Without it an `Origin` must be trusted or name the host that the request is sent to, and a
request whose `Origin` is missing, or is not text, passes. -/
def allowed (method : Method) (headers : HeaderMap) (trusted : List Str) : Bool :=
  if method.isSafe then true
  else
    let origin := (headers.get "origin").bind toStr
    match headers.get "sec-fetch-site" with
    | some site =>
      if site == utf8 "same-origin".toList || site == utf8 "none".toList then true
      else origin.any (containsOrigin parse trusted)
    | none =>
      match origin with
      | none => true
      | some origin =>
        if containsOrigin parse trusted origin then true
        else
          match parse origin, (headers.get "host").bind toStr with
          | some url, some host =>
            match originHost url with
            | some originHost => eqIgnoreAsciiCase originHost host
            | none => false
          | _, _ => false

/-! ## 3. The rule -/

/-- The URL that the request's `Origin` reads as. -/
def OriginUrl (headers : HeaderMap) (url : ParsedUrl) : Prop :=
  ∃ value text, headers.get "origin" = some value ∧ toStr value = some text ∧
    parse text = some url

/-- The request comes from a configured origin: same scheme, host and port. -/
def FromConfigured (headers : HeaderMap) (configured : List Str) : Prop :=
  ∃ url origin, OriginUrl parse headers url ∧ url.origin = some origin ∧
    ∃ c ∈ configured, ∃ url', parse c = some url' ∧ url'.origin = some origin

/-- The request's `Origin` has a host, and that host with any non-default port is the `Host`
header, up to ASCII case. -/
def MatchesHost (headers : HeaderMap) : Prop :=
  ∃ url name value, OriginUrl parse headers url ∧ originHost url = some name ∧
    headers.get "host" = some value ∧ (utf8 name).map lowerByte = value.map lowerByte

/-- **The rule** the guard is there for.  A request passes if its method is safe, if the browser
says that it comes from the same origin or from no site, if its origin is a configured one, or,
where the browser says nothing of the site, if it names no origin or that of the host it is sent
to. -/
def Passes (method : Method) (headers : HeaderMap) (configured : List Str) : Prop :=
  method.isSafe = true ∨
    (∃ site, headers.get "sec-fetch-site" = some site ∧
      (site = utf8 "same-origin".toList ∨ site = utf8 "none".toList)) ∨
    FromConfigured parse headers configured ∨
    headers.get "sec-fetch-site" = none ∧
      (headers.get "origin" = none ∨ MatchesHost parse headers)

variable {parse}

/-! ## 4. Reading header values -/

theorem isVisible_iff {b : UInt8} :
    isVisible b = true ↔ (32 ≤ b.toNat ∧ b.toNat < 127) ∨ b.toNat = 9 := by
  have h32 : (32 : UInt8).toNat = 32 := rfl
  have h127 : (127 : UInt8).toNat = 127 := rfl
  have h9 : (9 : UInt8).toNat = 9 := rfl
  simp only [isVisible, Bool.or_eq_true, Bool.and_eq_true, decide_eq_true_eq, beq_iff_eq,
    UInt8.le_iff_toNat_le, UInt8.lt_iff_toNat_lt, ← UInt8.toNat_inj, h32, h127, h9]

/-- A value that reads as text is the bytes of that text. -/
theorem utf8_of_toStr {value : List UInt8} {s : Str} (h : toStr value = some s) :
    utf8 s = value := by
  unfold toStr at h
  split at h
  · rename_i hall
    obtain rfl := Option.some.inj h
    clear h
    induction value with
    | nil => rfl
    | cons b value ih =>
      simp only [List.all_cons, Bool.and_eq_true] at hall
      have hb : b.toNat < 128 := by
        have := isVisible_iff.mp hall.1
        omega
      have hchar : (Char.ofNat b.toNat).toNat = b.toNat := by
        have hvalid : b.toNat.isValidChar := .inl (by omega)
        rw [Char.ofNat, dif_pos hvalid]
        rfl
      rw [List.map_cons, utf8_cons, utf8EncodeChar_ascii (by omega), hchar, ih hall.2]
      simp
  · cases h

theorem lowerByte_visible (b : UInt8) : isVisible (lowerByte b) = isVisible b := by
  unfold lowerByte
  split
  · rename_i h
    have h65 : (65 : UInt8).toNat = 65 := rfl
    have h90 : (90 : UInt8).toNat = 90 := rfl
    have h32 : (32 : UInt8).toNat = 32 := rfl
    simp only [UInt8.le_iff_toNat_le, h65, h90] at h
    have hadd : (b + 32).toNat = b.toNat + 32 := by
      rw [UInt8.toNat_add, h32, Nat.mod_eq_of_lt (by omega)]
    rw [isVisible_iff.mpr (.inl (by omega)), isVisible_iff.mpr (.inl (by omega))]
  · rfl

/-- Bytes that are a visible text up to case read as text. -/
theorem toStr_of_eq_lower {name : Str} {value : List UInt8}
    (hname : ∀ b ∈ utf8 name, isVisible b = true)
    (h : (utf8 name).map lowerByte = value.map lowerByte) : (toStr value).isSome = true := by
  have hall : value.all isVisible = true := by
    rw [List.all_eq_true]
    intro b hb
    have hmem : lowerByte b ∈ (utf8 name).map lowerByte := by
      rw [h]
      exact List.mem_map_of_mem hb
    obtain ⟨b', hb', heq⟩ := List.mem_map.mp hmem
    rw [← lowerByte_visible, ← heq, lowerByte_visible, hname b' hb']
  simp [toStr, hall]

/-! ## 5. The guard implements the rule, up to unreadable origins -/

/-- **Comparing serialized origins is comparing scheme, host and port.** -/
theorem containsOrigin_iff (hparse : LawfulParse parse) (configured : List Str) (text : Str) :
    containsOrigin parse (trustedOrigins parse configured) text = true ↔
      ∃ url origin, parse text = some url ∧ url.origin = some origin ∧
        ∃ c ∈ configured, ∃ url', parse c = some url' ∧ url'.origin = some origin := by
  have hnorm : ∀ s t, normalize parse s = some t ↔
      ∃ url origin, parse s = some url ∧ url.origin = some origin ∧ origin.serialize = t := by
    intro s t
    simp [normalize, Option.bind_eq_some_iff]
  simp only [containsOrigin, Option.any_eq_true, List.contains_iff_mem, trustedOrigins,
    List.mem_filterMap, hnorm]
  constructor
  · rintro ⟨t, ⟨url, origin, hurl, ho, rfl⟩, c, hc, url', origin', hurl', ho', heq⟩
    obtain rfl := serialize_inj (hparse.origin _ _ _ hurl' ho') (hparse.origin _ _ _ hurl ho) heq
    exact ⟨url, origin', hurl, ho, c, hc, url', hurl', ho'⟩
  · rintro ⟨url, origin, hurl, ho, c, hc, url', hurl', ho'⟩
    exact ⟨_, ⟨url, origin, hurl, ho, rfl⟩, c, hc, url', origin, hurl', ho', rfl⟩

/-- With a readable `Origin`, coming from a configured origin is what `contains` tests. -/
theorem fromConfigured_iff (hparse : LawfulParse parse) (headers : HeaderMap)
    (configured : List Str) :
    FromConfigured parse headers configured ↔
      ((headers.get "origin").bind toStr).any
        (containsOrigin parse (trustedOrigins parse configured)) = true := by
  simp only [Option.any_eq_true, Option.bind_eq_some_iff, containsOrigin_iff hparse]
  constructor
  · rintro ⟨url, origin, ⟨value, text, hvalue, htext, hurl⟩, ho, hc⟩
    exact ⟨text, ⟨value, hvalue, htext⟩, url, origin, hurl, ho, hc⟩
  · rintro ⟨text, ⟨value, hvalue, htext⟩, url, origin, hurl, ho, hc⟩
    exact ⟨url, origin, ⟨value, text, hvalue, htext, hurl⟩, ho, hc⟩

theorem isVisible_digit {c : Char} (h : c.isDigit = true) :
    ∀ b ∈ String.utf8EncodeChar c, isVisible b = true := by
  have hrange : 48 ≤ c.toNat ∧ c.toNat ≤ 57 := by
    simpa [Char.isDigit, UInt32.le_iff_toNat_le] using h
  intro b hb
  rw [utf8EncodeChar_ascii (by omega), List.mem_singleton] at hb
  have hnat : b.toNat = c.toNat := by
    rw [hb, UInt8.toNat_ofNat', Nat.mod_eq_of_lt (by omega)]
  exact isVisible_iff.mpr (.inl (by omega))

/-- The host and port of a URL are visible ASCII. -/
theorem originHost_visible (hparse : LawfulParse parse) {text name : Str} {url : ParsedUrl}
    (hurl : parse text = some url) (hname : originHost url = some name) :
    ∀ b ∈ utf8 name, isVisible b = true := by
  unfold originHost at hname
  split at hname
  · rename_i host port hhost hport
    obtain rfl := Option.some.inj hname
    intro b hb
    rw [utf8_append, utf8_cons, List.mem_append, List.mem_append] at hb
    rcases hb with hb | hb | hb
    · exact hparse.host _ _ _ hurl hhost b hb
    · have hcolon : String.utf8EncodeChar ':' = [58] := rfl
      rw [hcolon, List.mem_singleton] at hb
      rw [hb]
      decide
    · obtain ⟨c, hc, hb⟩ := List.mem_flatMap.mp hb
      exact isVisible_digit (Nat.isDigit_of_mem_toDigits (by omega) (by omega) hc) b hb
  · rename_i host hhost hport
    obtain rfl := Option.some.inj hname
    exact hparse.host _ _ _ hurl hhost
  · cases hname

/-- With a readable `Origin`, matching the host is what the last comparison tests. -/
theorem matchesHost_iff (hparse : LawfulParse parse) {headers : HeaderMap} {value : List UInt8}
    {text : Str} (hvalue : headers.get "origin" = some value) (htext : toStr value = some text) :
    MatchesHost parse headers ↔
      ∃ url name host, parse text = some url ∧ originHost url = some name ∧
        (headers.get "host").bind toStr = some host ∧ eqIgnoreAsciiCase name host = true := by
  constructor
  · rintro ⟨url, name, hostValue, ⟨value', text', hvalue', htext', hurl⟩, hname, hhost, heq⟩
    obtain rfl : value = value' := Option.some.inj (hvalue.symm.trans hvalue')
    obtain rfl : text = text' := Option.some.inj (htext.symm.trans htext')
    obtain ⟨host, hread⟩ :=
      Option.isSome_iff_exists.mp (toStr_of_eq_lower (originHost_visible hparse hurl hname) heq)
    refine ⟨url, name, host, hurl, hname, by rw [hhost, Option.bind_some, hread], ?_⟩
    rw [eqIgnoreAsciiCase, utf8_of_toStr hread, heq, beq_self_eq_true]
  · rintro ⟨url, name, host, hurl, hname, hhost, heq⟩
    obtain ⟨hostValue, hhost, hread⟩ := Option.bind_eq_some_iff.mp hhost
    refine ⟨url, name, hostValue, ⟨value, text, hvalue, htext, hurl⟩, hname, hhost, ?_⟩
    rw [eqIgnoreAsciiCase, utf8_of_toStr hread, beq_iff_eq] at heq
    exact heq

/-- An unreadable `Origin` is no origin at all for the rule. -/
theorem not_originUrl {headers : HeaderMap} {value : List UInt8}
    (hvalue : headers.get "origin" = some value) (hread : toStr value = none)
    (url : ParsedUrl) : ¬ OriginUrl parse headers url := by
  rintro ⟨value', text, hvalue', htext, -⟩
  obtain rfl : value = value' := Option.some.inj (hvalue.symm.trans hvalue')
  rw [hread] at htext
  cases htext

/-- What is left of the rule for a state-changing request without `Sec-Fetch-Site`. -/
theorem passes_without_site {method : Method} {headers : HeaderMap} {configured : List Str}
    (hsafe : method.isSafe = false) (hsite : headers.get "sec-fetch-site" = none) :
    Passes parse method headers configured ↔ FromConfigured parse headers configured ∨
      headers.get "origin" = none ∨ MatchesHost parse headers := by
  simp [Passes, hsafe, hsite]

/-- **The guard implements its rule on every request but those with an unreadable `Origin`**:
`allowed` and the rule agree exactly if the method is safe, or `Sec-Fetch-Site` is present, or
the `Origin`, where there is one, reads as text. -/
theorem allowed_iff_passes_iff (hparse : LawfulParse parse) (method : Method)
    (headers : HeaderMap) (configured : List Str) :
    (allowed parse method headers (trustedOrigins parse configured) = true ↔
        Passes parse method headers configured) ↔
      (method.isSafe = true ∨ (headers.get "sec-fetch-site").isSome = true ∨
        ∀ value, headers.get "origin" = some value → (toStr value).isSome = true) := by
  have hfrom := fromConfigured_iff hparse headers configured
  cases hsafe : method.isSafe with
  | true => simp [allowed, Passes, hsafe]
  | false =>
  cases hsite : headers.get "sec-fetch-site" with
  | some site =>
    simp only [Option.isSome_some, true_or, or_true, iff_true]
    simp only [allowed, Passes, hsafe, hsite, hfrom, false_or, reduceCtorEq, false_and, or_false,
      if_false, Option.some.injEq, exists_eq_left', Bool.or_eq_true, beq_iff_eq]
    split <;> simp_all
  | none =>
    rw [passes_without_site hsafe hsite, hfrom]
    simp only [allowed, hsafe, hsite, Bool.false_eq_true, if_false, Option.isSome_none, false_or]
    cases horigin : headers.get "origin" with
    | none => simp
    | some value =>
      cases htext : toStr value with
      | none =>
        -- for the code there is no `Origin`; for the rule there is one, of no known origin
        have hno : ¬ MatchesHost parse headers := by
          rintro ⟨url, -, -, hurl, -⟩
          exact not_originUrl horigin htext url hurl
        simp [htext, hno]
      | some text =>
        have hhost := matchesHost_iff hparse horigin htext
        simp only [Option.bind_some, htext, Option.any_some, reduceCtorEq, false_or, hhost]
        refine iff_of_true ?_ (by rintro v ⟨⟩; rw [htext]; rfl)
        split
        · rename_i hcontains
          simp [hcontains]
        · rename_i hcontains
          cases hurl : parse text with
          | none => simp [hcontains]
          | some url =>
            cases hname : originHost url <;>
              cases hread : (headers.get "host").bind toStr <;> simp [hcontains, hname]

end Guard

/-! ## 6. An `Origin` that does not read as text -/

/-- `https://` and a host, read. -/
def httpsSite (host : Str) : ParsedUrl :=
  { hostStr := some host, port := none, origin := some ⟨"https".toList, host, 443⟩ }

/-- The `url` crate on the origins of the two sites that send the requests below. -/
def parseApp (s : Str) : Option ParsedUrl :=
  if s = "https://app.example".toList then some (httpsSite "app.example".toList)
  else if s = "https://evil.example".toList then some (httpsSite "evil.example".toList)
  else none

theorem parseApp_eq_some {s : Str} {url : ParsedUrl} (h : parseApp s = some url) :
    url = httpsSite "app.example".toList ∨ url = httpsSite "evil.example".toList := by
  unfold parseApp at h
  split at h
  · exact .inl (Option.some.inj h).symm
  · split at h
    · exact .inr (Option.some.inj h).symm
    · cases h

theorem parseApp_lawful : LawfulParse parseApp := by
  constructor
  · intro s url origin hurl ho
    rcases parseApp_eq_some hurl with rfl | rfl <;> obtain rfl := Option.some.inj ho
    · exact ⟨by decide, .inl (by decide)⟩
    · exact ⟨by decide, .inl (by decide)⟩
  · intro s url host hurl hhost
    rcases parseApp_eq_some hurl with rfl | rfl <;> obtain rfl := Option.some.inj hhost
    · exact List.all_eq_true.mp (by decide)
    · exact List.all_eq_true.mp (by decide)

/-- A cross-origin post whose `Origin` ends in a byte outside ASCII. -/
def unreadable : HeaderMap :=
  [("origin".toList, utf8 "https://evil.example".toList ++ [0xFF]),
   ("host".toList, utf8 "app.example".toList)]

theorem allowed_readable :
    allowed parseApp .post [("origin".toList, utf8 "https://evil.example".toList)]
        (trustedOrigins parseApp ["https://app.example".toList]) = true ↔
      Passes parseApp .post [("origin".toList, utf8 "https://evil.example".toList)]
        ["https://app.example".toList] :=
  (allowed_iff_passes_iff parseApp_lawful .post _ _).mpr (.inr (.inr (by
    intro value hvalue
    obtain rfl : utf8 "https://evil.example".toList = value := Option.some.inj hvalue
    decide)))

/-- **The post is let through**, against the rule. -/
theorem unreadable_origin_allowed :
    allowed parseApp .post unreadable
        (trustedOrigins parseApp ["https://app.example".toList]) = true ∧
      ¬ Passes parseApp .post unreadable ["https://app.example".toList] := by
  have hread : toStr (utf8 "https://evil.example".toList ++ [0xFF]) = none := by decide
  have hno : ∀ url, ¬ OriginUrl parseApp unreadable url := not_originUrl rfl hread
  refine ⟨by decide, ?_⟩
  rintro (h | ⟨site, h, -⟩ | ⟨url, -, hurl, -⟩ | ⟨-, h | ⟨url, -, -, hurl, -⟩⟩)
  · exact absurd h (by decide)
  · cases h
  · exact hno url hurl
  · cases h
  · exact hno url hurl

end Muxa.Auth.Csrf
