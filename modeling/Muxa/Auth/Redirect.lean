/-
# Redirect targets

`safe_next` decides whether a `next` value is a path on this site, and `with_query` appends
parameters to a path's query string, before any fragment.  The value passes the test once, at
`start`, and is then stored, split at `#`, appended to and sent as a `Location`; what survives
all of that is that it is root-relative (`onSite_rootRelative`, `withQuery_rootRelative`).
-/
import Muxa.Lib.Form
import Muxa.Lib.Url

namespace Muxa.Auth

open Lib.Text Lib.Form Lib.Url

/-- The test of `safe_next`: is `path` a path on this site? -/
def onSite (path : Str) : Bool :=
  "/".toList.isPrefixOf path && !"//".toList.isPrefixOf path && !path.contains '\\' &&
    (findSub "://".toList path).isNone && !path.any isControl && byteLen path ≤ 2048

/-- `safe_next`: `next` if it is a path on this site, else `fallback`. -/
def safeNext (next : Option Str) (fallback : Str) : Str :=
  match next with
  | some path => if onSite path then path else fallback
  | none => fallback

/-- `with_query`: `path` with `pairs` appended to its query string. -/
def withQuery (path : Str) (pairs : List (Str × Str)) : Str :=
  if pairs.isEmpty then path
  else
    let (base, fragment) :=
      match splitOnce '#' path with
      | some (base, fragment) => (base, some fragment)
      | none => (path, none)
    let separator := if base.contains '?' then '&' else '?'
    let out := base ++ separator :: serialize pairs
    match fragment with
    | some fragment => out ++ '#' :: fragment
    | none => out

theorem onSite_safeNext {next : Option Str} {fallback : Str} (h : onSite fallback = true) :
    onSite (safeNext next fallback) = true := by
  unfold safeNext
  split
  · split
    · assumption
    · exact h
  · exact h

/-- A path on this site is root-relative. -/
theorem onSite_rootRelative {path : Str} (h : onSite path = true) : RootRelative path := by
  simp only [onSite, Bool.and_eq_true, Bool.not_eq_true', decide_eq_true_eq] at h
  obtain ⟨⟨⟨⟨⟨hslash, hdouble⟩, hback⟩, -⟩, hcontrol⟩, -⟩ := h
  obtain ⟨t, rfl⟩ := List.isPrefixOf_iff_prefix.mp hslash
  refine ⟨rfl, ?_, ?_⟩
  · intro c hc
    cases t with
    | nil => simp at hc
    | cons d t =>
      obtain rfl : d = c := by simpa using hc
      simp only [isSlash, Bool.or_eq_false_iff, beq_eq_false_iff_ne]
      constructor
      · rintro rfl
        exact absurd hdouble (by simp)
      · rintro rfl
        exact absurd hback (by simp)
  · intro c hc
    rw [List.any_eq_false] at hcontrol
    simpa using hcontrol c hc

/-- Appending form parameters, and a clean fragment, to a root-relative base. -/
theorem rootRelative_append {base tail : Str} (h : RootRelative base) {sep : Char}
    (hsep : sep = '?' ∨ sep = '&') (htail : ∀ c ∈ tail, isControl c = false) :
    RootRelative (base ++ sep :: tail) := by
  have hsep' : isSlash sep = false ∧ isControl sep = false := by
    rcases hsep with rfl | rfl <;> decide
  cases base with
  | nil => exact absurd h.slash (by simp)
  | cons d base =>
    refine ⟨h.slash, ?_, ?_⟩
    · intro c hc
      cases base with
      | nil =>
        obtain rfl : sep = c := by simpa using hc
        exact hsep'.1
      | cons e base => exact h.single c (by simpa using hc)
    · intro c hc
      rcases List.mem_append.mp hc with hc | hc
      · exact h.clean c hc
      · rcases List.mem_cons.mp hc with rfl | hc
        · exact hsep'.2
        · exact htail c hc

/-- **`with_query` keeps a root-relative path root-relative**, whatever the pairs. -/
theorem withQuery_rootRelative {path : Str} (h : RootRelative path) (pairs : List (Str × Str)) :
    RootRelative (withQuery path pairs) := by
  have hquery : ∀ c ∈ serialize pairs, isControl c = false :=
    fun c hc => not_control_of_formChar (serialize_formChar pairs c hc)
  have hsep : ∀ base : Str, (if base.contains '?' then '&' else '?') = '?' ∨
      (if base.contains '?' then '&' else '?') = '&' := by
    intro base
    split <;> simp
  unfold withQuery
  split
  · exact h
  cases hsplit : splitOnce '#' path with
  | none => exact rootRelative_append h (hsep path) hquery
  | some r =>
    obtain ⟨base, fragment⟩ := r
    obtain ⟨rfl, -⟩ := splitOnce_eq_some hsplit
    have hbase : RootRelative base := by
      cases base with
      | nil => exact absurd h.slash (by simp)
      | cons d base =>
        refine ⟨h.slash, ?_, fun c hc => h.clean c (List.mem_append_left _ hc)⟩
        intro c hc
        cases base with
        | nil => simp at hc
        | cons e base => exact h.single c (by simpa using hc)
    simp only [List.append_assoc, List.cons_append]
    refine rootRelative_append hbase (hsep base) ?_
    intro c hc
    rcases List.mem_append.mp hc with hc | hc
    · exact hquery c hc
    · exact h.clean c (List.mem_append_right _ hc)

end Muxa.Auth
