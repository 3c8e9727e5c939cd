/-
# What `with_query` adds

`with_query` works on text: it cuts at the `#`, looks for a `?`, and writes a separator and the
serialized pairs.  Read as path, query and fragment (`Lib.Url.Parts`), that is one operation,
`appended`, which touches the query only (`withQuery_join`).  So the parameters of the result are
those of the path, then the given pairs, each exactly as given; and the parameters a refusal
carries back are read as the refusal's code and the attempt's `next`.
-/
import Muxa.Auth.Routes

namespace Muxa.Auth

open Lib.Text Lib.Form Lib.Url

/-- The parts with these pairs after the parameters of the query. -/
def appended (x : Parts) (pairs : List (Str × Str)) : Parts where
  path := x.path
  query :=
    match x.query with
    | some q => some (q ++ '&' :: serialize pairs)
    | none => some (serialize pairs)
  fragment := x.fragment
  path_clean := x.path_clean
  query_clean := by
    have hpairs : '#' ∉ serialize pairs := fun h =>
      absurd (serialize_formChar pairs _ h) (by decide)
    have hquery := x.query_clean
    intro q hq
    split at hq
    · rename_i q' hx
      obtain rfl := Option.mem_some.mp hq
      intro hmem
      rcases List.mem_append.mp hmem with hmem | hmem
      · exact hquery q' hx hmem
      · exact hpairs ((List.mem_cons.mp hmem).resolve_left (by decide))
    · obtain rfl := Option.mem_some.mp hq
      exact hpairs

/-- **`with_query` appends to the query**, and does nothing else. -/
theorem withQuery_join (x : Parts) {pairs : List (Str × Str)} (h : pairs ≠ []) :
    withQuery x.join pairs = (appended x pairs).join := by
  have hempty : pairs.isEmpty = false := by
    cases pairs with
    | nil => exact absurd rfl h
    | cons p ps => rfl
  have hjoined : x.base ++ (if x.base.contains '?' then '&' else '?') :: serialize pairs =
      (appended x pairs).base := by
    rw [x.contains_base]
    dsimp only [Parts.base, appended]
    cases x.query <;> simp
  simp only [withQuery, hempty, Bool.false_eq_true, if_false]
  cases hf : x.fragment with
  | none =>
    have hjoin : x.join = x.base := by rw [Parts.join, hf, rejoin_none]
    have hf' : (appended x pairs).fragment = none := hf
    have hjoin' : (appended x pairs).join = (appended x pairs).base := by
      rw [Parts.join, hf', rejoin_none]
    rw [hjoin, hjoin', splitOnce_eq_none_iff.mpr x.base_clean]
    exact hjoined
  | some f =>
    have hjoin : x.join = x.base ++ '#' :: f := by rw [Parts.join, hf, rejoin_some]
    have hf' : (appended x pairs).fragment = some f := hf
    have hjoin' : (appended x pairs).join = (appended x pairs).base ++ '#' :: f := by
      rw [Parts.join, hf', rejoin_some]
    rw [hjoin, hjoin', splitOnce_append x.base_clean, ← hjoined]

theorem parts_withQuery (path : Str) {pairs : List (Str × Str)} (h : pairs ≠ []) :
    parts (withQuery path pairs) = appended (parts path) pairs := by
  rw [← join_parts path, withQuery_join _ h, parts_join, parts_join]

theorem parameters_appended (x : Parts) (pairs : List (Str × Str)) :
    (appended x pairs).parameters = x.parameters ++ pairs := by
  have hamp : ∀ q : Str, utf8 (q ++ '&' :: serialize pairs) =
      utf8 q ++ 0x26 :: utf8 (serialize pairs) := by
    intro q
    rw [utf8_append]
    rfl
  cases hq : x.query with
  | none => simp only [Parts.parameters, appended, hq, parse_serialize, List.nil_append]
  | some q => simp only [Parts.parameters, appended, hq, hamp, parse_append, parse_serialize]

theorem appended_appended (x : Parts) {pairs more : List (Str × Str)} (h : pairs ≠ [])
    (h' : more ≠ []) : appended (appended x pairs) more = appended x (pairs ++ more) := by
  ext1
  · rfl
  · cases hq : x.query <;> simp [appended, hq, serialize_append h h']
  · rfl

/-- The parameters of the page a response sends the browser to. -/
def Response.parameters (response : Response) : Option (List (Str × Str)) :=
  response.location.map fun location => (parts location).parameters

theorem parameters_withQuery (path : Str) (pairs : List (Str × Str)) :
    (parts (withQuery path pairs)).parameters = (parts path).parameters ++ pairs := by
  rcases eq_or_ne pairs [] with rfl | h
  · simp [withQuery]
  · rw [parts_withQuery path h, parameters_appended]

theorem withQuery_withQuery (path : Str) (pairs more : List (Str × Str)) :
    withQuery (withQuery path pairs) more = withQuery path (pairs ++ more) := by
  rcases eq_or_ne pairs [] with rfl | h
  · simp [withQuery]
  rcases eq_or_ne more [] with rfl | h'
  · simp [withQuery]
  rw [← join_parts path, withQuery_join _ h, withQuery_join _ h', appended_appended _ h h',
    withQuery_join _ (List.append_ne_nil_of_left_ne_nil h more)]

/-- **`with_query` adds exactly the given parameters**, after those of the path; path and
fragment stay, and adding twice is adding both.  So what a refusal adds is read back as its code
and, for a sign-in that is not a link, the attempt's `next`. -/
theorem with_query_adds {P : Type} (flow : Flow P) (refusal : Refusal) (path next : Str)
    (pairs more : List (Str × Str)) :
    (parts (withQuery path pairs)).parameters = (parts path).parameters ++ pairs ∧
    (parts (withQuery path pairs)).path = (parts path).path ∧
    (parts (withQuery path pairs)).fragment = (parts path).fragment ∧
    withQuery (withQuery path pairs) more = withQuery path (pairs ++ more) ∧
    (flow.refuse refusal (some ⟨next, false⟩)).parameters =
      some ((parts flow.signInPath).parameters ++
        [(refusal.param.getD flow.errorParam, refusal.code), ("next".toList, next)]) ∧
    (flow.refuse refusal (some ⟨next, true⟩)).parameters =
      some ((parts next).parameters ++ [(refusal.param.getD flow.errorParam, refusal.code)]) ∧
    (flow.refuse refusal none).parameters =
      some ((parts flow.signInPath).parameters ++
        [(refusal.param.getD flow.errorParam, refusal.code)]) := by
  have hkeeps : (parts (withQuery path pairs)).path = (parts path).path ∧
      (parts (withQuery path pairs)).fragment = (parts path).fragment := by
    rcases eq_or_ne pairs [] with rfl | h
    · simp [withQuery]
    · rw [parts_withQuery path h]
      exact ⟨rfl, rfl⟩
  refine ⟨parameters_withQuery path pairs, hkeeps.1, hkeeps.2,
    withQuery_withQuery path pairs more, ?_, ?_, ?_⟩
  all_goals
    simp only [Flow.refuse, Response.parameters, Response.location, Option.map_some,
      parameters_withQuery]

end Muxa.Auth
