/-
# EntityTag: what a conditional request matches

A server names the version of what it sends by an entity tag, an opaque text in quotes, and a
client that has some versions lists their tags in `If-None-Match`: any number of them, each with
or without the mark of a weak tag, or a `*` for whatever there is.  The comparison is the weak one,
of the opaque texts.

What a client mostly sends is the one tag it was given.  That matches exactly the version it
stands for (`listed_single`).
-/
import Muxa.Lib.Text

namespace Lib.EntityTag

open Lib.Text

/-- A character of an opaque tag: visible, and no quote. -/
def isEtagChar (c : Char) : Bool :=
  c.toNat == 0x21 || (0x23 ≤ c.toNat && c.toNat ≤ 0x7E) || 0x80 ≤ c.toNat

def quoted (etag : Str) : Str := '"' :: (etag ++ ['"'])

/-- The members of a list: what stands between the commas, where a comma in quotes is none. -/
def members (inQuotes : Bool) : Str → List Str
  | [] => [[]]
  | c :: s =>
    if c = ',' ∧ inQuotes = false then [] :: members inQuotes s
    else (members (inQuotes ^^ c == '"') s).modifyHead (c :: ·)

/-- An opaque tag and the quote after it. -/
def unquote (s : Str) : Option Str :=
  if s.getLast? = some '"' ∧ s.dropLast.all isEtagChar then some s.dropLast else none

/-- The opaque tag of a member, weak or strong; none if it is no entity tag. -/
def opaqueTag (member : Str) : Option Str :=
  match trimEnd (member.dropWhile isWhitespace) with
  | '"' :: s => unquote s
  | 'W' :: '/' :: '"' :: s => unquote s
  | _ => none

/-- **`If-None-Match`**, of all values of the header together, against one opaque tag.  Without
the header nothing matches. -/
def listed (values : List Str) (etag : Str) : Bool :=
  if values.isEmpty then false
  else
    let value := ", ".toList.intercalate values
    value == "*".toList || (members false value).any fun member => opaqueTag member == some etag

-- a weak tag in a list, and a tag without its quotes
example : listed ["\"a,b\", W/\"e1\"".toList] "e1".toList = true := by decide

example : listed ["e1".toList] "e1".toList = false := by decide

/-- Nothing in quotes ends a member. -/
theorem members_inQuotes {s : Str} (h : '"' ∉ s) :
    members true (s ++ ['"']) = [s ++ ['"']] := by
  induction s with
  | nil => rfl
  | cons c s ih =>
    rw [List.mem_cons, not_or] at h
    have hquote : (c == '"') = false := beq_eq_false_iff_ne.mpr (Ne.symm h.1)
    rw [List.cons_append, members, if_neg (by simp), hquote, Bool.xor_false, ih h.2]
    rfl

theorem quote_not_mem {etag : Str} (h : ∀ c ∈ etag, isEtagChar c = true) : '"' ∉ etag :=
  fun hmem => absurd (h _ hmem) (by decide)

theorem members_quoted {etag : Str} (h : ∀ c ∈ etag, isEtagChar c = true) :
    members false (quoted etag) = [quoted etag] := by
  rw [quoted, members, if_neg (by decide)]
  simp [members_inQuotes (quote_not_mem h)]

theorem opaqueTag_quoted {etag : Str} (h : ∀ c ∈ etag, isEtagChar c = true) :
    opaqueTag (quoted etag) = some etag := by
  have htrimmed : trimEnd ((quoted etag).dropWhile isWhitespace) = quoted etag := by
    rw [quoted, List.dropWhile_cons_of_neg (by decide), trimEnd, ← List.cons_append,
      List.rdropWhile_concat_neg _ _ _ (by decide)]
  rw [opaqueTag, htrimmed]
  show unquote (etag ++ ['"']) = some etag
  rw [unquote, List.getLast?_concat, List.dropLast_concat, if_pos ⟨rfl, List.all_eq_true.mpr h⟩]

/-- **A tag that is sent alone matches exactly itself.** -/
theorem listed_single {etag etag' : Str} (h : ∀ c ∈ etag, isEtagChar c = true) :
    listed [quoted etag] etag' = true ↔ etag = etag' := by
  have hany : (quoted etag == "*".toList) = false := rfl
  simp only [listed, List.isEmpty_cons, Bool.false_eq_true, if_false, List.intercalate_singleton,
    hany, members_quoted h, Bool.false_or, List.any_cons, List.any_nil, Bool.or_false,
    opaqueTag_quoted h, beq_iff_eq, Option.some.injEq]

end Lib.EntityTag
