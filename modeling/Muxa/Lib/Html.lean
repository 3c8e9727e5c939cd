/-
# HTML: character references

How the HTML standard reads `&amp;` and its like, in the text of an element (`title`, which holds
text only) and in a double-quoted attribute.  The table of named references is the standard's and
is a parameter; what is used of it is `Entities.Standard`.

A reference that ends in a semicolon is read whatever follows it (`decode_named`,
`decode_numeric`), because no name goes on past a semicolon and no digit is one.  That is what an
escape relies on: the text after it, which is not its own, cannot change what it means.
-/
import Muxa.Lib.Utf8

namespace Lib.Html

open Lib.Text
open Lib.Utf8 (replacement)

/-! ## 1. Character references -/

/-- The named references: the characters a name stands for.  A name is written as after the
ampersand, with its semicolon where it has one. -/
abbrev Entities := Str → Option Str

/-- **What is relied on of the table**: four of its rows, and that a semicolon ends a name. -/
structure Entities.Standard (e : Entities) : Prop where
  amp : e "amp;".toList = some ['&']
  lt : e "lt;".toList = some ['<']
  gt : e "gt;".toList = some ['>']
  quot : e "quot;".toList = some ['"']
  semicolon_last : ∀ name value, e name = some value → ';' ∉ name.dropLast

/-- The longest name that continues `name` with characters of the input. -/
def longest (e : Entities) : Str → Str → Option (Str × Str)
  | name, [] => (e name).map fun value => (name, value)
  | name, c :: s => (longest e (name ++ [c]) s).or ((e name).map fun value => (name, value))

/-- A named reference: what it stands for, and how many characters it takes.  In an attribute a
name without its semicolon is text where a parameter of a URL may go on. -/
def named (e : Entities) (inAttribute : Bool) (s : Str) : Option (Str × Nat) :=
  match longest e [] s with
  | none => none
  | some (name, value) =>
    let goesOn := (s.drop name.length).head?.any fun c => c == '=' || c.isAlphanum
    if inAttribute && name.getLast? != some ';' && goesOn then none
    else some (value, name.length)

/-- The value of a digit, in any base up to 16. -/
def digitValue (c : Char) : Option Nat :=
  let n := c.toNat
  if 0x30 ≤ n ∧ n ≤ 0x39 then some (n - 0x30)
  else if 0x41 ≤ n ∧ n ≤ 0x46 then some (n - 0x37)
  else if 0x61 ≤ n ∧ n ≤ 0x66 then some (n - 0x57)
  else none

def isDigit (base : Nat) (c : Char) : Bool := (digitValue c).any (· < base)

def number (base : Nat) (digits : Str) : Nat :=
  digits.foldl (fun n c => n * base + (digitValue c).getD 0) 0

/-- What the numbers of the C1 controls stand for, in the order from 0x80; those that stand for
themselves are 0. -/
def windows1252 : List Nat :=
  [0x20AC, 0, 0x201A, 0x0192, 0x201E, 0x2026, 0x2020, 0x2021, 0x02C6, 0x2030, 0x0160, 0x2039,
    0x0152, 0, 0x017D, 0, 0, 0x2018, 0x2019, 0x201C, 0x201D, 0x2022, 0x2013, 0x2014, 0x02DC,
    0x2122, 0x0161, 0x203A, 0x0153, 0, 0x017E, 0x0178]

def codePoint (n : Nat) : Char :=
  if n = 0 ∨ 0x10FFFF < n ∨ (0xD800 ≤ n ∧ n ≤ 0xDFFF) then replacement
  else if 0x80 ≤ n ∧ n < 0xA0 ∧ windows1252.getD (n - 0x80) 0 ≠ 0 then
    Char.ofNat (windows1252.getD (n - 0x80) 0)
  else Char.ofNat n

/-- The digits of a numeric reference, with the semicolon where there is one. -/
def digits (base : Nat) (s : Str) : Option (Str × Nat) :=
  let ds := s.takeWhile (isDigit base)
  if ds.isEmpty then none
  else
    some ([codePoint (number base ds)],
      ds.length + if (s.drop ds.length).head? = some ';' then 1 else 0)

/-- A numeric reference, after its `#`. -/
def numeric : Str → Option (Str × Nat)
  | [] => none
  | c :: s =>
    if c = 'x' ∨ c = 'X' then (digits 16 s).map fun r => (r.1, r.2 + 1) else digits 10 (c :: s)

/-- What follows an ampersand: the characters of the reference it begins, if it does, and how
many characters of the input are used up. -/
def reference (e : Entities) (inAttribute : Bool) : Str → Option (Str × Nat)
  | [] => none
  | c :: s =>
    if c = '#' then (numeric s).map fun r => (r.1, r.2 + 1)
    else if c.isAlphanum then named e inAttribute (c :: s)
    else none

/-- Read on, after this many characters that are already used up. -/
def decodeFrom (e : Entities) (inAttribute : Bool) : Nat → Str → Str
  | _, [] => []
  | n + 1, _ :: s => decodeFrom e inAttribute n s
  | 0, c :: s =>
    if c = '&' then
      match reference e inAttribute s with
      | some (value, n) => value ++ decodeFrom e inAttribute n s
      -- an ampersand that begins no reference is itself
      | none => c :: decodeFrom e inAttribute 0 s
    else c :: decodeFrom e inAttribute 0 s

/-- The text with its character references read. -/
def decode (e : Entities) (inAttribute : Bool) (s : Str) : Str := decodeFrom e inAttribute 0 s

/-! ## 2. A reference with its semicolon -/

section Decode

variable {e : Entities} {inAttribute : Bool}

@[simp] theorem decode_nil : decode e inAttribute [] = [] := rfl

theorem decode_cons {c : Char} (h : c ≠ '&') (s : Str) :
    decode e inAttribute (c :: s) = c :: decode e inAttribute s := by
  simp only [decode, decodeFrom, if_neg h]

theorem decodeFrom_length (r s : Str) :
    decodeFrom e inAttribute r.length (r ++ s) = decode e inAttribute s := by
  induction r with
  | nil => rfl
  | cons c r ih => simpa only [List.length_cons, List.cons_append, decodeFrom] using ih

/-- A reference is replaced by what it stands for. -/
theorem decode_reference {r s value : Str}
    (h : reference e inAttribute (r ++ s) = some (value, r.length)) :
    decode e inAttribute ('&' :: (r ++ s)) = value ++ decode e inAttribute s := by
  simp only [decode, decodeFrom, if_true, h]
  rw [decodeFrom_length, decode]

/-- No name goes on past a semicolon. -/
theorem longest_semicolon (h : e.Standard) (s : Str) :
    ∀ name : Str, ';' ∈ name.dropLast → longest e name s = none := by
  have hnone : ∀ name : Str, ';' ∈ name.dropLast → e name = none := by
    intro name hmem
    cases he : e name with
    | none => rfl
    | some value => exact absurd hmem (h.semicolon_last name value he)
  induction s with
  | nil =>
    intro name hmem
    simp only [longest, hnone name hmem, Option.map_none]
  | cons c s ih =>
    intro name hmem
    have hmem' : ';' ∈ (name ++ [c]).dropLast := by
      rw [List.dropLast_concat]
      exact List.mem_of_mem_dropLast hmem
    simp only [longest, hnone name hmem, ih _ hmem', Option.map_none, Option.or_none]

/-- **A name with its semicolon is the longest match**, whatever follows it. -/
theorem longest_name (h : e.Standard) {name value : Str} (he : e (name ++ [';']) = some value)
    (s : Str) : longest e [] (name ++ ';' :: s) = some (name ++ [';'], value) := by
  have hend : longest e (name ++ [';']) s = some (name ++ [';'], value) := by
    cases s with
    | nil => simp only [longest, he, Option.map_some]
    | cons c s =>
      have hmem : ';' ∈ (name ++ [';'] ++ [c]).dropLast := by simp
      simp only [longest, he, longest_semicolon h s _ hmem, Option.map_some, Option.none_or]
  have hstep : ∀ rest pre : Str, longest e (pre ++ rest ++ [';']) s = some (name ++ [';'], value) →
      longest e pre (rest ++ ';' :: s) = some (name ++ [';'], value) := by
    intro rest
    induction rest with
    | nil =>
      intro pre hpre
      rw [List.append_nil] at hpre
      simp only [List.nil_append, longest, hpre, Option.some_or]
    | cons c rest ih =>
      intro pre hpre
      have := ih (pre ++ [c]) (by simpa using hpre)
      simp only [List.cons_append, longest, this, Option.some_or]
  exact hstep name [] (by simpa using hend)

/-- **A named reference with its semicolon** is read the same in text and in attributes, and
whatever follows it. -/
theorem decode_named (h : e.Standard) {c : Char} (name : Str) {value : Str}
    (hc : c.isAlphanum = true) (he : e (c :: name ++ [';']) = some value) (s : Str) :
    decode e inAttribute ('&' :: (c :: name ++ ';' :: s)) =
      value ++ decode e inAttribute s := by
  have hhash : c ≠ '#' := by
    rintro rfl
    exact absurd hc (by decide)
  have hlong := longest_name h he s
  have hlast : (c :: name ++ [';']).getLast? = some ';' := by
    rw [List.getLast?_append]
    rfl
  have hnamed : named e inAttribute (c :: name ++ ';' :: s) =
      some (value, (c :: name ++ [';']).length) := by
    simp only [named, hlong, hlast, bne_self_eq_false, Bool.and_false, Bool.false_and]
    rfl
  have href : reference e inAttribute ((c :: name ++ [';']) ++ s) =
      some (value, (c :: name ++ [';']).length) := by
    rw [List.append_assoc, List.singleton_append, ← hnamed]
    simp only [List.cons_append, reference, if_neg hhash, if_pos hc]
  have := decode_reference href
  rwa [List.append_assoc, List.singleton_append] at this

/-- **A decimal reference with its semicolon** stands for the character of its number. -/
theorem decode_numeric (ds : Str) (hne : ds ≠ []) (hds : ∀ c ∈ ds, isDigit 10 c = true)
    (s : Str) :
    decode e inAttribute ('&' :: '#' :: (ds ++ ';' :: s)) =
      codePoint (number 10 ds) :: decode e inAttribute s := by
  have htake : (ds ++ ';' :: s).takeWhile (isDigit 10) = ds := by
    rw [List.takeWhile_append_of_pos hds, List.takeWhile_cons_of_neg (by decide),
      List.append_nil]
  have hdigits : digits 10 (ds ++ ';' :: s) =
      some ([codePoint (number 10 ds)], ds.length + 1) := by
    have hhead : ((ds ++ ';' :: s).drop ds.length).head? = some ';' := by
      rw [List.drop_left' rfl]
      rfl
    have hempty : ¬ ds.isEmpty = true := by rwa [List.isEmpty_iff]
    simp only [digits, htake, if_neg hempty, hhead, if_true]
  have hnumeric : numeric (ds ++ ';' :: s) = digits 10 (ds ++ ';' :: s) := by
    obtain ⟨c, ds, rfl⟩ := List.exists_cons_of_ne_nil hne
    have hx : ¬ (c = 'x' ∨ c = 'X') := by
      have hc := hds c List.mem_cons_self
      rintro (rfl | rfl)
      · exact absurd hc (by decide)
      · exact absurd hc (by decide)
    simp only [List.cons_append, numeric, if_neg hx]
  have href : reference e inAttribute (('#' :: ds ++ [';']) ++ s) =
      some ([codePoint (number 10 ds)], ('#' :: ds ++ [';']).length) := by
    rw [List.append_assoc, List.singleton_append, List.cons_append]
    simp only [reference, if_true, hnumeric, hdigits, Option.map_some, List.cons_append,
      List.length_cons, List.length_append, List.length_nil]
  have := decode_reference href
  rwa [List.append_assoc, List.singleton_append] at this

end Decode

end Lib.Html
