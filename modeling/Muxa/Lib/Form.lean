/-
# Form: `application/x-www-form-urlencoded`

The serializer of the URL standard: every byte outside a small unreserved set is written `%XX`,
a space as `+`, and the pairs are `key=value` joined by `&`.  Its output is made of very few
characters (`FormChar`), none of which a URL parser or an HTTP header reads as anything but
text.

The parser reads bytes, splits them at `&` and at the first `=`, and undoes the two escapes.
Nothing the serializer writes inside a key or a value is a separator, so the parser gives the
pairs back (`parse_serialize`), also after a text of any kind and an `&` (`parse_append`).
-/
import Muxa.Lib.Utf8

namespace Lib.Form

open Lib.Text Lib.Utf8

/-! ## 1. The serializer -/

/-- The bytes the serializer leaves alone: `*`, `-`, `.`, `_` and the ASCII alphanumerics. -/
def unreserved (b : UInt8) : Bool :=
  let n := b.toNat
  n == 0x2A || n == 0x2D || n == 0x2E || (0x30 ≤ n && n ≤ 0x39) || (0x41 ≤ n && n ≤ 0x5A) ||
    n == 0x5F || (0x61 ≤ n && n ≤ 0x7A)

def hexDigit (n : Nat) : Char := if n < 10 then Char.ofNat (0x30 + n) else Char.ofNat (0x37 + n)

def percentByte (b : UInt8) : Str := ['%', hexDigit (b.toNat / 16), hexDigit (b.toNat % 16)]

def encodeByte (b : UInt8) : Str :=
  if unreserved b then [Char.ofNat b.toNat]
  else if b = 0x20 then ['+']
  else percentByte b

/-- A key or a value, serialized. -/
def encode (s : Str) : Str := (utf8 s).flatMap encodeByte

/-- `form_urlencoded::Serializer`, with `append_pair` for each pair. -/
def serialize : List (Str × Str) → Str
  | [] => []
  | [p] => encode p.1 ++ '=' :: encode p.2
  | p :: ps => encode p.1 ++ '=' :: encode p.2 ++ '&' :: serialize ps

/-- The characters a serialized form is made of: no separator of a URL, and no quote. -/
def FormChar (c : Char) : Prop :=
  c.toNat < 0x7F ∧ 0x20 < c.toNat ∧
    c ∉ ['/', '\\', '#', '?', ':', '"', Char.ofNat 0x27, '<', '>']

instance (c : Char) : Decidable (FormChar c) := inferInstanceAs (Decidable (_ ∧ _ ∧ _))

theorem not_control_of_formChar {c : Char} (h : FormChar c) : isControl c = false := by
  obtain ⟨hlt, hgt, -⟩ := h
  simp only [isControl, Bool.or_eq_false_iff, decide_eq_false_iff_not, Bool.and_eq_false_iff]
  omega

theorem hexDigit_formChar : ∀ n < 16, FormChar (hexDigit n) := by decide

theorem unreserved_formChar : ∀ n < 256, unreserved (UInt8.ofNat n) = true →
    FormChar (Char.ofNat n) := by decide +kernel

theorem percentByte_formChar (b : UInt8) : ∀ c ∈ percentByte b, FormChar c := by
  intro c hc
  have hb : b.toNat < 256 := b.toNat_lt
  simp only [percentByte, List.mem_cons, List.not_mem_nil, or_false] at hc
  rcases hc with rfl | rfl | rfl
  · decide
  · exact hexDigit_formChar _ (by omega)
  · exact hexDigit_formChar _ (by omega)

theorem encodeByte_formChar (b : UInt8) : ∀ c ∈ encodeByte b, FormChar c := by
  intro c hc
  have hb : b.toNat < 256 := b.toNat_lt
  unfold encodeByte at hc
  split at hc
  · rename_i hu
    rw [List.mem_singleton.mp hc]
    exact unreserved_formChar b.toNat hb (by rwa [UInt8.ofNat_toNat])
  · split at hc
    · rw [List.mem_singleton.mp hc]
      decide
    · exact percentByte_formChar b c hc

theorem encode_formChar (s : Str) : ∀ c ∈ encode s, FormChar c := by
  intro c hc
  obtain ⟨b, -, hb⟩ := List.mem_flatMap.mp hc
  exact encodeByte_formChar b c hb

/-- **A serialized form is made of form characters only**, whatever the pairs. -/
theorem serialize_formChar : ∀ (pairs : List (Str × Str)), ∀ c ∈ serialize pairs, FormChar c
  | [], c, hc => by simp [serialize] at hc
  | [p], c, hc => by
    simp only [serialize, List.mem_append, List.mem_cons] at hc
    rcases hc with hc | rfl | hc
    · exact encode_formChar _ c hc
    · decide
    · exact encode_formChar _ c hc
  | p :: q :: ps, c, hc => by
    simp only [serialize, List.mem_append, List.mem_cons] at hc
    rcases hc with (hc | rfl | hc) | rfl | hc
    · exact encode_formChar _ c hc
    · decide
    · exact encode_formChar _ c hc
    · decide
    · exact serialize_formChar (q :: ps) c (by simpa [serialize] using hc)

theorem serialize_append {ps qs : List (Str × Str)} (hps : ps ≠ []) (hqs : qs ≠ []) :
    serialize (ps ++ qs) = serialize ps ++ '&' :: serialize qs := by
  induction ps with
  | nil => exact absurd rfl hps
  | cons p ps ih =>
    cases ps with
    | nil =>
      obtain ⟨q, qs, rfl⟩ := List.exists_cons_of_ne_nil hqs
      simp [serialize]
    | cons p' ps =>
      have ih := ih (List.cons_ne_nil _ _)
      simp only [List.cons_append, serialize, List.append_assoc] at ih ⊢
      rw [ih]

/-! ## 2. The parser -/

def hexValue (b : UInt8) : Option Nat :=
  let n := b.toNat
  if 0x30 ≤ n ∧ n ≤ 0x39 then some (n - 0x30)
  else if 0x41 ≤ n ∧ n ≤ 0x46 then some (n - 0x37)
  else if 0x61 ≤ n ∧ n ≤ 0x66 then some (n - 0x57)
  else none

/-- `percent_decode`: a `%` without two digits after it stays. -/
def percentDecode : List UInt8 → List UInt8
  | b :: h :: l :: bytes =>
    if b = 0x25 then
      match hexValue h, hexValue l with
      | some h', some l' => UInt8.ofNat (h' * 16 + l') :: percentDecode bytes
      | _, _ => b :: percentDecode (h :: l :: bytes)
    else b :: percentDecode (h :: l :: bytes)
  | bytes => bytes

/-- `replace_plus`, of one byte. -/
def plusToSpace (b : UInt8) : UInt8 := if b = 0x2B then 0x20 else b

/-- A key or a value, parsed. -/
def decode (bytes : List UInt8) : Str := decodeUtf8 (percentDecode (bytes.map plusToSpace))

/-- One `key=value`; a text without `=` is a key whose value is empty. -/
def parsePair (bytes : List UInt8) : Str × Str :=
  (decode (bytes.takeWhile (· != 0x3D)), decode (bytes.dropWhile (· != 0x3D)).tail)

/-- `form_urlencoded::parse`. -/
def parse (bytes : List UInt8) : List (Str × Str) :=
  ((bytes.splitOn 0x26).filter (!·.isEmpty)).map parsePair

theorem percentDecode_cons {b : UInt8} (h : b ≠ 0x25) (bytes : List UInt8) :
    percentDecode (b :: bytes) = b :: percentDecode bytes := by
  match bytes with
  | [] => rfl
  | [_] => rfl
  | _ :: _ :: _ => simp only [percentDecode, if_neg h]

theorem hexValue_hexDigit : ∀ n < 16, hexValue (UInt8.ofNat (hexDigit n).toNat) = some n := by
  decide

/-- What the serializer leaves alone the parser does too. -/
theorem unreserved_plain : ∀ n < 256, unreserved (UInt8.ofNat n) = true →
    n < 0x80 ∧ UInt8.ofNat n ≠ 0x25 ∧ UInt8.ofNat n ≠ 0x2B ∧ (Char.ofNat n).toNat = n := by
  decide +kernel

theorem hexDigit_plain : ∀ n < 16, utf8 [hexDigit n] = [UInt8.ofNat (hexDigit n).toNat] ∧
    plusToSpace (UInt8.ofNat (hexDigit n).toNat) = UInt8.ofNat (hexDigit n).toNat := by
  decide

theorem utf8_percentByte (b : UInt8) : utf8 (percentByte b) =
    [0x25, UInt8.ofNat (hexDigit (b.toNat / 16)).toNat,
      UInt8.ofNat (hexDigit (b.toNat % 16)).toNat] := by
  have hb : b.toNat < 256 := b.toNat_lt
  have hsplit : utf8 (percentByte b) =
      0x25 :: (utf8 [hexDigit (b.toNat / 16)] ++ utf8 [hexDigit (b.toNat % 16)]) := by
    simp only [percentByte, utf8_cons, utf8_nil, List.append_nil]
    rfl
  rw [hsplit, (hexDigit_plain _ (by omega)).1, (hexDigit_plain _ (by omega)).1]
  rfl

/-- **A percent-encoded byte is read back**, whatever follows it. -/
theorem percentDecode_percentByte (b : UInt8) (bytes : List UInt8) :
    percentDecode (utf8 (percentByte b) ++ bytes) = b :: percentDecode bytes := by
  have hb : b.toNat < 256 := b.toNat_lt
  have hhigh : b.toNat / 16 < 16 := by omega
  have hlow : b.toNat % 16 < 16 := by omega
  have hbyte : b.toNat / 16 * 16 + b.toNat % 16 = b.toNat := by omega
  rw [utf8_percentByte, List.cons_append, List.cons_append, List.cons_append, List.nil_append,
    percentDecode]
  simp only [if_true, hexValue_hexDigit _ hhigh, hexValue_hexDigit _ hlow]
  rw [hbyte, UInt8.ofNat_toNat]

/-- **A serialized byte is read back**, whatever follows it. -/
theorem percentDecode_encodeByte (b : UInt8) (bytes : List UInt8) :
    percentDecode ((utf8 (encodeByte b)).map plusToSpace ++ bytes) = b :: percentDecode bytes := by
  have hb : b.toNat < 256 := b.toNat_lt
  unfold encodeByte
  split
  · rename_i hu
    obtain ⟨hascii, hpercent, hplus, hchar⟩ :=
      unreserved_plain b.toNat hb (by rwa [UInt8.ofNat_toNat])
    rw [UInt8.ofNat_toNat] at hpercent hplus
    have hutf8 : utf8 [Char.ofNat b.toNat] = [b] := by
      simp [utf8, utf8EncodeChar_ascii (c := Char.ofNat b.toNat) (by omega), hchar]
    simp only [hutf8, List.map_cons, List.map_nil, plusToSpace, if_neg hplus, List.cons_append,
      List.nil_append, percentDecode_cons hpercent]
  · split
    · rename_i hspace
      subst hspace
      exact percentDecode_cons (by decide) bytes
    · have hplus : (utf8 (percentByte b)).map plusToSpace = utf8 (percentByte b) := by
        rw [utf8_percentByte]
        simp only [List.map_cons, List.map_nil, (hexDigit_plain (b.toNat / 16) (by omega)).2,
          (hexDigit_plain (b.toNat % 16) (by omega)).2]
        rfl
      rw [hplus, percentDecode_percentByte]

theorem utf8_flatMap {α : Type} (l : List α) (f : α → Str) :
    utf8 (l.flatMap f) = l.flatMap (fun x => utf8 (f x)) := List.flatMap_assoc

/-- **A serialized key or value is read back.** -/
theorem decode_encode (s : Str) : decode (utf8 (encode s)) = s := by
  have hbytes : ∀ bytes : List UInt8,
      percentDecode ((bytes.flatMap fun b => utf8 (encodeByte b)).map plusToSpace) = bytes := by
    intro bytes
    induction bytes with
    | nil => rfl
    | cons b bytes ih =>
      rw [List.flatMap_cons, List.map_append, percentDecode_encodeByte, ih]
  rw [decode, encode, utf8_flatMap, hbytes, decodeUtf8_utf8]

/-- No byte of a serialized key or value is a separator. -/
theorem encode_no_separator (s : Str) : ∀ x ∈ utf8 (encode s), x ≠ 0x26 ∧ x ≠ 0x3D := by
  have hbyte : ∀ n < 256, (utf8 (encodeByte (UInt8.ofNat n))).all
      (fun x => x != 0x26 && x != 0x3D) = true := by
    decide +kernel
  intro x hx
  rw [encode, utf8_flatMap] at hx
  obtain ⟨b, -, hb⟩ := List.mem_flatMap.mp hx
  have hall := hbyte b.toNat b.toNat_lt
  rw [UInt8.ofNat_toNat, List.all_eq_true] at hall
  simpa using hall x hb

theorem parse_append (bytes bytes' : List UInt8) :
    parse (bytes ++ 0x26 :: bytes') = parse bytes ++ parse bytes' := by
  simp only [parse, List.splitOn_append_cons_self, List.filter_append, List.map_append]

theorem parsePair_encode (k v : Str) :
    parsePair (utf8 (encode k) ++ 0x3D :: utf8 (encode v)) = (k, v) := by
  have hkey : ∀ x ∈ utf8 (encode k), (x != 0x3D) = true := by
    intro x hx
    simpa using (encode_no_separator k x hx).2
  rw [parsePair, List.takeWhile_append_of_pos hkey, List.dropWhile_append_of_pos hkey]
  simp [decode_encode]

theorem parse_pair (p : Str × Str) : parse (utf8 (encode p.1 ++ '=' :: encode p.2)) = [p] := by
  have hbytes : utf8 (encode p.1 ++ '=' :: encode p.2) =
      utf8 (encode p.1) ++ 0x3D :: utf8 (encode p.2) := by
    rw [utf8_append]
    rfl
  have hamp : (0x26 : UInt8) ∉ utf8 (encode p.1) ++ 0x3D :: utf8 (encode p.2) := by
    intro hmem
    rcases List.mem_append.mp hmem with hmem | hmem
    · exact (encode_no_separator _ _ hmem).1 rfl
    · rcases List.mem_cons.mp hmem with hmem | hmem
      · exact absurd hmem (by decide)
      · exact (encode_no_separator _ _ hmem).1 rfl
  rw [hbytes, parse, List.splitOn_eq_singleton hamp, List.filter_cons_of_pos (by simp),
    List.filter_nil, List.map_cons, List.map_nil, parsePair_encode]

/-- **Serialized pairs are read back**, in order. -/
theorem parse_serialize (ps : List (Str × Str)) : parse (utf8 (serialize ps)) = ps := by
  induction ps with
  | nil => rfl
  | cons p ps ih =>
    cases ps with
    | nil => exact parse_pair p
    | cons q ps =>
      have hbytes : utf8 (serialize (p :: q :: ps)) =
          utf8 (encode p.1 ++ '=' :: encode p.2) ++ 0x26 :: utf8 (serialize (q :: ps)) := by
        have hcons : serialize (p :: q :: ps) =
            encode p.1 ++ '=' :: encode p.2 ++ '&' :: serialize (q :: ps) := rfl
        rw [hcons, utf8_append]
        rfl
      rw [hbytes, parse_append, parse_pair, ih]
      rfl

end Lib.Form
