/-
# Text: a string as its characters, and the bytes under it

A Rust `str` is a sequence of Unicode scalar values stored as UTF-8.  This library keeps the
characters (`Str`) and derives the bytes (`utf8`), because some standard functions read the
one and some the other: `len`, `truncate` and a byte-window search count bytes, `trim_end`
and `split_once` walk characters.

The fact that ties the two views together is `utf8_split_ascii`: a byte below 128 in the
encoding is a whole character.  So a search for an ASCII pattern among the BYTES finds it at a
character boundary, and finds the same place a search among the CHARACTERS would
(`findSub_utf8`).
-/
import Mathlib.Data.List.DropRight
import Mathlib.Data.List.Infix
import Mathlib.Tactic.Common

namespace Lib.Text

/-- A string: its Unicode scalar values, in order. -/
abbrev Str := List Char

/-! ## 1. UTF-8 -/

def utf8 (s : Str) : List UInt8 := s.flatMap String.utf8EncodeChar

@[simp] theorem utf8_nil : utf8 [] = [] := rfl

@[simp] theorem utf8_cons (c : Char) (s : Str) :
    utf8 (c :: s) = String.utf8EncodeChar c ++ utf8 s := rfl

@[simp] theorem utf8_append (s t : Str) : utf8 (s ++ t) = utf8 s ++ utf8 t :=
  List.flatMap_append

/-- Two strings with the same bytes are the same string. -/
theorem utf8_injective : Function.Injective utf8 := by
  intro s t h
  have hb : s.utf8Encode = t.utf8Encode := congrArg List.toByteArray h
  rw [← String.toByteArray_ofList, ← String.toByteArray_ofList, String.toByteArray_inj] at hb
  simpa using congrArg String.toList hb

/-- `str::len`: the length in bytes. -/
def byteLen (s : Str) : Nat := (utf8 s).length

@[simp] theorem byteLen_nil : byteLen [] = 0 := rfl

@[simp] theorem byteLen_append (s t : Str) : byteLen (s ++ t) = byteLen s + byteLen t := by
  simp [byteLen]

/-- An ASCII character is its own single byte. -/
theorem utf8EncodeChar_ascii {c : Char} (h : c.toNat < 128) :
    String.utf8EncodeChar c = [UInt8.ofNat c.toNat] := by
  have h' : c.val.toNat ≤ 0x7f := Nat.le_of_lt_succ h
  simp only [String.utf8EncodeChar, if_pos h']
  rfl

/-- Every byte of a non-ASCII character has its top bit set. -/
theorem utf8EncodeChar_high {c : Char} (h : ¬ c.toNat < 128) :
    ∀ b ∈ String.utf8EncodeChar c, 128 ≤ b.toNat := by
  have h' : ¬ c.val.toNat ≤ 0x7f := fun hle => h (Nat.lt_succ_of_le hle)
  intro b hb
  simp only [String.utf8EncodeChar, if_neg h'] at hb
  split at hb
  · simp only [List.mem_cons, List.not_mem_nil, or_false] at hb
    rcases hb with rfl | rfl <;> simp only [UInt8.toNat_ofNat'] <;> omega
  · split at hb
    · simp only [List.mem_cons, List.not_mem_nil, or_false] at hb
      rcases hb with rfl | rfl | rfl <;> simp only [UInt8.toNat_ofNat'] <;> omega
    · simp only [List.mem_cons, List.not_mem_nil, or_false] at hb
      rcases hb with rfl | rfl | rfl | rfl <;> simp only [UInt8.toNat_ofNat'] <;> omega

/-- **A byte below 128 is a whole character.**  Wherever it stands in the encoding, the bytes
before it are the encoding of a prefix of the string, and it is the next character. -/
theorem utf8_split_ascii : ∀ (s : Str) (pre post : List UInt8) (b : UInt8),
    utf8 s = pre ++ b :: post → b.toNat < 128 →
    ∃ p c q, s = p ++ c :: q ∧ utf8 p = pre ∧ String.utf8EncodeChar c = [b] ∧ utf8 q = post
  | [], pre, post, b, h, _ => by simp at h
  | c :: s, pre, post, b, h, hb => by
    rw [utf8_cons] at h
    rcases List.append_eq_append_iff.mp h with ⟨as, hpre, hs⟩ | ⟨bs, hc, hpost⟩
    · -- the byte lies beyond this character
      obtain ⟨p, d, q, rfl, hp, hd, hq⟩ := utf8_split_ascii s as post b hs hb
      exact ⟨c :: p, d, q, rfl, by simp [hp, hpre], hd, hq⟩
    · cases bs with
      | nil =>
        obtain ⟨p, d, q, rfl, hp, hd, hq⟩ := utf8_split_ascii s [] post b hpost.symm hb
        refine ⟨c :: p, d, q, rfl, ?_, hd, hq⟩
        simpa [hp] using hc
      | cons b' bs =>
        -- it lies inside this character, which is therefore ASCII
        simp only [List.cons_append, List.cons.injEq] at hpost
        obtain ⟨rfl, hpost⟩ := hpost
        by_cases hasc : c.toNat < 128
        · rw [utf8EncodeChar_ascii hasc] at hc
          have hpre : pre = [] ∧ bs = [] := by
            cases pre with
            | nil => simpa using (List.cons.inj hc).2.symm
            | cons x xs => simp at hc
          obtain ⟨rfl, rfl⟩ := hpre
          refine ⟨[], c, s, rfl, rfl, ?_, by simpa using hpost.symm⟩
          rw [utf8EncodeChar_ascii hasc]
          exact hc
        · have := utf8EncodeChar_high hasc b (by rw [hc]; simp)
          omega

def IsAscii (s : Str) : Prop := ∀ c ∈ s, c.toNat < 128

instance (s : Str) : Decidable (IsAscii s) :=
  List.decidableBAll (fun c : Char => c.toNat < 128) s

/-- Bytes that start with an ASCII string are characters that start with it. -/
theorem utf8_starts_ascii : ∀ (m s : Str) (post : List UInt8), IsAscii m →
    utf8 s = utf8 m ++ post → ∃ q, s = m ++ q ∧ utf8 q = post
  | [], s, post, _, h => ⟨s, rfl, by simpa using h⟩
  | a :: m, s, post, hm, h => by
    have ha : a.toNat < 128 := hm a List.mem_cons_self
    rw [utf8_cons, utf8EncodeChar_ascii ha, List.cons_append, List.nil_append] at h
    have hb : (UInt8.ofNat a.toNat).toNat < 128 := by simp only [UInt8.toNat_ofNat']; omega
    obtain ⟨p, c, q, rfl, hp, hc, hq⟩ :=
      utf8_split_ascii s [] (utf8 m ++ post) (UInt8.ofNat a.toNat) h hb
    have hp0 : p = [] := utf8_injective (by simpa using hp)
    subst hp0
    have hca : c = a := by
      have : utf8 [c] = utf8 [a] := by simp [utf8, hc, utf8EncodeChar_ascii ha]
      simpa using utf8_injective this
    obtain ⟨q', rfl, hq'⟩ :=
      utf8_starts_ascii m q post (fun d hd => hm d (List.mem_cons_of_mem _ hd)) hq
    exact ⟨q', by simp [hca], hq'⟩

/-- An occurrence of an ASCII string among the bytes is one among the characters. -/
theorem utf8_split_str {m s : Str} {pre post : List UInt8} (hm : IsAscii m) (hne : m ≠ [])
    (h : utf8 s = pre ++ utf8 m ++ post) :
    ∃ p q, s = p ++ m ++ q ∧ utf8 p = pre ∧ utf8 q = post := by
  obtain ⟨a, m', rfl⟩ := List.exists_cons_of_ne_nil hne
  have ha : a.toNat < 128 := hm a List.mem_cons_self
  have hb : (UInt8.ofNat a.toNat).toNat < 128 := by simp only [UInt8.toNat_ofNat']; omega
  have h' : utf8 s = pre ++ UInt8.ofNat a.toNat :: (utf8 m' ++ post) := by
    simpa [utf8EncodeChar_ascii ha] using h
  obtain ⟨p, c, q, rfl, hp, hc, hq⟩ := utf8_split_ascii s pre _ _ h' hb
  have hcq : utf8 (c :: q) = utf8 (a :: m') ++ post := by
    simp [hc, hq, utf8EncodeChar_ascii ha]
  obtain ⟨q', hq', hpost⟩ := utf8_starts_ascii (a :: m') (c :: q) post hm hcq
  exact ⟨p, q', by rw [hq', List.append_assoc], hp, hpost⟩

/-! ## 2. Truncation -/

/-- `String::truncate`: keep the first `n` bytes.  `none` is the panic of a cut that is not on
a character boundary; a cut past the end changes nothing. -/
def truncate : Str → Nat → Option Str
  | _, 0 => some []
  | [], _ + 1 => some []
  | c :: s, n + 1 =>
    let k := (String.utf8EncodeChar c).length
    if k ≤ n + 1 then (truncate s (n + 1 - k)).map (c :: ·) else none

/-- **A cut at the end of a prefix never panics, and keeps that prefix.** -/
theorem truncate_byteLen : ∀ (p q : Str), truncate (p ++ q) (byteLen p) = some p
  | [], q => by cases q <;> rfl
  | c :: p, q => by
    have hpos : 0 < (String.utf8EncodeChar c).length :=
      List.length_pos_of_ne_nil String.utf8EncodeChar_ne_nil
    obtain ⟨n, hn⟩ : ∃ n, byteLen (c :: p) = n + 1 :=
      ⟨byteLen (c :: p) - 1, by simp only [byteLen, utf8_cons, List.length_append]; omega⟩
    have hlen : (String.utf8EncodeChar c).length + byteLen p = n + 1 := by
      rw [← hn]; simp [byteLen]
    rw [hn, List.cons_append]
    simp only [truncate]
    have hrest : n + 1 - (String.utf8EncodeChar c).length = byteLen p := by omega
    rw [if_pos (by omega), hrest, truncate_byteLen p q]
    rfl

/-! ## 3. Searching -/

section Search

variable {α : Type} [DecidableEq α]

/-- `windows(pat.len()).position(|w| w == pat)`: where `pat` first occurs. -/
def findSub (pat : List α) : List α → Option Nat
  | [] => none
  | x :: l => if pat.isPrefixOf (x :: l) then some 0 else (findSub pat l).map (· + 1)

theorem findSub_sound {pat l : List α} {i : Nat} (h : findSub pat l = some i) :
    ∃ post, l = l.take i ++ pat ++ post ∧ i ≤ l.length := by
  induction l generalizing i with
  | nil => simp [findSub] at h
  | cons x l ih =>
    simp only [findSub] at h
    split at h
    · rename_i hp
      obtain ⟨post, hpost⟩ := List.isPrefixOf_iff_prefix.mp hp
      rw [Option.some.injEq] at h
      subst h
      exact ⟨post, by simp [hpost], Nat.zero_le _⟩
    · obtain ⟨j, hj, rfl⟩ := Option.map_eq_some_iff.mp h
      obtain ⟨post, hpost, hle⟩ := ih hj
      refine ⟨post, ?_, Nat.succ_le_succ hle⟩
      simp only [List.take_succ_cons, List.cons_append]
      rw [← hpost]

/-- Nothing earlier than what is found is an occurrence. -/
theorem findSub_first {pat l : List α} {i : Nat} (h : findSub pat l = some i) :
    ∀ pre post, l = pre ++ pat ++ post → i ≤ pre.length := by
  induction l generalizing i with
  | nil => simp [findSub] at h
  | cons x l ih =>
    intro pre post hl
    simp only [findSub] at h
    split at h
    · rw [Option.some.injEq] at h
      omega
    · rename_i hp
      obtain ⟨j, hj, rfl⟩ := Option.map_eq_some_iff.mp h
      cases pre with
      | nil =>
        refine absurd (List.isPrefixOf_iff_prefix.mpr ⟨post, ?_⟩) hp
        simpa using hl.symm
      | cons y pre =>
        simp only [List.cons_append, List.cons.injEq] at hl
        have := ih hj pre post hl.2
        simp only [List.length_cons]
        omega

/-- A nonempty pattern is not found exactly when it does not occur. -/
theorem findSub_eq_none_iff {pat l : List α} (hne : pat ≠ []) :
    findSub pat l = none ↔ ¬ pat <:+: l := by
  induction l with
  | nil => simp [findSub, hne]
  | cons x l ih =>
    simp only [findSub, List.infix_cons_iff, not_or]
    split
    · rename_i hp
      simp [List.isPrefixOf_iff_prefix.mp hp]
    · rename_i hp
      rw [Option.map_eq_none_iff, ih]
      exact ⟨fun h => ⟨fun hpre => hp (List.isPrefixOf_iff_prefix.mpr hpre), h⟩, fun h => h.2⟩

/-- The first occurrence, given as a split. -/
theorem findSub_eq_some {pat l pre post : List α} (hne : pat ≠ []) (hl : l = pre ++ pat ++ post)
    (hfirst : ∀ pre' post', l = pre' ++ pat ++ post' → pre.length ≤ pre'.length) :
    findSub pat l = some pre.length := by
  cases h : findSub pat l with
  | none => exact absurd ⟨pre, post, hl.symm⟩ ((findSub_eq_none_iff hne).mp h)
  | some i =>
    obtain ⟨post', hpost', hle⟩ := findSub_sound h
    have h1 := hfirst _ _ hpost'
    have h2 := findSub_first h pre post hl
    rw [List.length_take, Nat.min_eq_left hle] at h1
    rw [Nat.le_antisymm h2 h1]

/-- **The look-back window.**  When `pat` does not occur in `l`, a search of `l ++ t` may start
one pattern length before the end of `l`: every occurrence reaches into `t`. -/
theorem findSub_lookback {pat l : List α} (hne : pat ≠ []) (h : ¬ pat <:+: l) (t : List α) :
    findSub pat (l ++ t) =
      (findSub pat ((l ++ t).drop (l.length - pat.length))).map
        ((l.length - pat.length) + ·) := by
  set n := l.length - pat.length with hn
  have hlate : ∀ pre post, l ++ t = pre ++ pat ++ post → n ≤ pre.length := by
    intro pre post he
    by_contra hlt
    refine h ⟨pre, l.drop (pre.length + pat.length), ?_⟩
    have htake := congrArg (List.take (pre.length + pat.length)) he
    rw [List.take_append_of_le_length (by omega), List.take_left' (by simp)] at htake
    rw [← htake, List.take_append_drop]
  have hdrop : ∀ pre post, l ++ t = pre ++ pat ++ post →
      (l ++ t).drop n = pre.drop n ++ pat ++ post := by
    intro pre post he
    have hle := hlate pre post he
    rw [he, List.append_assoc, List.drop_append_of_le_length hle, List.append_assoc]
  cases hf : findSub pat ((l ++ t).drop n) with
  | none =>
    rw [Option.map_none, findSub_eq_none_iff hne]
    rintro ⟨pre, post, he⟩
    exact (findSub_eq_none_iff hne).mp hf ⟨pre.drop n, post, (hdrop pre post he.symm).symm⟩
  | some i =>
    obtain ⟨post, hpost, hle⟩ := findSub_sound hf
    have hsplit : l ++ t = (l ++ t).take (n + i) ++ pat ++ post := by
      rw [List.take_add, List.append_assoc, List.append_assoc, ← List.append_assoc _ pat,
        ← hpost, List.take_append_drop]
    have hlen : ((l ++ t).take (n + i)).length = n + i := by
      rw [List.length_take, Nat.min_eq_left]
      rw [List.length_drop] at hle
      have : n ≤ (l ++ t).length := by rw [List.length_append]; omega
      omega
    rw [Option.map_some, ← hlen]
    refine findSub_eq_some hne hsplit ?_
    intro pre' post' he
    have h1 := hlate pre' post' he
    have h2 := findSub_first hf _ _ (hdrop pre' post' he)
    rw [List.length_drop] at h2
    omega

/-- **An element that is not the pattern's is a wall**: an occurrence before it lies before it
whole. -/
theorem findSub_append_cons {pat a : List α} {x : α} (hx : x ∉ pat) (ha : ¬ pat <:+: a)
    (t : List α) :
    findSub pat (a ++ x :: t) = (findSub pat t).map fun i => a.length + 1 + i := by
  induction a with
  | nil =>
    have hne : pat ≠ [] := fun h => ha (h ▸ List.nil_infix)
    have hpre : ¬ pat.isPrefixOf (x :: t) := by
      obtain ⟨y, pat, rfl⟩ := List.exists_cons_of_ne_nil hne
      intro h
      have := (List.cons_prefix_cons.mp (List.isPrefixOf_iff_prefix.mp h)).1
      exact hx (this ▸ List.mem_cons_self)
    simp only [List.nil_append, findSub, if_neg hpre, List.length_nil, Nat.zero_add, Nat.add_comm]
  | cons y a ih =>
    have hpre : ¬ pat.isPrefixOf (y :: (a ++ x :: t)) := by
      intro h
      rw [List.isPrefixOf_iff_prefix] at h
      rcases List.prefix_or_prefix_of_prefix h (List.prefix_append (y :: a) (x :: t)) with hp | hp
      · exact ha hp.isInfix
      · -- the pattern would reach past `a`, to `x`
        obtain ⟨s, rfl⟩ := hp
        rw [← List.cons_append, List.prefix_append_right_inj] at h
        cases s with
        | nil => exact ha (by simp)
        | cons z s => exact hx (by simp [(List.cons_prefix_cons.mp h).1])
    have ha' : ¬ pat <:+: a := fun h => ha (List.infix_cons h)
    rw [List.cons_append, findSub, if_neg hpre, ih ha', Option.map_map]
    congr 1
    funext i
    simp only [Function.comp, List.length_cons]
    omega

/-- What stands after the first occurrence of `pat`. -/
def restAfter (pat l : List α) : Option (List α) :=
  (findSub pat l).map fun i => l.drop (i + pat.length)

theorem restAfter_append_cons {pat a : List α} {x : α} (hx : x ∉ pat) (ha : ¬ pat <:+: a)
    (t : List α) : restAfter pat (a ++ x :: t) = restAfter pat t := by
  rw [restAfter, restAfter, findSub_append_cons hx ha, Option.map_map]
  congr 1
  funext i
  have hlen : a.length + 1 + i + pat.length = (a ++ [x]).length + (i + pat.length) := by
    simp only [List.length_append, List.length_singleton]
    omega
  rw [Function.comp, hlen, List.append_cons a x t, List.drop_length_add_append]

theorem restAfter_append {pat : List α} (hne : pat ≠ []) (t : List α) :
    restAfter pat (pat ++ t) = some t := by
  obtain ⟨x, pat, rfl⟩ := List.exists_cons_of_ne_nil hne
  have hpre : (x :: pat).isPrefixOf (x :: (pat ++ t)) :=
    List.isPrefixOf_iff_prefix.mpr (List.prefix_append (x :: pat) t)
  rw [restAfter, List.cons_append, findSub, if_pos hpre, Option.map_some, Nat.zero_add,
    ← List.cons_append, List.drop_left]

/-- The part of `l` before the first occurrence of `pat`, all of it when there is none. -/
def cutBefore (pat l : List α) : List α :=
  match findSub pat l with
  | some i => l.take i
  | none => l

theorem cutBefore_eq_self {pat l : List α} (hne : pat ≠ []) (h : ¬ pat <:+: l) :
    cutBefore pat l = l := by
  simp [cutBefore, (findSub_eq_none_iff hne).mpr h]

theorem cutBefore_eq {pat l pre post : List α} (hne : pat ≠ []) (hl : l = pre ++ pat ++ post)
    (hfirst : ∀ pre' post', l = pre' ++ pat ++ post' → pre.length ≤ pre'.length) :
    cutBefore pat l = pre := by
  rw [cutBefore, findSub_eq_some hne hl hfirst, hl, List.append_assoc]
  exact List.take_left

/-- **Text after an occurrence does not move the cut.** -/
theorem cutBefore_append {pat l : List α} (h : pat <:+: l) (t : List α) :
    cutBefore pat (l ++ t) = cutBefore pat l := by
  rcases eq_or_ne pat [] with rfl | hne
  · cases l with
    | nil => cases t <;> simp [cutBefore, findSub]
    | cons x l => simp [cutBefore, findSub]
  cases hf : findSub pat l with
  | none => exact absurd h ((findSub_eq_none_iff hne).mp hf)
  | some i =>
    obtain ⟨post, hpost, hle⟩ := findSub_sound hf
    have hcut : cutBefore pat l = l.take i := by simp [cutBefore, hf]
    have hlen : i + pat.length ≤ l.length := by
      have := congrArg List.length hpost
      simp only [List.length_append, List.length_take] at this
      omega
    rw [hcut]
    have hsplit : l ++ t = l.take i ++ pat ++ (post ++ t) := by
      rw [← List.append_assoc, ← hpost]
    refine cutBefore_eq hne hsplit ?_
    intro pre' post' he
    rw [List.length_take, Nat.min_eq_left hle]
    by_contra hlt
    -- an earlier occurrence would lie inside `l` already
    have hin : l = pre' ++ pat ++ l.drop (pre'.length + pat.length) := by
      have htake := congrArg (List.take (pre'.length + pat.length)) he
      rw [List.take_append_of_le_length (by omega), List.take_left' (by simp)] at htake
      rw [← htake, List.take_append_drop]
    exact hlt (findSub_first hf _ _ hin)

/-- No proper prefix of `pat` is a suffix of it: two occurrences never overlap. -/
def Unbordered (pat : List α) : Prop :=
  ∀ k < pat.length, 0 < k → pat.drop k ≠ pat.take (pat.length - k)

instance (pat : List α) : Decidable (Unbordered pat) :=
  inferInstanceAs (Decidable (∀ k < pat.length, 0 < k → pat.drop k ≠ pat.take (pat.length - k)))

/-- **An unbordered pattern cuts where it was appended**, unless it occurred before. -/
theorem cutBefore_append_self {pat : List α} (hne : pat ≠ []) (hb : Unbordered pat)
    (l t : List α) : cutBefore pat (l ++ pat ++ t) = cutBefore pat l := by
  by_cases h : pat <:+: l
  · rw [List.append_assoc, cutBefore_append h]
  rw [cutBefore_eq_self hne h]
  refine cutBefore_eq hne rfl ?_
  intro pre' post' he
  by_contra hlt
  by_cases hin : pre'.length + pat.length ≤ l.length
  · refine h ⟨pre', l.drop (pre'.length + pat.length), ?_⟩
    have htake := congrArg (List.take (pre'.length + pat.length)) he
    rw [List.append_assoc, List.take_append_of_le_length hin, List.take_left' (by simp)] at htake
    rw [← htake, List.take_append_drop]
  · -- the two occurrences would share `pat.length - k` elements
    have hk : l.length - pre'.length < pat.length := by omega
    refine hb _ hk (by omega) ?_
    have hd := congrArg (fun x => (x.drop l.length).take (pat.length - (l.length - pre'.length))) he
    simp only [List.append_assoc] at hd
    rw [List.drop_left' rfl, List.take_append_of_le_length (by omega),
      List.drop_append, List.drop_eq_nil_of_le (by omega), List.nil_append,
      List.drop_append_of_le_length (by omega), List.take_left' (by simp)] at hd
    exact hd.symm

end Search

/-- **A byte search for an ASCII pattern finds what a character search would.** -/
theorem findSub_utf8 {m s : Str} (hm : IsAscii m) (hne : m ≠ []) :
    findSub (utf8 m) (utf8 s) = (findSub m s).map (fun i => byteLen (s.take i)) := by
  have hne' : utf8 m ≠ [] := fun h => hne (utf8_injective (by simpa using h))
  cases h : findSub m s with
  | none =>
    rw [Option.map_none, findSub_eq_none_iff hne']
    rintro ⟨pre, post, hs⟩
    obtain ⟨p, q, hpq, -, -⟩ := utf8_split_str hm hne hs.symm
    exact (findSub_eq_none_iff hne).mp h ⟨p, q, hpq.symm⟩
  | some i =>
    obtain ⟨post, hs, hle⟩ := findSub_sound h
    have hutf8 : utf8 s = utf8 (s.take i) ++ utf8 m ++ utf8 post := by
      simpa using congrArg utf8 hs
    refine findSub_eq_some hne' hutf8 ?_
    intro pre' post' he
    obtain ⟨p, q, hpq, hp, -⟩ := utf8_split_str hm hne he
    have hip : i ≤ p.length := findSub_first h p q hpq
    have htake : s.take i = p.take i := by
      rw [hpq, List.append_assoc, List.take_append_of_le_length hip]
    have hsplit : byteLen (p.take i) + byteLen (p.drop i) = byteLen p := by
      rw [← byteLen_append, List.take_append_drop]
    rw [htake, ← hp]
    simp only [byteLen] at hsplit
    omega

/-! ## 4. Trimming and splitting -/

/-- `char::is_whitespace`: the Unicode `White_Space` property. -/
def isWhitespace (c : Char) : Bool :=
  let n := c.toNat
  (9 ≤ n && n ≤ 13) || n == 0x20 || n == 0x85 || n == 0xA0 || n == 0x1680 ||
    (0x2000 ≤ n && n ≤ 0x200A) || n == 0x2028 || n == 0x2029 || n == 0x202F || n == 0x205F ||
    n == 0x3000

/-- `str::trim_end`. -/
def trimEnd (s : Str) : Str := s.rdropWhile isWhitespace

/-- `str::trim_end_matches` of a character. -/
def trimEndMatches (c : Char) (s : Str) : Str := s.rdropWhile (· == c)

/-- `str::trim_matches` of a character. -/
def trimMatches (c : Char) (s : Str) : Str := trimEndMatches c (s.dropWhile (· == c))

theorem trimEnd_prefix (s : Str) : trimEnd s <+: s := List.rdropWhile_prefix _ _

/-- `char::is_control`: the Unicode general category `Cc`. -/
def isControl (c : Char) : Bool :=
  let n := c.toNat
  n < 0x20 || (0x7F ≤ n && n < 0xA0)

/-- `u8::to_ascii_lowercase`. -/
def lowerByte (b : UInt8) : UInt8 := if 65 ≤ b ∧ b ≤ 90 then b + 32 else b

/-- `str::eq_ignore_ascii_case`, which compares bytes. -/
def eqIgnoreAsciiCase (s t : Str) : Bool := (utf8 s).map lowerByte == (utf8 t).map lowerByte

/-- `str::split_once` at a character: what stands before its first occurrence and after it. -/
def splitOnce (d : Char) : Str → Option (Str × Str)
  | [] => none
  | c :: s => if c = d then some ([], s) else (splitOnce d s).map (fun r => (c :: r.1, r.2))

theorem splitOnce_eq_some {d : Char} {s a b : Str} (h : splitOnce d s = some (a, b)) :
    s = a ++ d :: b ∧ d ∉ a := by
  induction s generalizing a b with
  | nil => simp [splitOnce] at h
  | cons c s ih =>
    simp only [splitOnce] at h
    split at h
    · rename_i hc
      simp only [Option.some.injEq, Prod.mk.injEq] at h
      obtain ⟨rfl, rfl⟩ := h
      exact ⟨by rw [hc]; rfl, by simp⟩
    · rename_i hc
      obtain ⟨⟨a', b'⟩, hr, he⟩ := Option.map_eq_some_iff.mp h
      simp only [Prod.mk.injEq] at he
      obtain ⟨rfl, rfl⟩ := he
      obtain ⟨rfl, hd⟩ := ih hr
      exact ⟨rfl, by simp [hd, Ne.symm hc]⟩

theorem splitOnce_append {d : Char} {a : Str} (h : d ∉ a) (b : Str) :
    splitOnce d (a ++ d :: b) = some (a, b) := by
  induction a with
  | nil => simp [splitOnce]
  | cons c a ih =>
    rw [List.mem_cons, not_or] at h
    simp only [List.cons_append, splitOnce, if_neg (Ne.symm h.1), ih h.2, Option.map_some]

theorem splitOnce_eq_none_iff {d : Char} {s : Str} : splitOnce d s = none ↔ d ∉ s := by
  constructor
  · intro hnone hmem
    obtain ⟨a, b, rfl, ha⟩ := List.eq_append_cons_of_mem hmem
    rw [splitOnce_append ha] at hnone
    cases hnone
  · intro h
    cases hs : splitOnce d s with
    | none => rfl
    | some r =>
      obtain ⟨rfl, -⟩ := splitOnce_eq_some (a := r.1) (b := r.2) hs
      exact absurd (List.mem_append_right _ List.mem_cons_self) h

end Lib.Text
