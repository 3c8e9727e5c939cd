/-
# UTF-8: the decoder

`Lib.Text` encodes; this is the way back, as `String::from_utf8_lossy` and the decoder of the
web standards do it.  The bytes are read one at a time, and each longest run of bytes that begins
a character and does not finish it is replaced by U+FFFD.  So every list of bytes decodes to
something, and what was encoded decodes to itself (`decodeUtf8_utf8`).
-/
import Muxa.Lib.Text

namespace Lib.Utf8

open Lib.Text

/-! ## 1. The machine -/

/-- A character that has begun: the bits read so far, how many bytes it still needs, and the
range of the next one. -/
structure Begun where
  point : Nat
  needed : Nat
  lower : Nat := 0x80
  upper : Nat := 0xBF
deriving DecidableEq

/-- What bytes that are no character decode to. -/
def replacement : Char := Char.ofNat 0xFFFD

/-- A byte between characters: what it decodes to, and the character it begins. -/
def lead (b : UInt8) : Str × Option Begun :=
  let n := b.toNat
  if n < 0x80 then ([Char.ofNat n], none)
  else if 0xC2 ≤ n ∧ n ≤ 0xDF then ([], some { point := n % 0x20, needed := 1 })
  else if 0xE0 ≤ n ∧ n ≤ 0xEF then
    -- no overlong form, and no surrogate
    ([], some { point := n % 0x10, needed := 2, lower := if n = 0xE0 then 0xA0 else 0x80,
                upper := if n = 0xED then 0x9F else 0xBF })
  else if 0xF0 ≤ n ∧ n ≤ 0xF4 then
    -- no overlong form, and nothing past U+10FFFF
    ([], some { point := n % 0x08, needed := 3, lower := if n = 0xF0 then 0x90 else 0x80,
                upper := if n = 0xF4 then 0x8F else 0xBF })
  else ([replacement], none)

def step : Option Begun → UInt8 → Str × Option Begun
  | none, b => lead b
  | some begun, b =>
    let n := b.toNat
    if begun.lower ≤ n ∧ n ≤ begun.upper then
      let point := begun.point * 0x40 + n % 0x40
      if begun.needed = 1 then ([Char.ofNat point], none)
      else ([], some { point, needed := begun.needed - 1 })
    else
      -- the byte may begin the next character
      (replacement :: (lead b).1, (lead b).2)

def decodeFrom : Option Begun → List UInt8 → Str
  | none, [] => []
  | some _, [] => [replacement]
  | begun, b :: bytes => (step begun b).1 ++ decodeFrom (step begun b).2 bytes

/-- `String::from_utf8_lossy`. -/
def decodeUtf8 (bytes : List UInt8) : Str := decodeFrom none bytes

-- `E2 82` begins a character that `B` does not finish
example : decodeUtf8 [0x41, 0xE2, 0x82, 0x42] = ['A', replacement, 'B'] := by decide

/-! ## 2. It undoes the encoder -/

theorem lead_ascii {n : Nat} (h : n < 0x80) :
    lead (UInt8.ofNat n) = ([Char.ofNat n], none) := by
  have hn : (UInt8.ofNat n).toNat = n := by simp only [UInt8.toNat_ofNat']; omega
  simp only [lead, hn, if_pos h]

theorem lead_two {n : Nat} (h : 0x02 ≤ n) (h' : n < 0x20) :
    lead (UInt8.ofNat (n + 0xC0)) = ([], some { point := n, needed := 1 }) := by
  have hn : (UInt8.ofNat (n + 0xC0)).toNat = n + 0xC0 := by simp only [UInt8.toNat_ofNat']; omega
  have hpoint : (n + 0xC0) % 0x20 = n := by omega
  simp only [lead, hn, hpoint]
  rw [if_neg (by omega), if_pos (by omega)]

theorem lead_three {n : Nat} (h : n < 0x10) :
    lead (UInt8.ofNat (n + 0xE0)) =
      ([], some { point := n, needed := 2, lower := if n = 0 then 0xA0 else 0x80,
                  upper := if n = 0xD then 0x9F else 0xBF }) := by
  have hn : (UInt8.ofNat (n + 0xE0)).toNat = n + 0xE0 := by simp only [UInt8.toNat_ofNat']; omega
  have hpoint : (n + 0xE0) % 0x10 = n := by omega
  have hlow : n + 0xE0 = 0xE0 ↔ n = 0 := by omega
  have hhigh : n + 0xE0 = 0xED ↔ n = 0xD := by omega
  simp only [lead, hn, hpoint, hlow, hhigh]
  rw [if_neg (by omega), if_neg (by omega), if_pos (by omega)]

theorem lead_four {n : Nat} (h : n ≤ 0x04) :
    lead (UInt8.ofNat (n + 0xF0)) =
      ([], some { point := n, needed := 3, lower := if n = 0 then 0x90 else 0x80,
                  upper := if n = 4 then 0x8F else 0xBF }) := by
  have hn : (UInt8.ofNat (n + 0xF0)).toNat = n + 0xF0 := by simp only [UInt8.toNat_ofNat']; omega
  have hpoint : (n + 0xF0) % 0x08 = n := by omega
  have hlow : n + 0xF0 = 0xF0 ↔ n = 0 := by omega
  have hhigh : n + 0xF0 = 0xF4 ↔ n = 4 := by omega
  simp only [lead, hn, hpoint, hlow, hhigh]
  rw [if_neg (by omega), if_neg (by omega), if_neg (by omega), if_pos (by omega)]

/-- A byte in the range goes on with the character. -/
theorem step_continue {begun : Begun} {n : Nat} (hn : n < 0x40) (hlower : begun.lower ≤ n + 0x80)
    (hupper : n + 0x80 ≤ begun.upper) :
    step (some begun) (UInt8.ofNat (n + 0x80)) =
      if begun.needed = 1 then ([Char.ofNat (begun.point * 0x40 + n)], none)
      else ([], some { point := begun.point * 0x40 + n, needed := begun.needed - 1 }) := by
  have hb : (UInt8.ofNat (n + 0x80)).toNat = n + 0x80 := by simp only [UInt8.toNat_ofNat']; omega
  have hbits : (n + 0x80) % 0x40 = n := by omega
  simp only [step, hb, hbits]
  rw [if_pos ⟨hlower, hupper⟩]

/-- **An encoded character decodes to itself**, whatever follows it. -/
theorem decodeFrom_encodeChar (c : Char) (bytes : List UInt8) :
    decodeFrom none (String.utf8EncodeChar c ++ bytes) = c :: decodeFrom none bytes := by
  obtain ⟨v, hv⟩ : ∃ v, v = c.val.toNat := ⟨_, rfl⟩
  have hc : Char.ofNat v = c := by rw [hv]; exact Char.ofNat_toNat c
  have hvalid : v < 0xD800 ∨ 0xDFFF < v ∧ v < 0x110000 := by rw [hv]; exact c.valid
  simp only [String.utf8EncodeChar, ← hv]
  -- one case for each length of an encoding
  split
  · have hlead : v < 0x80 := by omega
    simp only [List.cons_append, List.nil_append, decodeFrom, step, lead_ascii hlead, hc]
  split
  · have hlead : 0x02 ≤ v / 64 % 0x20 := by omega
    have hlead' : v / 64 % 0x20 < 0x20 := by omega
    have hbits : v / 64 % 0x20 * 0x40 + v % 0x40 = v := by omega
    simp only [List.cons_append, List.nil_append, decodeFrom, step.eq_1, lead_two hlead hlead']
    rw [step_continue (by omega) (by dsimp only; omega) (by dsimp only; omega)]
    simp only [if_true, List.cons_append, List.nil_append]
    rw [hbits, hc]
  split
  · have hlead : v / 4096 % 0x10 < 0x10 := by omega
    have hbits : (v / 4096 % 0x10 * 0x40 + v / 64 % 0x40) * 0x40 + v % 0x40 = v := by omega
    simp only [List.cons_append, List.nil_append, decodeFrom, step.eq_1, lead_three hlead]
    rw [step_continue (by omega) (by dsimp only; split <;> omega) (by dsimp only; split <;> omega)]
    simp only [Nat.reduceEqDiff, if_false, Nat.reduceSub]
    rw [step_continue (by omega) (by dsimp only; omega) (by dsimp only; omega)]
    simp only [if_true, List.cons_append, List.nil_append]
    rw [hbits, hc]
  · have hlead : v / 262144 % 0x08 ≤ 0x04 := by omega
    have hbits : ((v / 262144 % 0x08 * 0x40 + v / 4096 % 0x40) * 0x40 + v / 64 % 0x40) * 0x40 +
        v % 0x40 = v := by omega
    simp only [List.cons_append, List.nil_append, decodeFrom, step.eq_1, lead_four hlead]
    rw [step_continue (by omega) (by dsimp only; split <;> omega) (by dsimp only; split <;> omega)]
    simp only [Nat.reduceEqDiff, if_false, Nat.reduceSub]
    rw [step_continue (by omega) (by dsimp only; omega) (by dsimp only; omega)]
    simp only [Nat.reduceEqDiff, if_false, Nat.reduceSub]
    rw [step_continue (by omega) (by dsimp only; omega) (by dsimp only; omega)]
    simp only [if_true, List.cons_append, List.nil_append]
    rw [hbits, hc]

/-- **What was encoded decodes to itself.** -/
theorem decodeUtf8_utf8 (s : Str) : decodeUtf8 (utf8 s) = s := by
  induction s with
  | nil => rfl
  | cons c s ih => rw [utf8_cons, decodeUtf8, decodeFrom_encodeChar, ← decodeUtf8, ih]

end Lib.Utf8
