/-
# Segments: prefixes of a path that end where a segment ends

A path is a list of segments written with a separator between them.  Code that asks whether one
path begins with another often does not split: it strips the shorter text off the longer one and
looks whether nothing or a separator follows (`within`).  That is the question about segments
exactly when the separator can be found in the text in one way only:

* a separator of one character: for all texts (`within_iff_splitOn`);
* a doubled character, as in `a::b`: when the longer path is made of nonempty segments without
  that character (`within_iff_splitPair`).  In `a:::b` the two questions differ.
-/
import Mathlib.Data.List.Infix
import Mathlib.Tactic.Common

namespace Lib.Segments

variable {α : Type}

/-! ## 1. Joining -/

theorem intercalate_append {sep : List α} {xs ys : List (List α)} (hxs : xs ≠ []) (hys : ys ≠ []) :
    sep.intercalate (xs ++ ys) = sep.intercalate xs ++ sep ++ sep.intercalate ys := by
  induction xs with
  | nil => exact absurd rfl hxs
  | cons x xs ih =>
    cases xs with
    | nil =>
      rw [List.singleton_append, List.intercalate_cons_of_ne_nil hys, List.intercalate_singleton]
    | cons x' xs =>
      have ih := ih (List.cons_ne_nil _ _)
      rw [List.cons_append, List.intercalate_cons_of_ne_nil (by simp), ih,
        List.intercalate_cons_of_ne_nil (List.cons_ne_nil _ _)]
      simp only [List.append_assoc]

theorem mem_intercalate {sep : List α} {xs : List (List α)} {c : α}
    (h : c ∈ sep.intercalate xs) : c ∈ sep ∨ ∃ x ∈ xs, c ∈ x := by
  induction xs with
  | nil => simp at h
  | cons x xs ih =>
    rcases eq_or_ne xs [] with rfl | hxs
    · rw [List.intercalate_singleton] at h
      exact .inr ⟨x, List.mem_cons_self, h⟩
    rw [List.intercalate_cons_of_ne_nil hxs, List.mem_append, List.mem_append] at h
    rcases h with (h | h) | h
    · exact .inr ⟨x, List.mem_cons_self, h⟩
    · exact .inl h
    · exact (ih h).imp_right fun ⟨y, hy, hc⟩ => ⟨y, List.mem_cons_of_mem _ hy, hc⟩

/-- A path: segments that are not empty and have no `d`, with `d d` between them. -/
structure Path (d : α) (segments : List (List α)) : Prop where
  ne_nil : segments ≠ []
  clean : ∀ x ∈ segments, x ≠ [] ∧ d ∉ x

/-- A path does not begin with `d`. -/
theorem Path.intercalate_ne_cons {d : α} {segments : List (List α)} (h : Path d segments)
    (rest : List α) : [d, d].intercalate segments ≠ d :: rest := by
  obtain ⟨x, xs, rfl⟩ := List.exists_cons_of_ne_nil h.ne_nil
  obtain ⟨hx, hd⟩ := h.clean x List.mem_cons_self
  obtain ⟨c, x, rfl⟩ := List.exists_cons_of_ne_nil hx
  intro heq
  have hc : c = d := by
    cases xs with
    | nil =>
      rw [List.intercalate_singleton] at heq
      exact (List.cons.inj heq).1
    | cons y ys =>
      rw [List.intercalate_cons_cons] at heq
      exact (List.cons.inj heq).1
  exact hd (hc ▸ List.mem_cons_self)

variable [DecidableEq α]

/-! ## 2. The test -/

/-- `str::strip_prefix`. -/
def stripPrefix (p l : List α) : Option (List α) :=
  if p.isPrefixOf l then some (l.drop p.length) else none

theorem stripPrefix_eq_some_iff {p l rest : List α} :
    stripPrefix p l = some rest ↔ l = p ++ rest := by
  unfold stripPrefix
  split
  · rename_i h
    obtain ⟨t, rfl⟩ := List.isPrefixOf_iff_prefix.mp h
    simp
  · rename_i h
    constructor
    · intro hnone
      cases hnone
    · rintro rfl
      exact absurd (List.isPrefixOf_iff_prefix.mpr (List.prefix_append p rest)) h

/-- `l` is `p`, or `p` and a separator stand at its beginning. -/
def within (sep p l : List α) : Bool :=
  (stripPrefix p l).any fun rest => rest.isEmpty || sep.isPrefixOf rest

theorem within_iff {sep p l : List α} :
    within sep p l = true ↔ l = p ∨ ∃ rest, l = p ++ sep ++ rest := by
  rw [within, Option.any_eq_true]
  constructor
  · rintro ⟨rest, hrest, hsep⟩
    rw [stripPrefix_eq_some_iff] at hrest
    rcases Bool.or_eq_true_iff.mp hsep with hempty | hsep
    · left
      rw [hrest, List.isEmpty_iff.mp hempty, List.append_nil]
    · right
      obtain ⟨t, rfl⟩ := List.isPrefixOf_iff_prefix.mp hsep
      exact ⟨t, by rw [hrest, List.append_assoc]⟩
  · rintro (rfl | ⟨rest, rfl⟩)
    · exact ⟨[], stripPrefix_eq_some_iff.mpr (List.append_nil _).symm, rfl⟩
    · refine ⟨sep ++ rest, stripPrefix_eq_some_iff.mpr (List.append_assoc _ _ _), ?_⟩
      rw [Bool.or_eq_true_iff]
      exact .inr (List.isPrefixOf_iff_prefix.mpr (List.prefix_append sep rest))

/-- What is joined of an initial run of segments stands at the beginning. -/
theorem within_intercalate {sep : List α} {xs ys : List (List α)} (hxs : xs ≠ []) :
    within sep (sep.intercalate xs) (sep.intercalate (xs ++ ys)) = true := by
  rw [within_iff]
  rcases eq_or_ne ys [] with rfl | hys
  · exact .inl (by rw [List.append_nil])
  · exact .inr ⟨sep.intercalate ys, intercalate_append hxs hys⟩

/-! ## 3. A separator of one character -/

/-- **With one character between the segments the test is about segments**, for all texts. -/
theorem within_iff_splitOn {a : α} {p l : List α} :
    within [a] p l = true ↔ p.splitOn a <+: l.splitOn a := by
  constructor
  · intro h
    rcases within_iff.mp h with rfl | ⟨rest, rfl⟩
    · exact List.prefix_refl _
    · rw [List.append_assoc, List.singleton_append, List.splitOn_append_cons_self]
      exact List.prefix_append _ _
  · rintro ⟨t, ht⟩
    have h : within [a] ([a].intercalate (p.splitOn a)) ([a].intercalate (p.splitOn a ++ t)) =
      true := within_intercalate (List.splitOn_ne_nil a p)
    rwa [ht, List.intercalate_splitOn, List.intercalate_splitOn] at h

/-! ## 4. A doubled character -/

/-- `str::split` at `d d`, from the left. -/
def splitPair (d : α) : List α → List (List α)
  | [] => [[]]
  | [c] => [[c]]
  | c :: c' :: l =>
    if c = d ∧ c' = d then [] :: splitPair d l
    else (splitPair d (c' :: l)).modifyHead (c :: ·)

theorem splitPair_ne_nil (d : α) (l : List α) : splitPair d l ≠ [] := by
  fun_induction splitPair d l with
  | case1 => simp
  | case2 => simp
  | case3 => simp
  | case4 c c' l hc ih => simpa using ih

theorem splitPair_cons {d c : α} (h : c ≠ d) (l : List α) :
    splitPair d (c :: l) = (splitPair d l).modifyHead (c :: ·) := by
  cases l with
  | nil => rfl
  | cons c' l => rw [splitPair, if_neg (fun hc => h hc.1)]

theorem splitPair_of_not_mem {d : α} {x : List α} (h : d ∉ x) : splitPair d x = [x] := by
  induction x with
  | nil => rfl
  | cons c x ih =>
    rw [List.mem_cons, not_or] at h
    rw [splitPair_cons (Ne.symm h.1), ih h.2]
    rfl

theorem splitPair_append {d : α} {x : List α} (h : d ∉ x) (l : List α) :
    splitPair d (x ++ d :: d :: l) = x :: splitPair d l := by
  induction x with
  | nil => simp [splitPair]
  | cons c x ih =>
    rw [List.mem_cons, not_or] at h
    rw [List.cons_append, splitPair_cons (Ne.symm h.1), ih h.2]
    rfl

/-- Splitting loses nothing. -/
theorem intercalate_splitPair (d : α) (l : List α) : [d, d].intercalate (splitPair d l) = l := by
  fun_induction splitPair d l with
  | case1 => rfl
  | case2 => simp
  | case3 c c' l hc ih =>
    rw [List.intercalate_cons_of_ne_nil (splitPair_ne_nil d l), ih, hc.1, hc.2]
    rfl
  | case4 c c' l hc ih =>
    obtain ⟨x, xs, hxs⟩ := List.exists_cons_of_ne_nil (splitPair_ne_nil d (c' :: l))
    rw [hxs] at ih ⊢
    cases xs with
    | nil =>
      rw [List.intercalate_singleton] at ih
      simp [ih]
    | cons x' xs =>
      rw [List.intercalate_cons_cons] at ih
      simp only [List.modifyHead_cons, List.intercalate_cons_cons, List.cons_append, ih]

theorem splitPair_intercalate {d : α} {segments : List (List α)} (h : Path d segments) :
    splitPair d ([d, d].intercalate segments) = segments := by
  obtain ⟨hne, hclean⟩ := h
  induction segments with
  | nil => exact absurd rfl hne
  | cons x xs ih =>
    have hx := (hclean x List.mem_cons_self).2
    cases xs with
    | nil => rw [List.intercalate_singleton, splitPair_of_not_mem hx]
    | cons y ys =>
      have hcons : x ++ ([d, d] ++ [d, d].intercalate (y :: ys)) =
          x ++ d :: d :: [d, d].intercalate (y :: ys) := rfl
      have hrest := ih (List.cons_ne_nil _ _) fun z hz => hclean z (List.mem_cons_of_mem _ hz)
      rw [List.intercalate_cons_cons, List.append_assoc, hcons, splitPair_append hx, hrest]

/-- What stands before a separator of a path is an initial run of its segments. -/
theorem splitPair_before {d : α} {segments : List (List α)} (h : Path d segments)
    {p rest : List α} (heq : [d, d].intercalate segments = p ++ d :: d :: rest) :
    splitPair d p <+: segments := by
  obtain ⟨hne, hclean⟩ := h
  induction segments generalizing p with
  | nil => exact absurd rfl hne
  | cons x xs ih =>
    have hx := (hclean x List.mem_cons_self).2
    cases xs with
    | nil =>
      rw [List.intercalate_singleton] at heq
      exact absurd (heq ▸ List.mem_append_right p List.mem_cons_self) hx
    | cons y ys =>
      have htail : Path d (y :: ys) :=
        ⟨List.cons_ne_nil _ _, fun z hz => hclean z (List.mem_cons_of_mem _ hz)⟩
      have heq' : x ++ (d :: d :: [d, d].intercalate (y :: ys)) = p ++ d :: d :: rest := by
        rw [← heq, List.intercalate_cons_cons, List.append_assoc]
        rfl
      -- where the text before the separator ends: in `x`, at its end, or after it
      rcases List.append_eq_append_iff.mp heq' with ⟨a, rfl, ha⟩ | ⟨a, rfl, ha⟩
      · match a with
        | [] =>
          rw [List.append_nil, splitPair_of_not_mem hx]
          exact List.prefix_append [x] (y :: ys)
        | [e] =>
          simp only [List.cons_append, List.nil_append, List.cons.injEq, true_and] at ha
          exact absurd ha.2 (htail.intercalate_ne_cons _)
        | e :: e' :: a =>
          simp only [List.cons_append, List.cons.injEq] at ha
          obtain ⟨rfl, rfl, ha⟩ := ha
          rw [splitPair_append hx]
          exact List.cons_prefix_cons.mpr ⟨rfl, ih ha htail.ne_nil htail.clean⟩
      · match a with
        | [] =>
          rw [List.append_nil] at hx ⊢
          rw [splitPair_of_not_mem hx]
          exact List.prefix_append [p] (y :: ys)
        | e :: a =>
          obtain ⟨rfl, -⟩ := List.cons.inj ha
          exact absurd (List.mem_append_right p List.mem_cons_self) hx

/-- **With a doubled character between the segments the test is about segments**, when the longer
text is a path.  The shorter one may be any text. -/
theorem within_iff_splitPair {d : α} {segments : List (List α)} (h : Path d segments)
    {p : List α} :
    within [d, d] p ([d, d].intercalate segments) = true ↔ splitPair d p <+: segments := by
  constructor
  · intro hwithin
    rcases within_iff.mp hwithin with rfl | ⟨rest, hrest⟩
    · rw [splitPair_intercalate h]
    · rw [List.append_assoc] at hrest
      exact splitPair_before h hrest
  · rintro ⟨t, rfl⟩
    have hwithin : within [d, d] ([d, d].intercalate (splitPair d p))
        ([d, d].intercalate (splitPair d p ++ t)) = true :=
      within_intercalate (splitPair_ne_nil d p)
    rwa [intercalate_splitPair] at hwithin

end Lib.Segments
