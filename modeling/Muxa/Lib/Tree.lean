/-
# Tree: layers of configuration

A configuration tree has tables, lists and leaves.  Layers are trees laid one under another:
`join` adds what the lower layer has and the upper one has not, and descends where both have a
table; everything else of the upper layer stands.  A table is a finite map, kept as a list of
entries of which the first under a key counts.

`get_joinAll` is the rule for a whole stack: what it has under a key is the stack of what the
layers have under that key.  With it the value at any depth follows from the layers' own values
there, without looking at `join` again.
-/
import Mathlib.Tactic.Common

namespace Lib

inductive Tree (K L : Type) where
  | leaf (value : L)
  | list (items : List (Tree K L))
  | table (entries : List (K × Tree K L))

namespace Tree

variable {K L : Type} [DecidableEq K]

/-! ## 1. Trees -/

def isTable : Tree K L → Bool
  | .table _ => true
  | .leaf _ | .list _ => false

def get : Tree K L → K → Option (Tree K L)
  | .table entries, key => entries.lookup key
  | .leaf _, _ | .list _, _ => none

mutual

/-- The tree, and under it another one. -/
def join : Tree K L → Tree K L → Tree K L
  | .table a, .table b =>
    .table (joinEntries a b ++ b.filter fun e => (a.lookup e.1).isNone)
  | .table a, _ => .table a
  | .leaf value, _ => .leaf value
  | .list items, _ => .list items

/-- The entries of a table, each with the other table's under it. -/
def joinEntries : List (K × Tree K L) → List (K × Tree K L) → List (K × Tree K L)
  | [], _ => []
  | (key, t) :: rest, b =>
    (key,
      match b.lookup key with
      | some u => join t u
      | none => t) :: joinEntries rest b

end

omit [DecidableEq K] in
theorem table_of_isTable {t : Tree K L} (h : t.isTable = true) : ∃ entries, t = .table entries := by
  cases t with
  | leaf value => cases h
  | list items => cases h
  | table entries => exact ⟨entries, rfl⟩

theorem get_singleton (key key' : K) (t : Tree K L) :
    (Tree.table [(key, t)]).get key' = if key' = key then some t else none := by
  rw [get, List.lookup_cons]
  by_cases h : key' = key
  · simp [h]
  · simp [h, beq_false_of_ne h]

/-- What is not a table stands. -/
theorem join_of_not_table {t : Tree K L} (h : t.isTable = false) (u : Tree K L) :
    t.join u = t := by
  cases t with
  | leaf value => rw [join]
  | list items => rw [join]
  | table entries => cases h

/-- What is not a table adds nothing. -/
theorem join_not_table (t : Tree K L) {u : Tree K L} (h : u.isTable = false) : t.join u = t := by
  cases t with
  | leaf value => rw [join]
  | list items => rw [join]
  | table entries =>
    cases u with
    | leaf value => rw [join]; simp
    | list items => rw [join]; simp
    | table entries' => cases h

@[simp] theorem isTable_join (t u : Tree K L) : (t.join u).isTable = t.isTable := by
  cases t with
  | leaf value => rw [join]
  | list items => rw [join]
  | table entries => cases u <;> simp [join, isTable]

/-- A tree does not hold itself. -/
theorem sizeOf_get_lt {t u : Tree K L} {key : K} (h : t.get key = some u) :
    sizeOf u < sizeOf t := by
  cases t with
  | leaf value => cases h
  | list items => cases h
  | table entries =>
    obtain ⟨pre, post, rfl, -⟩ := List.lookup_eq_some_iff.mp h
    have hentry : (key, u) ∈ pre ++ (key, u) :: post :=
      List.mem_append_right _ List.mem_cons_self
    have hmem := List.sizeOf_lt_of_mem hentry
    simp only [Prod.mk.sizeOf_spec, Tree.table.sizeOf_spec] at hmem ⊢
    omega

/-! ## 2. One layer under another -/

/-- What there is at a place, and under it one more layer's value there. -/
def layer (t : Option (Tree K L)) (u : Tree K L) : Option (Tree K L) :=
  match t with
  | some t => some (t.join u)
  | none => some u

theorem lookup_joinEntries (a b : List (K × Tree K L)) (key : K) :
    (joinEntries a b).lookup key =
      (a.lookup key).map fun t => ((b.lookup key).map t.join).getD t := by
  induction a with
  | nil => rw [joinEntries]; rfl
  | cons e rest ih =>
    obtain ⟨key', t⟩ := e
    rw [joinEntries, List.lookup_cons, List.lookup_cons, ih]
    by_cases h : key = key'
    · subst h
      cases b.lookup key <;> simp
    · simp [beq_false_of_ne h]

theorem lookup_filter_fst (p : K → Bool) (l : List (K × Tree K L)) (key : K) :
    (l.filter fun e => p e.1).lookup key = if p key then l.lookup key else none := by
  induction l with
  | nil => simp
  | cons e rest ih =>
    obtain ⟨key', t⟩ := e
    by_cases h : key = key'
    · subst h
      cases hp : p key <;> simp [hp, ih]
    · cases hp : p key' <;> simp [hp, ih, List.lookup_cons, beq_false_of_ne h]

/-- **Looking up a key in two layers.** -/
theorem get_join {t u : Tree K L} (ht : t.isTable = true) (hu : u.isTable = true) (key : K) :
    (t.join u).get key = (u.get key).elim (t.get key) (layer (t.get key)) := by
  obtain ⟨a, rfl⟩ := table_of_isTable ht
  obtain ⟨b, rfl⟩ := table_of_isTable hu
  rw [join]
  simp only [get]
  rw [List.lookup_append, lookup_joinEntries,
    lookup_filter_fst (fun key => (a.lookup key).isNone)]
  cases a.lookup key <;> cases b.lookup key <;> simp [layer]

/-! ## 3. Stacks -/

/-- What there is at a place, and under it the layers' values there, one after the other. -/
def joinAll (t : Option (Tree K L)) (layers : List (Tree K L)) : Option (Tree K L) :=
  layers.foldl layer t

theorem joinAll_cons (t : Option (Tree K L)) (u : Tree K L) (layers : List (Tree K L)) :
    joinAll t (u :: layers) = joinAll (layer t u) layers := rfl

/-- **Looking up a key in a stack** of tables. -/
theorem get_joinAll (layers : List (Tree K L)) (hlayers : ∀ u ∈ layers, u.isTable = true)
    {t : Option (Tree K L)} (ht : ∀ s ∈ t, s.isTable = true) (key : K) :
    ((joinAll t layers).bind fun s => s.get key) =
      joinAll (t.bind fun s => s.get key) (layers.filterMap fun u => u.get key) := by
  induction layers generalizing t with
  | nil => rfl
  | cons u layers ih =>
    have hu := hlayers u List.mem_cons_self
    have hnext : ∀ s ∈ layer t u, s.isTable = true := by
      intro s hs
      cases t with
      | none => exact Option.some.inj hs ▸ hu
      | some s' =>
        rw [← Option.some.inj hs, isTable_join]
        exact ht s' rfl
    have hget : ((layer t u).bind fun s => s.get key) =
        (u.get key).elim (t.bind fun s => s.get key) (layer (t.bind fun s => s.get key)) := by
      cases t with
      | none => cases h : u.get key <;> simp [layer, h]
      | some s => exact get_join (ht s rfl) hu key
    rw [joinAll_cons, ih (fun v hv => hlayers v (List.mem_cons_of_mem _ hv)) hnext, hget,
      List.filterMap_cons]
    cases u.get key <;> rfl

/-- What is not a table stands on any stack. -/
theorem joinAll_of_not_table {t : Tree K L} (h : t.isTable = false) (layers : List (Tree K L)) :
    joinAll (some t) layers = some t := by
  induction layers with
  | nil => rfl
  | cons u layers ih => rw [joinAll_cons, layer, join_of_not_table h, ih]

/-- **The first wins** in a stack without tables, unless something stands above it. -/
theorem joinAll_not_tables (t : Option (Tree K L)) {layers : List (Tree K L)}
    (h : ∀ u ∈ layers, u.isTable = false) : joinAll t layers = t.or layers.head? := by
  induction layers generalizing t with
  | nil => cases t <;> rfl
  | cons u layers ih =>
    rw [joinAll_cons, ih _ fun v hv => h v (List.mem_cons_of_mem _ hv)]
    cases t with
    | none => rfl
    | some s => rw [layer, join_not_table s (h u List.mem_cons_self)]; rfl

theorem joinAll_isSome (t : Option (Tree K L)) (layers : List (Tree K L)) :
    (joinAll t layers).isSome = (t.isSome || !layers.isEmpty) := by
  induction layers generalizing t with
  | nil => simp [joinAll]
  | cons u layers ih =>
    rw [joinAll_cons, ih]
    cases t <;> simp [layer]

theorem joinAll_isTable (layers : List (Tree K L)) (hlayers : ∀ u ∈ layers, u.isTable = true)
    {t : Option (Tree K L)} (ht : ∀ s ∈ t, s.isTable = true) :
    ∀ s ∈ joinAll t layers, s.isTable = true := by
  induction layers generalizing t with
  | nil => exact ht
  | cons u layers ih =>
    refine ih (fun v hv => hlayers v (List.mem_cons_of_mem _ hv)) fun s hs => ?_
    cases t with
    | none => exact Option.some.inj hs ▸ hlayers u List.mem_cons_self
    | some s' =>
      rw [← Option.some.inj hs, isTable_join]
      exact ht s' rfl

end Tree

end Lib
