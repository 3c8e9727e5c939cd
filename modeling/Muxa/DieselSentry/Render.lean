/-
# Rendering a query's SQL without its bind values

diesel prints a query as `"<sql> -- binds: [values]"`.  `write_sql` renders it into a scratch
buffer through `UntilBinds`, a sink that stops the formatting as soon as the marker has been
written and keeps only what came before it, so no bind value ever reaches a span.

A `Display` writes its text in chunks it chooses itself, and learns from each write whether it
was refused.  `Display` is that conversation as a tree, so a query that stops at the first
refused write, one that ignores the refusals and one that fails by itself are all covered, and
so is any other.

The result does not depend on the conversation (`writeSql_eq`): the buffer holds what the
`Display` wrote, cut before the first marker, trailing whitespace trimmed.  The proof compares
the sink with an ideal one that keeps everything (`Display.text`): `Tracks` is the relation
between the two, and `writeStr_tracks` is its step lemma.
-/
import Muxa.Lib.Text

namespace Muxa.DieselSentry

open Lib.Text

/-! ## 1. The sink -/

/-- What diesel's `DebugQuery` writes between the SQL and its bind values. -/
def bindsMarker : Str := " -- binds:".toList

/-- A query's `Display`: it ends with a result, or writes a chunk and goes on according to
whether the write was accepted. -/
inductive Display where
  | ends (ok : Bool)
  | write (chunk : Str) (next : Bool → Display)

/-- The `fmt::Write` sink over the scratch buffer. -/
structure UntilBinds where
  buf : Str
  /-- Set once the marker is found.  From then on every write is refused. -/
  cut : Bool

/-- `UntilBinds::write_str`: the sink afterwards and whether the write was accepted.  `none` is
a panic, of `truncate` off a character boundary. -/
def UntilBinds.writeStr (w : UntilBinds) (chunk : Str) : Option (UntilBinds × Bool) :=
  if w.cut then some (w, false)
  else
    -- the marker may straddle two chunks, so look back one marker length
    let start := byteLen w.buf - byteLen bindsMarker
    let buf := w.buf ++ chunk
    match findSub (utf8 bindsMarker) ((utf8 buf).drop start) with
    | some i => (truncate buf (start + i)).map (fun buf => ({ buf, cut := true }, false))
    | none => some ({ w with buf }, true)

/-- `fmt::write`: let the query write itself into the sink. -/
def fmtWrite : UntilBinds → Display → Option (UntilBinds × Bool)
  | w, .ends ok => some (w, ok)
  | w, .write chunk next =>
    match w.writeStr chunk with
    | none => none
    | some (w, ok) => fmtWrite w (next ok)

/-- `write_sql`: the buffer afterwards, `none` on a panic.  The buffer's old content is
cleared, and a failed render is as good as a cut one. -/
def writeSql (buf : Str) (query : Display) : Option Str :=
  match truncate buf 0 with
  | none => none
  | some buf =>
    match fmtWrite { buf, cut := false } query with
    | none => none
    | some (w, _) => truncate w.buf (byteLen (trimEnd w.buf))

/-! ## 2. What a query wrote -/

/-- The text a `Display` writes to a sink that keeps everything and refuses once the marker
has been seen, after `seen`. -/
def Display.text : Str → Display → Str
  | seen, .ends _ => seen
  | seen, .write chunk next =>
    Display.text (seen ++ chunk) (next (decide (¬ bindsMarker <:+: seen ++ chunk)))

/-- A `Display` given by its chunks: does it go on after a refused write (`ignores`), and does
it return an error of its own at the end (`fails`)? -/
def Display.ofChunks (ignores fails : Bool) : List Str → Display
  | [] => .ends (!fails)
  | c :: cs => .write c (fun ok => if ok || ignores then ofChunks ignores fails cs else .ends false)

/-- The SQL a query renders to: its text without the binds and without trailing blanks. -/
def sqlOf (text : Str) : Str := trimEnd (cutBefore bindsMarker text)

theorem bindsMarker_ne_nil : bindsMarker ≠ [] := by decide

theorem bindsMarker_isAscii : IsAscii bindsMarker := by decide

theorem bindsMarker_unbordered : Unbordered bindsMarker := by decide

/-- A `Display` given by its chunks writes, up to the cut, all of them. -/
theorem cutBefore_text_ofChunks (ignores fails : Bool) (chunks : List Str) (seen : Str) :
    cutBefore bindsMarker ((Display.ofChunks ignores fails chunks).text seen) =
      cutBefore bindsMarker (seen ++ chunks.flatten) := by
  induction chunks generalizing seen with
  | nil => simp [Display.ofChunks, Display.text]
  | cons c cs ih =>
    simp only [Display.ofChunks, Display.text, List.flatten_cons]
    rw [← List.append_assoc]
    split
    · exact ih (seen ++ c)
    · -- refused, and it stops: the marker is in what was written
      rename_i hstop
      have hin : bindsMarker <:+: seen ++ c := by
        by_contra hno
        simp [hno] at hstop
      rw [Display.text, cutBefore_append hin]

/-! ## 3. The sink tracks the text -/

/-- The sink holds the text written so far up to the cut, and has cut iff the marker is in. -/
structure Tracks (w : UntilBinds) (seen : Str) : Prop where
  buf : w.buf = cutBefore bindsMarker seen
  cut : w.cut = true ↔ bindsMarker <:+: seen

theorem tracks_nil : Tracks { buf := [], cut := false } [] :=
  ⟨rfl, by simp [bindsMarker_ne_nil]⟩

/-- Before the cut, the window search finds the first marker of the whole text. -/
theorem findSub_window {seen : Str} (h : ¬ bindsMarker <:+: seen) (chunk : Str) :
    (findSub (utf8 bindsMarker)
        ((utf8 (seen ++ chunk)).drop (byteLen seen - byteLen bindsMarker))).map
          (byteLen seen - byteLen bindsMarker + ·) =
      (findSub bindsMarker (seen ++ chunk)).map (fun i => byteLen ((seen ++ chunk).take i)) := by
  have hne : utf8 bindsMarker ≠ [] := by decide
  have hno : ¬ utf8 bindsMarker <:+: utf8 seen := by
    rw [← findSub_eq_none_iff hne, findSub_utf8 bindsMarker_isAscii bindsMarker_ne_nil,
      (findSub_eq_none_iff bindsMarker_ne_nil).mpr h]
    rfl
  rw [← findSub_utf8 bindsMarker_isAscii bindsMarker_ne_nil, utf8_append]
  exact (findSub_lookback hne hno (utf8 chunk)).symm

/-- **One write.**  It never panics, answers what the ideal sink answers, and keeps track. -/
theorem writeStr_tracks {w : UntilBinds} {seen : Str} (h : Tracks w seen) (chunk : Str) :
    ∃ w', w.writeStr chunk = some (w', decide (¬ bindsMarker <:+: seen ++ chunk)) ∧
      Tracks w' (seen ++ chunk) := by
  unfold UntilBinds.writeStr
  by_cases hcut : w.cut = true
  · have hin : bindsMarker <:+: seen := h.cut.mp hcut
    have hin' : bindsMarker <:+: seen ++ chunk := hin.trans (List.prefix_append _ _).isInfix
    refine ⟨w, by simp [hcut, hin'], ?_, ?_⟩
    · rw [h.buf, cutBefore_append hin]
    · simp [hcut, hin']
  · have hno : ¬ bindsMarker <:+: seen := fun hin => hcut (h.cut.mpr hin)
    have hbuf : w.buf = seen := h.buf.trans (cutBefore_eq_self bindsMarker_ne_nil hno)
    have hwin := findSub_window hno chunk
    simp only [if_neg hcut, hbuf]
    cases hf : findSub bindsMarker (seen ++ chunk) with
    | none =>
      have hno' := (findSub_eq_none_iff bindsMarker_ne_nil).mp hf
      rw [hf, Option.map_none, Option.map_eq_none_iff] at hwin
      simp only [hwin]
      refine ⟨{ buf := seen ++ chunk, cut := w.cut }, by simp [hno'], ?_, ?_⟩
      · exact (cutBefore_eq_self bindsMarker_ne_nil hno').symm
      · simp [hcut, hno']
    | some j =>
      rw [hf, Option.map_some] at hwin
      obtain ⟨i, hi, hij⟩ := Option.map_eq_some_iff.mp hwin
      have htrunc : truncate (seen ++ chunk) (byteLen seen - byteLen bindsMarker + i) =
          some ((seen ++ chunk).take j) := by
        rw [hij]
        conv_lhs => rw [← List.take_append_drop j (seen ++ chunk)]
        simpa using truncate_byteLen ((seen ++ chunk).take j) ((seen ++ chunk).drop j)
      have hin : bindsMarker <:+: seen ++ chunk := by
        by_contra hno'
        rw [(findSub_eq_none_iff bindsMarker_ne_nil).mpr hno'] at hf
        simp at hf
      simp only [hi, htrunc, Option.map_some]
      refine ⟨{ buf := (seen ++ chunk).take j, cut := true }, by simp [hin], ?_, ?_⟩
      · simp [cutBefore, hf]
      · simp [hin]

/-- **A whole conversation**, by induction on the `Display`. -/
theorem fmtWrite_tracks (d : Display) (w : UntilBinds) (seen : Str) (h : Tracks w seen) :
    ∃ w' ok, fmtWrite w d = some (w', ok) ∧ Tracks w' (d.text seen) := by
  induction d generalizing w seen with
  | ends ok => exact ⟨w, ok, rfl, h⟩
  | write chunk next ih =>
    obtain ⟨w', hw, ht⟩ := writeStr_tracks h chunk
    simp only [fmtWrite, hw, Display.text]
    exact ih _ w' (seen ++ chunk) ht

/-- **`write_sql` never panics, and leaves the SQL of what the query wrote**, whatever the
buffer held and however the query writes itself. -/
theorem writeSql_eq (buf : Str) (query : Display) :
    writeSql buf query = some (sqlOf (query.text [])) := by
  obtain ⟨w, ok, hw, ht⟩ := fmtWrite_tracks query _ _ tracks_nil
  have hclear : truncate buf 0 = some [] := by cases buf <;> rfl
  obtain ⟨rest, hrest⟩ := trimEnd_prefix w.buf
  have htrim := truncate_byteLen (trimEnd w.buf) rest
  rw [hrest] at htrim
  simp only [writeSql, hclear, hw, htrim]
  rw [ht.buf, sqlOf]

/-! ## 4. Bind values never reach the buffer -/

/-- The SQL of a text with binds is that of the text before the marker. -/
theorem sqlOf_binds (sql binds : Str) : sqlOf (sql ++ bindsMarker ++ binds) = sqlOf sql := by
  rw [sqlOf, cutBefore_append_self bindsMarker_ne_nil bindsMarker_unbordered, sqlOf]

/-- A query given by its chunks renders to the SQL of their concatenation. -/
theorem writeSql_ofChunks (buf : Str) (ignores fails : Bool) (chunks : List Str) :
    writeSql buf (.ofChunks ignores fails chunks) = some (sqlOf chunks.flatten) := by
  rw [writeSql_eq, sqlOf, cutBefore_text_ofChunks, List.nil_append, sqlOf]

/-- The ways to split a text into chunks. -/
abbrev Chunks (text : Str) := { chunks : List Str // chunks.flatten = text }

/-- A text with binds after it renders to the SQL of the text. -/
theorem writeSql_binds (buf : Str) (ignores fails : Bool) {sql binds : Str}
    (c : Chunks (sql ++ " -- binds: ".toList ++ binds)) :
    writeSql buf (.ofChunks ignores fails c) = some (sqlOf sql) := by
  have hm : " -- binds: ".toList = bindsMarker ++ [' '] := by decide
  rw [writeSql_ofChunks, c.2, hm, ← sqlOf_binds sql ([' '] ++ binds)]
  simp only [List.append_assoc]

/-- **Bind values never reach a span.**  However a query writes itself, stopping at the first
refused write, ignoring it or failing by itself, `write_sql` ends without a panic and leaves
what was written, cut before the first marker and trimmed.  So a text and the same text with
any binds after it, however each is split into chunks, leave the same buffer, and the same key
whatever the buffer is hashed with. -/
theorem binds_never_rendered :
    (∀ (buf : Str) (query : Display),
      writeSql buf query = some (trimEnd (cutBefore bindsMarker (query.text [])))) ∧
    (∀ (buf : Str) (ignores fails : Bool) (chunks : List Str),
      writeSql buf (.ofChunks ignores fails chunks) =
        some (trimEnd (cutBefore bindsMarker chunks.flatten))) ∧
    (∀ (sql binds₁ binds₂ : Str) (c₀ : Chunks sql)
      (c₁ : Chunks (sql ++ " -- binds: ".toList ++ binds₁))
      (c₂ : Chunks (sql ++ " -- binds: ".toList ++ binds₂))
      (buf₀ buf₁ buf₂ : Str) (i₀ i₁ i₂ f₀ f₁ f₂ : Bool),
      writeSql buf₁ (.ofChunks i₁ f₁ c₁) = writeSql buf₀ (.ofChunks i₀ f₀ c₀) ∧
        writeSql buf₂ (.ofChunks i₂ f₂ c₂) = writeSql buf₀ (.ofChunks i₀ f₀ c₀) ∧
        ∀ sqlKey : Str → UInt64,
          (writeSql buf₁ (.ofChunks i₁ f₁ c₁)).map sqlKey =
              (writeSql buf₀ (.ofChunks i₀ f₀ c₀)).map sqlKey ∧
            (writeSql buf₂ (.ofChunks i₂ f₂ c₂)).map sqlKey =
              (writeSql buf₀ (.ofChunks i₀ f₀ c₀)).map sqlKey) := by
  refine ⟨writeSql_eq, writeSql_ofChunks, ?_⟩
  intro sql binds₁ binds₂ c₀ c₁ c₂ buf₀ buf₁ buf₂ i₀ i₁ i₂ f₀ f₁ f₂
  have hsql : writeSql buf₀ (.ofChunks i₀ f₀ c₀) = some (sqlOf sql) := by
    rw [writeSql_ofChunks, c₀.2]
  have hbinds₁ := writeSql_binds buf₁ i₁ f₁ c₁
  have hbinds₂ := writeSql_binds buf₂ i₂ f₂ c₂
  refine ⟨hbinds₁.trans hsql.symm, hbinds₂.trans hsql.symm, fun sqlKey => ?_⟩
  rw [hbinds₁, hbinds₂, hsql]
  exact ⟨rfl, rfl⟩

/-- The marker split over two chunks is found, and what an insistent query writes after it is
refused. -/
example : writeSql "stale".toList
    (.ofChunks true false ["SELECT 1 -- bi".toList, "nds: ".toList, "[42]".toList]) =
      some "SELECT 1".toList := by decide

end Muxa.DieselSentry
