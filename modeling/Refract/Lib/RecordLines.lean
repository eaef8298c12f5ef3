import Mathlib.Data.List.Infix

/-!
# Files of records, one per line

A file is read line by line: blank lines are skipped, and a line that is not a whole record gives
nothing. Records that are written after the end of a line are read back behind what was there
(`read_append_joined`), and the part of a write that reached the file gives a prefix of its records
(`read_append_prefix`). Text that is written in the middle of a line changes what that line gives.
-/

namespace Refract.Lib

open List

universe u v

/-- How records of type `R` are written as lines over the alphabet `β`. What is left of a record
that was written in part is no record. -/
structure LineCodec (β : Type u) (R : Type v) where
  newline : β
  encode : R → List β
  decode : List β → Option R
  blank : List β → Bool
  decode_encode : ∀ r, decode (encode r) = some r
  decode_of_prefix : ∀ {r text}, text <+: encode r → text ≠ encode r → decode text = none
  newline_notMem : ∀ r, newline ∉ encode r
  blank_nil : blank [] = true
  blank_encode : ∀ r, blank (encode r) = false

namespace LineCodec

variable {β : Type u} {R : Type v} (c : LineCodec β R) {text : List β} {records : List R}

section Texts

variable [BEq β]

/-- The lines of a text that are not blank. -/
def lines (text : List β) : List (List β) :=
  (text.splitOn c.newline).filter fun line => !c.blank line

/-- The records of a text. -/
def read (text : List β) : List R := (c.lines text).filterMap c.decode

/-- When every line is a record, the lines are the records. -/
theorem read_eq_of_mapM (h : (c.lines text).mapM c.decode = some records) :
    c.read text = records := by
  rw [read]
  generalize c.lines text = ls at h
  induction ls generalizing records with
  | nil => simpa using h
  | cons _ _ ih =>
    simp only [mapM_cons, Option.bind_eq_bind, Option.bind_eq_some_iff] at h
    obtain ⟨r, hr, rest, hrest, hrecords⟩ := h
    cases hrecords
    rw [filterMap_cons_some hr, ih hrest]

end Texts

/-- `records.map(encode).join("\n") + "\n"`. -/
def joined (records : List R) : List β :=
  [c.newline].intercalate (records.map c.encode) ++ [c.newline]

/-- What is written next begins a line of its own. -/
def AtLineEnd (text : List β) : Prop := text = [] ∨ text.getLast? = some c.newline

instance [DecidableEq β] (text : List β) : Decidable (c.AtLineEnd text) :=
  inferInstanceAs (Decidable (text = [] ∨ text.getLast? = some c.newline))

/-! ## Writing -/

/-- Every record with the end of its line. -/
def framed (records : List R) : List β := records.flatMap fun r => c.encode r ++ [c.newline]

theorem framed_cons (r : R) (records : List R) :
    c.framed (r :: records) = c.encode r ++ [c.newline] ++ c.framed records := by
  simp [framed]

theorem joined_eq_framed (h : records ≠ []) : c.joined records = c.framed records := by
  induction records with
  | nil => exact absurd rfl h
  | cons _ records ih =>
    cases records with
    | nil => simp [joined, framed]
    | cons =>
      rw [framed_cons, ← ih (by simp)]
      simp [joined, intercalate_cons_cons]

/-! ## Reading -/

variable [BEq β] [LawfulBEq β]

theorem lines_append_newline (a b : List β) :
    c.lines (a ++ c.newline :: b) = c.lines a ++ c.lines b := by
  have hsplit := splitOnP_append_cons (p := (· == c.newline)) a b (beq_self_eq_true c.newline)
  rw [lines, List.splitOn, hsplit, filter_append]
  rfl

theorem read_append_newline (a b : List β) :
    c.read (a ++ c.newline :: b) = c.read a ++ c.read b := by
  rw [read, lines_append_newline, filterMap_append, read, read]

theorem lines_of_notMem (h : c.newline ∉ text) :
    c.lines text = if c.blank text then [] else [text] := by
  rw [lines, splitOn_eq_singleton h]
  cases hblank : c.blank text <;> simp [hblank]

theorem read_nil : c.read [] = [] := by
  simp [read, c.lines_of_notMem (not_mem_nil), c.blank_nil]

theorem read_encode (r : R) : c.read (c.encode r) = [r] := by
  simp [read, c.lines_of_notMem (c.newline_notMem r), c.blank_encode, c.decode_encode]

/-- At the end of a line the rest is read on its own. -/
theorem read_append (h : c.AtLineEnd text) (rest : List β) :
    c.read (text ++ rest) = c.read text ++ c.read rest := by
  rcases h with rfl | hlast
  · simp [read_nil]
  obtain ⟨init, rfl⟩ := getLast?_eq_some_iff.1 hlast
  rw [append_assoc, singleton_append, read_append_newline, read_append_newline,
    read_nil, append_nil]

theorem read_framed (records : List R) : c.read (c.framed records) = records := by
  induction records with
  | nil => exact c.read_nil
  | cons _ _ ih =>
    rw [framed_cons, append_assoc, singleton_append, read_append_newline, read_encode,
      ih, singleton_append]

/-- The part of a line that was written gives the record only if it is the whole of it. -/
theorem read_prefix_encode {r : R} (h : text <+: c.encode r) : c.read text <+: [r] := by
  by_cases hall : text = c.encode r
  · rw [hall, read_encode]
  have hnotMem : c.newline ∉ text := fun hmem => c.newline_notMem r (h.subset hmem)
  have hnone : c.read text = [] := by
    rw [read, c.lines_of_notMem hnotMem]
    split
    · rfl
    · simp [c.decode_of_prefix h hall]
  rw [hnone]
  exact nil_prefix

theorem read_prefix_framed (h : text <+: c.framed records) : c.read text <+: records := by
  induction records generalizing text with
  | nil =>
    rw [prefix_nil.1 h, read_nil]
  | cons _ _ ih =>
    rcases prefix_or_prefix_of_prefix h (prefix_append _ _) with hshort | ⟨rest, rfl⟩
    · -- The text ends within the first line or with it.
      rcases prefix_concat_iff.1 hshort with rfl | hprefix
      · rw [read_append_newline, read_encode, read_nil]
        exact prefix_append _ _
      · exact (c.read_prefix_encode hprefix).trans (prefix_append _ _)
    · have hrest := ih ((prefix_append_right_inj _).1 h)
      rw [append_assoc, singleton_append, read_append_newline, read_encode]
      exact (prefix_append_right_inj _).2 hrest

theorem read_newline : c.read [c.newline] = [] := by
  have hread := c.read_append_newline [] []
  rwa [read_nil, append_nil, nil_append] at hread

/-- However much of a write reaches the file, it adds the first few of its records. -/
theorem read_append_prefix {written : List β} (h : c.AtLineEnd text)
    (hwritten : written <+: c.joined records) :
    ∃ whole, whole <+: records ∧ c.read (text ++ written) = c.read text ++ whole := by
  refine ⟨c.read written, ?_, c.read_append h written⟩
  by_cases hemp : records = []
  · subst hemp
    -- `[].join("\n") + "\n"` is an empty line.
    have hline : written <+: [] ++ [c.newline] := by simpa [joined] using hwritten
    rcases prefix_concat_iff.1 hline with rfl | hnil
    · rw [nil_append, read_newline]
    · rw [prefix_nil.1 hnil, read_nil]
  · exact c.read_prefix_framed (c.joined_eq_framed hemp ▸ hwritten)

theorem read_joined (records : List R) : c.read (c.joined records) = records := by
  by_cases hemp : records = []
  · subst hemp
    exact c.read_newline
  · rw [c.joined_eq_framed hemp, read_framed]

theorem read_append_joined (h : c.AtLineEnd text) (records : List R) :
    c.read (text ++ c.joined records) = c.read text ++ records := by
  rw [c.read_append h, read_joined]

end LineCodec

end Refract.Lib
