import BoardBench.Proofs.Console.Line
import BoardBench.Proofs.Text.Lossy

/-!
# Lines of the decoded text

Main result: the lines of a stream, read in whatever chunks, are the lines of its text. It makes no
difference whether the bytes are cut into lines before they are decoded or afterwards, even where a
character is broken off by a line end, by the end of a chunk or by the end of the stream. Texts that
are written one under the other, with carriage returns at their ends, are read back.

Proof strategy: by induction over the runs of the stream. A line feed stands for itself in the text
whatever is around it, so both ways of cutting find the same places.
-/
namespace BoardBench.Console

/-- The lines of a text are its pieces between line feeds, without a last one that is empty, and
each without the carriage returns at its end. -/
def textLines (text : List Char) : List String :=
  let pieces := text.splitOn '\n'
  (if pieces.getLast? = some [] then pieces.dropLast else pieces).map fun piece =>
    String.ofList (piece.rdropWhile (· == '\r'))

/-! ### Lines of a text -/

theorem textLines_run {text : List Char} (whole : '\n' ∉ text) :
    textLines text =
      if text = [] then [] else [String.ofList (dropEndWhile (· == '\r') text)] := by
  have single : text.splitOn '\n' = [text] := by
    rw [← pieces_eq_splitOn]
    refine pieces_eq_singleton fun char member => ?_
    rw [beq_eq_false_iff_ne]
    rintro rfl
    exact whole member
  rw [textLines, single, dropEndWhile_eq_rdropWhile]
  by_cases empty : text = []
  · simp [empty]
  · simp [empty]

theorem textLines_run_append {text : List Char} (whole : '\n' ∉ text) (rest : List Char) :
    textLines (text ++ '\n' :: rest) =
      String.ofList (dropEndWhile (· == '\r') text) :: textLines rest := by
  have cut : (text ++ '\n' :: rest).splitOn '\n' = text :: rest.splitOn '\n' := by
    rw [← pieces_eq_splitOn, ← pieces_eq_splitOn, pieces_append_cons (by simp),
      pieces_eq_singleton]
    · rfl
    · intro char member
      rw [beq_eq_false_iff_ne]
      rintro rfl
      exact whole member
  rw [textLines, cut, textLines, dropEndWhile_eq_rdropWhile]
  -- What is last in the rest is last in the whole, since some piece always follows a line feed.
  cases more : rest.splitOn '\n' with
  | nil =>
    rw [← pieces_eq_splitOn] at more
    exact absurd more (pieces_ne_nil _ _)
  | cons next others =>
    simp only [List.getLast?_cons_cons, List.dropLast_cons_cons]
    split <;> rfl

/-! ### Lines of a stream -/

theorem lineFeed_not_mem_lossyChars {line : Bytes} (run : IsRun line) :
    '\n' ∉ lossyChars line := by
  intro member
  obtain ⟨byte, among, value⟩ := byte_of_mem_lossyChars (by decide) member
  have feed : byte = lineFeed := UInt8.toNat_inj.mp value
  exact run (feed ▸ among)

theorem lossyChars_eq_nil_iff (bytes : Bytes) : lossyChars bytes = [] ↔ bytes = [] := by
  constructor
  · intro none
    by_contra filled
    exact decodeFrom_ne_nil isWideState_none filled (List.map_eq_nil_iff.mp none)
  · rintro rfl
    rfl

theorem lineText_eq (line : Bytes) :
    lineText line = String.ofList (dropEndWhile (· == '\r') (lossyChars line)) := by
  rw [← toList_lineText, String.ofList_toList]

/-- Cutting and decoding can be done in either order. -/
theorem lines_eq_textLines (stream : Bytes) : lines stream = textLines (lossyChars stream) := by
  induction stream using stream_induction with
  | last line run =>
    rw [lines_run run, textLines_run (lineFeed_not_mem_lossyChars run), lineText_eq]
    simp only [lossyChars_eq_nil_iff]
  | first line rest run ih =>
    have decoded : lossyChars (line ++ lineFeed :: rest) =
        lossyChars line ++ '\n' :: lossyChars rest := lossyChars_cut (by decide) line rest
    rw [lines_run_append run, decoded, textLines_run_append (lineFeed_not_mem_lossyChars run),
      lineText_eq, ih]

/-! ### Written lines -/

/-- Texts one under the other, each with so many carriage returns in front of its line feed. -/
def terminated (entries : List (String × Nat)) : String :=
  String.join (entries.map fun (text, turns) =>
    text ++ String.ofList (List.replicate turns '\r') ++ "\n")

theorem lines_encode_terminated {entries : List (String × Nat)}
    (areLines : ∀ entry ∈ entries, IsLine entry.1) :
    lines (encode (terminated entries)) = entries.map Prod.fst := by
  induction entries with
  | nil =>
    rw [encode_eq_flatMap]
    rfl
  | cons entry rest ih =>
    obtain ⟨text, turns⟩ := entry
    simp only [List.mem_cons, forall_eq_or_imp] at areLines
    obtain ⟨unbroken, unturned⟩ := areLines.1
    have split : (terminated ((text, turns) :: rest)).toList =
        (text.toList ++ List.replicate turns '\r') ++ '\n' :: (terminated rest).toList := by
      simp [terminated, String.join_cons]
    have whole : '\n' ∉ text.toList ++ List.replicate turns '\r' := by
      simp [unbroken]
    have kept : dropEndWhile (· == '\r') (text.toList ++ List.replicate turns '\r') =
        text.toList := by
      rw [dropEndWhile_append_of_all (by simp)]
      apply dropEndWhile_eq_self
      intro last ends
      rw [beq_eq_false_iff_ne]
      rintro rfl
      exact unturned ends
    rw [lines_eq_textLines, lossyChars_encode] at ih ⊢
    rw [split, textLines_run_append whole, kept, ih areLines.2, String.ofList_toList]
    rfl

/-- A reader yields the lines of the text that its source holds, however the bytes come, and is at
its end then. The text is the one that lossy reading gives. No line holds a line feed or ends in a
carriage return, and what was written as lines is read as these lines. -/
theorem drain_described (source : Source) :
    (∀ text, IsLossy source.bytes text ↔ text = lossyChars source.bytes) ∧
    source.drain.1 = textLines (lossyChars source.bytes) ∧
    (source.drain.2.next? = none ∧ source.drain.2.drain = ([], source.drain.2)) ∧
    (∀ line ∈ source.drain.1, '\n' ∉ line.toList ∧ line.toList.getLast? ≠ some '\r') ∧
    ∀ entries : List (String × Nat),
      (∀ entry ∈ entries, '\n' ∉ entry.1.toList ∧ entry.1.toList.getLast? ≠ some '\r') →
      source.bytes = encode (terminated entries) → source.drain.1 = entries.map Prod.fst := by
  obtain ⟨drained, ended⟩ := drain_spec source
  refine ⟨isLossy_iff source.bytes, ?_, ⟨ended, ?_⟩, ?_, ?_⟩
  · rw [drained, lines_eq_textLines]
  · rw [Source.drain]
    split
    next => rfl
    next line next read =>
      rw [ended] at read
      cases read
  · intro line member
    rw [drained] at member
    exact isLine_of_mem_lines member
  · intro entries areLines written
    rw [drained, written]
    exact lines_encode_terminated areLines

end BoardBench.Console
