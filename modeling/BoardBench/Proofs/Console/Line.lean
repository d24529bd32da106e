import BoardBench.Console.Line
import BoardBench.Text.Pad
import BoardBench.Proofs.Text.Blank
import BoardBench.Proofs.Text.Utf8

/-!
# Reading lines

The lines of a stream are found one after the other: a run of bytes without a line feed, then a line
feed, is a line whatever follows. From this come the three facts that the rest of the theory uses.
The reader that works on chunks yields the same lines, lines hold no line feed and end in no
carriage return, and lines that are written out again are read back as they were.
-/
namespace BoardBench.Console

/-- Byte lines, each with its line feed. -/
def ended (group : List Bytes) : Bytes :=
  group.flatMap fun line => line ++ [lineFeed]

/-- No line feed stands in a run of bytes. -/
def IsRun (line : Bytes) : Prop :=
  lineFeed ∉ line

instance (line : Bytes) : Decidable (IsRun line) :=
  inferInstanceAs (Decidable (lineFeed ∉ line))

theorem IsRun.whole {line : Bytes} (run : IsRun line) :
    ∀ byte ∈ line, (byte == lineFeed) = false := by
  intro byte member
  rw [beq_eq_false_iff_ne]
  rintro rfl
  exact run member

theorem lines_run {line : Bytes} (run : IsRun line) :
    lines line = if line = [] then [] else [lineText line] := by
  unfold lines rawLines
  rw [pieces_eq_singleton run.whole, rawLines.dropLastEmpty]
  cases line <;> simp

theorem lines_run_append {line : Bytes} (run : IsRun line) (rest : Bytes) :
    lines (line ++ lineFeed :: rest) = lineText line :: lines rest := by
  unfold lines rawLines
  rw [pieces_append_cons (by simp), pieces_eq_singleton run.whole, List.singleton_append]
  cases more : pieces (· == lineFeed) rest with
  | nil => exact absurd more (pieces_ne_nil _ _)
  | cons next others => rfl

theorem lines_nil : lines [] = [] :=
  rfl

theorem lines_ended_append {group : List Bytes} (runs : ∀ line ∈ group, IsRun line)
    (rest : Bytes) : lines (ended group ++ rest) = group.map lineText ++ lines rest := by
  induction group with
  | nil => rfl
  | cons line more ih =>
    simp only [List.mem_cons, forall_eq_or_imp] at runs
    have cut := lines_run_append runs.1 (ended more ++ rest)
    rw [ih runs.2] at cut
    simpa [ended] using cut

/-- What holds of a run, and of a run in front of a stream of which it holds, holds of all
streams. -/
theorem stream_induction {motive : Bytes → Prop} (last : ∀ line, IsRun line → motive line)
    (first : ∀ line rest, IsRun line → motive rest → motive (line ++ lineFeed :: rest))
    (stream : Bytes) : motive stream := by
  have run {line : Bytes} (whole : ∀ byte ∈ line, (byte == lineFeed) = false) : IsRun line :=
    fun member => by simpa using whole lineFeed member
  refine cut_induction (· == lineFeed) (fun line whole => last line (run whole)) ?_ stream
  intro line byte rest whole cut holds
  rw [beq_iff_eq] at cut
  exact cut ▸ first line rest (run whole) holds

/-- What follows a line feed adds lines and changes none. -/
theorem lines_append_lineFeed (head tail : Bytes) :
    ∃ more, lines (head ++ lineFeed :: tail) = lines head ++ more := by
  induction head using stream_induction with
  | last line run =>
    rw [lines_run_append run, lines_run run]
    by_cases empty : line = []
    · exact ⟨lineText line :: lines tail, by simp [empty]⟩
    · exact ⟨lines tail, by simp [empty]⟩
  | first line rest run ih =>
    obtain ⟨more, split⟩ := ih
    refine ⟨more, ?_⟩
    rw [List.append_assoc, List.cons_append, lines_run_append run, lines_run_append run, split,
      List.cons_append]

/-! ### The reader -/

theorem cutLine_some {chunk line after : Bytes} (cut : cutLine chunk = (line, some after)) :
    IsRun line ∧ chunk = line ++ lineFeed :: after := by
  induction chunk generalizing line with
  | nil => simp [cutLine] at cut
  | cons byte rest ih =>
    rw [cutLine] at cut
    split at cut
    next feed =>
      simp only [Prod.mk.injEq, Option.some.injEq] at cut
      obtain ⟨rfl, rfl⟩ := cut
      exact ⟨by simp [IsRun], by simpa using feed⟩
    next other =>
      simp only [Prod.mk.injEq] at cut
      obtain ⟨run, split⟩ := ih (Prod.ext rfl cut.2)
      refine ⟨?_, by rw [← cut.1, List.cons_append, ← split]⟩
      rw [← cut.1]
      intro member
      rcases List.mem_cons.mp member with rfl | among
      · simp at other
      · exact run among

theorem cutLine_none {chunk line : Bytes} (cut : cutLine chunk = (line, none)) : IsRun chunk := by
  induction chunk generalizing line with
  | nil => simp [IsRun]
  | cons byte rest ih =>
    rw [cutLine] at cut
    split at cut
    next => simp at cut
    next other =>
      simp only [Prod.mk.injEq] at cut
      intro member
      rcases List.mem_cons.mp member with rfl | among
      · simp at other
      · exact ih (Prod.ext rfl cut.2) among

theorem isRun_append {left right : Bytes} (first : IsRun left) (second : IsRun right) :
    IsRun (left ++ right) := by
  intro member
  rcases List.mem_append.mp member with among | among
  · exact first among
  · exact second among

theorem pull_none {chunks : List Bytes} (pulled : pull chunks = none) : chunks.flatten = [] := by
  induction chunks with
  | nil => rfl
  | cons chunk more ih =>
    rw [pull] at pulled
    split at pulled
    next => simp at pulled
    next line cut =>
      have whole := cutLine_whole cut
      split at pulled
      next => simp at pulled
      next further =>
        split at pulled
        next empty => simp [ih further, ← whole, List.isEmpty_iff.mp empty]
        next => simp at pulled

/-- A line that was pulled is followed by its line feed, or it is the last one. -/
theorem pull_some {chunks left : List Bytes} {line : Bytes}
    (pulled : pull chunks = some (line, left)) :
    IsRun line ∧ (chunks.flatten = line ++ lineFeed :: left.flatten ∨
      line ≠ [] ∧ left = [] ∧ chunks.flatten = line) := by
  induction chunks generalizing line left with
  | nil => simp [pull] at pulled
  | cons chunk more ih =>
    rw [pull] at pulled
    split at pulled
    next first after cut =>
      simp only [Option.some.injEq, Prod.mk.injEq] at pulled
      obtain ⟨rfl, rfl⟩ := pulled
      obtain ⟨run, split⟩ := cutLine_some cut
      exact ⟨run, Or.inl (by simp [split])⟩
    next first cut =>
      have run := cutLine_none cut
      have whole := cutLine_whole cut
      subst whole
      split at pulled
      -- The line goes on in the next chunks.
      next rest remaining further =>
        simp only [Option.some.injEq, Prod.mk.injEq] at pulled
        obtain ⟨rfl, rfl⟩ := pulled
        obtain ⟨after, splits⟩ := ih further
        refine ⟨isRun_append run after, ?_⟩
        rcases splits with split | ⟨nonempty, gone, split⟩
        · exact Or.inl (by simp [split])
        · exact Or.inr ⟨by simp [nonempty], gone, by simp [split]⟩
      next further =>
        split at pulled
        next => simp at pulled
        -- There is nothing more, so this is the last line.
        next content =>
          simp only [Option.some.injEq, Prod.mk.injEq] at pulled
          obtain ⟨rfl, rfl⟩ := pulled
          rw [List.isEmpty_iff] at content
          exact ⟨run, Or.inr ⟨content, rfl, by simp [pull_none further]⟩⟩

/-- Pulling lines from chunks yields the lines of the whole, and then nothing more. -/
theorem drain_spec (source : Source) :
    source.drain.1 = lines source.bytes ∧ source.drain.2.next? = none := by
  fun_induction Source.drain source with
  | case1 source finished =>
    have empty : source.bytes = [] := pull_none (by simpa [Source.next?] using finished)
    exact ⟨by rw [empty, lines_nil], finished⟩
  | case2 source line next read rest finished drained ih =>
    rw [drained] at ih
    refine ⟨?_, ih.2⟩
    simp only [Source.next?, Option.map_eq_some_iff] at read
    obtain ⟨⟨raw, left⟩, pulled, same⟩ := read
    simp only [Prod.mk.injEq] at same
    obtain ⟨rfl, rfl⟩ := same
    have rests : rest = lines left.flatten := ih.1
    obtain ⟨run, split | ⟨nonempty, gone, split⟩⟩ := pull_some pulled
    · rw [Source.bytes, split, lines_run_append run, rests]
    · rw [Source.bytes, split, lines_run run, if_neg nonempty, rests, gone, List.flatten_nil,
        lines_nil]

/-! ### Line ends -/

/-- Carriage returns at the end can be dropped before or after decoding. -/
theorem lossyChars_dropReturns (bytes : Bytes) :
    lossyChars (dropEndWhile (· == carriageReturn) bytes) =
      dropEndWhile (· == '\r') (lossyChars bytes) := by
  induction bytes using List.reverseRecOn with
  | nil => rfl
  | append_singleton init byte ih =>
    by_cases turn : byte = carriageReturn
    -- One more carriage return, which is dropped on both sides.
    · have gone : ∀ item ∈ [byte], (item == carriageReturn) = true := by simp [turn]
      have decoded : lossyChars (init ++ [byte]) = lossyChars init ++ ['\r'] := by
        rw [turn, lossyChars_cut (by decide)]
        rfl
      rw [dropEndWhile_append_of_all gone, decoded, dropEndWhile_append_of_all (by simp), ih]
    -- Nothing is dropped from the bytes, and the text does not end in a carriage return either.
    · rw [dropEndWhile_eq_self (by simpa using turn), dropEndWhile_eq_self]
      intro last final
      rw [beq_eq_false_iff_ne]
      rintro rfl
      obtain ⟨other, among, value⟩ := last_byte_of_lossyChars (by decide) final
      rw [List.getLast?_concat, Option.mem_some_iff] at among
      exact turn (among.trans (UInt8.toNat_inj.mp value))

theorem toList_lineText (line : Bytes) :
    (lineText line).toList = dropEndWhile (· == '\r') (lossyChars line) := by
  rw [lineText, lossyText, String.toList_ofList, lossyChars_dropReturns]

/-! ### Writing lines and reading them back -/

/-- A text that can be a line: it holds no line feed and ends in no carriage return. -/
def IsLine (text : String) : Prop :=
  '\n' ∉ text.toList ∧ text.toList.getLast? ≠ some '\r'

instance (text : String) : Decidable (IsLine text) :=
  inferInstanceAs (Decidable (_ ∧ _))

theorem isLine_lineText {line : Bytes} (run : IsRun line) : IsLine (lineText line) := by
  obtain ⟨tail, split, -⟩ := dropEndWhile_split (· == carriageReturn) line
  constructor
  · intro member
    rw [lineText, lossyText, String.toList_ofList] at member
    obtain ⟨byte, among, value⟩ := byte_of_mem_lossyChars (by decide) member
    have feed : byte = lineFeed := UInt8.toNat_inj.mp value
    exact run (by rw [split, List.mem_append]; exact Or.inl (feed ▸ among))
  · intro final
    rw [lineText, lossyText, String.toList_ofList] at final
    obtain ⟨byte, among, value⟩ := last_byte_of_lossyChars (by decide) final
    have turn : byte = carriageReturn := UInt8.toNat_inj.mp value
    have kept := dropEndWhile_getLast? byte among
    simp [turn] at kept

theorem isLine_of_mem_lines {stream : Bytes} {text : String} (member : text ∈ lines stream) :
    IsLine text := by
  induction stream using stream_induction with
  | last line run =>
    rw [lines_run run] at member
    split at member
    · simp at member
    · rw [List.mem_singleton.mp member]
      exact isLine_lineText run
  | first line rest run ih =>
    rw [lines_run_append run] at member
    rcases List.mem_cons.mp member with rfl | later
    · exact isLine_lineText run
    · exact ih later

theorem isRun_encode {text : String} (isLine : IsLine text) : IsRun (encode text) := by
  intro member
  exact isLine.1 (mem_of_mem_encode (by decide) member)

theorem lineText_encode {text : String} (isLine : IsLine text) : lineText (encode text) = text := by
  have kept : dropEndWhile (· == carriageReturn) (encode text) = encode text := by
    refine dropEndWhile_eq_self fun byte final => ?_
    rw [beq_eq_false_iff_ne]
    rintro rfl
    exact isLine.2 (last_char_of_encode (by decide) final)
  rw [lineText, kept, lossyText_encode]

theorem encode_lineFeed : encode "\n" = [lineFeed] := by
  rw [encode_eq_flatMap]
  rfl

theorem lines_encode {text : String} (isLine : IsLine text) :
    lines (encode text) = if text = "" then [] else [text] := by
  rw [lines_run (isRun_encode isLine), lineText_encode isLine]
  have empty : encode text = [] ↔ text = "" := by
    constructor
    · intro gone
      simpa [gone, lossyText, lossyChars, decode, decodeFrom] using (lossyText_encode text).symm
    · rintro rfl
      rw [encode_eq_flatMap]
      rfl
  simp only [empty]

theorem lines_encode_append {text : String} (isLine : IsLine text) (rest : String) :
    lines (encode (text ++ "\n" ++ rest)) = text :: lines (encode rest) := by
  rw [encode_append, encode_append, encode_lineFeed, List.append_assoc, List.singleton_append,
    lines_run_append (isRun_encode isLine), lineText_encode isLine]

/-- Lines that are written one under the other are read back, each as it was. -/
theorem lines_encode_printed {texts : List String} (areLines : ∀ text ∈ texts, IsLine text) :
    lines (encode (printed texts)) = texts := by
  induction texts with
  | nil =>
    rw [encode_eq_flatMap]
    rfl
  | cons text rest ih =>
    simp only [List.mem_cons, forall_eq_or_imp] at areLines
    have print : printed (text :: rest) = text ++ "\n" ++ printed rest := by
      simp [printed, String.join_cons]
    rw [print, lines_encode_append areLines.1, ih areLines.2]

/-- Lines that are joined by line feeds are read back, but for a last one that is empty. -/
theorem lines_encode_join {texts : List String} (areLines : ∀ text ∈ texts, IsLine text) :
    lines (encode (join "\n" texts)) =
      if texts.getLast? = some "" then texts.dropLast else texts := by
  induction texts with
  | nil =>
    rw [encode_eq_flatMap]
    rfl
  | cons text rest ih =>
    simp only [List.mem_cons, forall_eq_or_imp] at areLines
    cases rest with
    | nil =>
      rw [join, String.intercalate_singleton, lines_encode areLines.1]
      simp
    | cons next more =>
      have print : join "\n" (text :: next :: more) = text ++ "\n" ++ join "\n" (next :: more) := by
        simp [join, String.intercalate_cons_cons]
      rw [print, lines_encode_append areLines.1, ih areLines.2, List.getLast?_cons_cons,
        List.dropLast_cons_cons]
      split <;> rfl

end BoardBench.Console
