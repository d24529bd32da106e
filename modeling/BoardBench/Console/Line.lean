import BoardBench.Text.Utf8

/-!
# Console lines

A console stream is a byte string that arrives in chunks. Its lines end at a line feed; a last line
without one counts too. The line terminator and all carriage returns before it are dropped, and the
rest is decoded lossily. `lines` is the specification on the whole byte string, `Source.next?` the
reader that pulls one line at a time from the chunks.
-/
namespace BoardBench.Console

def lineFeed : UInt8 := 10
def carriageReturn : UInt8 := 13

/-- The text of one line, given its bytes without the line feed. -/
def lineText (bytes : Bytes) : String :=
  lossyText (dropEndWhile (· == carriageReturn) bytes)

/-- The byte runs between line feeds; an empty last run is not a line. -/
def rawLines (stream : Bytes) : List Bytes :=
  dropLastEmpty (pieces (· == lineFeed) stream)
where
  dropLastEmpty : List Bytes → List Bytes
    | [] => []
    | [last] => if last.isEmpty then [] else [last]
    | first :: rest => first :: dropLastEmpty rest

def lines (stream : Bytes) : List String :=
  (rawLines stream).map lineText

/-- What is still to come of a stream: the chunks, in order. -/
structure Source where
  chunks : List Bytes
  deriving Repr, DecidableEq

def Source.bytes (source : Source) : Bytes :=
  source.chunks.flatten

def Source.ofBytes (bytes : Bytes) : Source :=
  ⟨[bytes]⟩

/-- The bytes up to the first line feed, and what follows it, when there is one. -/
def cutLine : Bytes → Bytes × Option Bytes
  | [] => ([], none)
  | byte :: rest =>
    if byte == lineFeed then ([], some rest) else (byte :: (cutLine rest).1, (cutLine rest).2)

theorem cutLine_after_shorter {chunk line after : Bytes}
    (cut : cutLine chunk = (line, some after)) : after.length < chunk.length := by
  induction chunk generalizing line with
  | nil => simp [cutLine] at cut
  | cons byte rest ih =>
    rw [cutLine] at cut
    split at cut
    · simp only [Prod.mk.injEq, Option.some.injEq] at cut
      simp [cut.2]
    · simp only [Prod.mk.injEq] at cut
      have shorter := ih (Prod.ext rfl cut.2)
      simp only [List.length_cons]
      omega

theorem cutLine_whole {chunk line : Bytes} (cut : cutLine chunk = (line, none)) : line = chunk := by
  induction chunk generalizing line with
  | nil => simpa [cutLine] using cut.symm
  | cons byte rest ih =>
    rw [cutLine] at cut
    split at cut
    · simp at cut
    · simp only [Prod.mk.injEq] at cut
      have same : (cutLine rest).1 = rest := ih (Prod.ext rfl cut.2)
      rw [← cut.1, same]

/-- Collects chunks up to a line feed or the end; `none` when no byte is left. -/
def pull : List Bytes → Option (Bytes × List Bytes)
  | [] => none
  | chunk :: more =>
    match cutLine chunk with
    | (line, some after) => some (line, after :: more)
    | (line, none) =>
      match pull more with
      | some (rest, left) => some (line ++ rest, left)
      | none => if line.isEmpty then none else some (line, [])

theorem pull_shorter {chunks left : List Bytes} {line : Bytes}
    (pulled : pull chunks = some (line, left)) : left.flatten.length < chunks.flatten.length := by
  induction chunks generalizing line left with
  | nil => simp [pull] at pulled
  | cons chunk more ih =>
    rw [pull] at pulled
    simp only [List.flatten_cons, List.length_append]
    split at pulled
    next first after cut =>
      simp only [Option.some.injEq, Prod.mk.injEq] at pulled
      have shorter := cutLine_after_shorter cut
      simp only [← pulled.2, List.flatten_cons, List.length_append]
      omega
    next first cut =>
      have whole := cutLine_whole cut
      split at pulled
      next rest remaining further =>
        simp only [Option.some.injEq, Prod.mk.injEq] at pulled
        have shorter := ih further
        rw [← pulled.2]
        omega
      next =>
        split at pulled
        · simp at pulled
        next content =>
          simp only [Option.some.injEq, Prod.mk.injEq] at pulled
          rw [← pulled.2, ← whole]
          cases first with
          | nil => simp at content
          | cons byte tail =>
            simp only [List.flatten_nil, List.length_nil, List.length_cons]
            omega

/-- The next line of the stream; `none` at its end, and from then on. -/
def Source.next? (source : Source) : Option (String × Source) :=
  (pull source.chunks).map fun (line, left) => (lineText line, ⟨left⟩)

/-- Each line read leaves fewer bytes. -/
theorem Source.next?_shorter {source next : Source} {line : String}
    (read : source.next? = some (line, next)) : next.bytes.length < source.bytes.length := by
  simp only [Source.next?, Option.map_eq_some_iff] at read
  obtain ⟨⟨raw, left⟩, pulled, same⟩ := read
  simp only [Prod.mk.injEq] at same
  rw [← same.2]
  exact pull_shorter pulled

/-- Every line of a source, pulled one after the other, and the source at its end. -/
def Source.drain (source : Source) : List String × Source :=
  match _read : source.next? with
  | none => ([], source)
  | some (line, next) =>
    let (rest, finished) := next.drain
    (line :: rest, finished)
termination_by source.bytes.length
decreasing_by exact Source.next?_shorter _read

end BoardBench.Console
