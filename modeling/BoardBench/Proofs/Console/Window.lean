import BoardBench.Console.Window

/-!
# What the scanner makes of a stream

A line opens the window, closes it, or is captured by it, and which of these it can do is a property
of its text alone. Lines before the opening one leave the window as it is, lines inside add what is
captured of them, and lines after the closing one change nothing. So a window is known by where its
first opening line and the first closing line after that stand.
-/
namespace BoardBench.Console

/-- The text holds the begin marker. -/
def isOpening (text : String) : Bool :=
  contains text beginMarker

/-- The text holds the end marker and not the begin marker, which would win. -/
def isClosing (text : String) : Bool :=
  contains text endMarker && !contains text beginMarker

/-- What an open window captures unless it is closed: texts that are not blank and do not hold the
begin marker. -/
def isCaptured (text : String) : Bool :=
  !text.isEmpty && !contains text beginMarker

/-! ### The shape of a stream -/

/-- A stream is split at its first opening text and at the first closing one after that. -/
inductive Shape : List String → Prop
  | outside {texts : List String} :
    (∀ text ∈ texts, isOpening text = false) → Shape texts
  | inside {before within : List String} {opening : String} :
    (∀ text ∈ before, isOpening text = false) → isOpening opening = true →
    (∀ text ∈ within, isClosing text = false) → Shape (before ++ opening :: within)
  | finished {before within : List String} {opening closing : String} (after : List String) :
    (∀ text ∈ before, isOpening text = false) → isOpening opening = true →
    (∀ text ∈ within, isClosing text = false) → isClosing closing = true →
    Shape (before ++ opening :: (within ++ closing :: after))

theorem shape (texts : List String) : Shape texts := by
  cases first : texts.find? isOpening with
  | none => exact .outside (by simpa using first)
  | some opening =>
    obtain ⟨opens, before, rest, rfl, unopened⟩ := List.find?_eq_some_iff_append.mp first
    cases last : rest.find? isClosing with
    | none => exact .inside (by simpa using unopened) opens (by simpa using last)
    | some closing =>
      obtain ⟨closes, within, after, rfl, unclosed⟩ := List.find?_eq_some_iff_append.mp last
      exact .finished after (by simpa using unopened) opens (by simpa using unclosed) closes

namespace Window

/-- The window after all texts, which are normalized. -/
def scan (window : Window) (texts : List String) : Window :=
  texts.foldl (fun state text => (state.feedNormal text).2) window

theorem feedAll_eq_scan (window : Window) (lines : List String) :
    window.feedAll lines = window.scan (lines.map normalize) := by
  simp only [feedAll, scan, List.foldl_map]
  rfl

theorem scan_append (window : Window) (left right : List String) :
    window.scan (left ++ right) = (window.scan left).scan right :=
  List.foldl_append

theorem feedAll_append (window : Window) (left right : List String) :
    window.feedAll (left ++ right) = (window.feedAll left).feedAll right :=
  List.foldl_append

/-! ### One line -/

theorem feedNormal_outside {window : Window} {text : String} (outside : window.phase = .outside) :
    window.feedNormal text =
      if isOpening text then (.opened, { window with phase := .inside })
      else (.outside, window) := by
  rw [feedNormal, outside]
  rfl

theorem feedNormal_closing {window : Window} {text : String} (inside : window.phase = .inside)
    (closing : isClosing text = true) :
    window.feedNormal text = (.closed, { window with phase := .finished }) := by
  simp only [isClosing, Bool.and_eq_true, Bool.not_eq_true'] at closing
  simp [feedNormal, inside, closing]

theorem feedNormal_inside {window : Window} {text : String} (inside : window.phase = .inside)
    (unclosed : isClosing text = false) :
    (window.feedNormal text).2 =
      { window with captured := window.captured ++ [text].filter isCaptured } := by
  obtain ⟨phase, captured⟩ := window
  subst inside
  simp only [isClosing, Bool.and_eq_false_iff, Bool.not_eq_false'] at unclosed
  simp only [feedNormal]
  by_cases opens : contains text beginMarker = true
  · simp [opens, isCaptured]
  · have quiet : contains text endMarker = false := unclosed.resolve_right opens
    by_cases blank : text.isEmpty = true
    · simp [opens, quiet, blank, isCaptured]
    · simp [opens, quiet, blank, isCaptured]

theorem feedNormal_finished {window : Window} (finished : window.isFinished = true)
    (text : String) :
    window.feedNormal text = (.done, window) := by
  have phase : window.phase = .finished := by simpa [isFinished] using finished
  rw [feedNormal, phase]

/-- The scanner reports the closing of the window exactly when it becomes finished. -/
theorem closed_iff (window : Window) (text : String) :
    (window.feedNormal text).1 = .closed ↔
      window.isFinished = false ∧ (window.feedNormal text).2.isFinished = true := by
  cases phase : window.phase with
  | outside =>
    rw [feedNormal_outside phase]
    split <;> simp [isFinished, phase]
  | inside =>
    by_cases closing : isClosing text = true
    · simp [feedNormal_closing phase closing, isFinished, phase]
    · rw [Bool.not_eq_true] at closing
      have kept := feedNormal_inside phase closing
      have unfinished : (window.feedNormal text).2.isFinished = false := by
        simp [kept, isFinished, phase]
      simp only [unfinished, Bool.false_eq_true, and_false, iff_false]
      simp only [isClosing, Bool.and_eq_false_iff, Bool.not_eq_false'] at closing
      simp only [feedNormal, phase]
      split
      · simp
      · split
        · simp_all
        · split <;> simp
  | finished =>
    have finished : window.isFinished = true := by simp [isFinished, phase]
    simp [feedNormal_finished finished, finished]

/-! ### Many lines -/

theorem scan_outside {texts : List String} (closed : ∀ text ∈ texts, isOpening text = false) :
    ({} : Window).scan texts = {} := by
  induction texts with
  | nil => rfl
  | cons text rest ih =>
    simp only [List.mem_cons, forall_eq_or_imp] at closed
    have here : ({} : Window).feedNormal text = (.outside, {}) := by
      rw [feedNormal_outside rfl, closed.1]
      rfl
    rw [scan, List.foldl_cons, here]
    exact ih closed.2

theorem scan_inside {texts : List String} (captured : List String)
    (unclosed : ∀ text ∈ texts, isClosing text = false) :
    ({ phase := .inside, captured } : Window).scan texts =
      { phase := .inside, captured := captured ++ texts.filter isCaptured } := by
  induction texts generalizing captured with
  | nil => simp [scan]
  | cons text rest ih =>
    simp only [List.mem_cons, forall_eq_or_imp] at unclosed
    rw [scan, List.foldl_cons, feedNormal_inside rfl unclosed.1]
    refine (ih (captured ++ [text].filter isCaptured) unclosed.2).trans ?_
    rw [List.append_assoc, ← List.filter_append, List.singleton_append]

theorem scan_finished {window : Window} (finished : window.isFinished = true)
    (texts : List String) : window.scan texts = window := by
  induction texts with
  | nil => rfl
  | cons text rest ih =>
    rw [scan, List.foldl_cons, feedNormal_finished finished]
    exact ih

theorem scan_opened {before within : List String} {opening : String}
    (closed : ∀ text ∈ before, isOpening text = false) (opens : isOpening opening = true)
    (unclosed : ∀ text ∈ within, isClosing text = false) :
    ({} : Window).scan (before ++ opening :: within) =
      { phase := .inside, captured := within.filter isCaptured } := by
  have here : ({} : Window).feedNormal opening = (.opened, { phase := .inside }) := by
    rw [feedNormal_outside rfl, if_pos opens]
  rw [scan_append, scan_outside closed, scan, List.foldl_cons, here]
  change Window.scan _ within = _
  rw [scan_inside [] unclosed]
  simp

theorem scan_closed {before within : List String} {opening closing : String}
    (closed : ∀ text ∈ before, isOpening text = false) (opens : isOpening opening = true)
    (unclosed : ∀ text ∈ within, isClosing text = false) (closes : isClosing closing = true)
    (after : List String) :
    ({} : Window).scan (before ++ opening :: within ++ closing :: after) =
      { phase := .finished, captured := within.filter isCaptured } := by
  rw [scan_append, scan_opened closed opens unclosed, scan, List.foldl_cons,
    feedNormal_closing rfl closes]
  exact scan_finished rfl after

/-- The window is finished exactly if some line closes it after the first one that opens it. -/
theorem isFinished_scan_iff (texts : List String) :
    (({} : Window).scan texts).isFinished = true ↔
      ∃ before opening within closing after,
        texts = before ++ opening :: within ++ closing :: after ∧
        (∀ text ∈ before, isOpening text = false) ∧ isOpening opening = true ∧
        isClosing closing = true := by
  constructor
  · intro finished
    cases shape texts with
    | outside unopened =>
      rw [scan_outside unopened] at finished
      cases finished
    | inside unopened opens unclosed =>
      rw [scan_opened unopened opens unclosed] at finished
      cases finished
    | @finished before within opening closing after unopened opens _ closes =>
      exact ⟨before, opening, within, closing, after, by simp, unopened, opens, closes⟩
  · rintro ⟨before, opening, within, closing, after, split, closed, opens, closes⟩
    -- An earlier line may close the window; the first one that does is the one that counts.
    cases first : (within ++ [closing]).find? isClosing with
    | none => simp [closes] at first
    | some earliest =>
      obtain ⟨closesFirst, start, rest, splits, unclosed⟩ := List.find?_eq_some_iff_append.mp first
      have rearranged : texts = before ++ opening :: start ++ earliest :: (rest ++ after) := by
        rw [split]
        have same := congrArg (· ++ after) splits
        simpa using same
      rw [rearranged, scan_closed closed opens (by simpa using unclosed) closesFirst]
      rfl

/-! ### Reading up to the closing line -/

/-- The lines up to the first one at which the scanner reports that the window is closed. -/
def untilClosed (window : Window) : List String → List String
  | [] => []
  | line :: rest =>
    if (window.feed line).1 = .closed then [line] else line :: (window.feed line).2.untilClosed rest

theorem feedAll_finished {window : Window} (finished : window.isFinished = true)
    (lines : List String) : window.feedAll lines = window := by
  rw [feedAll_eq_scan, scan_finished finished]

theorem untilClosed_prefix (window : Window) (lines : List String) :
    window.untilClosed lines <+: lines := by
  induction lines generalizing window with
  | nil => exact List.prefix_rfl
  | cons line rest ih =>
    rw [untilClosed]
    split
    next => exact ⟨rest, rfl⟩
    next => exact List.cons_prefix_cons.mpr ⟨rfl, ih (window.feed line).2⟩

/-- Reading on after the closing line changes nothing. -/
theorem feedUntilClosed_eq_feedAll (window : Window) (lines : List String) :
    window.feedUntilClosed lines = window.feedAll lines := by
  induction lines generalizing window with
  | nil => rfl
  | cons line rest ih =>
    rw [feedUntilClosed]
    split
    next finished => exact (feedAll_finished finished rest).symm
    next => exact ih (window.feed line).2

theorem feedAll_untilClosed (window : Window) (lines : List String) :
    window.feedAll (window.untilClosed lines) = window.feedAll lines := by
  induction lines generalizing window with
  | nil => rfl
  | cons line rest ih =>
    rw [untilClosed]
    split
    next closed =>
      have finished := ((closed_iff window (normalize line)).mp closed).2
      exact (feedAll_finished finished rest).symm
    next => exact ih (window.feed line).2

/-- Lines after a closing one are not read. -/
theorem untilClosed_append {window : Window} {left : List String}
    (open_ : window.isFinished = false) (finished : (window.feedAll left).isFinished = true)
    (right : List String) : window.untilClosed (left ++ right) = window.untilClosed left := by
  induction left generalizing window with
  | nil =>
    rw [feedAll, List.foldl_nil, open_] at finished
    cases finished
  | cons line rest ih =>
    rw [List.cons_append, untilClosed, untilClosed]
    split
    next => rfl
    next unclosed =>
      -- A line that is not reported as closing leaves an open window open.
      have going : (window.feed line).2.isFinished = false := by
        rw [← Bool.not_eq_true]
        exact fun done => unclosed ((closed_iff window (normalize line)).mpr ⟨open_, done⟩)
      rw [ih going finished]

/-- As long as the window is open, all lines are read. -/
theorem untilClosed_unfinished {window : Window} {init : List String}
    (unfinished : (window.feedAll init).isFinished = false) (rest : List String) :
    window.untilClosed (init ++ rest) = init ++ (window.feedAll init).untilClosed rest := by
  induction init generalizing window with
  | nil => rfl
  | cons line more ih =>
    rw [List.cons_append, untilClosed]
    split
    next closed =>
      have finished := ((closed_iff window (normalize line)).mp closed).2
      -- A window that the line has finished would stay finished.
      have stays : window.feedAll (line :: more) = (window.feed line).2 :=
        feedAll_finished finished more
      rw [stays, feed, finished] at unfinished
      cases unfinished
    next => exact congrArg (line :: ·) (ih unfinished)

theorem untilClosed_singleton (window : Window) (line : String) :
    window.untilClosed [line] = [line] := by
  rw [untilClosed]
  split <;> rfl

/-- A blank line leaves the window as it is. -/
theorem feed_blank (window : Window) : (window.feed "").2 = window := by
  have blank : normalize "" = "" := by rfl
  rw [feed, blank]
  cases phase : window.phase with
  | outside => rw [feedNormal_outside phase, if_neg (by decide)]
  | inside =>
    rw [feedNormal_inside phase (by decide)]
    simp [isCaptured]
  | finished => rw [feedNormal_finished (by simp [isFinished, phase])]

theorem feedAll_dropBlank (window : Window) (lines : List String) :
    window.feedAll (if lines.getLast? = some "" then lines.dropLast else lines) =
      window.feedAll lines := by
  split
  next blank =>
    obtain ⟨init, split⟩ := List.getLast?_eq_some_iff.mp blank
    rw [split, List.dropLast_concat, feedAll_append]
    exact (feed_blank _).symm
  next => rfl

end Window

end BoardBench.Console
