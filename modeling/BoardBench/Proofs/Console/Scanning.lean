import BoardBench.Proofs.Console.Window
import Mathlib.Computability.RegularExpressions

/-!
# The scanner by its description

Main result: what the scanner reports and keeps is told by two places in the stream, that of the
first text with the begin marker and that of the first text after it that closes the window.

Proof strategy: a stream has no opening text, or it is split at the first one; what follows has no
closing text, or it is split at the first one. In each of these three shapes the reports are written
down part by part.
-/
namespace BoardBench.Console

/-- A line as it is handed to the scanner: as it was read, or normalized already. -/
inductive Feeding where
  | raw (line : String)
  | normal (text : String)
  deriving Repr, DecidableEq

def Feeding.text : Feeding → String
  | raw line => normalize line
  | normal text => text

/-! ### The description -/

/-- Where the first text stands that holds the begin marker. -/
def openedAt? (texts : List String) : Option Nat :=
  texts.findIdx? isOpening

/-- Where the first text after it stands that holds the end marker and not the begin marker. -/
def closedAt? (texts : List String) : Option Nat :=
  (openedAt? texts).bind fun opened =>
    ((texts.drop (opened + 1)).findIdx? isClosing).map (opened + 1 + ·)

/-- The place lies after the opening text, and before the closing one if there is one. -/
def IsBetween (texts : List String) (index : Nat) : Prop :=
  ∃ opened ∈ openedAt? texts, opened < index ∧ ∀ closed ∈ closedAt? texts, index < closed

/-- The texts at these places. -/
def between (texts : List String) : List String :=
  match openedAt? texts, closedAt? texts with
  | none, _ => []
  | some opened, none => texts.drop (opened + 1)
  | some opened, some closed => (texts.take closed).drop (opened + 1)

/-- What the scanner may report in a row. -/
def reports : RegularExpression Scan :=
  .star (.char .outside) *
    (1 + .char .opened * .star (.char .opened + .char .captured + .char .blank) *
      (1 + .char .closed * .star (.char .done)))

/-! ### Where the places are -/

/-- The first place of a property in a list that is split there. -/
theorem findIdx?_append_cons {property : String → Bool} {before after : List String}
    {text : String} (earlier : ∀ other ∈ before, property other = false)
    (here : property text = true) :
    (before ++ text :: after).findIdx? property = some before.length := by
  have early : before.findIdx? property = none := by simpa using earlier
  rw [List.findIdx?_append, early, List.findIdx?_cons, here]
  simp

section Places

variable {before within : List String} {opening : String}

theorem openedAt?_outside {texts : List String}
    (unopened : ∀ text ∈ texts, isOpening text = false) :
    openedAt? texts = none := by
  simpa [openedAt?] using unopened

theorem closedAt?_outside {texts : List String}
    (unopened : ∀ text ∈ texts, isOpening text = false) :
    closedAt? texts = none := by
  rw [closedAt?, openedAt?_outside unopened]
  rfl

variable (unopened : ∀ text ∈ before, isOpening text = false) (opens : isOpening opening = true)
include unopened opens

theorem openedAt?_split (rest : List String) :
    openedAt? (before ++ opening :: rest) = some before.length :=
  findIdx?_append_cons unopened opens

theorem closedAt?_split (rest : List String) :
    closedAt? (before ++ opening :: rest) =
      (rest.findIdx? isClosing).map (before.length + 1 + ·) := by
  have behind : (before ++ opening :: rest).drop (before.length + 1) = rest := by
    simp
  rw [closedAt?, openedAt?_split unopened opens, Option.bind_some, behind]

theorem closedAt?_inside (unclosed : ∀ text ∈ within, isClosing text = false) :
    closedAt? (before ++ opening :: within) = none := by
  rw [closedAt?_split unopened opens, List.findIdx?_eq_none_iff.mpr unclosed]
  rfl

theorem closedAt?_finished {closing : String} (unclosed : ∀ text ∈ within, isClosing text = false)
    (closes : isClosing closing = true) (after : List String) :
    closedAt? (before ++ opening :: (within ++ closing :: after)) =
      some (before.length + 1 + within.length) := by
  rw [closedAt?_split unopened opens, findIdx?_append_cons unclosed closes]
  rfl

end Places

/-! ### What is reported -/

namespace Window

/-- Hands one line to the scanner. -/
def take (window : Window) : Feeding → Scan × Window
  | .raw line => window.feed line
  | .normal text => window.feedNormal text

/-- The reports on lines one after the other, and the window after them. -/
def takeAll (window : Window) : List Feeding → List Scan × Window
  | [] => ([], window)
  | feeding :: rest =>
    let (scan, next) := window.take feeding
    let (scans, last) := next.takeAll rest
    (scan :: scans, last)

/-- The reports on normalized texts. -/
def scans (window : Window) : List String → List Scan
  | [] => []
  | text :: rest => (window.feedNormal text).1 :: (window.feedNormal text).2.scans rest

theorem take_eq (window : Window) (feeding : Feeding) :
    window.take feeding = window.feedNormal feeding.text := by
  cases feeding <;> rfl

/-- Only the texts of the lines count. -/
theorem takeAll_eq (window : Window) (feedings : List Feeding) :
    window.takeAll feedings =
      (window.scans (feedings.map Feeding.text), window.scan (feedings.map Feeding.text)) := by
  induction feedings generalizing window with
  | nil => rfl
  | cons feeding rest ih =>
    simp only [takeAll, take_eq, ih]
    rfl

theorem scans_append (window : Window) (left right : List String) :
    window.scans (left ++ right) = window.scans left ++ (window.scan left).scans right := by
  induction left generalizing window with
  | nil => rfl
  | cons text rest ih => exact congrArg (_ :: ·) (ih _)

end Window

/-- What an open window makes of a text that does not close it. -/
def insideScan (text : String) : Scan :=
  if isOpening text then .opened else if text.isEmpty then .blank else .captured

theorem insideScan_eq_captured_iff (text : String) :
    insideScan text = .captured ↔ isCaptured text = true := by
  unfold insideScan isCaptured isOpening
  split
  next opens => simp [opens]
  next unopened =>
    split
    next blank => simp [blank]
    next visible => simp [unopened, visible]

theorem feedNormal_insideScan {window : Window} {text : String} (inside : window.phase = .inside)
    (unclosed : isClosing text = false) : (window.feedNormal text).1 = insideScan text := by
  simp only [isClosing, Bool.and_eq_false_iff, Bool.not_eq_false'] at unclosed
  simp only [Window.feedNormal, inside, insideScan, isOpening]
  by_cases opens : contains text beginMarker = true
  · simp [opens]
  · have quiet : contains text endMarker = false := unclosed.resolve_right opens
    by_cases blank : text.isEmpty = true
    · simp [opens, quiet, blank]
    · simp [opens, quiet, blank]

namespace Window

theorem scans_outside {texts : List String} (unopened : ∀ text ∈ texts, isOpening text = false) :
    ({} : Window).scans texts = List.replicate texts.length .outside := by
  induction texts with
  | nil => rfl
  | cons text rest ih =>
    simp only [List.mem_cons, forall_eq_or_imp] at unopened
    have here : ({} : Window).feedNormal text = (.outside, {}) := by
      rw [feedNormal_outside rfl, unopened.1]
      rfl
    rw [scans, here, ih unopened.2]
    rfl

theorem scans_inside {texts : List String} {window : Window} (inside : window.phase = .inside)
    (unclosed : ∀ text ∈ texts, isClosing text = false) :
    window.scans texts = texts.map insideScan := by
  induction texts generalizing window with
  | nil => rfl
  | cons text rest ih =>
    simp only [List.mem_cons, forall_eq_or_imp] at unclosed
    have still : (window.feedNormal text).2.phase = .inside := by
      rw [feedNormal_inside inside unclosed.1]
      exact inside
    rw [scans, feedNormal_insideScan inside unclosed.1, ih still unclosed.2]
    rfl

theorem scans_finished {window : Window} (finished : window.isFinished = true)
    (texts : List String) : window.scans texts = List.replicate texts.length .done := by
  induction texts with
  | nil => rfl
  | cons text rest ih =>
    rw [scans, feedNormal_finished finished, ih]
    rfl

section Split

variable {before within : List String} {opening : String}
  (unopened : ∀ text ∈ before, isOpening text = false) (opens : isOpening opening = true)
  (unclosed : ∀ text ∈ within, isClosing text = false)
include unopened opens unclosed

theorem scans_opened :
    ({} : Window).scans (before ++ opening :: within) =
      List.replicate before.length .outside ++ .opened :: within.map insideScan := by
  have here : ({} : Window).feedNormal opening = (.opened, { phase := .inside }) := by
    rw [feedNormal_outside rfl, if_pos opens]
  rw [scans_append, scans_outside unopened, scan_outside unopened, scans, here]
  have followed : ({ phase := .inside } : Window).scans within = within.map insideScan :=
    scans_inside rfl unclosed
  rw [followed]

theorem scans_closed {closing : String} (closes : isClosing closing = true) (after : List String) :
    ({} : Window).scans (before ++ opening :: (within ++ closing :: after)) =
      List.replicate before.length .outside ++
        .opened :: (within.map insideScan ++ .closed :: List.replicate after.length .done) := by
  have upTo := scans_opened unopened opens unclosed
  have inside : (({} : Window).scan (before ++ opening :: within)).phase = .inside := by
    rw [scan_opened unopened opens unclosed]
  have settled (captured : List String) :
      ({ phase := .finished, captured } : Window).scans after =
        List.replicate after.length .done := scans_finished rfl after
  rw [← List.cons_append, ← List.append_assoc, scans_append, upTo, scans,
    feedNormal_closing inside closes]
  simp [settled]

end Split

end Window

/-! ### Reports in a row -/

theorem mem_star {part : RegularExpression Scan} {scans : List Scan}
    (each : ∀ scan ∈ scans, [scan] ∈ part.matches') : scans ∈ part.star.matches' := by
  rw [RegularExpression.matches'_star, Language.mem_kstar]
  refine ⟨scans.map fun scan => [scan], by simp [← List.flatMap_def], ?_⟩
  intro piece member
  obtain ⟨scan, among, rfl⟩ := List.mem_map.mp member
  exact each scan among

theorem mem_mul {one other : RegularExpression Scan} {first rest : List Scan}
    (left : first ∈ one.matches') (right : rest ∈ other.matches') :
    first ++ rest ∈ (one * other).matches' :=
  Language.append_mem_mul left right

theorem cons_mem_mul {scan : Scan} {other : RegularExpression Scan} {rest : List Scan}
    (right : rest ∈ other.matches') :
    scan :: rest ∈ (RegularExpression.char scan * other).matches' := by
  have alone : [scan] ∈ (RegularExpression.char scan).matches' := rfl
  exact mem_mul alone right

theorem replicate_mem_star (count : Nat) (scan : Scan) :
    List.replicate count scan ∈ (RegularExpression.char scan).star.matches' := by
  apply mem_star
  intro other member
  rw [List.eq_of_mem_replicate member]
  rfl

theorem map_insideScan_mem_star (texts : List String) :
    texts.map insideScan ∈
      (RegularExpression.char Scan.opened + .char .captured + .char .blank).star.matches' := by
  apply mem_star
  intro scan member
  obtain ⟨text, -, rfl⟩ := List.mem_map.mp member
  unfold insideScan
  split
  · exact .inl (.inl rfl)
  · split
    · exact .inr rfl
    · exact .inl (.inr rfl)

theorem scans_mem_reports (texts : List String) :
    ({} : Window).scans texts ∈ reports.matches' := by
  cases shape texts with
  | outside unopened =>
    rw [Window.scans_outside unopened, ← List.append_nil (List.replicate _ _)]
    exact mem_mul (replicate_mem_star texts.length .outside) (.inl rfl)
  | inside unopened opens unclosed =>
    rw [Window.scans_opened unopened opens unclosed]
    refine mem_mul (replicate_mem_star _ .outside) (.inr ?_)
    -- The window stays open, so nothing follows what it makes of the texts inside.
    rw [← List.append_nil (_ :: _)]
    exact mem_mul (cons_mem_mul (map_insideScan_mem_star _)) (.inl rfl)
  | finished after unopened opens unclosed closes =>
    rw [Window.scans_closed unopened opens unclosed closes]
    refine mem_mul (replicate_mem_star _ .outside) (.inr ?_)
    rw [← List.cons_append]
    refine mem_mul (cons_mem_mul (map_insideScan_mem_star _)) (.inr ?_)
    exact cons_mem_mul (replicate_mem_star _ .done)

/-! ### What is captured -/

section Items

variable {α : Type} (before : List α) (middle : α) (after : List α)

theorem getElem?_behind (rest : Nat) :
    (before ++ middle :: after)[before.length + 1 + rest]? = after[rest]? := by
  rw [List.getElem?_append_right (by omega)]
  simp [Nat.add_assoc, Nat.add_comm 1 rest]

/-- A place in a list that is split at an item. -/
theorem place_cases (index : Nat) :
    (index < before.length ∧ (before ++ middle :: after)[index]? = before[index]?) ∨
      (index = before.length ∧ (before ++ middle :: after)[index]? = some middle) ∨
      ∃ rest, index = before.length + 1 + rest := by
  rcases Nat.lt_trichotomy index before.length with early | rfl | late
  · exact .inl ⟨early, List.getElem?_append_left early⟩
  · exact .inr (.inl ⟨rfl, by simp⟩)
  · exact .inr (.inr (Nat.exists_eq_add_of_le late))

end Items

theorem getElem?_insideScan_iff (texts : List String) (index : Nat) :
    (texts.map insideScan)[index]? = some .captured ↔
      ∃ text, texts[index]? = some text ∧ isCaptured text = true := by
  simp [insideScan_eq_captured_iff]

section Captured

variable {before within : List String} {opening closing : String}
  (unopened : ∀ text ∈ before, isOpening text = false) (opens : isOpening opening = true)
  (unclosed : ∀ text ∈ within, isClosing text = false)
include unopened opens unclosed

theorem isBetween_inside_iff (index : Nat) :
    IsBetween (before ++ opening :: within) index ↔ before.length < index := by
  simp [IsBetween, openedAt?_split unopened opens, closedAt?_inside unopened opens unclosed]

theorem isBetween_finished_iff (closes : isClosing closing = true) (after : List String)
    (index : Nat) :
    IsBetween (before ++ opening :: (within ++ closing :: after)) index ↔
      before.length < index ∧ index < before.length + 1 + within.length := by
  simp [IsBetween, openedAt?_split unopened opens,
    closedAt?_finished unopened opens unclosed closes]

/-- The texts inside are reported as captured where they are. -/
theorem captured_inside_iff (index : Nat) :
    (({} : Window).scans (before ++ opening :: within))[index]? = some .captured ↔
      IsBetween (before ++ opening :: within) index ∧
        ∃ text, (before ++ opening :: within)[index]? = some text ∧ isCaptured text = true := by
  rw [Window.scans_opened unopened opens unclosed, isBetween_inside_iff unopened opens unclosed]
  have count : (List.replicate before.length Scan.outside).length = before.length :=
    List.length_replicate
  rcases place_cases (List.replicate before.length Scan.outside) .opened
      (within.map insideScan) index with
    ⟨early, here⟩ | ⟨rfl, here⟩ | ⟨rest, rfl⟩
  · rw [here]
    have notBehind : ¬before.length < index := by omega
    simp [notBehind, List.getElem?_replicate]
  · rw [here]
    simp
  · have behind : before.length < before.length + 1 + rest := by omega
    rw [getElem?_behind, count, getElem?_behind, getElem?_insideScan_iff]
    exact (and_iff_right behind).symm

theorem captured_finished_iff (closes : isClosing closing = true) (after : List String)
    (index : Nat) :
    (({} : Window).scans (before ++ opening :: (within ++ closing :: after)))[index]? =
        some .captured ↔
      IsBetween (before ++ opening :: (within ++ closing :: after)) index ∧
        ∃ text, (before ++ opening :: (within ++ closing :: after))[index]? = some text ∧
          isCaptured text = true := by
  rw [Window.scans_closed unopened opens unclosed closes,
    isBetween_finished_iff unopened opens unclosed closes]
  have count : (List.replicate before.length Scan.outside).length = before.length :=
    List.length_replicate
  have countWithin : (within.map insideScan).length = within.length := List.length_map _
  rcases place_cases (List.replicate before.length Scan.outside) .opened
      (within.map insideScan ++ .closed :: List.replicate after.length .done) index with
    ⟨early, here⟩ | ⟨rfl, here⟩ | ⟨rest, rfl⟩
  · rw [here]
    have notBehind : ¬before.length < index := by omega
    simp [notBehind, List.getElem?_replicate]
  · rw [here]
    simp
  -- Behind the opening text the place is in front of the closing one, on it, or behind it.
  · rw [getElem?_behind, count, getElem?_behind]
    rcases place_cases (within.map insideScan) .closed
        (List.replicate after.length .done) rest with
      ⟨inside, there⟩ | ⟨rfl, there⟩ | ⟨late, rfl⟩
    · rw [countWithin] at inside
      have isWithin : before.length < before.length + 1 + rest ∧
          before.length + 1 + rest < before.length + 1 + within.length := by omega
      rw [there, getElem?_insideScan_iff, List.getElem?_append_left inside]
      exact (and_iff_right isWithin).symm
    · rw [there]
      simp
    · rw [getElem?_behind]
      constructor
      · intro reported
        simp [List.getElem?_replicate] at reported
      · rintro ⟨⟨-, inside⟩, -⟩
        omega

end Captured

theorem captured_iff (texts : List String) (index : Nat) :
    (({} : Window).scans texts)[index]? = some .captured ↔
      IsBetween texts index ∧ ∃ text, texts[index]? = some text ∧ isCaptured text = true := by
  cases shape texts with
  | outside unopened =>
    rw [Window.scans_outside unopened]
    simp [IsBetween, openedAt?_outside unopened, List.getElem?_replicate]
  | inside unopened opens unclosed => exact captured_inside_iff unopened opens unclosed index
  | finished after unopened opens unclosed closes =>
    exact captured_finished_iff unopened opens unclosed closes after index

/-! ### The window -/

/-- The window is known by its two places. -/
theorem scan_eq (texts : List String) :
    ({} : Window).scan texts =
      { phase :=
          if (closedAt? texts).isSome then .finished
          else if (openedAt? texts).isSome then .inside
          else .outside
        captured := (between texts).filter isCaptured } := by
  cases shape texts with
  | outside unopened =>
    rw [Window.scan_outside unopened, between, openedAt?_outside unopened,
      closedAt?_outside unopened]
    rfl
  | @inside before within opening unopened opens unclosed =>
    have behind : (before ++ opening :: within).drop (before.length + 1) = within := by simp
    rw [Window.scan_opened unopened opens unclosed, between, openedAt?_split unopened opens,
      closedAt?_inside unopened opens unclosed]
    simp only [behind]
    rfl
  | @finished before within opening closing after unopened opens unclosed closes =>
    have upTo : (before ++ opening :: (within ++ closing :: after)).take
        (before.length + 1 + within.length) = before ++ opening :: within := by
      simp [List.take_append, Nat.add_assoc, Nat.add_comm 1]
    have behind : (before ++ opening :: within).drop (before.length + 1) = within := by simp
    have split := Window.scan_closed unopened opens unclosed closes after
    rw [List.append_assoc, List.cons_append] at split
    rw [split, between, openedAt?_split unopened opens,
      closedAt?_finished unopened opens unclosed closes]
    simp only [upTo, behind]
    rfl

section Scan

variable (texts : List String)

theorem length_scans (window : Window) : (window.scans texts).length = texts.length := by
  induction texts generalizing window with
  | nil => rfl
  | cons text rest ih => exact congrArg (· + 1) (ih _)

theorem isFinished_scan : (({} : Window).scan texts).isFinished = (closedAt? texts).isSome := by
  rw [scan_eq]
  cases closedAt? texts <;> cases openedAt? texts <;> rfl

theorem isInside_scan :
    (({} : Window).scan texts).isInside =
      ((openedAt? texts).isSome && (closedAt? texts).isNone) := by
  rw [scan_eq]
  cases closedAt? texts <;> cases openedAt? texts <;> rfl

theorem rows_scan :
    (({} : Window).scan texts).rows =
      if (closedAt? texts).isSome then Telemetry.parseRows (({} : Window).scan texts).captured
      else [] := by
  rw [Window.rows, isFinished_scan]

end Scan

/-! ### The description holds -/

/-- The window is finished exactly if a text closes it, and inside exactly if one has opened it and
none has closed it. It has captured the texts between these two that are not blank and do not hold
the begin marker. The reports come in the order of the phases, one for each line, and a text is
reported as captured where it is captured. There are rows only once the window is closed, those of
what was captured, and no further lines change them. -/
theorem scanner_described (feedings : List Feeding) :
    let texts := feedings.map Feeding.text
    let scans := (({} : Window).takeAll feedings).1
    let window := (({} : Window).takeAll feedings).2
    window.isFinished = (closedAt? texts).isSome ∧
    window.isInside = ((openedAt? texts).isSome && (closedAt? texts).isNone) ∧
    window.captured = (between texts).filter isCaptured ∧
    (scans.length = feedings.length ∧ scans ∈ reports.matches' ∧
      ∀ index, scans[index]? = some .captured ↔
        IsBetween texts index ∧ ∃ text, texts[index]? = some text ∧ isCaptured text = true) ∧
    window.rows =
      (if (closedAt? texts).isSome then Telemetry.parseRows window.captured else []) ∧
    ∀ more, (closedAt? texts).isSome = true →
      (({} : Window).takeAll (feedings ++ more)).2 = window := by
  simp only [Window.takeAll_eq]
  refine ⟨isFinished_scan _, isInside_scan _, ?_, ⟨?_, scans_mem_reports _, captured_iff _⟩,
    rows_scan _, ?_⟩
  · rw [scan_eq]
  · rw [length_scans, List.length_map]
  · intro more closed
    rw [← isFinished_scan] at closed
    rw [List.map_append, Window.scan_append, Window.scan_finished closed]

end BoardBench.Console
