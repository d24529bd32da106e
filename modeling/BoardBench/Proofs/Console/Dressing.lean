import BoardBench.Proofs.Console.Normal
import BoardBench.Proofs.Console.Scanning
import Mathlib.Data.List.Forall2

/-!
# One layer of dressing

Main result: normalizing takes off one layer of what stands around a text and nothing of the text.
Behind a `#` the text may be anything, also something that looks like another layer; without one it
must not be taken for a layer itself. So a scanner sees no difference between texts and the same
texts dressed, each in its own way.

Proof strategy: a pattern is matched by the texts that fill it. With that the layer in front of a
text is a decoration, which is known to go, and the blanks around it are trimmed off.
-/
namespace BoardBench.Console

/-! ### Filling a pattern -/

/-- The text has one character for each place of the pattern, and each of them fits. -/
def Fills (slots : List Slot) (text : List Char) : Prop :=
  List.Forall₂ (fun slot char => slot.admits char = true) slots text

theorem afterSlots?_eq_some_iff (slots : List Slot) (text left : List Char) :
    afterSlots? slots text = some left ↔ ∃ front, Fills slots front ∧ text = front ++ left := by
  constructor
  · intro matched
    induction slots generalizing text with
    | nil =>
      simp only [afterSlots?, Option.some.injEq] at matched
      exact ⟨[], .nil, matched⟩
    | cons slot slots ih =>
      cases text with
      | nil => simp [afterSlots?] at matched
      | cons char rest =>
        rw [afterSlots?] at matched
        split at matched
        next admitted =>
          obtain ⟨front, fills, rfl⟩ := ih rest matched
          exact ⟨char :: front, .cons admitted fills, rfl⟩
        next => cases matched
  · rintro ⟨front, fills, rfl⟩
    apply afterSlots?_append
    induction fills with
    | nil => rfl
    | cons admitted _ ih => rw [afterSlots?, if_pos admitted, ih]

/-- A text that begins neither with `#` nor with what fills the timestamp pattern up to its `#`. -/
structure IsUnmarked (text : List Char) : Prop where
  unhashed : text.head? ≠ some '#'
  unstamped : ∀ front, front <+: text → ¬Fills stampHead front

theorem IsUnmarked.isPlain {text : List Char} (unmarked : IsUnmarked text) : IsPlain text where
  unhashed := unmarked.unhashed
  unstamped := by
    cases matched : afterSlots? stampHead text with
    | none => rfl
    | some left =>
      obtain ⟨front, fills, split⟩ := (afterSlots?_eq_some_iff _ text left).mp matched
      exact absurd fills (unmarked.unstamped front ⟨left, split.symm⟩)

/-! ### Dressing -/

/-- What may be put around a text: a timestamp and a `#` in front, each of them there or not, then
blanks, and behind it blanks and any run of line ends. -/
structure Dressing where
  stamp : List Char := []
  hash : Bool := false
  before : List Char := []
  after : List Char := []
  ending : List Char := []
  stamps : stamp = [] ∨ Fills timestamp stamp
  blankBefore : AllBlank before
  blankAfter : AllBlank after
  ends : ∀ char ∈ ending, char = '\r' ∨ char = '\n'

namespace Dressing

/-- The line that a text becomes. -/
def around (dressing : Dressing) (text : String) : String :=
  String.ofList (dressing.stamp ++ (if dressing.hash then ['#'] else []) ++ dressing.before ++
    text.toList ++ dressing.after ++ dressing.ending)

def decoration (dressing : Dressing) : Decoration where
  stamp := dressing.stamp
  hash := dressing.hash
  isStamp := by
    refine dressing.stamps.imp_right fun fills => ?_
    exact (afterSlots?_eq_some_iff _ _ _).mpr ⟨dressing.stamp, fills, by simp⟩

theorem toList_around (dressing : Dressing) (text : String) :
    (dressing.around text).toList = dressing.decoration.text ++
      (dressing.before ++ text.toList ++ (dressing.after ++ dressing.ending)) := by
  rw [around, String.toList_ofList]
  change _ = (dressing.stamp ++ if dressing.hash then ['#'] else []) ++ _
  simp only [List.append_assoc]

theorem allBlank_behind (dressing : Dressing) : AllBlank (dressing.after ++ dressing.ending) := by
  intro char member
  rcases List.mem_append.mp member with among | last
  · exact dressing.blankAfter char among
  · apply isBlank_of_isLineEnd
    rcases dressing.ends char last with rfl | rfl <;> decide

/-- Without a `#` the text has to show that it is not part of the layer. -/
theorem normalize_around (dressing : Dressing) {text : String} (trimmed : IsTrimmed text.toList)
    (clear : dressing.hash = true ∨ IsPlain text.toList) :
    normalize (dressing.around text) = text := by
  have bare : dressing.decoration.hash = false →
      IsBare (dressing.before ++ text.toList ++ (dressing.after ++ dressing.ending)) := by
    intro hashless
    rcases clear with hash | plain
    · exact absurd (hash.symm.trans hashless) (by decide)
    · rw [List.append_assoc]
      exact (plain.append_blank dressing.allBlank_behind).isBare.blank_append dressing.blankBefore
  rw [normalize, toList_around, normalChars_decorated _ bare,
    trimmed.pad dressing.blankBefore dressing.allBlank_behind, String.ofList_toList]

/-- No dressing at all. -/
def bare : Dressing where
  stamps := .inl rfl
  blankBefore := by simp [AllBlank]
  blankAfter := by simp [AllBlank]
  ends := by simp

theorem around_bare (text : String) : bare.around text = text := by
  simp [around, bare]

/-- A dressed text with a `#` in front is undone whatever the trimmed text is, and so is any
dressing of a text that does not begin like a layer. A scanner in any state reports the same on such
texts as on the lines that they become, and ends in the same state. -/
theorem normalize_undresses :
    (∀ (dressing : Dressing) (text : String), IsTrimmed text.toList → dressing.hash = true →
      normalize (dressing.around text) = text) ∧
    (∀ (dressing : Dressing) (text : String), IsTrimmed text.toList → IsUnmarked text.toList →
      normalize (dressing.around text) = text) ∧
    ∀ lines : List (Dressing × String),
      (∀ line ∈ lines, IsTrimmed line.2.toList ∧ IsUnmarked line.2.toList) →
      ∀ window : Window,
        window.takeAll (lines.map fun line => .raw (line.1.around line.2)) =
            window.takeAll (lines.map fun line => .raw line.2) ∧
          window.takeAll (lines.map fun line => .raw (line.1.around line.2)) =
            window.takeAll (lines.map fun line => .normal line.2) := by
  refine ⟨?_, ?_, ?_⟩
  · intro dressing text trimmed hash
    exact dressing.normalize_around trimmed (.inl hash)
  · intro dressing text trimmed unmarked
    exact dressing.normalize_around trimmed (.inr unmarked.isPlain)
  · intro lines sound window
    -- All three streams hand the same texts to the scanner.
    have dressed : (lines.map fun line => Feeding.raw (line.1.around line.2)).map Feeding.text =
        lines.map Prod.snd := by
      rw [List.map_map]
      refine List.map_congr_left fun line member => ?_
      obtain ⟨trimmed, unmarked⟩ := sound line member
      exact line.1.normalize_around trimmed (.inr unmarked.isPlain)
    have undressed : (lines.map fun line => Feeding.raw line.2).map Feeding.text =
        lines.map Prod.snd := by
      rw [List.map_map]
      refine List.map_congr_left fun line member => ?_
      obtain ⟨trimmed, unmarked⟩ := sound line member
      have same := bare.normalize_around trimmed (.inr unmarked.isPlain)
      rwa [around_bare] at same
    have normal : (lines.map fun line => Feeding.normal line.2).map Feeding.text =
        lines.map Prod.snd := by
      rw [List.map_map]
      rfl
    rw [Window.takeAll_eq, Window.takeAll_eq, Window.takeAll_eq, dressed, undressed, normal]
    exact ⟨rfl, rfl⟩

example : normalize "2024-01-01 00:00:00,100 # #\t2024-01-02 00:00:00,200 # 1;2 \r\n" =
    "2024-01-02 00:00:00,200 # 1;2" := by decide

end Dressing

end BoardBench.Console
